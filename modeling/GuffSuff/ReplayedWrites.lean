import GuffSuff.ReadCommitted.Replay
import GuffSuff.Services

/-! Every transaction of the backend makes the writes of the event it records,
and no others: the tables are the replay of the log. -/

namespace GuffSuff

open ReadCommitted SessionService DeviceService MessageEnvelopeService TransportProcessor

/-- Whom an entry of the log is made for. -/
inductive Actor where
  | session (id : Uuid)
  | user (id : Uuid)
  deriving DecidableEq

/-- The user, or the session that the user's token is for. -/
def Actor.Is (user : JwtAuthGuard.RequestUser) : Actor → Prop
  | session id => id = user.sessionId
  | .user id => id = user.userId

/-- For whom sessions or devices are revoked. -/
def Event.actor : Event → Option Actor
  | sessionRevoked session .. => some (.session session)
  | userSessionsRevoked user .. | userFamiliesCompromised user .. | userTokensRevoked user ..
  | deviceRevoked user .. => some (.user user)
  | _ => none

def Call.actor : Call → Option Actor
  | revokeSession session => some (.session session)
  | revokeAllSessionsForUser user | revokeDevice user .. => some (.user user)
  | _ => none

/-- The transactions of the program make the writes of their events, all of them for the same actor.
`f` is what the open one has written so far. -/
abbrev Publishes (pf : Platform) (a : Option Actor) (f : Db → Db) (p : Program) : Prop :=
  ReadCommitted.Program.Publishes id (fun e => applyAll (e.writes pf)) (fun e => e.actor = a) f p

section
variable {pf : Platform} {a : Option Actor} {f : Db → Db} {k : Program}

theorem publishes_throw {x : Failure} : Publishes pf a f (throw x) := trivial

theorem publishes_check {c : Prop} [Decidable c] {x : Failure} (hk : Publishes pf a f k) :
    Publishes pf a f (if c then throw x else k) := by
  split
  · exact publishes_throw
  · exact hk

theorem publishes_insertRefreshToken {t : RefreshToken}
    (hk : Publishes pf a (fun db => (Write.insertRefreshToken t).apply (f db)) k) :
    Publishes pf a f (insertRefreshToken t k) := by
  intro _ db
  iterate 4 refine publishes_check ?_
  exact hk

theorem publishes_insertSecurityEvent {e : SecurityEvent}
    (hk : Publishes pf a (fun db => (Write.insertSecurityEvent e).apply (f db)) k) :
    Publishes pf a f (insertSecurityEvent e k) := by
  intro db
  iterate 3 refine publishes_check ?_
  exact hk

theorem publishes_insertRecipient {r : MessageRecipientDevice}
    (hk : Publishes pf a (fun db => (Write.insertMessageRecipientDevice r).apply (f db)) k) :
    Publishes pf a f (insertRecipient r k) := by
  intro _ db
  iterate 4 refine publishes_check ?_
  exact hk

theorem publishes_updateWhere {rows : Db → List Uuid} {key : Uuid → Key} {w : List Uuid → Write}
    {k : List Uuid → Program} (hk : ∀ ids, Publishes pf a (fun db => (w ids).apply (f db)) (k ids)) :
    Publishes pf a f (updateWhere rows key w k) := by
  intro _ ids _
  refine Program.publishes_lockAll ?_ ids
  exact hk ids

theorem publishes_updateAlone {rows : Db → List Uuid} {key : Uuid → Key} {w : List Uuid → Nat → Write}
    {e : List Uuid → Nat → Event} (hactor : ∀ ids now, (e ids now).actor = a)
    (hwrites : ∀ ids now, (e ids now).writes pf = [w ids now])
    (hk : Publishes pf a id k) : Publishes pf a id (updateAlone rows key w e k) := by
  intro now
  refine publishes_updateWhere fun ids => ⟨hactor ids now, fun db => ?_, hk⟩
  show (w ids now).apply db = applyAll ((e ids now).writes pf) db
  rw [hwrites]
  rfl

theorem publishes_createSession (user device : Uuid) :
    Publishes pf none id (createSession pf user device) := by
  intro sessionId familyId now db
  iterate 3 refine publishes_check ?_
  intro db
  iterate 3 refine publishes_check ?_
  intro raw token
  refine publishes_insertRefreshToken ⟨rfl, fun db => rfl, fun signedAt => trivial⟩

theorem publishes_issueTokens (family : RefreshTokenFamily) (raw : RawToken) :
    Publishes pf a id (issueTokens pf family raw) := fun _ _ _ => trivial

theorem publishes_reportReuse (raw : RawToken) (token : RefreshToken) (family : RefreshTokenFamily)
    (checkedAt now startedAt : Nat) :
    Publishes pf none id (reportReuse raw token family checkedAt now startedAt) := by
  intro db
  refine publishes_updateWhere fun tokens => ?_
  refine publishes_updateWhere fun sessions eventId => ?_
  exact publishes_insertSecurityEvent ⟨rfl, fun db => rfl, publishes_throw⟩

theorem publishes_rotate (fk : FkCheck) (raw : RawToken) (token : RefreshToken) (family : RefreshTokenFamily)
    (checkedAt : Nat) : Publishes pf none id (rotate pf fk raw token family checkedAt) := by
  intro newRaw newToken now _ db
  refine publishes_check ?_
  exact publishes_insertRefreshToken ⟨rfl, fun db => rfl, publishes_issueTokens family newRaw⟩

theorem publishes_selectForUpdate {hash : Digest}
    {k : Option (RefreshToken × RefreshTokenFamily) → Program} (hk : ∀ row, Publishes pf a id (k row)) :
    Publishes pf a id (selectForUpdate hash k) := by
  intro db
  dsimp only
  split
  · exact hk none
  · intro _ db
    dsimp only
    split
    · exact hk (some _)
    · exact hk none

theorem publishes_rotateRefreshToken (fk : FkCheck) (raw : RawToken) :
    Publishes pf none id (rotateRefreshToken pf fk raw) := by
  refine fun startedAt => publishes_selectForUpdate fun row => ?_
  split
  · exact publishes_throw
  rename_i token family
  refine fun checkedAt => publishes_check ?_
  split
  · intro now
    dsimp only
    split
    · exact publishes_reportReuse raw token family checkedAt now startedAt
    split
    · intro db
      dsimp only
      split
      · exact ⟨rfl, fun db => rfl, publishes_issueTokens family raw⟩
      · exact publishes_reportReuse raw token family checkedAt now startedAt
    · exact publishes_reportReuse raw token family checkedAt now startedAt
  · exact publishes_rotate fk raw token family checkedAt

theorem publishes_revokeAllSessionsForUser (user : Uuid) :
    Publishes pf (some (.user user)) id (revokeAllSessionsForUser user) := by
  refine publishes_updateAlone (fun _ _ => rfl) (fun _ _ => rfl) ?_
  refine publishes_updateAlone (fun _ _ => rfl) (fun _ _ => rfl) ?_
  exact publishes_updateAlone (fun _ _ => rfl) (fun _ _ => rfl) trivial

theorem eq_of_revocable {user device : Uuid} {db : Db} {found : List Uuid}
    (hfound : exactly (revocableDevices user device) db found = true) {id : Uuid} (hid : id ∈ found) :
    id = device := by
  have hmem := (mem_of_exactly hfound).mp hid
  simp only [revocableDevices, isRevocable, List.mem_map, List.mem_filter, Bool.and_eq_true,
    decide_eq_true_eq] at hmem
  obtain ⟨d, ⟨_, ⟨hd, _⟩, _⟩, rfl⟩ := hmem
  exact hd

/-- Rows chosen by a key that only `id` can have. -/
theorem updateRows_of_forall_eq {Row : Type} [Keyed Row Uuid] {ids : List Uuid} {id : Uuid}
    (hne : ids ≠ []) (hids : ∀ i ∈ ids, i = id) (t : List Row) (f : Row → Row) :
    updateRows t ids f = updateRows t [id] f := by
  refine updateRows_congr f fun i => ?_
  rw [List.mem_singleton]
  constructor
  · exact hids i
  · intro hi
    obtain ⟨j, hj⟩ := List.exists_mem_of_ne_nil ids hne
    have hji : j = i := (hids j hj).trans hi.symm
    exact hji ▸ hj

/-- A revocation writes to the row that it names, if to any. -/
theorem publishes_revokeDevice (user device : Uuid) (reason : String) :
    Publishes pf (some (.user user)) id (revokeDevice user device reason) := by
  intro now db found hfound
  refine Program.publishes_lockEach found [] fun updated hsub db => ?_
  cases updated with
  | nil => exact publishes_throw
  | cons i is =>
    have hall : ∀ id ∈ i :: is, id = device := fun id hid => eq_of_revocable hfound (hsub.subset hid)
    have hrows : ∀ db, (Write.revokeDevices (i :: is) reason now).apply db =
        (Write.revokeDevices [device] reason now).apply db := by
      intro db
      simp only [Write.apply, updateRows_of_forall_eq (List.cons_ne_nil i is) hall]
    dsimp only
    split
    · exact publishes_throw
    rename_i d hd
    refine publishes_updateWhere fun sessions => publishes_updateWhere fun families => ?_
    refine publishes_updateWhere fun tokens eventId => publishes_insertSecurityEvent ?_
    intro auditId correlationId db
    refine publishes_check ⟨rfl, fun db => ?_, trivial⟩
    show _ = applyAll _ db
    simp only [Event.writes, applyAll_cons, applyAll_nil, id, hrows]

theorem publishes_fanOut {envelope : Uuid} {now : Nat} {f : Db → Db}
    {k : List MessageRecipientDevice → Program} (devices : List Uuid) (done : List MessageRecipientDevice)
    (hk : ∀ records, Publishes pf a
      (fun db => applyAll (records.map .insertMessageRecipientDevice) (f db)) (k records)) : Publishes pf a
      (fun db => applyAll (done.map .insertMessageRecipientDevice) (f db))
      (fanOut envelope now done devices k) := by
  induction devices generalizing done with
  | nil => exact hk done
  | cons device devices ih =>
    intro rdId
    have hnext := ih (done ++ [newRecipient rdId envelope device now])
    simp only [List.map_append, applyAll_append, List.map_cons, List.map_nil, applyAll_cons,
      applyAll_nil] at hnext
    exact publishes_insertRecipient hnext

theorem publishes_storeEnvelope (user device : Uuid) (dto : SubmitMessageEnvelope) (recipients : List Uuid) :
    Publishes pf none id (storeEnvelope pf user device dto recipients) := by
  intro envelopeId idempRecordId now
  unfold readTimes
  iterate 2 refine publishes_check ?_
  intro db
  iterate 8 refine publishes_check ?_
  intro _ db
  iterate 5 refine publishes_check ?_
  exact publishes_fanOut recipients [] fun records => ⟨rfl, fun db => rfl, trivial⟩

theorem publishes_submitEnvelope (user device : Uuid) (dto : SubmitMessageEnvelope) :
    Publishes pf none id (submitEnvelope pf user device dto) := by
  intro db
  dsimp only
  split
  · trivial
  intro db
  dsimp only
  split
  · trivial
  split
  · trivial
  split
  · trivial
  refine fun db ids _ => ⟨rfl, fun v => rfl, ?_⟩
  dsimp only
  split
  · unfold answerCached
    split
    · trivial
    · exact fun _ => trivial
  · exact fun _ devices _ => ⟨rfl, fun v => rfl, publishes_storeEnvelope user device dto devices⟩

theorem publishes_acknowledgeDelivery (user device envelope : Uuid) :
    Publishes pf none id (acknowledgeDelivery user device envelope) := by
  intro db
  dsimp only
  split
  · trivial
  split
  · trivial
  intro ackId now _ db
  iterate 3 refine publishes_check ?_
  exact ⟨rfl, fun db => rfl, trivial⟩

theorem publishes_retryEach (ids : List Uuid) : Publishes pf none id (retryEach ids (.ret (.ok .unit))) := by
  induction ids with
  | nil => trivial
  | cons i ids ih => exact fun now _ => ⟨rfl, fun db => rfl, ih⟩

theorem Call.publishes (pf : Platform) (fk : FkCheck) (c : Call) :
    Publishes pf c.actor id (c.program pf fk) := by
  cases c with
  | createSession user device => exact publishes_createSession user device
  | rotateRefreshToken raw => exact publishes_rotateRefreshToken fk raw
  | revokeSession session => exact publishes_updateAlone (fun _ _ => rfl) (fun _ _ => rfl) trivial
  | revokeAllSessionsForUser user => exact publishes_revokeAllSessionsForUser user
  | revokeDevice user device reason => exact publishes_revokeDevice user device reason
  | submitEnvelope user device dto => exact publishes_submitEnvelope user device dto
  | acknowledgeDelivery user device envelope => exact publishes_acknowledgeDelivery user device envelope
  | processOfflineMessageRetries => exact fun now db ids _ => ⟨rfl, fun v => rfl, publishes_retryEach ids⟩
  | processExpiredEnvelopeCleanup =>
    intro now db found _
    exact Program.publishes_lockEach found [] fun ids _ => ⟨rfl, fun db => rfl, trivial⟩

end

end GuffSuff
