import GuffSuff.Services

/-! Only a revocation changes a device or writes to the audit trail: whatever
its own statements leave alone, all the other calls of the backend keep. -/

namespace GuffSuff

open ReadCommitted SessionService MessageEnvelopeService TransportProcessor

/-- The statements that only `revokeDevice` makes. -/
def Write.isRevocation : Write → Bool
  | revokeDevices .. | insertAuditEvent .. => true
  | _ => false

def Event.isRevocation : Event → Bool
  | deviceRevoked .. => true
  | _ => false

def Call.isRevocation : Call → Bool
  | revokeDevice .. => true
  | _ => false

section
variable {R : Db → Db → Prop} {E : Event → Prop} {k : Program}

theorem unrevoked_throw {x : Failure} : (throw x).Keeps R E := trivial

theorem unrevoked_check {c : Prop} [Decidable c] {x : Failure} (hk : k.Keeps R E) :
    (if c then throw x else k).Keeps R E := by
  split
  · exact unrevoked_throw
  · exact hk

theorem unrevoked_lockAll {key : Uuid → Key} (hk : k.Keeps R E) (ids : List Uuid) :
    (Program.lockAll key ids k).Keeps R E := by
  induction ids with
  | nil => exact hk
  | cons i ids ih => exact fun _ => ih

theorem unrevoked_lockEach {key : Uuid → Key} {still : Uuid → Db → Bool} {k : List Uuid → Program}
    (hk : ∀ ids, (k ids).Keeps R E) (ids kept : List Uuid) :
    (Program.lockEach key still kept ids k).Keeps R E := by
  induction ids generalizing kept with
  | nil => exact hk kept
  | cons i ids ih => exact fun _ => ih _

variable (hR : ∀ w : Write, w.isRevocation = false → ∀ db, R db (w.apply db))
include hR

theorem unrevoked_insertSession {s : Session} (hk : k.Keeps R E) : (insertSession s k).Keeps R E := by
  intro db
  iterate 3 refine unrevoked_check ?_
  exact ⟨hR _ rfl, hk⟩

theorem unrevoked_insertFamily {f : RefreshTokenFamily} (hk : k.Keeps R E) :
    (insertFamily f k).Keeps R E := by
  intro db
  iterate 3 refine unrevoked_check ?_
  exact ⟨hR _ rfl, hk⟩

theorem unrevoked_insertRefreshToken {t : RefreshToken} (hk : k.Keeps R E) :
    (insertRefreshToken t k).Keeps R E := by
  intro _ db
  iterate 4 refine unrevoked_check ?_
  exact ⟨hR _ rfl, hk⟩

theorem unrevoked_insertSecurityEvent {e : SecurityEvent} (hk : k.Keeps R E) :
    (insertSecurityEvent e k).Keeps R E := by
  intro db
  iterate 3 refine unrevoked_check ?_
  exact ⟨hR _ rfl, hk⟩

theorem unrevoked_insertEnvelope {e : MessageEnvelope} (hk : k.Keeps R E) :
    (insertEnvelope e k).Keeps R E := by
  intro db
  iterate 8 refine unrevoked_check ?_
  exact ⟨hR _ rfl, hk⟩

theorem unrevoked_insertIdempotencyKey {r : MessageIdempotencyKey} (hk : k.Keeps R E) :
    (insertIdempotencyKey r k).Keeps R E := by
  intro _ db
  iterate 5 refine unrevoked_check ?_
  exact ⟨hR _ rfl, hk⟩

theorem unrevoked_insertRecipient {r : MessageRecipientDevice} (hk : k.Keeps R E) :
    (insertRecipient r k).Keeps R E := by
  intro _ db
  iterate 4 refine unrevoked_check ?_
  exact ⟨hR _ rfl, hk⟩

theorem unrevoked_insertAcknowledgement {a : MessageAcknowledgement} (hk : k.Keeps R E) :
    (insertAcknowledgement a k).Keeps R E := by
  intro db
  iterate 3 refine unrevoked_check ?_
  exact ⟨hR _ rfl, hk⟩

theorem unrevoked_fanOut {envelope : Uuid} {now : Nat} {k : List MessageRecipientDevice → Program}
    (hk : ∀ records, (k records).Keeps R E) (devices : List Uuid) (done : List MessageRecipientDevice) :
    (fanOut envelope now done devices k).Keeps R E := by
  induction devices generalizing done with
  | nil => exact hk done
  | cons device devices ih => exact fun rdId => unrevoked_insertRecipient hR (ih _)

theorem unrevoked_updateWhere {rows : Db → List Uuid} {key : Uuid → Key} {w : List Uuid → Write}
    {k : List Uuid → Program} (hw : ∀ ids, (w ids).isRevocation = false) (hk : ∀ ids, (k ids).Keeps R E) :
    (updateWhere rows key w k).Keeps R E := by
  intro ids
  exact unrevoked_lockAll (k := .write (w ids).apply (k ids)) ⟨hR _ (hw ids), hk ids⟩ ids

theorem unrevoked_updateAlone {rows : Db → List Uuid} {key : Uuid → Key} {w : List Uuid → Nat → Write}
    {e : List Uuid → Nat → Event} (hw : ∀ ids now, (w ids now).isRevocation = false)
    (he : ∀ ids now, E (e ids now)) (hk : k.Keeps R E) : (updateAlone rows key w e k).Keeps R E :=
  fun now => unrevoked_updateWhere hR (hw · now) fun ids => ⟨he ids now, hk⟩

theorem unrevoked_retryEach (hE : ∀ e : Event, e.isRevocation = false → E e) (hk : k.Keeps R E)
    (ids : List Uuid) : (retryEach ids k).Keeps R E := by
  induction ids with
  | nil => exact hk
  | cons id ids ih => exact fun now db => ⟨hR _ rfl, hE _ rfl, ih⟩

variable (hE : ∀ e : Event, e.isRevocation = false → E e)
include hE

theorem unrevoked_createSession (pf : Platform) (user device : Uuid) :
    (createSession pf user device).Keeps R E := by
  intro sessionId familyId now
  refine unrevoked_insertSession hR (unrevoked_insertFamily hR fun raw token => ?_)
  exact unrevoked_insertRefreshToken hR ⟨hE _ rfl, fun _ => trivial⟩

omit hR hE in
theorem unrevoked_issueTokens (pf : Platform) (family : RefreshTokenFamily) (raw : RawToken) :
    (issueTokens pf family raw).Keeps R E := fun _ _ _ => trivial

theorem unrevoked_reportReuse (raw : RawToken) (token : RefreshToken) (family : RefreshTokenFamily)
    (checkedAt now startedAt : Nat) :
    (reportReuse raw token family checkedAt now startedAt).Keeps R E := by
  refine fun db => ⟨hR _ rfl, unrevoked_updateWhere hR (fun _ => rfl) fun tokens => ?_⟩
  refine unrevoked_updateWhere hR (fun _ => rfl) fun sessions eventId => ?_
  exact unrevoked_insertSecurityEvent hR ⟨hE _ rfl, unrevoked_throw⟩

theorem unrevoked_rotate (pf : Platform) (fk : FkCheck) (raw : RawToken) (token : RefreshToken)
    (family : RefreshTokenFamily) (checkedAt : Nat) :
    (rotate pf fk raw token family checkedAt).Keeps R E := by
  refine fun newRaw newToken now _ => ⟨hR _ rfl, fun db => unrevoked_check ?_⟩
  exact unrevoked_insertRefreshToken hR ⟨hE _ rfl, unrevoked_issueTokens pf family newRaw⟩

omit hR hE in
theorem unrevoked_selectForUpdate {hash : Digest}
    {k : Option (RefreshToken × RefreshTokenFamily) → Program} (hk : ∀ row, (k row).Keeps R E) :
    (selectForUpdate hash k).Keeps R E := by
  intro db
  dsimp only
  split
  · exact hk none
  · intro _ db
    dsimp only
    split
    · exact hk (some _)
    · exact hk none

theorem unrevoked_rotateRefreshToken (pf : Platform) (fk : FkCheck) (raw : RawToken) :
    (rotateRefreshToken pf fk raw).Keeps R E := by
  refine fun startedAt => unrevoked_selectForUpdate fun row => ?_
  split
  · exact unrevoked_throw
  rename_i token family
  refine fun checkedAt => unrevoked_check ?_
  split
  · intro now
    dsimp only
    split
    · exact unrevoked_reportReuse hR hE raw token family checkedAt now startedAt
    split
    · intro db
      dsimp only
      split
      · exact ⟨hE _ rfl, unrevoked_issueTokens pf family raw⟩
      · exact unrevoked_reportReuse hR hE raw token family checkedAt now startedAt
    · exact unrevoked_reportReuse hR hE raw token family checkedAt now startedAt
  · exact unrevoked_rotate hR hE pf fk raw token family checkedAt

theorem unrevoked_revokeAllSessionsForUser (user : Uuid) : (revokeAllSessionsForUser user).Keeps R E := by
  refine unrevoked_updateAlone hR (fun _ _ => rfl) (fun _ _ => hE _ rfl) ?_
  refine unrevoked_updateAlone hR (fun _ _ => rfl) (fun _ _ => hE _ rfl) ?_
  exact unrevoked_updateAlone hR (fun _ _ => rfl) (fun _ _ => hE _ rfl) trivial

theorem unrevoked_storeEnvelope (pf : Platform) (user device : Uuid) (dto : SubmitMessageEnvelope)
    (recipients : List Uuid) : (storeEnvelope pf user device dto recipients).Keeps R E := by
  intro envelopeId idempRecordId now
  unfold readTimes
  iterate 2 refine unrevoked_check ?_
  refine unrevoked_insertEnvelope hR (unrevoked_insertIdempotencyKey hR ?_)
  refine unrevoked_fanOut hR (fun records => ?_) recipients []
  exact ⟨hE _ rfl, trivial⟩

theorem unrevoked_submitEnvelope (pf : Platform) (user device : Uuid) (dto : SubmitMessageEnvelope) :
    (submitEnvelope pf user device dto).Keeps R E := by
  intro db
  dsimp only
  split
  · trivial
  intro db
  dsimp only
  split
  · trivial
  split
  · trivial
  split
  · trivial
  refine fun db _ => ⟨hE _ rfl, ?_⟩
  dsimp only
  split
  · unfold answerCached
    split
    · trivial
    · exact fun _ => trivial
  · exact fun _ devices => ⟨hE _ rfl, unrevoked_storeEnvelope hR hE pf user device dto devices⟩

theorem unrevoked_acknowledgeDelivery (user device envelope : Uuid) :
    (acknowledgeDelivery user device envelope).Keeps R E := by
  intro db
  dsimp only
  split
  · trivial
  split
  · trivial
  refine fun ackId now _ => ⟨hR _ rfl, ?_⟩
  exact unrevoked_insertAcknowledgement hR ⟨hE _ rfl, trivial⟩

/-- Whatever the statements and events of the other calls keep to, those calls keep to. -/
theorem Call.unrevoked (pf : Platform) (fk : FkCheck) {c : Call} (hc : c.isRevocation = false) :
    (c.program pf fk).Keeps R E := by
  cases c with
  | createSession user device => exact unrevoked_createSession hR hE pf user device
  | rotateRefreshToken raw => exact unrevoked_rotateRefreshToken hR hE pf fk raw
  | revokeSession session =>
    exact unrevoked_updateAlone hR (fun _ _ => rfl) (fun _ _ => hE _ rfl) trivial
  | revokeAllSessionsForUser user => exact unrevoked_revokeAllSessionsForUser hR hE user
  | revokeDevice user device reason => exact absurd hc (by simp [Call.isRevocation])
  | submitEnvelope user device dto => exact unrevoked_submitEnvelope hR hE pf user device dto
  | acknowledgeDelivery user device envelope => exact unrevoked_acknowledgeDelivery hR hE user device envelope
  | processOfflineMessageRetries =>
    refine fun now db ids => ⟨hE _ rfl, unrevoked_retryEach hR hE ?_ ids⟩
    trivial
  | processExpiredEnvelopeCleanup =>
    refine fun now found => unrevoked_lockEach (fun ids => ?_) found []
    exact ⟨hR _ rfl, hE _ rfl, trivial⟩

end

end GuffSuff
