import GuffSuff.ReadCommitted.Reads
import GuffSuff.SecurityAlerts

/-! `AccountService.getSecurityEvents` beside the calls of the backend: what a
user is shown of the alerts, and for how long. -/

namespace GuffSuff

open ReadCommitted SessionService DeviceService

namespace Alerts

/-- The columns of `getSecurityEvents`. -/
structure AlertRow where
  id : Uuid
  eventType : SecurityEventType
  severity : Severity
  userDescriptionKey : String
  deviceContextJson : JsonObject
  isRead : Bool
  createdAt : Nat
  deriving DecidableEq, Repr

/-- `is_read` has its default, which no statement changes. -/
def alertRow (e : SecurityEvent) : AlertRow :=
  { id := e.id, eventType := e.eventType, severity := e.severity,
    userDescriptionKey := e.userDescriptionKey, deviceContextJson := e.deviceContextJson,
    isRead := false, createdAt := e.createdAt }

inductive Query where
  | getSecurityEvents (userId : Uuid)
  deriving DecidableEq

abbrev Reply := List AlertRow

def feedLimit : Nat := 50

def alertsOf (db : Db) (userId : Uuid) : List SecurityEvent :=
  db.securityEvents.filter fun e => e.userId = userId

def rowsInOrder (db : Db) (ids : List Uuid) : List SecurityEvent := ids.filterMap (lookup db.securityEvents)

/-- `ORDER BY created_at DESC`; alerts of the same time come in any order. -/
def newestFirst (rows : List SecurityEvent) : Bool :=
  decide (rows.Pairwise fun a b => b.createdAt ≤ a.createdAt)

namespace Query

def accept : Query → Db → List Uuid → Bool
  | getSecurityEvents userId, db, ids =>
    (rowsInOrder db ids).isPerm (alertsOf db userId) && newestFirst (rowsInOrder db ids)

def reply : Query → Db → List Uuid → Reply
  | getSecurityEvents _, db, ids => ((rowsInOrder db ids).take feedLimit).map alertRow

end Query

def feedQueries : Queries Db Uuid Query Reply := ⟨Query.accept, Query.reply⟩

/-- Up to fifty of the user's alerts, the newest in front; whatever is left out is
no newer than each of the fifty that are shown. -/
structure Feed (db : Db) (user : Uuid) (rows : List AlertRow) : Prop where
  bounded : rows.length ≤ feedLimit
  own : ∀ row ∈ rows, ∃ e ∈ db.securityEvents, e.userId = user ∧ alertRow e = row
  newest : rows.Pairwise fun a b => b.createdAt ≤ a.createdAt
  complete : ∀ e ∈ db.securityEvents, e.userId = user → alertRow e ∈ rows ∨
    (rows.length = feedLimit ∧ ∀ row ∈ rows, e.createdAt ≤ row.createdAt)

theorem mem_take_or {α : Type} {R : α → α → Prop} {l : List α} (h : l.Pairwise R) (n : Nat) {x : α}
    (hx : x ∈ l) : x ∈ l.take n ∨ ((l.take n).length = n ∧ ∀ y ∈ l.take n, R y x) := by
  have hsplit : l.take n ++ l.drop n = l := List.take_append_drop n l
  rw [← hsplit] at hx h
  rcases List.mem_append.mp hx with hx | hx
  · exact .inl hx
  · refine .inr ⟨List.length_take_of_le ?_, fun y hy => (List.pairwise_append.mp h).2.2 y hy x hx⟩
    have hpos := List.length_pos_of_mem hx
    rw [List.length_drop] at hpos
    omega

theorem feed_of_replies {db : Db} {user : Uuid} {rows : List AlertRow}
    (h : feedQueries.Replies (.getSecurityEvents user) db rows) : Feed db user rows := by
  obtain ⟨ids, hids, rfl⟩ := h
  obtain ⟨hperm, hnewest⟩ := Bool.and_eq_true_iff.mp hids
  have hmem : ∀ e, e ∈ rowsInOrder db ids ↔ e ∈ db.securityEvents ∧ e.userId = user := by
    intro e
    rw [(List.isPerm_iff.mp hperm).mem_iff]
    simp [alertsOf]
  have hsorted := of_decide_eq_true hnewest
  constructor
  case bounded => simp [feedQueries, Query.reply]
  case own =>
    intro row hrow
    obtain ⟨e, he, rfl⟩ := List.mem_map.mp hrow
    obtain ⟨hin, huser⟩ := (hmem e).mp (List.mem_of_mem_take he)
    exact ⟨e, hin, huser, rfl⟩
  case newest => exact List.pairwise_map.mpr (hsorted.sublist (List.take_sublist _ _))
  case complete =>
    intro e he huser
    obtain hin | ⟨hlen, hall⟩ := mem_take_or hsorted feedLimit ((hmem e).mpr ⟨he, huser⟩)
    · exact .inl (List.mem_map_of_mem hin)
    · refine .inr ⟨(List.length_map _).trans hlen, fun row hrow => ?_⟩
      obtain ⟨e', he', rfl⟩ := List.mem_map.mp hrow
      exact hall e' he'

def raised : Event → List SecurityEvent
  | .reuseDetected _ old family _ _ eventId _ _ startedAt => [reuseEvent eventId old family startedAt]
  | .deviceRevoked user device reason deviceName _ _ _ eventId _ _ now =>
    [revokedEvent eventId user device deviceName reason now]
  | _ => []

section
variable {pf : Platform} {db : Db}

theorem alerts_apply (w : Write) (db : Db) : db.securityEvents ⊆ (w.apply db).securityEvents := by
  cases w with
  | insertSecurityEvent e => exact List.subset_append_left _ _
  | _ => exact List.Subset.refl _

theorem alerts_applyAll (ws : List Write) (db : Db) :
    db.securityEvents ⊆ (applyAll ws db).securityEvents := by
  induction ws generalizing db with
  | nil => exact List.Subset.refl _
  | cons w ws ih => exact List.Subset.trans (alerts_apply w db) (ih (w.apply db))

theorem raised_applyAll {e : Event} {x : SecurityEvent} (hx : x ∈ raised e) :
    x ∈ (applyAll (e.writes pf) db).securityEvents := by
  cases e with
  | reuseDetected raw old family tokens sessions eventId checkedAt now startedAt =>
    obtain rfl := List.mem_singleton.mp hx
    simp [Event.writes, Write.apply]
  | deviceRevoked user device reason deviceName sessions families tokens eventId auditId correlationId now =>
    obtain rfl := List.mem_singleton.mp hx
    simp [Event.writes, Write.apply]
  | _ => exact absurd hx List.not_mem_nil

theorem alerts_later {v w : World Db} (h : (backend pf).Later v w) :
    v.db.securityEvents ⊆ w.db.securityEvents := by
  obtain ⟨_, h⟩ := h
  refine h.keeps (P := fun _ db => v.db.securityEvents ⊆ db.securityEvents) (fun _ _ _ h _ => h) ?_
    (List.Subset.refl _)
  intro _ db e _ h hm
  rw [hm.2]
  exact List.Subset.trans h (alerts_applyAll _ db)

end

abbrev Request := Queries.Request Call Query
abbrev Answer := Queries.Answer GuffSuff.Answer Reply
abbrev Log := Queries.Entry Event Query Reply
abbrev Server := ReadCommitted.Server Db Key Uuid Log Answer Request
abbrev Choice := ReadCommitted.Choice Uuid Request

def serve (pf : Platform) (fk : FkCheck) (s : Server) (sched : List Choice) : Server :=
  s.run (feedQueries.program (Call.program pf fk)) (Queries.aborted Call.aborted) sched

abbrev SoundRun (pf : Platform) (fk : FkCheck) (w₀ : World Db) (s : Server) : Prop :=
  ReadCommitted.Server.Sound (feedQueries.spec (backend pf))
    (Queries.contract Call.aborted (Call.faultyContract pf fk)) w₀ s

section
variable {pf : Platform} {fk : FkCheck} {w₀ : World Db} {s : Server} {p : Nat}

theorem keeps_faulty (pf : Platform) (fk : FkCheck) :
    Queries.Keep (backend pf) (Call.program pf fk) (Call.faultyContract pf fk) :=
  fun c _ h => ⟨c.contract_start, c.safe_faulty h⟩

theorem soundRun {db : Db} {clock : Nat} {used : List Uuid} (hdb : db.Initial)
    (hused : ∀ x ∈ db.ids, x ∈ used) (sched : List Choice) :
    SoundRun pf fk ⟨clock, db⟩ (serve pf fk (.boot db clock used) sched) :=
  ReadCommitted.Server.Sound.run (ReadCommitted.Server.sound_boot hdb.holds hused)
    fun ch _ => feedQueries.covers (keeps_faulty pf fk) ch

theorem SoundRun.raised (h : SoundRun pf fk w₀ s) (hi : w₀.db.Holds) {e : Event}
    (he : (p, .base e) ∈ s.log) {x : SecurityEvent} (hx : x ∈ raised e) : x ∈ s.db.securityEvents := by
  obtain ⟨c, db, db', _, _, ⟨_, hdb'⟩, hlater⟩ := h.entry hi he
  refine alerts_later (v := ⟨c, db'⟩) (feedQueries.later_base hlater) ?_
  rw [hdb']
  exact raised_applyAll hx

/-- A feed that is asked for later shows the alert, or fifty that are at least as new. -/
def ShownLater (s s' : Server) (x : SecurityEvent) : Prop :=
  ∀ q, s.procs q = none → ∀ rows, s'.Returned q (.ask (.getSecurityEvents x.userId)) (.reply rows) →
    alertRow x ∈ rows ∨ (rows.length = feedLimit ∧ ∀ row ∈ rows, x.createdAt ≤ row.createdAt)

theorem SoundRun.shown (h : SoundRun pf fk w₀ s) {x : SecurityEvent} (hx : x ∈ s.db.securityEvents)
    (sched : List Choice) : ShownLater s (serve pf fk s sched) x := by
  intro q hq rows hret
  obtain ⟨c, db, _, hlater, hreply⟩ := feedQueries.reply_later (keeps_faulty pf fk) h hq hret
  exact (feed_of_replies hreply).complete x (alerts_later hlater hx) rfl

variable (pf fk s p) in
/-- The call of process `p` has stored the alert, which later feeds of its owner show. -/
structure Raises (x : SecurityEvent) : Prop where
  entry : ∃ e, (p, .base e) ∈ s.log ∧ x ∈ Alerts.raised e
  stored : x ∈ s.db.securityEvents
  shown : ∀ sched, ShownLater s (serve pf fk s sched) x

theorem SoundRun.raises (h : SoundRun pf fk w₀ s) (hi : w₀.db.Holds) {e : Event}
    (he : (p, .base e) ∈ s.log) {x : SecurityEvent} (hx : x ∈ Alerts.raised e) : Raises pf fk s p x where
  entry := ⟨e, he, hx⟩
  stored := h.raised hi he hx
  shown := h.shown (h.raised hi he hx)

theorem SoundRun.grown (h : SoundRun pf fk w₀ s) (hi : w₀.db.Holds) {e : Event}
    (he : (p, .base e) ∈ s.log) : ∃ c db, db.Holds ∧ e.Allowed pf c db ∧ db.Grows s.db := by
  obtain ⟨c, db, db', hdb, _, ⟨ha, rfl⟩, hlater⟩ := h.entry hi he
  have hsince : (applyAll (e.writes pf) db).Grows s.db := grows_of_later (feedQueries.later_base hlater)
  exact ⟨c, db, hdb, ha, (grows_applyAll _ db).trans hsince⟩

theorem SoundRun.presented (h : SoundRun pf fk w₀ s) {raw : RawToken} {r : GuffSuff.Answer}
    (hret : s.Returned p (.base (.rotateRefreshToken raw)) (.base r)) {e : Event}
    (he : (p, .base e) ∈ s.log) : ∃ began, RotationEvent fk raw began e := by
  obtain ⟨pr, c, es, hp, hcall, hmem, _, htrace⟩ := feedQueries.trace_base h he
  obtain ⟨pr', hp', hcall', _⟩ := ReadCommitted.Server.returned_iff.mp hret
  obtain rfl := Option.some.inj (hp.symm.trans hp')
  obtain rfl := Queries.Request.base.inj (hcall.symm.trans hcall')
  exact ⟨_, htrace.2 e hmem⟩

theorem SoundRun.reuse (h : SoundRun pf fk w₀ s) (hi : w₀.db.Holds) {raw : RawToken}
    (hret : s.Returned p (.base (.rotateRefreshToken raw)) (.base (.error reuseAlert))) :
    ∃ f x, f ∈ s.db.refreshTokenFamilies ∧ s.db.TokenOf pf raw f.id ∧ Raises pf fk s p x ∧
      x.reportsReuse f.id = true ∧ x.userId = f.userId ∧ x.deviceId = some f.deviceId := by
  obtain habort | ⟨pr, es, _, hes, hanswer⟩ := feedQueries.returned_base h hret
  · exact absurd habort (by simp [Call.aborted, reuseAlert])
  · obtain habort | hanswer := hanswer
    · exact absurd habort (by simp [Call.aborted, reuseAlert])
    · obtain ⟨e, hmem, hreuse⟩ := hanswer rfl
      have he : (p, .base e) ∈ s.log := ReadCommitted.Server.mem_eventsOf.mp (hes ▸ List.mem_map_of_mem hmem)
      obtain ⟨c, db, hdb, ha, hgrows⟩ := h.grown hi he
      obtain ⟨_, hraw⟩ := h.presented hret he
      cases e with
      | reuseDetected raw' old family tokens sessions eventId checkedAt now startedAt =>
        obtain rfl : raw' = raw := hraw.1
        obtain ⟨f, hf, hgf⟩ := hgrows.families _ _ ha.1.family
        have hid : f.id = old.familyId := lookup_key hf
        have htoken : db.TokenOf pf raw' old.familyId := ⟨old, lookup_mem ha.1.token, ha.1.hash, rfl⟩
        refine ⟨f, _, lookup_mem hf, hid ▸ htoken.grows hdb hgrows,
          h.raises hi he (List.mem_singleton_self _), ?_, hgf.userId.symm, congrArg some hgf.deviceId.symm⟩
        rw [reportsReuse_reuseEvent, hid]
        exact decide_eq_true rfl
      | _ => exact absurd hreuse (by simp [Event.isReuse])

theorem SoundRun.revoked (h : SoundRun pf fk w₀ s) (hi : w₀.db.Holds) {user device : Uuid}
    {reason : String} {v : Value}
    (hret : s.Returned p (.base (.revokeDevice user device reason)) (.base (.ok v))) :
    ∃ d x, d ∈ s.db.devices ∧ d.id = device ∧ d.userId = user ∧ Raises pf fk s p x ∧
      x.reportsDevice device = true ∧ x.userId = d.userId := by
  obtain habort | ⟨pr, es, _, hes, hanswer⟩ := feedQueries.returned_base h hret
  · exact absurd habort (by simp [Call.aborted])
  · obtain habort | hanswer := hanswer
    · exact absurd habort (by simp [Call.aborted])
    · obtain ⟨e, rfl, hevent⟩ := hanswer v rfl
      have he : (p, .base e) ∈ s.log := ReadCommitted.Server.mem_eventsOf.mp (by simp [hes])
      cases e with
      | deviceRevoked u d reason' deviceName sessions families tokens eventId auditId correlationId now =>
        obtain ⟨rfl, rfl, _⟩ := hevent
        obtain ⟨c, db, _, ⟨⟨row, hrow, howner, _⟩, _⟩, hgrows⟩ := h.grown hi he
        obtain ⟨row', hrow', hg⟩ := hgrows.devices _ _ hrow
        have huser : row'.userId = u := hg.userId.trans howner
        refine ⟨row', _, lookup_mem hrow', lookup_key hrow', huser,
          h.raises hi he (List.mem_singleton_self _), ?_, huser.symm⟩
        simp [SecurityEvent.reportsDevice, revokedEvent]
      | _ => exact absurd hevent id

end

/-- What the user hears of a stolen token or a revoked device: each reading is the feed of a moment
between its call and its answer, and once a reuse has been reported or a revocation has succeeded, the
alert that this call stored is in every feed that the owner of the family or the device asks for from
then on, until fifty that are as new push it out. -/
theorem alerts_reach_owner (pf : Platform) (fk : FkCheck) {db : Db} {clock : Nat} {used : List Uuid}
    (hdb : db.Initial) (hused : ∀ x ∈ db.ids, x ∈ used) (sched : List Choice) :
    let s := serve pf fk (.boot db clock used) sched
    (∀ p pr user rows, s.procs p = some pr → s.Returned p (.ask (.getSecurityEvents user)) (.reply rows) →
      ∃ c db', (backend pf).Later pr.began ⟨c, db'⟩ ∧ (backend pf).Later ⟨c, db'⟩ s.world ∧
        Feed db' user rows) ∧
    (∀ p raw, s.Returned p (.base (.rotateRefreshToken raw)) (.base (.error reuseAlert)) →
      ∃ f x, f ∈ s.db.refreshTokenFamilies ∧ s.db.TokenOf pf raw f.id ∧ Raises pf fk s p x ∧
        x.reportsReuse f.id = true ∧ x.userId = f.userId ∧ x.deviceId = some f.deviceId) ∧
    ∀ p user device reason v, s.Returned p (.base (.revokeDevice user device reason)) (.base (.ok v)) →
      ∃ d x, d ∈ s.db.devices ∧ d.id = device ∧ d.userId = user ∧ Raises pf fk s p x ∧
        x.reportsDevice device = true ∧ x.userId = d.userId := by
  intro s
  have hs : SoundRun pf fk ⟨clock, db⟩ s := soundRun hdb hused sched
  refine ⟨fun p pr user rows hp hret => ?_, fun p raw hret => ?_, fun p user device reason v hret => ?_⟩
  · obtain ⟨c, db', _, hsince, huntil, hreply⟩ := feedQueries.reply_current hs hp hret
    exact ⟨c, db', hsince, huntil, feed_of_replies hreply⟩
  · exact hs.reuse hdb.holds hret
  · exact hs.revoked hdb.holds hret

/-- The token of device 3 is replayed late; then user 1 looks at the alerts. -/
def sampleTheft : List Choice := sampleReuse.map Queries.beside

def sampleLook : List Choice := [.call 5 (.ask (.getSecurityEvents 1)), .exec 5 [18]]

def sampleRow : AlertRow :=
  ⟨18, .refreshTokenReuseDetected, .high, "sec_event.refresh_token_reuse", [], false, 10001⟩

theorem sampleTheft_reported :
    let s := serve samplePlatform .atCommit (.boot sampleDb 0 (List.range 10)) sampleTheft
    (serve samplePlatform .atCommit s sampleLook).Returned 5 (.ask (.getSecurityEvents 1))
        (.reply [sampleRow]) ∧
      ∃ x : SecurityEvent, x.eventType = .refreshTokenReuseDetected ∧ x.userId = 1 ∧
        Raises samplePlatform .atCommit s 2 x := by
  intro s
  obtain ⟨f, x, hf, _, hraises, hreport, huser, _⟩ := (@alerts_reach_owner samplePlatform .atCommit sampleDb
    0 (List.range 10) sampleDb_initial (by decide) sampleTheft).2.1 2 12 (by decide +kernel)
  have howner : s.db.refreshTokenFamilies.map RefreshTokenFamily.userId = [1] := by decide +kernel
  have hmem : f.userId ∈ s.db.refreshTokenFamilies.map RefreshTokenFamily.userId := List.mem_map_of_mem hf
  rw [howner] at hmem
  simp only [SecurityEvent.reportsReuse, Bool.and_eq_true, decide_eq_true_eq] at hreport
  exact ⟨by decide +kernel, x, hreport.1, huser.trans (List.mem_singleton.mp hmem), hraises⟩

end Alerts

end GuffSuff
