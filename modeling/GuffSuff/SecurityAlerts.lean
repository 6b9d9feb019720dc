import GuffSuff.ReadCommitted.Aftermath
import GuffSuff.Revocation
import GuffSuff.RevokedDevices
import GuffSuff.TokenFamilies

/-! What the user is told of a stolen token or a revoked device: one security
event for each, however often the token is replayed or the device revoked. -/

namespace GuffSuff

open ReadCommitted SessionService DeviceService
open ReadCommitted.Server (eventsOf)

def SecurityEvent.reportsReuse (family : Uuid) (e : SecurityEvent) : Bool :=
  e.eventType = .refreshTokenReuseDetected && ("familyId", .uuid family) ∈ e.internalMetadataJson

def SecurityEvent.reportsDevice (device : Uuid) (e : SecurityEvent) : Bool :=
  e.eventType = .deviceRevoked && e.deviceId = some device

def AuditEvent.reportsDevice (device : Uuid) (e : AuditEvent) : Bool :=
  e.action = "device_revoked" && e.targetType = "device" && e.targetId = device

def Event.reportsReuse (family : Uuid) : Event → Bool
  | reuseDetected _ old _ _ _ _ _ _ _ => old.familyId = family
  | _ => false

namespace Db

def reuseEvents (db : Db) (family : Uuid) : Nat := db.securityEvents.countP (·.reportsReuse family)

def revocationEvents (db : Db) (device : Uuid) : Nat := db.securityEvents.countP (·.reportsDevice device)

def revocationAudits (db : Db) (device : Uuid) : Nat := db.auditEvents.countP (·.reportsDevice device)

/-- No device is revoked, and nothing has been reported yet. -/
structure Unreported (db : Db) : Prop where
  reuse : ∀ family, db.reuseEvents family = 0
  events : ∀ device, db.revocationEvents device = 0
  audits : ∀ device, db.revocationAudits device = 0
  devices : ∀ d ∈ db.devices, d.isRevoked = false

/-- The reports in the tables are those of the events, one for each family and each device. -/
structure Reported (es : List Event) (db : Db) : Prop where
  reuse : ∀ family, db.reuseEvents family = es.countP (·.reportsReuse family)
  once : ∀ family, db.reuseEvents family ≤ 1
  barred : ∀ family, 0 < db.reuseEvents family → db.Barred family
  events : ∀ d ∈ db.devices, db.revocationEvents d.id = if d.isRevoked then 1 else 0
  audits : ∀ d ∈ db.devices, db.revocationAudits d.id = if d.isRevoked then 1 else 0

end Db

def Write.silent : Write → Bool
  | insertSecurityEvent _ | insertAuditEvent _ | revokeDevices _ _ _ => false
  | _ => true

section
variable {pf : Platform} {fk : FkCheck} {db : Db} {es : List Event}

theorem applyAll_silent {ws : List Write} (h : ∀ w ∈ ws, w.silent = true) (db : Db) :
    (applyAll ws db).securityEvents = db.securityEvents ∧ (applyAll ws db).auditEvents = db.auditEvents ∧
      (applyAll ws db).devices = db.devices := by
  induction ws generalizing db with
  | nil => exact ⟨rfl, rfl, rfl⟩
  | cons w ws ih =>
    have hw := h w List.mem_cons_self
    obtain ⟨hs, ha, hd⟩ := ih (fun v hv => h v (List.mem_cons_of_mem w hv)) (w.apply db)
    rw [applyAll_cons, hs, ha, hd]
    cases w with
    | insertSecurityEvent | insertAuditEvent | revokeDevices => exact absurd hw (by simp [Write.silent])
    | _ => exact ⟨rfl, rfl, rfl⟩

theorem Db.Unreported.reported (h : db.Unreported) : db.Reported [] where
  reuse family := by rw [h.reuse family, List.countP_nil]
  once family := by simp [h.reuse family]
  barred family hpos := by simp [h.reuse family] at hpos
  events d hd := by simp [h.events, h.devices d hd]
  audits d hd := by simp [h.audits, h.devices d hd]

theorem Db.Reported.silent (h : db.Reported es) {e : Event} (hw : ∀ w ∈ e.writes pf, w.silent = true)
    (he : ∀ family, e.reportsReuse family = false) : (applyAll (e.writes pf) db).Reported (es ++ [e]) := by
  obtain ⟨hsec, haud, hdev⟩ := applyAll_silent hw db
  have hcount : ∀ family, (es ++ [e]).countP (·.reportsReuse family) = es.countP (·.reportsReuse family) := by
    intro family
    simp [List.countP_append, he family]
  constructor
  · intro family
    rw [hcount, ← h.reuse, reuseEvents, hsec, reuseEvents]
  · intro family
    rw [reuseEvents, hsec]
    exact h.once family
  · intro family hpos
    rw [reuseEvents, hsec] at hpos
    exact (h.barred family hpos).grows (grows_applyAll _ db)
  · intro d hd
    rw [hdev] at hd
    rw [revocationEvents, hsec]
    exact h.events d hd
  · intro d hd
    rw [hdev] at hd
    rw [revocationAudits, haud]
    exact h.audits d hd

theorem reportsReuse_reuseEvent (eventId : Uuid) (old : RefreshToken) (rf : RefreshTokenFamily) (now : Nat)
    (family : Uuid) :
    (reuseEvent eventId old rf now).reportsReuse family = decide (old.familyId = family) := by
  simp [SecurityEvent.reportsReuse, reuseEvent, eq_comm]

/-- A family that is reported is not compromised yet, so this is its first report. -/
theorem Db.Reported.reuseDetected (h : db.Reported es) {raw : RawToken} {old : RefreshToken}
    {rf : RefreshTokenFamily} {tokens sessions : List Uuid} {eventId : Uuid} {checkedAt now startedAt : Nat}
    (hp : db.Presents pf raw old rf checkedAt) :
    (applyAll ((Event.reuseDetected raw old rf tokens sessions eventId checkedAt now startedAt).writes pf)
      db).Reported (es ++ [.reuseDetected raw old rf tokens sessions eventId checkedAt now startedAt]) := by
  have hreuse : ∀ family, (applyAll ((Event.reuseDetected raw old rf tokens sessions eventId checkedAt now
      startedAt).writes pf) db).reuseEvents family =
        db.reuseEvents family + if old.familyId = family then 1 else 0 := by
    intro family
    simp [reuseEvents, Event.writes, Write.apply, List.countP_append, List.countP_singleton,
      reportsReuse_reuseEvent]
  have hnew : db.reuseEvents old.familyId = 0 :=
    Nat.eq_zero_of_not_pos fun hpos => hp.not_barred (h.barred _ hpos)
  have hbarred : (applyAll ((Event.reuseDetected raw old rf tokens sessions eventId checkedAt now
      startedAt).writes pf) db).Barred old.familyId := by
    have hw : .compromiseFamilies [rf.id] startedAt ∈ (Event.reuseDetected raw old rf tokens sessions
        eventId checkedAt now startedAt).writes pf := by simp [Event.writes]
    refine Db.barred_of_mem hw ?_ (mem_keys_of_lookup hp.family)
    rw [List.mem_singleton]
    exact (lookup_key hp.family).symm
  constructor
  · intro family
    rw [hreuse, h.reuse, List.countP_append, List.countP_singleton]
    simp [Event.reportsReuse]
  · intro family
    rw [hreuse]
    by_cases hf : old.familyId = family
    · rw [← hf, hnew]
      simp
    · simpa [hf] using h.once family
  · intro family hpos
    by_cases hf : old.familyId = family
    · exact hf ▸ hbarred
    · rw [hreuse, if_neg hf, Nat.add_zero] at hpos
      exact (h.barred family hpos).grows (grows_applyAll _ db)
  · intro d hd
    have hold := h.events d hd
    simpa [revocationEvents, Event.writes, Write.apply, List.countP_append, List.countP_singleton,
      SecurityEvent.reportsDevice, reuseEvent] using hold
  · exact h.audits

/-- Only an unrevoked device is revoked, and it is reported with its revocation. -/
theorem Db.Reported.deviceRevoked (h : db.Reported es) {d : Device} {user device : Uuid}
    {reason deviceName : String} {sessions families tokens : List Uuid}
    {eventId auditId correlationId : Uuid} {now : Nat} (hd : lookup db.devices device = some d)
    (hrev : d.isRevoked = false) :
    (applyAll ((Event.deviceRevoked user device reason deviceName sessions families tokens eventId auditId
      correlationId now).writes pf) db).Reported (es ++ [.deviceRevoked user device reason deviceName sessions
        families tokens eventId auditId correlationId now]) := by
  set e := Event.deviceRevoked user device reason deviceName sessions families tokens eventId auditId
    correlationId now with he
  have hreuse : ∀ family, (applyAll (e.writes pf) db).reuseEvents family = db.reuseEvents family := by
    intro family
    simp [reuseEvents, he, Event.writes, Write.apply, List.countP_append, SecurityEvent.reportsReuse,
      revokedEvent]
  have hevents : ∀ i, (applyAll (e.writes pf) db).revocationEvents i =
      db.revocationEvents i + if device = i then 1 else 0 := by
    intro i
    simp [revocationEvents, he, Event.writes, Write.apply, List.countP_append, List.countP_singleton,
      SecurityEvent.reportsDevice, revokedEvent]
  have haudits : ∀ i, (applyAll (e.writes pf) db).revocationAudits i =
      db.revocationAudits i + if device = i then 1 else 0 := by
    intro i
    simp [revocationAudits, he, Event.writes, Write.apply, List.countP_append, List.countP_singleton,
      AuditEvent.reportsDevice, revokedAudit]
  have hfirst : db.revocationEvents device = 0 ∧ db.revocationAudits device = 0 := by
    have hid : d.id = device := lookup_key hd
    have hev := h.events d (lookup_mem hd)
    have hau := h.audits d (lookup_mem hd)
    rw [hid, hrev] at hev hau
    exact ⟨hev, hau⟩
  have hrows : ∀ d' ∈ (applyAll (e.writes pf) db).devices,
      (device = d'.id ∧ d'.isRevoked = true) ∨ (device ≠ d'.id ∧ d' ∈ db.devices) := by
    intro d' hd'
    obtain ⟨row, hrow, rfl⟩ := mem_updateRows.mp hd'
    by_cases hid : row.id = device
    · simp [hid, Device.revoke]
    · simp [hid, hrow, Ne.symm hid]
  constructor
  · intro family
    rw [hreuse, List.countP_append, h.reuse, he]
    simp [Event.reportsReuse]
  · intro family
    rw [hreuse]
    exact h.once family
  · intro family hpos
    rw [hreuse] at hpos
    exact (h.barred family hpos).grows (grows_applyAll _ db)
  · intro d' hd'
    rcases hrows d' hd' with ⟨hid, hr⟩ | ⟨hid, hmem⟩
    · rw [hevents, ← hid, hfirst.1, hr]
      simp
    · rw [hevents, if_neg hid]
      exact h.events d' hmem
  · intro d' hd'
    rcases hrows d' hd' with ⟨hid, hr⟩ | ⟨hid, hmem⟩
    · rw [haudits, ← hid, hfirst.2, hr]
      simp
    · rw [haudits, if_neg hid]
      exact h.audits d' hmem

theorem Db.Reported.event (h : db.Reported es) {clock : Nat} {e : Event}
    (ha : e.Allowed pf clock db) : (applyAll (e.writes pf) db).Reported (es ++ [e]) := by
  cases e with
  | reuseDetected raw old rf tokens sessions eventId checkedAt now startedAt => exact h.reuseDetected ha.1
  | deviceRevoked user device reason deviceName sessions families tokens eventId auditId correlationId now =>
    obtain ⟨⟨d, hd, _, hrev⟩, _⟩ := ha
    exact h.deviceRevoked hd hrev
  | envelopeSubmitted envelope record recipients =>
    refine h.silent (fun w hw => ?_) fun _ => rfl
    simp only [Event.writes, List.mem_cons, List.mem_map] at hw
    rcases hw with rfl | rfl | ⟨r, _, rfl⟩ <;> rfl
  | _ => exact h.silent (by simp [Event.writes, Write.silent]) fun _ => rfl

theorem SoundRun.reported {w₀ : World Db} {s : Server} (h : SoundRun pf fk w₀ s) (h₀ : w₀.db.Holds)
    (hnone : w₀.db.Unreported) : s.db.Reported (s.log.map Prod.snd) := by
  refine h.path.keeps_log (P := fun es db => db.Reported es) ?_ h₀ hnone.reported
  intro es c db e db' _ hp hm
  obtain ⟨ha, rfl⟩ := hm
  exact hp.event ha

end

/-- The reuse is reported: the alert is thrown, unless the `ROLLBACK` before it fails. -/
def SessionService.AfterReport (p : Program) : Prop :=
  p = throw reuseAlert ∨ p = .ret (.error reuseAlert) ∨ p = .ret (.error .database)

/-- Process `p` presented a token of the family and has committed the report of its reuse. -/
def Server.ReportedReuse (pf : Platform) (s : Server) (p : Nat) (family : Uuid) : Prop :=
  ∃ pr raw e, s.procs p = some pr ∧ pr.call = .rotateRefreshToken raw ∧ e ∈ eventsOf s.log p ∧
    e.reportsReuse family = true ∧ s.db.TokenOf pf raw family ∧ AfterReport pr.program

section
variable {pf : Platform} {fk : FkCheck} {E : Event → Prop} {R : Program → Prop}

theorem then_throw (e : Failure) : (throw e).Then E R := trivial

theorem then_updateWhere (rows : Db → List Uuid) {key : Uuid → Key} {w : List Uuid → Write}
    {k : List Uuid → Program} (h : ∀ ids, (k ids).Then E R) : (updateWhere rows key w k).Then E R :=
  fun ids => .lockAll ids (h ids)

theorem then_insertSecurityEvent {e : SecurityEvent} {k : Program} (h : k.Then E R) :
    (insertSecurityEvent e k).Then E R := by
  intro db
  dsimp only
  split
  · exact then_throw _
  · split
    · exact then_throw _
    · split
      · exact then_throw _
      · exact h

theorem then_insertRefreshToken {t : RefreshToken} {k : Program} (h : k.Then E R) :
    (insertRefreshToken t k).Then E R := by
  intro db db
  dsimp only
  split
  · exact then_throw _
  · split
    · exact then_throw _
    · split
      · exact then_throw _
      · split
        · exact then_throw _
        · exact h

theorem then_reportReuse (raw : RawToken) (token : RefreshToken) (family : RefreshTokenFamily)
    (checkedAt now startedAt : Nat) :
    (reportReuse raw token family checkedAt now startedAt).Then (fun e => e.isReuse = true) AfterReport := by
  have hreport : ∀ tokens sessions eventId, (insertSecurityEvent (reuseEvent eventId token family startedAt)
      (.commit (.reuseDetected raw token family tokens sessions eventId checkedAt now startedAt)
        (throw reuseAlert))).Then (fun e => e.isReuse = true) AfterReport :=
    fun _ _ _ => then_insertSecurityEvent ⟨fun _ => .inl rfl, then_throw _⟩
  have hsessions : ∀ tokens, (updateWhere (Db.sessionsWhere fun s => s.userId = family.userId &&
      s.deviceId = family.deviceId) .session (.revokeSessions · startedAt) fun sessions =>
        .fresh fun eventId => insertSecurityEvent (reuseEvent eventId token family startedAt) <|
          .commit (.reuseDetected raw token family tokens sessions eventId checkedAt now startedAt) <|
            throw reuseAlert).Then (fun e => e.isReuse = true) AfterReport :=
    fun tokens => then_updateWhere _ fun sessions eventId => hreport tokens sessions eventId
  exact fun _ => then_updateWhere (Db.tokensOfFamily token.familyId) hsessions

theorem then_rotate (raw : RawToken) (token : RefreshToken) (family : RefreshTokenFamily) (checkedAt : Nat) :
    (rotate pf fk raw token family checkedAt).Then (fun e => e.isReuse = true) AfterReport := by
  intro newRaw newToken now _ db
  dsimp only
  split
  · exact then_throw _
  · refine then_insertRefreshToken ⟨fun he => absurd he (by simp [Event.isReuse]), ?_⟩
    exact fun _ _ _ => trivial

theorem then_selectForUpdate {hash : Digest} {k : Option (RefreshToken × RefreshTokenFamily) → Program}
    (h : ∀ row, (k row).Then E R) : (selectForUpdate hash k).Then E R := by
  intro db
  dsimp only
  cases db.tokenByHash hash with
  | none => exact h none
  | some found =>
    intro _ db'
    dsimp only
    split <;> exact h _

/-- The only commit of a reuse is followed by the alert. -/
theorem then_rotateRefreshToken (raw : RawToken) :
    (rotateRefreshToken pf fk raw).Then (fun e => e.isReuse = true) AfterReport := by
  intro startedAt
  apply then_selectForUpdate
  intro row
  cases row with
  | none => exact then_throw _
  | some found =>
    intro checkedAt
    dsimp only
    split
    · exact then_throw _
    · split
      · intro now
        have hreport := fun now => then_reportReuse raw found.1 found.2 checkedAt now startedAt
        cases found.1.replacementTokenId with
        | none => exact hreport now
        | some replacement =>
          dsimp only
          split
          · intro db
            dsimp only
            split
            · exact ⟨fun he => absurd he (by simp [Event.isReuse]), fun _ _ _ => trivial⟩
            · exact hreport now
          · exact hreport now
      · exact then_rotate raw found.1 found.2 checkedAt

theorem AfterReport.exec {s : Server} {p : Nat} {ids : List Uuid}
    {pr pr' : Process Db Key Uuid Event Answer Call} (hp : s.procs p = some pr)
    (h : AfterReport pr.program)
    (hp' : (ReadCommitted.Server.exec s p ids pr).procs p = some pr') : AfterReport pr'.program := by
  rcases h with h | h | h
  · rw [throw] at h
    simp only [ReadCommitted.Server.exec, h, ReadCommitted.Server.setProc_self, Option.some.injEq] at hp'
    rw [← hp']
    exact .inr (.inl rfl)
  · simp only [ReadCommitted.Server.exec, h] at hp'
    rw [Option.some.inj (hp'.symm.trans hp)]
    exact .inr (.inl h)
  · simp only [ReadCommitted.Server.exec, h] at hp'
    rw [Option.some.inj (hp'.symm.trans hp)]
    exact .inr (.inr h)

theorem reported_of_logged {db : Db} {clock : Nat} {used : List Uuid} (hdb : db.Initial)
    (hused : ∀ x ∈ db.ids, x ∈ used) (sched : List Choice) {p : Nat} {e : Event} {family : Uuid}
    (he : e ∈ eventsOf (serve pf fk (.boot db clock used) sched).log p)
    (hfamily : e.reportsReuse family = true) :
    (serve pf fk (.boot db clock used) sched).ReportedReuse pf p family := by
  have hboot : SoundRun pf fk ⟨clock, db⟩ (.boot db clock used) := hdb.boot hused
  have hs := hboot.run sched
  obtain ⟨pr, hp, ht⟩ := hs.trace he
  obtain ⟨c, db', hi, _, ha, hgrows⟩ := hs.committed hp he
  cases e with
  | reuseDetected raw old rf tokens sessions eventId checkedAt now startedAt =>
    obtain ⟨raw', hc, hrot⟩ := Call.rotation_of_trace ht he rfl
    obtain rfl := hrot.1
    have hold : old.familyId = family := of_decide_eq_true hfamily
    have hcode : (Call.program pf fk (.rotateRefreshToken raw)).Then (fun e => e.isReuse = true)
        AfterReport := then_rotateRefreshToken raw
    have hfollow := ReadCommitted.Server.following_run hcode (.inr (.inr rfl))
      (fun _ _ _ _ hp h hp' => AfterReport.exec hp h hp') db clock used hp hc
    have hmem : Event.reuseDetected raw old rf tokens sessions eventId checkedAt now startedAt ∈
        pr.events := (hs.events p pr hp).symm ▸ he
    have htoken : db'.TokenOf pf raw family := ⟨old, lookup_mem ha.1.token, ha.1.hash, hold⟩
    exact ⟨pr, raw, _, hp, hc, he, hfamily, htoken.grows hi ((grows_applyAll _ db').trans hgrows),
      hfollow.behind ⟨_, hmem, rfl⟩⟩
  | _ => exact absurd hfamily (by simp [Event.reportsReuse])

/-- One event for each family whose reuse was reported and for each revoked
device, and none otherwise, in whatever order the calls run and wherever they fail. -/
theorem security_events_once {db : Db} {clock : Nat} {used : List Uuid} (hdb : db.Initial)
    (hused : ∀ x ∈ db.ids, x ∈ used) (hnone : db.Unreported) (sched : List Choice) :
    let s := serve pf fk (.boot db clock used) sched
    (∀ family, s.db.reuseEvents family ≤ 1 ∧
      (s.db.reuseEvents family = 1 ↔ ∃ p, s.ReportedReuse pf p family)) ∧
    (∀ p raw, s.Returned p (.rotateRefreshToken raw) (.error reuseAlert) →
      ∃ f ∈ s.db.refreshTokenFamilies, s.ReportedReuse pf p f.id) ∧
    ∀ d ∈ s.db.devices,
      (d.isRevoked = true ↔ s.db.revocationEvents d.id = 1 ∧ s.db.revocationAudits d.id = 1) ∧
      (d.isRevoked = false → s.db.revocationEvents d.id = 0 ∧ s.db.revocationAudits d.id = 0) := by
  intro s
  have hs : SoundRun pf fk ⟨clock, db⟩ s := (hdb.boot hused).run sched
  have hrep : s.db.Reported (s.log.map Prod.snd) := hs.reported hdb.holds hnone
  refine ⟨fun family => ⟨hrep.once family, ?_, ?_⟩, ?_, ?_⟩
  · intro hone
    have hpos : 0 < (s.log.map Prod.snd).countP (·.reportsReuse family) := by
      rw [← hrep.reuse, hone]
      exact Nat.one_pos
    obtain ⟨e, he, hfamily⟩ := List.countP_pos_iff.mp hpos
    obtain ⟨⟨p, e⟩, hlog, rfl⟩ := List.mem_map.mp he
    exact ⟨p, reported_of_logged hdb hused sched (ReadCommitted.Server.mem_eventsOf.mpr hlog) hfamily⟩
  · intro hp
    obtain ⟨p, _, _, e, _, _, he, hfamily, _⟩ := hp
    have hpos : 0 < (s.log.map Prod.snd).countP (·.reportsReuse family) :=
      List.countP_pos_iff.mpr
        ⟨e, List.mem_map_of_mem (f := Prod.snd) (ReadCommitted.Server.mem_eventsOf.mp he), hfamily⟩
    rw [← hrep.reuse] at hpos
    exact Nat.le_antisymm (hrep.once family) hpos
  · intro p raw hr
    obtain ⟨pr, hp, hc, hans⟩ := hs.returned hr
    rcases hans with hans | hans
    · exact absurd hans (by simp [Call.aborted, reuseAlert])
    · obtain ⟨e, he, hreuse⟩ := hans rfl
      obtain ⟨c, db', _, _, ha, hgrows⟩ := hs.committed hp he
      cases e with
      | reuseDetected raw' old rf tokens sessions eventId checkedAt now startedAt =>
        obtain ⟨f, hf, _⟩ := ((grows_applyAll _ db').trans hgrows).families _ _ ha.1.family
        have hid : f.id = old.familyId := lookup_key hf
        exact ⟨f, lookup_mem hf, reported_of_logged hdb hused sched he (by simp [Event.reportsReuse, hid])⟩
      | _ => exact absurd hreuse (by simp [Event.isReuse])
  · intro d hd
    have hev := hrep.events d hd
    have hau := hrep.audits d hd
    cases hrev : d.isRevoked <;> simp [hev, hau, hrev]

end

/-- The token of device 3 is replayed late, and device 4 is revoked. -/
theorem sampleReuse_reported_once :
    let s := serve samplePlatform .atCommit sampleStart (sampleReuse ++ sampleDeviceRevocation 3 2 4)
    s.db.reuseEvents 11 = 1 ∧ s.ReportedReuse samplePlatform 2 11 ∧
      s.db.revocationEvents 4 = 1 ∧ s.db.revocationAudits 4 = 1 ∧ s.db.revocationEvents 3 = 0 := by
  intro s
  have hnone : sampleDb.Unreported := by constructor <;> simp [sampleDb, Db.empty, Db.reuseEvents,
    Db.revocationEvents, Db.revocationAudits]
  obtain ⟨hreuse, hreturned, hdevices⟩ := @security_events_once samplePlatform .atCommit sampleDb 0
    (List.range 10) sampleDb_initial (by decide) hnone (sampleReuse ++ sampleDeviceRevocation 3 2 4)
  have hfamilies : s.db.refreshTokenFamilies.map RefreshTokenFamily.id = [11] := by decide +kernel
  obtain ⟨f, hf, hreported⟩ := hreturned 2 12 (by decide +kernel)
  have hid : f.id = 11 := by
    have hmem := List.mem_map_of_mem (f := RefreshTokenFamily.id) hf
    rw [show (serve samplePlatform .atCommit (.boot sampleDb 0 (List.range 10))
      (sampleReuse ++ sampleDeviceRevocation 3 2 4)).db.refreshTokenFamilies.map RefreshTokenFamily.id = [11]
        from hfamilies] at hmem
    exact List.mem_singleton.mp hmem
  have h4 := hdevices ⟨4, 2, "phone", true, some 10001, some "lost"⟩ (by decide +kernel)
  have h3 := hdevices ⟨3, 1, "phone", false, none, none⟩ (by decide +kernel)
  rw [hid] at hreported
  exact ⟨(hreuse 11).2.mpr ⟨2, hreported⟩, hreported, (h4.1.mp rfl).1, (h4.1.mp rfl).2, (h3.2 rfl).1⟩

end GuffSuff
