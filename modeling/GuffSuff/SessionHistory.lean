import GuffSuff.ReplayedWrites
import GuffSuff.RevokedDevices

/-! Whom the guard lets pass, told by the log: a login that nothing has revoked
since, on a device that never was. -/

namespace GuffSuff

open ReadCommitted SessionService JwtAuthGuard

def Event.newSessions : Event → List Session
  | sessionCreated _ user device session _ _ now => [newSession session user device now]
  | _ => []

def Event.revokedSessions : Event → List Uuid
  | reuseDetected _ _ _ _ sessions .. | deviceRevoked _ _ _ _ sessions .. => sessions
  | sessionRevoked _ ids _ | userSessionsRevoked _ ids _ => ids
  | _ => []

/-- Whom a row of `sessions` is for. -/
def Session.user (s : Session) : RequestUser := ⟨s.userId, s.deviceId, s.id⟩

def Event.revokes (e : Event) (device : Uuid) : Bool := e.revokedDevice.map Prod.snd = some device

/-- The session was made for the user and has not been revoked since, nor ever its device. -/
structure LiveIn (es : List Event) (user : RequestUser) : Prop where
  session : ∃ before e after, es = before ++ e :: after ∧ user ∈ e.newSessions.map Session.user ∧
    ∀ e' ∈ after, user.sessionId ∉ e'.revokedSessions
  device : ∀ e ∈ es, e.revokes user.deviceId = false

/-- The users logged in, and the devices in use, after the event. -/
def Event.keepSessions (t : List RequestUser) (e : Event) : List RequestUser :=
  t.filter (fun user => !decide (user.sessionId ∈ e.revokedSessions)) ++ e.newSessions.map Session.user

def Event.keepDevices (t : List Uuid) (e : Event) : List Uuid := t.filter fun device => !e.revokes device

namespace Db

def liveSessions (db : Db) : List RequestUser :=
  (db.sessions.filter fun s => s.revokedAt.isNone).map Session.user

def activeDevices (db : Db) : List Uuid := (db.devices.filter fun d => !d.isRevoked).map Device.id

end Db

section
variable {pf : Platform} {db : Db} {user : RequestUser} {device : Uuid}

theorem Db.mem_liveSessions :
    user ∈ db.liveSessions ↔ ∃ s ∈ db.sessions, s.revokedAt = none ∧ s.user = user := by
  simp [Db.liveSessions, and_assoc]

theorem Db.mem_activeDevices :
    device ∈ db.activeDevices ↔ ∃ d ∈ db.devices, d.isRevoked = false ∧ d.id = device := by
  simp [Db.activeDevices, and_assoc]

variable (pf) in
theorem Event.sessions_writes (e : Event) (db : Db) : ∃ now, (applyAll (e.writes pf) db).sessions =
    updateRows db.sessions e.revokedSessions (Session.revoke now) ++ e.newSessions := by
  have hnone : ∀ now, updateRows db.sessions [] (Session.revoke now) = db.sessions := fun now =>
    updateRows_of_disjoint (Session.revoke now) fun _ _ => List.not_mem_nil
  cases e with
  | reuseDetected raw old family tokens sessions eventId checkedAt now startedAt =>
    exact ⟨startedAt, (List.append_nil _).symm⟩
  | sessionRevoked _ ids now | userSessionsRevoked _ ids now => exact ⟨now, (List.append_nil _).symm⟩
  | deviceRevoked user device reason name sessions families tokens eventId auditId correlationId now =>
    exact ⟨now, (List.append_nil _).symm⟩
  | sessionCreated raw user device session family token now =>
    have hrows := congrArg (· ++ [newSession session user device now]) (hnone 0)
    exact ⟨0, hrows.symm⟩
  | envelopeSubmitted envelope record recipients =>
    have hsame : (applyAll (Event.writes pf (.envelopeSubmitted envelope record recipients)) db).sessions =
        db.sessions := by simp [Event.writes, Write.apply]
    have hrows := congrArg (· ++ []) (hnone 0)
    exact ⟨0, hsame.trans ((List.append_nil _).symm.trans hrows.symm)⟩
  | _ =>
    have hrows := congrArg (· ++ []) (hnone 0)
    exact ⟨0, (List.append_nil _).symm.trans hrows.symm⟩

variable (pf) in
theorem Event.devices_writes (e : Event) (db : Db) : ∃ reason now, (applyAll (e.writes pf) db).devices =
    updateRows db.devices (e.revokedDevice.map Prod.snd).toList (Device.revoke reason now) := by
  have hnone : ∀ reason now, updateRows db.devices [] (Device.revoke reason now) = db.devices :=
    fun reason now => updateRows_of_disjoint (Device.revoke reason now) fun _ _ => List.not_mem_nil
  cases e with
  | deviceRevoked user device reason name sessions families tokens eventId auditId correlationId now =>
    exact ⟨reason, now, rfl⟩
  | envelopeSubmitted envelope record recipients =>
    have hsame : (applyAll (Event.writes pf (.envelopeSubmitted envelope record recipients)) db).devices =
        db.devices := by simp [Event.writes, Write.apply]
    exact ⟨"", 0, hsame.trans (hnone "" 0).symm⟩
  | _ => exact ⟨"", 0, (hnone "" 0).symm⟩

variable (pf) in
theorem Event.liveSessions_writes (e : Event) (db : Db) :
    (applyAll (e.writes pf) db).liveSessions = Event.keepSessions db.liveSessions e := by
  obtain ⟨now, hrows⟩ := e.sessions_writes pf db
  have hnew : e.newSessions.filter (fun s => s.revokedAt.isNone) = e.newSessions := by
    cases e <;> rfl
  have hrevoked := filter_updateRows_of_false db.sessions e.revokedSessions
    (f := Session.revoke now) (p := fun s => s.revokedAt.isNone) fun _ => rfl
  rw [Db.liveSessions, hrows, List.filter_append, hnew, hrevoked, List.map_append, Event.keepSessions,
    Db.liveSessions, List.filter_map]
  rfl

variable (pf) in
theorem Event.activeDevices_writes (e : Event) (db : Db) :
    (applyAll (e.writes pf) db).activeDevices = Event.keepDevices db.activeDevices e := by
  obtain ⟨reason, now, hrows⟩ := e.devices_writes pf db
  have hrevoked := filter_updateRows_of_false db.devices (e.revokedDevice.map Prod.snd).toList
    (f := Device.revoke reason now) (p := fun d => !d.isRevoked) fun _ => rfl
  rw [Db.activeDevices, hrows, hrevoked, Event.keepDevices, Db.activeDevices, List.filter_map]
  congr 2
  funext d
  simp [Event.revokes, Function.comp]

variable (user) in
theorem liveIn_iff (es : List Event) (devices : List Uuid) :
    user ∈ es.foldl Event.keepSessions [] ∧ user.deviceId ∈ es.foldl Event.keepDevices devices ↔
      LiveIn es user ∧ user.deviceId ∈ devices := by
  have hsessions := mem_foldl_listed (fun e user => decide (user.sessionId ∈ e.revokedSessions))
    (fun e => e.newSessions.map Session.user) es [] (x := user)
  have hdevices := mem_foldl_listed Event.revokes (fun _ => []) es devices (x := user.deviceId)
  simp only [List.append_nil, List.not_mem_nil, false_and, false_or, and_false, exists_false, or_false,
    decide_eq_false_iff_not] at hsessions hdevices
  constructor
  · intro h
    obtain ⟨hlive, hactive⟩ := h
    obtain ⟨hdevice, hnever⟩ := hdevices.mp hactive
    exact ⟨⟨hsessions.mp hlive, hnever⟩, hdevice⟩
  · intro h
    obtain ⟨⟨hlogin, hnever⟩, hdevice⟩ := h
    exact ⟨hsessions.mpr hlogin, hdevices.mpr ⟨hdevice, hnever⟩⟩

end

/-- The header carries an access token of the claims `payload` that verifies at time `now`. -/
def Bears (pf : Platform) (now : Nat) (authHeader : Option (List Char)) (payload : AccessClaims) : Prop :=
  ∃ header, authHeader = some header ∧ bearer <+: header ∧
    verifyAccessToken pf (bearerToken header) now = .ok payload

/-- The claims of the user's access tokens; every session has the version 1. -/
def JwtAuthGuard.RequestUser.claims (user : RequestUser) : AccessClaims :=
  { sessionId := user.sessionId, userId := user.userId, deviceId := user.deviceId, sessionVersion := 1 }

/-- The account may use the service. -/
def Db.Admits (db : Db) (user : Uuid) : Prop :=
  ∃ u ∈ db.users, u.id = user ∧ (u.accountState = .active ∨ u.accountState = .pendingProfile)

/-- What the guard has to find for the claims. -/
structure Db.Lets (db : Db) (payload : AccessClaims) (user : RequestUser) : Prop where
  session : ∃ s ∈ db.sessions, s.revokedAt = none ∧ s.user = user ∧
    payload = { user.claims with sessionVersion := s.sessionVersion }
  device : user.deviceId ∈ db.activeDevices
  account : db.Admits user.userId

section
variable {pf : Platform} {db : Db} {now : Nat} {authHeader : Option (List Char)} {user : RequestUser}
variable {payload : AccessClaims}

theorem canActivate_iff : canActivate pf db now authHeader = .ok user ↔
    ∃ payload, Bears pf now authHeader payload ∧ checkSession db payload = .ok user := by
  cases authHeader with
  | none => simp [canActivate, Bears]
  | some header =>
    by_cases hp : bearer <+: header
    · have htrue : bearer.isPrefixOf header = true := List.isPrefixOf_iff_prefix.mpr hp
      cases hv : verifyAccessToken pf (bearerToken header) now with
      | error message => simp [canActivate, Bears, htrue, hv, bind, Except.bind]
      | ok payload =>
        cases hs : checkSession db payload <;>
          simp [canActivate, Bears, hp, htrue, hv, hs, bind, Except.bind]
    · have hfalse : bearer.isPrefixOf header = false :=
        Bool.eq_false_iff.mpr fun htrue => hp (List.isPrefixOf_iff_prefix.mp htrue)
      simp [canActivate, Bears, hp, hfalse]

theorem lets_of_checkSession (h : checkSession db payload = .ok user) : db.Lets payload user := by
  unfold checkSession at h
  split at h
  · exact absurd h (by simp)
  rename_i s d u hrow
  obtain ⟨⟨hs, hid, hu, hd⟩, ⟨hdevice, hdid⟩, huser, huid⟩ := mem_sessionRows.mp (List.mem_of_head? hrow)
  split at h
  · exact absurd h (by simp)
  rename_i hrevoked
  split at h
  · exact absurd h (by simp)
  rename_i hstate
  split at h
  · exact absurd h (by simp)
  rename_i hversion
  obtain rfl := Except.ok.inj h
  simp only [Bool.or_eq_true, not_or, Bool.not_eq_true, Option.isSome_eq_false_iff,
    Option.isNone_iff_eq_none] at hrevoked
  simp only [Bool.and_eq_true, decide_eq_true_eq, ne_eq, not_and_or, not_not] at hstate hversion
  refine ⟨⟨s, hs, hrevoked.1, ?_, ?_⟩, Db.mem_activeDevices.mpr ⟨d, hdevice, hrevoked.2, hdid.trans hd⟩,
    u, huser, huid.trans hu, hstate⟩
  · rw [Session.user, hu, hd, hid]
  · rw [hversion]
    rfl

/-- The guard reads the first of the rows; where the keys are unique there is no other. -/
theorem checkSession_of_lets (hi : db.Holds) (h : db.Lets payload user) :
    checkSession db payload = .ok user := by
  obtain ⟨s, hs, hrevoked, rfl, rfl⟩ := h.session
  obtain ⟨d, hd, hactive, hdid⟩ := Db.mem_activeDevices.mp h.device
  obtain ⟨u, hu, huid, hstate⟩ := h.account
  have hrow : (s, d, u) ∈ sessionRows db { s.user.claims with sessionVersion := s.sessionVersion } :=
    mem_sessionRows.mpr ⟨⟨hs, rfl, rfl, rfl⟩, ⟨hd, hdid⟩, hu, huid⟩
  have hfirst : (sessionRows db { s.user.claims with sessionVersion := s.sessionVersion }).head? =
      some (s, d, u) := by
    cases hrows : sessionRows db { s.user.claims with sessionVersion := s.sessionVersion } with
    | nil => exact absurd (hrows ▸ hrow) List.not_mem_nil
    | cons row rows =>
      obtain ⟨s', d', u'⟩ := row
      obtain ⟨⟨hs', hsid', _⟩, ⟨hd', hdid'⟩, hu', huid'⟩ :=
        mem_sessionRows.mp (hrows ▸ List.mem_cons_self)
      obtain rfl := eq_of_key_eq hi.identity.sessions hs' hs hsid'
      obtain rfl := eq_of_key_eq hi.devices hd' hd (hdid'.trans hdid.symm)
      obtain rfl := eq_of_key_eq hi.users hu' hu (huid'.trans huid.symm)
      rfl
  have hopen : ¬ ((u.accountState ≠ .active && u.accountState ≠ .pendingProfile) = true) := by
    rcases hstate with hstate | hstate <;> simp [hstate]
  simp only [checkSession, hfirst, hrevoked, hactive, Option.isSome_none, Bool.or_self, Bool.false_eq_true,
    if_false, hopen, ne_eq, not_true]
  rfl

theorem Event.versions_writes (e : Event) (h : ∀ s ∈ db.sessions, s.sessionVersion = 1) :
    ∀ s ∈ (applyAll (e.writes pf) db).sessions, s.sessionVersion = 1 := by
  intro s hs
  obtain ⟨revokedAt, hrows⟩ := e.sessions_writes pf db
  rw [hrows] at hs
  rcases List.mem_append.mp hs with hs | hs
  · obtain ⟨s₀, hs₀, rfl⟩ := mem_updateRows.mp hs
    by_cases hid : (Keyed.key s₀ : Uuid) ∈ e.revokedSessions
    · rw [if_pos hid]
      exact h s₀ hs₀
    · rw [if_neg hid]
      exact h s₀ hs₀
  · cases e with
    | sessionCreated => exact List.mem_singleton.mp hs ▸ rfl
    | _ => exact absurd hs List.not_mem_nil

variable (pf) in
theorem liveSessions_foldl (es : List Event) (db : Db) :
    (es.foldl (fun db e => applyAll (e.writes pf) db) db).liveSessions =
      es.foldl Event.keepSessions db.liveSessions :=
  (List.foldl_hom Db.liveSessions fun db e => (e.liveSessions_writes pf db).symm).symm

variable (pf) in
theorem activeDevices_foldl (es : List Event) (db : Db) :
    (es.foldl (fun db e => applyAll (e.writes pf) db) db).activeDevices =
      es.foldl Event.keepDevices db.activeDevices :=
  (List.foldl_hom Db.activeDevices fun db e => (e.activeDevices_writes pf db).symm).symm

theorem serve_replays {fk : FkCheck} (db : Db) (clock : Nat) (used : List Uuid) (sched : List Choice) :
    (serve pf fk (.boot db clock used) sched).db =
      ((serve pf fk (.boot db clock used) sched).log.map Prod.snd).foldl
        (fun db e => applyAll (e.writes pf) db) db := by
  rw [List.foldl_map]
  exact ReadCommitted.Server.replays (Call.publishes pf fk) db clock used sched

end

/-- After every run, the guard lets exactly those requests pass whose token names a user that the
log has seen log in and, since then, not out. -/
theorem guard_tells_history (pf : Platform) (fk : FkCheck) {db : Db} {clock : Nat} {used : List Uuid}
    (hdb : db.Initial) (hused : ∀ x ∈ db.ids, x ∈ used) (sched : List Choice) (now : Nat)
    (authHeader : Option (List Char)) (user : RequestUser) :
    let s := serve pf fk (.boot db clock used) sched
    canActivate pf s.db now authHeader = .ok user ↔ Bears pf now authHeader user.claims ∧
      LiveIn (s.log.map Prod.snd) user ∧ user.deviceId ∈ db.activeDevices ∧ db.Admits user.userId := by
  intro s
  have hs : SoundRun pf fk ⟨clock, db⟩ s := (hdb.boot hused).run sched
  have husers : s.db.users = db.users := (grows_of_path hs.path).users
  have hadmits : s.db.Admits user.userId ↔ db.Admits user.userId := by rw [Db.Admits, husers, Db.Admits]
  have hversion : ∀ r ∈ s.db.sessions, r.sessionVersion = 1 := by
    refine hs.path.keeps (P := fun _ db => ∀ r ∈ db.sessions, r.sessionVersion = 1) ?_ ?_ ?_
    · exact fun _ _ _ h _ => h
    · intro c db e db' h hm
      obtain ⟨_, rfl⟩ := hm
      exact e.versions_writes h
    · simp [hdb.sessions]
  have hnone : db.liveSessions = [] := by simp [Db.liveSessions, hdb.sessions]
  have hlive := liveIn_iff user (s.log.map Prod.snd) db.activeDevices
  rw [← hnone, ← liveSessions_foldl pf, ← activeDevices_foldl pf,
    ← serve_replays db clock used sched] at hlive
  rw [canActivate_iff]
  constructor
  · intro h
    obtain ⟨payload, hbears, hcheck⟩ := h
    obtain ⟨⟨r, hr, hrevoked, hfor, rfl⟩, hdevice, haccount⟩ := lets_of_checkSession hcheck
    obtain ⟨hin, hactive⟩ := hlive.mp ⟨Db.mem_liveSessions.mpr ⟨r, hr, hrevoked, hfor⟩, hdevice⟩
    have hclaims : { user.claims with sessionVersion := r.sessionVersion } = user.claims := by
      rw [hversion r hr]
      rfl
    exact ⟨hclaims ▸ hbears, hin, hactive, hadmits.mp haccount⟩
  · intro h
    obtain ⟨hbears, hin, hactive, haccount⟩ := h
    obtain ⟨hsession, hdevice⟩ := hlive.mpr ⟨hin, hactive⟩
    obtain ⟨r, hr, hrevoked, hfor⟩ := Db.mem_liveSessions.mp hsession
    have hclaims : user.claims = { user.claims with sessionVersion := r.sessionVersion } := by
      rw [hversion r hr]
      rfl
    exact ⟨user.claims, hbears,
      checkSession_of_lets hs.holds ⟨⟨r, hr, hrevoked, hfor, hclaims⟩, hdevice, hadmits.mpr haccount⟩⟩

def sampleUser : RequestUser := ⟨1, 3, 10⟩

def sampleHeader : Option (List Char) :=
  some (bearer ++ generateAccessToken samplePlatform sampleUser.claims 0)

/-- The guard lets user 1 pass after the login and no longer after the logout. -/
theorem sampleLogin_told :
    let s := serve samplePlatform .atCommit sampleStart sampleLogin
    let s' := serve samplePlatform .atCommit sampleStart
      (sampleLogin ++ [.call 1 (.revokeSession 10), .exec 1 [], .exec 1 [10]] ++ Choice.steps 1 3)
    LiveIn (s.log.map Prod.snd) sampleUser ∧ Bears samplePlatform 5 sampleHeader sampleUser.claims ∧
      canActivate samplePlatform s'.db 5 sampleHeader ≠ .ok sampleUser := by
  intro s s'
  have hlive := (@guard_tells_history samplePlatform .atCommit sampleDb 0 (List.range 10) sampleDb_initial
    (by decide) sampleLogin 5 sampleHeader sampleUser).mp (by decide +kernel)
  exact ⟨hlive.2.1, hlive.1, by decide +kernel⟩

end GuffSuff
