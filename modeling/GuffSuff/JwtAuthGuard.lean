import GuffSuff.Growth
import GuffSuff.SessionService

/-! `JwtAuthGuard`: which requests pass as a user, a device and a session. -/

namespace GuffSuff

open ReadCommitted

namespace JwtAuthGuard

def bearer : List Char := ['B', 'e', 'a', 'r', 'e', 'r', ' ']

structure RequestUser where
  userId : Uuid
  deviceId : Uuid
  sessionId : Uuid
  deriving DecidableEq, Repr

/-- The rows of `sessions JOIN devices JOIN users` for the claims of a token. -/
def sessionRows (db : Db) (payload : AccessClaims) : List (Session × Device × User) :=
  (db.sessions.filter fun s => s.id = payload.sessionId && s.userId = payload.userId &&
    s.deviceId = payload.deviceId).flatMap fun s =>
  (db.devices.filter fun d => d.id = s.deviceId).flatMap fun d =>
  (db.users.filter fun u => u.id = s.userId).map fun u => (s, d, u)

def checkSession (db : Db) (payload : AccessClaims) : Except String RequestUser :=
  match (sessionRows db payload).head? with
  | none => .error "Session not found"
  | some (session, device, user) =>
    if session.revokedAt.isSome || device.isRevoked then
      .error "Session or device has been revoked"
    else if user.accountState ≠ .active && user.accountState ≠ .pendingProfile then
      .error "Account is restricted or suspended"
    else if session.sessionVersion ≠ payload.sessionVersion then .error "Session version mismatch"
    else .ok { userId := payload.userId, deviceId := payload.deviceId, sessionId := payload.sessionId }

/-- `authHeader.split(" ")[1]`. -/
def bearerToken (authHeader : List Char) : List Char := ((authHeader.splitOn ' ')[1]?).getD []

def canActivate (pf : Platform) (db : Db) (now : Nat) (authHeader : Option (List Char)) :
    Except Failure RequestUser :=
  match authHeader with
  | none => .error (.unauthorized "Missing or invalid Authorization header")
  | some authHeader =>
    if !bearer.isPrefixOf authHeader then
      .error (.unauthorized "Missing or invalid Authorization header")
    else
      match SessionService.verifyAccessToken pf (bearerToken authHeader) now >>= checkSession db with
      | .ok user => .ok user
      | .error message =>
        .error (.unauthorized (if message.isEmpty then "Invalid token" else message))

section
variable {pf : Platform} {db : Db} {now : Nat}

theorem bearerToken_append {token : List Char} (h : ' ' ∉ token) :
    bearerToken (bearer ++ token) = token := by
  have hb : bearer ++ token = ['B', 'e', 'a', 'r', 'e', 'r'] ++ ' ' :: token := rfl
  have hword : ' ' ∉ ['B', 'e', 'a', 'r', 'e', 'r'] := by decide
  rw [bearerToken, hb, List.splitOn_append_cons_self_of_not_mem hword, List.splitOn_eq_singleton h]
  rfl

theorem mem_sessionRows {payload : AccessClaims} {s : Session} {d : Device} {u : User} :
    (s, d, u) ∈ sessionRows db payload ↔
      (s ∈ db.sessions ∧ s.id = payload.sessionId ∧ s.userId = payload.userId ∧
        s.deviceId = payload.deviceId) ∧
      (d ∈ db.devices ∧ d.id = s.deviceId) ∧ u ∈ db.users ∧ u.id = s.userId := by
  simp only [sessionRows, List.mem_flatMap, List.mem_filter, List.mem_map, Bool.and_eq_true,
    decide_eq_true_eq, Prod.mk.injEq]
  constructor
  · intro hx
    obtain ⟨s', hs, d', hd, u', hu, rfl, rfl, rfl⟩ := hx
    exact ⟨⟨hs.1, hs.2.1.1, hs.2.1.2, hs.2.2⟩, hd, hu⟩
  · intro hx
    obtain ⟨⟨hs, hi, hu', hd'⟩, hd, hu⟩ := hx
    exact ⟨s, ⟨hs, ⟨hi, hu'⟩, hd'⟩, d, hd, u, hu, rfl, rfl, rfl⟩

theorem checkSession_ok {payload : AccessClaims} {user : RequestUser}
    (h : checkSession db payload = .ok user) : user.sessionId = payload.sessionId ∧
    ∃ s ∈ db.sessions, s.id = payload.sessionId ∧ s.userId = payload.userId ∧
      s.deviceId = payload.deviceId ∧ s.revokedAt = none := by
  unfold checkSession at h
  split at h
  · simp at h
  · rename_i s d u hrow
    obtain ⟨⟨hs, hi, hu, hd⟩, _⟩ := mem_sessionRows.mp (List.mem_of_head? hrow)
    split at h
    · simp at h
    · rename_i hrev
      simp only [Bool.or_eq_true, not_or, Option.not_isSome_iff_eq_none] at hrev
      refine ⟨?_, s, hs, hi, hu, hd, hrev.1⟩
      split at h
      · simp at h
      · split at h
        · simp at h
        · rw [← Except.ok.inj h]

theorem checkSession_of_rows (hs : (keys db.sessions).Nodup) (hd : (keys db.devices).Nodup)
    (hu : (keys db.users).Nodup) {payload : AccessClaims} {s : Session} {d : Device} {u : User}
    (hsm : s ∈ db.sessions) (hsid : s.id = payload.sessionId) (hsu : s.userId = payload.userId)
    (hsd : s.deviceId = payload.deviceId) (hdm : d ∈ db.devices) (hdid : d.id = s.deviceId)
    (hum : u ∈ db.users) (huid : u.id = s.userId) (hrev : s.revokedAt = none)
    (hdev : d.isRevoked = false) (hact : u.accountState = .active)
    (hver : s.sessionVersion = payload.sessionVersion) :
    checkSession db payload =
      .ok { userId := payload.userId, deviceId := payload.deviceId, sessionId := payload.sessionId } := by
  have hrow : (s, d, u) ∈ sessionRows db payload :=
    mem_sessionRows.mpr ⟨⟨hsm, hsid, hsu, hsd⟩, ⟨hdm, hdid⟩, hum, huid⟩
  have hhead : (sessionRows db payload).head? = some (s, d, u) := by
    cases hrows : sessionRows db payload with
    | nil =>
      rw [hrows] at hrow
      exact absurd hrow List.not_mem_nil
    | cons row rows =>
      obtain ⟨s', d', u'⟩ := row
      obtain ⟨⟨hs', hi, _⟩, ⟨hd', hdi⟩, hu', hui⟩ :=
        mem_sessionRows.mp (hrows ▸ List.mem_cons_self : (s', d', u') ∈ sessionRows db payload)
      obtain rfl : s' = s := eq_of_key_eq hs hs' hsm (hi.trans hsid.symm)
      obtain rfl : d' = d := eq_of_key_eq hd hd' hdm (hdi.trans hdid.symm)
      obtain rfl : u' = u := eq_of_key_eq hu hu' hum (hui.trans huid.symm)
      rfl
  simp [checkSession, hhead, hrev, hdev, hact, hver]

theorem canActivate_ok {authHeader : Option (List Char)} {user : RequestUser}
    (h : canActivate pf db now authHeader = .ok user) :
    ∃ header payload, authHeader = some header ∧
      SessionService.verifyAccessToken pf (bearerToken header) now = .ok payload ∧
      user.sessionId = payload.sessionId ∧
      ∃ s ∈ db.sessions, s.id = payload.sessionId ∧ s.userId = payload.userId ∧
        s.deviceId = payload.deviceId ∧ s.revokedAt = none := by
  unfold canActivate at h
  split at h
  · simp at h
  · rename_i header
    split at h
    · simp at h
    · split at h
      · rename_i user' hbind
        cases hv : SessionService.verifyAccessToken pf (bearerToken header) now with
        | error m => simp [hv, bind, Except.bind] at hbind
        | ok payload =>
          rw [hv] at hbind
          obtain rfl := Except.ok.inj h
          exact ⟨header, payload, rfl, hv, checkSession_ok hbind⟩
      · simp at h

theorem canActivate_bearer {token : List Char} (hword : ' ' ∉ token) {payload : AccessClaims}
    {user : RequestUser} (hv : SessionService.verifyAccessToken pf token now = .ok payload)
    (hs : checkSession db payload = .ok user) :
    canActivate pf db now (some (bearer ++ token)) = .ok user := by
  have hp : bearer.isPrefixOf (bearer ++ token) = true :=
    List.isPrefixOf_iff_prefix.mpr (List.prefix_append _ _)
  simp only [canActivate, hp, Bool.not_true, Bool.false_eq_true, if_false, bearerToken_append hword,
    hv]
  simp only [bind, Except.bind, hs]

end

end JwtAuthGuard

/-- A signer that writes the claims in unary, separated by dots. -/
def sampleJwt : Jwt where
  sign c ttl _ _ now := ['.'].intercalate
    ([c.sessionId, c.userId, c.deviceId, c.sessionVersion, now / 1000 + ttl].map
      (List.replicate · 'x'))
  verify token _ _ now :=
    match (token.splitOn '.').map List.length with
    | [sessionId, userId, deviceId, sessionVersion, exp] =>
      if now / 1000 < exp then .ok { sessionId, userId, deviceId, sessionVersion }
      else .error "jwt expired"
    | _ => .error "jwt malformed"

theorem sampleJwt_lawful : sampleJwt.Lawful where
  verify_sign := by
    intro c ttl iss aud t t' ht
    have hparts : ∀ l ∈ [c.sessionId, c.userId, c.deviceId, c.sessionVersion, t / 1000 + ttl].map
        (List.replicate · 'x'), '.' ∉ l := by simp
    have hsplit := List.splitOn_intercalate '.' hparts (by simp)
    simp only [sampleJwt, hsplit]
    simp [ht]
  one_word := by
    intro c ttl iss aud t
    simp [sampleJwt, List.intercalate_cons_cons]

end GuffSuff
