import GuffSuff.Revocation

/-! Which of the access tokens that the session service hands out pass the guard. -/

namespace GuffSuff

open ReadCommitted SessionService JwtAuthGuard
open ReadCommitted.Server (eventsOf)

def TokenPair.Works (pf : Platform) (db : Db) (now : Nat) (pair : TokenPair) : Prop :=
  ∃ claims, verifyAccessToken pf pair.accessToken now = .ok claims ∧
    claims.sessionId = pair.sessionId ∧
    canActivate pf db now (some (bearer ++ pair.accessToken)) =
      .ok { userId := claims.userId, deviceId := claims.deviceId, sessionId := claims.sessionId }

/-- The account that owns a family is active and its device is not revoked. -/
structure Db.ActiveHolder (db : Db) (family : Uuid) : Prop where
  user : ∃ f ∈ db.refreshTokenFamilies, f.id = family ∧
    ∃ u ∈ db.users, u.id = f.userId ∧ u.accountState = .active
  device : ∃ f ∈ db.refreshTokenFamilies, f.id = family ∧
    ∃ d ∈ db.devices, d.id = f.deviceId ∧ d.isRevoked = false

def Call.issuesTokens : Call → Bool
  | createSession .. | rotateRefreshToken .. => true
  | _ => false

section
variable {pf : Platform} {fk : FkCheck} {s : Server} {p : Nat}

theorem SoundRun.created_works {w₀ : World Db} (hs : SoundRun pf fk w₀ s) (hj : pf.jwt.Lawful)
    (hp : s.procs p = none) {user device : Uuid} {sched : List Choice}
    (honly : ∀ ch ∈ sched, ch.OnlyMoves p) {pair : TokenPair}
    (hr : (serve pf fk s (.call p (.createSession user device) :: sched)).Returned p
      (.createSession user device) (.ok (.tokens pair)))
    (hactive : (serve pf fk s (.call p (.createSession user device) :: sched)).db.ActiveHolder
      pair.familyId)
    (hsoon : (serve pf fk s (.call p (.createSession user device) :: sched)).clock / 1000 <
      s.clock / 1000 + accessTokenTtl) :
    pair.Works pf (serve pf fk s (.call p (.createSession user device) :: sched)).db
      (serve pf fk s (.call p (.createSession user device) :: sched)).clock := by
  have hpath := hs.solo hp (.createSession user device) honly
  have hs' := hs.run (.call p (.createSession user device) :: sched)
  generalize hs₁ : serve pf fk s (.call p (.createSession user device) :: sched) = s₁ at *
  obtain ⟨pr, hpr, hc, hans⟩ := hs'.returned hr
  rcases hans with hans | hans
  · exact absurd hans (by simp [Call.aborted])
  obtain ⟨raw, session, family, token, now, signedAt, hes, hsigned, hv⟩ := hans _ rfl
  obtain rfl := Value.tokens.inj hv
  rw [hes] at hpath
  obtain ⟨c, _, _, hdb⟩ := hpath.of_singleton
  have hi := hs'.holds
  have hrow : newSession session user device now ∈ s₁.db.sessions := by
    rw [show s₁.db = _ from hdb]
    simp [Event.writes, Write.apply]
  have hfam : newFamily family user device now ∈ s₁.db.refreshTokenFamilies := by
    rw [show s₁.db = _ from hdb]
    simp [Event.writes, Write.apply]
  have hone : ∀ f ∈ s₁.db.refreshTokenFamilies, f.id = family → f = newFamily family user device now :=
    fun f hf hid => eq_of_key_eq hi.identity.families hf hfam hid
  obtain ⟨⟨f, hf, hfid, u, hu, huid, hact⟩, f', hf', hfid', d, hd, hdid, hrev⟩ := hactive
  obtain rfl := hone f hf hfid
  obtain rfl := hone f' hf' hfid'
  have hclock : s.clock ≤ pr.began.clock := (hs.starts hp (hs₁ ▸ hpr)).clock_le
  have hdiv : s.clock / 1000 ≤ signedAt / 1000 := Nat.div_le_div_right (hclock.trans hsigned)
  have hverify : verifyAccessToken pf (createdPair pf raw user device session family signedAt).accessToken
      s₁.clock = .ok { sessionId := session, userId := user, deviceId := device, sessionVersion := 1 } :=
    hj.verify_sign _ _ _ _ _ _ (by omega)
  refine ⟨_, hverify, rfl, ?_⟩
  apply canActivate_bearer (hj.one_word _ _ _ _ _) hverify
  exact checkSession_of_rows hi.identity.sessions hi.devices hi.users hrow rfl rfl rfl hd hdid hu huid
    rfl hrev hact rfl

theorem SoundRun.rotated_not_works {w₀ : World Db} (hs : SoundRun pf fk w₀ s) {raw : RawToken}
    {pair : TokenPair} (hr : s.Returned p (.rotateRefreshToken raw) (.ok (.tokens pair))) (now : Nat) :
    ¬ pair.Works pf s.db now := by
  intro hx
  obtain ⟨claims, _, hid, hok⟩ := hx
  obtain ⟨_, _, _, _, _, _, _, _, _, _, _, session, _, hv, _, hsession, _⟩ := hs.refreshed hr
  obtain rfl := Value.tokens.inj hv
  obtain ⟨_, payload, _, _, huser, row, hrow, hrid, _⟩ := canActivate_ok hok
  have hrow_id : row.id = session := hrid.trans (huser.symm.trans hid)
  exact (Db.not_mem_of_ids hsession).1 (hrow_id ▸ key_mem_keys hrow)

/-- A pair that is answered works right after its call if and only if it comes from a login. -/
theorem issued_tokens_work_iff (hj : pf.jwt.Lawful) (h : Reachable pf fk s) (hp : s.procs p = none)
    {c : Call} (hc : c.issuesTokens = true) {sched : List Choice}
    (honly : ∀ ch ∈ sched, ch.OnlyMoves p) {pair : TokenPair}
    (hr : (serve pf fk s (.call p c :: sched)).Returned p c (.ok (.tokens pair)))
    (hactive : (serve pf fk s (.call p c :: sched)).db.ActiveHolder pair.familyId)
    (hsoon : (serve pf fk s (.call p c :: sched)).clock / 1000 < s.clock / 1000 + accessTokenTtl) :
    pair.Works pf (serve pf fk s (.call p c :: sched)).db (serve pf fk s (.call p c :: sched)).clock ↔
      ∃ user device, c = .createSession user device := by
  obtain ⟨w₀, _, hs⟩ := h.sound
  cases c with
  | createSession user device =>
    exact ⟨fun _ => ⟨user, device, rfl⟩, fun _ => hs.created_works hj hp honly hr hactive hsoon⟩
  | rotateRefreshToken raw =>
    refine ⟨fun hw => absurd hw ((hs.run _).rotated_not_works hr _), ?_⟩
    intro hx
    obtain ⟨user, device, he⟩ := hx
    exact absurd he (by simp)
  | _ => exact absurd hc (by simp [Call.issuesTokens])

end

theorem sampleLogin_works :
    (createdPair samplePlatform 12 1 3 10 11 0).Works samplePlatform
      (serve samplePlatform .atCommit sampleStart sampleLogin).db 0 := by
  have hactive : (serve samplePlatform .atCommit sampleStart sampleLogin).db.ActiveHolder 11 :=
    ⟨by decide, by decide⟩
  have honly : ∀ ch ∈ sampleLogin.tail, ch.OnlyMoves 0 := by
    simp [sampleLogin, Choice.steps, ReadCommitted.Choice.OnlyMoves]
  have hr : (serve samplePlatform .atCommit sampleStart sampleLogin).Returned 0 (.createSession 1 3)
      (.ok (.tokens (createdPair samplePlatform 12 1 3 10 11 0))) := by decide +kernel
  exact (issued_tokens_work_iff sampleJwt_lawful (sampleStart_reachable samplePlatform .atCommit [])
    rfl rfl honly hr hactive (by decide)).mpr ⟨1, 3, rfl⟩

/-- A refresh of the same login answers a token the guard refuses at once. -/
theorem rotated_token_refused :
    let s := serve samplePlatform .atCommit sampleStart sampleLogin
    let s' := serve samplePlatform .atCommit s (sampleRotation 1 12 14 15 ++ sampleIssue 1 16 17)
    let pair := rotatedPair samplePlatform 14 ⟨11, 1, 3, false, 0, 0⟩ 16 17 0
    s'.Returned 1 (.rotateRefreshToken 12) (.ok (.tokens pair)) ∧ s'.db.ActiveHolder 11 ∧
      canActivate samplePlatform s'.db 0 (some (bearer ++ pair.accessToken)) =
        .error (.unauthorized "Session not found") :=
  ⟨by decide +kernel, ⟨by decide, by decide⟩, by decide +kernel⟩

end GuffSuff
