import GuffSuff.Services

/-! Rotation against the declared schema: the old token points to its
replacement one statement before that row exists. -/

namespace GuffSuff

open ReadCommitted SessionService

/-- The constraints of migration 001 on the modelled tables. -/
structure Db.Migration001 (db : Db) : Prop where
  usersPkey : (keys db.users).Nodup
  devicesPkey : (keys db.devices).Nodup
  sessionsPkey : (keys db.sessions).Nodup
  familiesPkey : (keys db.refreshTokenFamilies).Nodup
  tokensPkey : (keys db.refreshTokens).Nodup
  securityEventsPkey : (keys db.securityEvents).Nodup
  tokenVerifierHashKey : (db.refreshTokens.map RefreshToken.tokenVerifierHash).Nodup
  sessionUserFkey : ∀ s ∈ db.sessions, s.userId ∈ keys db.users
  sessionDeviceFkey : ∀ s ∈ db.sessions, s.deviceId ∈ keys db.devices
  deviceUserFkey : ∀ d ∈ db.devices, d.userId ∈ keys db.users
  familyUserFkey : ∀ f ∈ db.refreshTokenFamilies, f.userId ∈ keys db.users
  familyDeviceFkey : ∀ f ∈ db.refreshTokenFamilies, f.deviceId ∈ keys db.devices
  tokenFamilyFkey : ∀ t ∈ db.refreshTokens, t.familyId ∈ keys db.refreshTokenFamilies
  parentTokenFkey : ∀ t ∈ db.refreshTokens, ∀ i ∈ t.parentTokenId, i ∈ keys db.refreshTokens
  replacementTokenFkey : ∀ t ∈ db.refreshTokens, ∀ i ∈ t.replacementTokenId,
    i ∈ keys db.refreshTokens
  securityEventUserFkey : ∀ e ∈ db.securityEvents, e.userId ∈ keys db.users
  securityEventDeviceFkey : ∀ e ∈ db.securityEvents, ∀ i ∈ e.deviceId, i ∈ keys db.devices

/-- A specification that lets nothing commit. -/
def frozen (db₀ : Db) : Spec Db Key Uuid Event Cell where
  moves _ _ _ _ := False
  holds _ db := db = db₀
  cell := Db.cell
  has x db := x ∈ db.ids
  holds_move := fun _ h => h.elim
  holds_tick := fun h _ => h

def failingContract (c : Call) : Spec.Contract Db Event Answer where
  trace es := es = []
  answer r _ _ := ∀ raw, c = .rotateRefreshToken raw → ∀ v, r ≠ .ok v

section
variable {pf : Platform} {db : Db} {raw : RawToken} {t : RefreshToken} {f : RefreshTokenFamily}
variable {clock : Nat}

theorem tokenByHash_of_presents (hm : db.Migration001) (hp : db.Presents pf raw t f clock) :
    db.tokenByHash (pf.hashRefreshToken raw) = some t := by
  have ht := lookup_mem hp.token
  obtain ⟨u, hu⟩ := Option.isSome_iff_exists.mp
    (List.find?_isSome (p := fun u : RefreshToken => u.tokenVerifierHash == pf.hashRefreshToken raw).mpr
      ⟨t, ht, by simp [hp.hash]⟩)
  have hhash : u.tokenVerifierHash = pf.hashRefreshToken raw := by simpa using List.find?_some hu
  have heq : u = t := List.inj_on_of_nodup_map hm.tokenVerifierHashKey
    (List.mem_of_find?_eq_some hu) ht (hhash.trans hp.hash.symm)
  rw [Db.tokenByHash, hu, heq]

theorem frozen_throw {c : Call} {e : Failure} {L : List Key} {D : List Uuid} {g : Db → Db}
    {w : World Db} : (frozen db).Safe (failingContract c) (throw e) L D g [] w :=
  fun _ _ _ _ _ _ hv => absurd hv (by simp)

/-- An outline without a commit: the foreign key stops the call first. -/
theorem frozen_rotateRefreshToken (hm : db.Migration001) (hp : db.Presents pf raw t f clock)
    (hr : t.isRotated = false) {c : Call} {w : World Db} : (frozen db).Safe (failingContract c)
      (rotateRefreshToken pf .endOfStatement raw) [] [] id [] w := by
  intro w₁ _ _ w₂ _ hi₂
  obtain rfl : w₂.db = db := hi₂
  simp only [id, tokenByHash_of_presents hm hp]
  intro w₃ _ _ w₄ _ hi₄
  have hdb₄ : w₄.db = w₂.db := hi₄
  simp only [id, hdb₄, hp.token, hp.family]
  intro w₅ _ _
  dsimp only
  split
  · exact frozen_throw
  · rw [if_neg (by simp [hr])]
    intro w₆ _ _ newRaw _ _ w₇ _ hi₇ token _ htoken w₈ _ _ w₉ _ _ w₁₀ _ hi₁₀
    have hdb₇ : w₇.db = w₂.db := hi₇
    have hdb₁₀ : w₁₀.db = w₂.db := hi₁₀
    have hnew : token ∉ keys w₂.db.refreshTokens := (Db.not_mem_of_ids (hdb₇ ▸ htoken)).2.2.1
    have hmissing : token ∉ keys ((Write.rotateRefreshToken t.id token w₈.clock).apply
        w₁₀.db).refreshTokens := by simpa [hdb₁₀, Write.apply] using hnew
    dsimp only [id]
    rw [if_pos ⟨rfl, hmissing⟩]
    exact frozen_throw

/-- Whatever number of refreshes of the token run, in whatever order and with
whatever failures, none commits and none answers a pair. -/
theorem refreshes_blocked (hm : db.Migration001) (hp : db.Presents pf raw t f clock)
    (hr : t.isRotated = false) {used : List Uuid} (hused : ∀ x ∈ db.ids, x ∈ used)
    {sched : List Choice} (hsched : ∀ p c, .call p c ∈ sched → c = .rotateRefreshToken raw) :
    ReadCommitted.Server.Sound (frozen db) (fun c _ => failingContract c) ⟨clock, db⟩
      (serve pf .endOfStatement (.boot db clock used) sched) := by
  apply ReadCommitted.Server.Sound.run
  · exact ReadCommitted.Server.sound_boot rfl hused
  · intro ch hch
    cases ch with
    | call p c =>
      obtain rfl := hsched p c hch
      exact fun w _ => ⟨rfl, frozen_rotateRefreshToken hm hp hr⟩
    | fail p =>
      intro _ _ _ _ raw' heq v hv
      obtain rfl := heq
      exact absurd hv (by simp [Call.aborted])
    | _ => trivial

theorem rotation_violates_fkey (hm : db.Migration001) (hp : db.Presents pf raw t f clock)
    (hr : t.isRotated = false) {used : List Uuid} (hused : ∀ x ∈ db.ids, x ∈ used) (p : Nat)
    {x y : Uuid} (hx : x ∉ used) (hy : y ∉ used) (hxy : y ≠ x) :
    (serve pf .endOfStatement (.boot db clock used) (sampleRotation p raw x y)).Returned p
      (.rotateRefreshToken raw)
      (.error (.foreignKeyViolation "refresh_tokens_replacement_token_id_fkey")) := by
  have hfind := tokenByHash_of_presents hm hp
  have hnew : y ∉ keys db.refreshTokens := (Db.not_mem_of_ids fun h => hy (hused y h)).2.2.1
  have hexp : ¬ t.expiresAt < clock := Nat.not_lt.mpr hp.unexpired
  -- the thirteen choices of the schedule, each computed on the state the one before it left
  simp [serve, ReadCommitted.Server.run, sampleRotation, Choice.steps, List.replicate,
    ReadCommitted.Server.step, ReadCommitted.Server.exec, ReadCommitted.Server.boot,
    ReadCommitted.Server.setProc, Process.start, Call.program, rotateRefreshToken, selectForUpdate,
    hfind, hp.token, hp.family, hp.uncompromised, hp.unrevoked, hexp, hr, rotate, hx, hy, hxy, hnew,
    Write.apply, ReadCommitted.Server.Returned, throw, ReadCommitted.Program.result]

/-- No live token of any database can be rotated against the declared schema. -/
theorem rotation_never_commits (hm : db.Migration001) (hp : db.Presents pf raw t f clock)
    (hr : t.isRotated = false) {used : List Uuid} (hused : ∀ x ∈ db.ids, x ∈ used) :
    (∀ sched, (∀ p c, .call p c ∈ sched → c = .rotateRefreshToken raw) →
      (serve pf .endOfStatement (.boot db clock used) sched).db = db ∧
      (serve pf .endOfStatement (.boot db clock used) sched).log = [] ∧
      ∀ p v, ¬ (serve pf .endOfStatement (.boot db clock used) sched).Returned p
        (.rotateRefreshToken raw) (.ok v)) ∧
    ∀ p x y, x ∉ used → y ∉ used → y ≠ x →
      (serve pf .endOfStatement (.boot db clock used) (sampleRotation p raw x y)).Returned p
        (.rotateRefreshToken raw)
        (.error (.foreignKeyViolation "refresh_tokens_replacement_token_id_fkey")) := by
  refine ⟨fun sched hsched => ?_, fun p x y hx hy hxy => ?_⟩
  · have hs := refreshes_blocked hm hp hr hused hsched
    refine ⟨hs.holds, List.eq_nil_iff_forall_not_mem.mpr ?_, ?_⟩
    · intro hx he
      obtain ⟨p, e⟩ := hx
      obtain ⟨_, _, _, _, _, hmove, _⟩ := hs.entry rfl he
      exact hmove
    · intro p v hret
      obtain ⟨pr, hpr, hc, hfin⟩ := ReadCommitted.Server.returned_iff.mp hret
      exact hs.post hpr hfin raw hc v rfl
  · exact rotation_violates_fkey hm hp hr hused p hx hy hxy

end

def sampleLoggedIn : Db := (serve samplePlatform .endOfStatement sampleStart sampleLogin).db

theorem sampleLoggedIn_migration001 : sampleLoggedIn.Migration001 := by
  constructor <;> decide

theorem sampleLoggedIn_presents : sampleLoggedIn.Presents samplePlatform 12
    (firstToken 13 11 12 0) (newFamily 11 1 3 0) 0 := by
  constructor <;> decide

theorem sampleLoggedIn_never_rotates :
    sampleLoggedIn.Migration001 ∧
      sampleLoggedIn.Presents samplePlatform 12 (firstToken 13 11 12 0) (newFamily 11 1 3 0) 0 ∧
      ∀ p x y, x ∉ List.range 14 → y ∉ List.range 14 → y ≠ x →
        (serve samplePlatform .endOfStatement (.boot sampleLoggedIn 0 (List.range 14))
          (sampleRotation p 12 x y)).Returned p (.rotateRefreshToken 12)
          (.error (.foreignKeyViolation "refresh_tokens_replacement_token_id_fkey")) :=
  ⟨sampleLoggedIn_migration001, sampleLoggedIn_presents,
    (rotation_never_commits sampleLoggedIn_migration001 sampleLoggedIn_presents rfl (by decide)).2⟩

theorem first_refresh_violates_fkey :
    sampleLoggedIn.Migration001 ∧
      sampleLoggedIn.Presents samplePlatform 12 (firstToken 13 11 12 0) (newFamily 11 1 3 0) 0 ∧
      (serve samplePlatform .endOfStatement (.boot sampleLoggedIn 0 (List.range 14))
        (sampleRotation 1 12 14 15)).Returned 1 (.rotateRefreshToken 12)
        (.error (.foreignKeyViolation "refresh_tokens_replacement_token_id_fkey")) :=
  ⟨sampleLoggedIn_migration001, sampleLoggedIn_presents, by decide⟩

end GuffSuff
