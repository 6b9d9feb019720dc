import GuffSuff.Revocation

/-! A logout revokes the session only: when the refresh tokens of that login
end with it. -/

namespace GuffSuff

open ReadCommitted SessionService
open ReadCommitted.Server (eventsOf)

section
variable {pf : Platform}

/-- A token that a transaction adds to a stored family was rotated out of a
token of that family which passed the checks. -/
theorem Event.Allowed.family_token {e : Event} {clock : Nat} {db : Db} (ha : e.Allowed pf clock db)
    {f : Uuid} (hf : f ∈ keys db.refreshTokenFamilies) {t : RefreshToken}
    (ht : t ∈ (applyAll (e.writes pf) db).refreshTokens) (htf : t.familyId = f) :
    (∃ u ∈ db.refreshTokens, u.Grows t) ∨ ∃ raw old family checkedAt,
      db.Presents pf raw old family checkedAt ∧ old.familyId = f ∧ t.expiresAt = old.expiresAt := by
  rcases token_origin ht with ⟨u, hu, _, hg⟩ | ⟨u, hw, _, hg⟩
  · exact .inl ⟨u, hu, hg⟩
  · cases e with
    | sessionCreated raw user device session family token now =>
      obtain ⟨_, _, _, hnew, _⟩ := ha
      have hu : u = firstToken token family (pf.hashRefreshToken raw) now := by
        simpa [Event.writes] using hw
      have hfam : family = f := by
        rw [← htf, hg.familyId, hu]
        rfl
      exact absurd (hfam ▸ hf) hnew
    | tokenRotated raw newRaw old replacement checkedAt now =>
      obtain ⟨⟨family, hp⟩, _⟩ := ha
      have hu : u = childToken old replacement (pf.hashRefreshToken newRaw) now := by
        simpa [Event.writes] using hw
      refine .inr ⟨raw, old, family, checkedAt, hp, ?_, ?_⟩
      · rw [← htf, hg.familyId, hu]
        rfl
      · rw [hg.expiresAt, hu]
        rfl
    | envelopeSubmitted envelope record recipients => simp [Event.writes] at hw
    | _ => simp [Event.writes] at hw

structure Db.Spent (db : Db) (f : Uuid) (c : Nat) : Prop where
  stored : f ∈ keys db.refreshTokenFamilies
  token : ∀ t ∈ db.refreshTokens, t.familyId = f → t.isRevoked = true ∨ t.expiresAt < c

theorem Db.Spent.event {db : Db} {f : Uuid} {c clock : Nat} (h : db.Spent f c) {e : Event}
    (ha : e.Allowed pf clock db) : (applyAll (e.writes pf) db).Spent f c where
  stored := by
    obtain ⟨row, hrow⟩ := Option.isSome_iff_exists.mp (lookup_isSome.mpr h.stored)
    obtain ⟨_, hrow', _⟩ := (grows_applyAll (e.writes pf) db).families f row hrow
    exact mem_keys_of_lookup hrow'
  token := by
    intro t ht htf
    rcases ha.family_token h.stored ht htf with ⟨u, hu, hg⟩ | ⟨_, old, _, _, hp, hold, hexp⟩
    · rcases h.token u hu (hg.familyId.symm.trans htf) with hr | hr
      · exact .inl (hg.revoked hr)
      · exact .inr (hg.expiresAt ▸ hr)
    · rcases h.token old (lookup_mem hp.token) hold with hr | hr
      · rw [hp.unrevoked] at hr
        exact absurd hr (by decide)
      · exact .inr (hexp ▸ hr)

theorem Db.Spent.path {v w : World Db} {es : List Event} (h : (backend pf).Path v es w) {f : Uuid}
    {c : Nat} (hs : v.db.Spent f c) : w.db.Spent f c := by
  apply h.keeps (P := fun _ db => db.Spent f c) (fun _ _ _ hp _ => hp) ?_ hs
  intro _ db e _ hp hm
  obtain ⟨ha, rfl⟩ := hm
  exact hp.event ha

end

section
variable {pf : Platform} {fk : FkCheck} {w₀ : World Db} {s : Server}

def NoRotationRunning (s : Server) : Prop :=
  ∀ q qr raw, s.procs q = some qr → qr.call = .rotateRefreshToken raw → ∃ r, qr.Finished r

/-- What else ends the refresh tokens of family `f`: that no rotation can
commit, the mark of compromise, or that each token is revoked or expired. -/
def CredentialsEnded (fk : FkCheck) (s : Server) (f : Uuid) : Prop :=
  fk = .endOfStatement ∨ s.db.Barred f ∨ ∀ t ∈ s.db.refreshTokens, t.familyId = f →
    t.isRevoked = true ∨ (t.expiresAt < s.clock ∧ NoRotationRunning s)

theorem SoundRun.familiesClosed_endOfStatement (h : SoundRun pf .endOfStatement w₀ s)
    (h₀ : w₀.db.Initial) (F : Uuid → Prop) : FamiliesClosed pf .endOfStatement s F := by
  intro sched q raw v hr _ f _ _
  obtain ⟨qr, e, _, _, hq, hc, hes, _⟩ := (h.run sched).refreshed hr
  rw [(h.run sched).rotation_silent h₀ hq hc] at hes
  exact absurd hes (by simp)

theorem SoundRun.familiesClosed_of_spent (h : SoundRun pf fk w₀ s) {f : Uuid}
    (hf : f ∈ keys s.db.refreshTokenFamilies)
    (hspent : ∀ t ∈ s.db.refreshTokens, t.familyId = f →
      t.isRevoked = true ∨ (t.expiresAt < s.clock ∧ NoRotationRunning s)) :
    FamiliesClosed pf fk s (· = f) := by
  intro sched q raw v hr hnew f heq ht
  obtain rfl := heq
  obtain ⟨qr, e, es, c, db, old, _, _, checkedAt, hq, hc, _, hpath, _, _, _, hold, hclock, hp, _⟩ :=
    h.later_refresh hr hnew ht
  have hmem := lookup_mem hp.token
  have hunrevoked : ¬ old.isRevoked = true := by simp [hp.unrevoked]
  by_cases hquiet : NoRotationRunning s
  · have hs : s.db.Spent f s.clock :=
      ⟨hf, fun t ht htf => (hspent t ht htf).imp_right And.left⟩
    have hexp := ((hs.path hpath).token old hmem hold).resolve_left hunrevoked
    have hbegan : s.clock ≤ qr.began.clock := by
      cases hq₀ : s.procs q with
      | none => exact (h.starts hq₀ hq).clock_le
      | some qr₀ =>
        obtain ⟨qr', hq', hcont⟩ := serve_continues pf fk sched hq₀
        obtain rfl := Option.some.inj (hq'.symm.trans hq)
        have hc₀ := hcont.call.symm.trans hc
        obtain ⟨r, hfin⟩ := hquiet q qr₀ raw hq₀ hc₀
        obtain rfl := hcont.finished r hfin
        obtain ⟨qr'', hq'', _, hfin'⟩ := ReadCommitted.Server.returned_iff.mp hr
        obtain rfl := Option.some.inj (hq''.symm.trans hq)
        have hret := ReadCommitted.Server.returned_iff.mpr ⟨qr'', hq₀, hc₀, hfin'⟩
        obtain ⟨_, _, _, _, _, _, hes, _⟩ := h.refreshed hret
        rw [hnew] at hes
        exact absurd hes (by simp)
    have hexp' := hp.unexpired
    omega
  · have hs : s.db.Spent f 0 :=
      ⟨hf, fun t ht htf => .inl ((hspent t ht htf).resolve_right fun hn => hquiet hn.2)⟩
    have hexp := ((hs.path hpath).token old hmem hold).resolve_left hunrevoked
    omega

theorem FamiliesClosed.later {F : Uuid → Prop} (h : SoundRun pf fk w₀ s)
    (hF : FamiliesClosed pf fk s F) (sched : List Choice) :
    FamiliesClosed pf fk (serve pf fk s sched) F := by
  intro sched' q raw v hr hnew f hf
  have happ : serve pf fk (serve pf fk s sched) sched' = serve pf fk s (sched ++ sched') :=
    (List.foldl_append ..).symm
  obtain ⟨new, hadd, _⟩ := h.added sched
  rw [hadd.log, ReadCommitted.Server.eventsOf_append, List.append_eq_nil_iff] at hnew
  rw [happ] at hr ⊢
  exact hF (sched ++ sched') q raw v hr hnew.1 f hf

structure LoggingOut (s : Server) (p : Nat) (session family : Uuid) : Prop where
  created : ∃ raw user device token now,
    Event.sessionCreated raw user device session family token now ∈ s.log.map Prod.snd
  running : ∃ pr, s.procs p = some pr ∧ pr.call = .revokeSession session ∧
    session ∈ keys pr.began.db.sessions
  uncommitted : eventsOf s.log p = []

theorem LoggingOut.family_mem (h : SoundRun pf fk w₀ s) (h₀ : w₀.db.Initial) {p : Nat}
    {session family : Uuid} (hl : LoggingOut s p session family) :
    family ∈ keys s.db.refreshTokenFamilies := by
  obtain ⟨raw, user, device, token, now, he⟩ := hl.created
  obtain ⟨⟨q, e⟩, hq, he'⟩ := List.mem_map.mp he
  obtain ⟨c, db, _, _, _, ⟨_, rfl⟩, hlater⟩ := h.entry h₀.holds hq
  have hmem : family ∈ keys (applyAll (e.writes pf) db).refreshTokenFamilies := by
    obtain rfl : e = .sessionCreated raw user device session family token now := he'
    simp [Event.writes, Write.apply, newFamily]
  obtain ⟨row, hrow⟩ := Option.isSome_iff_exists.mp (lookup_isSome.mpr hmem)
  obtain ⟨_, hrow', _⟩ := (grows_of_later hlater).families family row hrow
  exact mem_keys_of_lookup hrow'

/-- A logout that commits ends the access tokens of its session in any case, and
the refresh tokens of its family where something else has ended them. -/
theorem logout_ends_login (h : Reachable pf fk s) {p : Nat} {session family : Uuid}
    (hl : LoggingOut s p session family) {ids : List Uuid}
    (hcommit : eventsOf (serve pf fk s [.exec p ids]).log p ≠ [])
    (hended : CredentialsEnded fk s family) :
    FamiliesClosed pf fk (serve pf fk s [.exec p ids]) (· = family) ∧
      SessionsClosed pf fk (serve pf fk s [.exec p ids]) (· = session) := by
  obtain ⟨w₀, h₀, hs⟩ := h.sound
  have hs' := hs.run [.exec p ids]
  constructor
  · apply FamiliesClosed.later hs
    rcases hended with rfl | hbarred | hspent
    · exact hs.familiesClosed_endOfStatement h₀ _
    · exact hs.familiesClosed_of_barred fun f hf => hf ▸ hbarred
    · exact hs.familiesClosed_of_spent (hl.family_mem hs h₀) hspent
  · obtain ⟨pr, hp, hc, hknown⟩ := hl.running
    obtain ⟨pr', hp', hcont⟩ := serve_continues pf fk [.exec p ids] hp
    obtain ⟨e, he⟩ := List.exists_mem_of_ne_nil _ hcommit
    obtain ⟨pr'', hp'', ht⟩ := hs'.trace he
    obtain rfl := Option.some.inj (hp''.symm.trans hp')
    rw [hcont.call, hc, hcont.began] at ht
    obtain ⟨rows, now, rfl, hrows⟩ := ht e he
    apply hs'.sessionsClosed_of_revoked
    intro i heq
    obtain rfl := heq
    have hw : Write.revokeSessions rows now ∈ (Event.sessionRevoked i rows now).writes pf := by
      simp [Event.writes]
    apply hs'.sessionRevoked_of_event hp' he hw (hrows hknown)
    rw [hcont.began]
    exact hknown

end

/-- On the key of migration 001 a logout that commits ends its login: no rotation
commits there, and so no token of the family answers another pair. -/
theorem logout_final {pf : Platform} {s : Server} (h : Reachable pf .endOfStatement s) {p : Nat}
    {session family : Uuid} (hl : LoggingOut s p session family) {ids : List Uuid}
    (hcommit : eventsOf (serve pf .endOfStatement s [.exec p ids]).log p ≠ []) :
    FamiliesClosed pf .endOfStatement (serve pf .endOfStatement s [.exec p ids]) (· = family) ∧
      SessionsClosed pf .endOfStatement (serve pf .endOfStatement s [.exec p ids]) (· = session) :=
  logout_ends_login h hl hcommit (.inl rfl)

def sampleLogout (between : List Choice) : List Choice :=
  sampleLogin ++ [.call 1 (.revokeSession 10)] ++ between ++ [.exec 1 [], .exec 1 [10]] ++
    Choice.steps 1 2

section
variable {fk : FkCheck}

theorem sampleLogout_loggingOut {between : List Choice}
    (hlog : .sessionCreated 12 1 3 10 11 13 0 ∈
      (serve samplePlatform fk sampleStart (sampleLogout between)).log.map Prod.snd)
    (hrun : ((serve samplePlatform fk sampleStart (sampleLogout between)).procs 1).map
      (fun pr => (pr.call, keys pr.began.db.sessions)) = some (.revokeSession 10, [10]))
    (hnew : eventsOf (serve samplePlatform fk sampleStart (sampleLogout between)).log 1 = []) :
    LoggingOut (serve samplePlatform fk sampleStart (sampleLogout between)) 1 10 11 := by
  obtain ⟨pr, hp, hpr⟩ := Option.map_eq_some_iff.mp hrun
  obtain ⟨hc, hk⟩ := Prod.mk.inj hpr
  exact ⟨⟨12, 1, 3, 13, 0, hlog⟩, ⟨pr, hp, hc, by simp [hk]⟩, hnew⟩

end

theorem sampleLogout_final :
    let s := serve samplePlatform .endOfStatement sampleStart (sampleLogout [])
    FamiliesClosed samplePlatform .endOfStatement (serve samplePlatform .endOfStatement s [.exec 1 []])
        (· = 11) ∧
      SessionsClosed samplePlatform .endOfStatement (serve samplePlatform .endOfStatement s [.exec 1 []])
        (· = 10) := by
  intro s
  apply logout_final (sampleStart_reachable samplePlatform .endOfStatement _)
  · exact sampleLogout_loggingOut (by decide) (by decide) (by decide)
  · decide

/-- On a key that waits for `COMMIT`, the refresh token of a login still answers a new pair after
its logout. -/
theorem logout_leaves_family_open :
    let s := serve samplePlatform .atCommit sampleStart (sampleLogout [])
    LoggingOut s 1 10 11 ∧ eventsOf (serve samplePlatform .atCommit s [.exec 1 []]).log 1 ≠ [] ∧
      ¬ FamiliesClosed samplePlatform .atCommit (serve samplePlatform .atCommit s [.exec 1 []])
        (· = 11) := by
  refine ⟨sampleLogout_loggingOut (by decide) (by decide) (by decide), by decide, ?_⟩
  intro hclosed
  exact hclosed (sampleRotation 2 12 14 15 ++ sampleIssue 2 16 17) 2 12
    (.tokens (rotatedPair samplePlatform 14 ⟨11, 1, 3, false, 0, 0⟩ 16 17 0)) (by decide +kernel)
    (by decide) 11 rfl (by decide)

end GuffSuff
