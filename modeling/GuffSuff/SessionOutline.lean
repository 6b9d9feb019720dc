import GuffSuff.Outlines

/-! Outlines of the calls of `SessionService`. -/

namespace GuffSuff

open ReadCommitted

namespace SessionService

def createdPair (pf : Platform) (raw : RawToken) (user device session family : Uuid)
    (signedAt : Nat) : TokenPair :=
  { accessToken := generateAccessToken pf
      { sessionId := session, userId := user, deviceId := device, sessionVersion := 1 } signedAt
    refreshToken := raw, expiresInSeconds := accessTokenTtl, sessionId := session,
    familyId := family }

def createSessionContract (pf : Platform) (user device : Uuid) (began : World Db) :
    Spec.Contract Db Event Answer where
  trace es := ∀ e ∈ es, ∃ raw session family token now,
    e = .sessionCreated raw user device session family token now
  answer r es _ := ∀ v, r = .ok v → ∃ raw session family token now signedAt,
    es = [.sessionCreated raw user device session family token now] ∧ began.clock ≤ signedAt ∧
      v = .tokens (createdPair pf raw user device session family signedAt)

section
variable {pf : Platform} {user device : Uuid} {w : World Db}

theorem safe_createSession (hi : w.db.Holds) :
    (backend pf).Safe (createSessionContract pf user device w) (createSession pf user device)
      [] [] (applyAll []) [] w := by
  have hC : Tolerates (createSessionContract pf user device w) [] :=
    ⟨fun _ _ _ hv => by simp at hv, fun _ _ _ hv => by simp at hv⟩
  intro w₁ hr₁ hi₁ session _ hs w₂ hr₂ hi₂ family _ hf w₃ hr₃ hi₃
  have h₁ := (Since.start hi).draw hr₁ hi₁ hs
  have h₃ := (h₁.draw hr₂ hi₂ hf).rely hr₃ hi₃
  apply safe_insertSession hC
  intro w₄ hr₄ hi₄ _ hu hd
  have h₄ := h₃.rely hr₄ hi₄
  apply safe_insertFamily hC
  intro w₅ hr₅ hi₅ _ w₆ hr₆ hi₆ raw _ hraw w₇ hr₇ hi₇ token _ ht
  have h₅ := h₄.rely hr₅ hi₅
  have h₇ := (h₅.draw hr₆ hi₆ hraw).draw hr₇ hi₇ ht
  apply safe_insertRefreshToken hC
  intro w₈ hr₈ hi₈ _ hh
  have h₈ := h₇.rely hr₈ hi₈
  apply safe_commit (fun _ => rfl)
  · simp [Event.writes, Write.touches, newSession, newFamily, firstToken]
  · simp [Event.writes, Write.inserts, newSession, newFamily, firstToken]
  · intro w₉ hr₉ hi₉
    have h₉ := h₈.rely hr₉ hi₉
    have hg := (grows_of_rely hr₅).trans ((grows_of_rely hr₆).trans ((grows_of_rely hr₇).trans
      ((grows_of_rely hr₈).trans (grows_of_rely hr₉))))
    have hhash := cell_of_rely hr₉ (k := .tokenHash (pf.hashRefreshToken raw)) (by simp [firstToken])
    refine ⟨⟨?_, ?_, ?_, ?_, ?_, ?_⟩, ?_, ?_⟩
    · rw [hg.users]
      exact hu
    · rw [hg.deviceKeys]
      exact hd
    · exact (Db.not_mem_of_ids (h₉.not_mem_ids (by simp))).1
    · exact (Db.not_mem_of_ids (h₉.not_mem_ids (by simp))).2.1
    · exact (Db.not_mem_of_ids (h₉.not_mem_ids (by simp))).2.2.1
    · simp only [Db.cell, Cell.taken.injEq] at hhash
      rw [hhash]
      exact hh
    · simp [createSessionContract]
    · intro w' hr' _ _ _ _ v hv
      obtain rfl := Except.ok.inj hv
      exact ⟨raw, session, family, token, w₃.clock, w'.clock, rfl,
        h₉.clock.trans hr'.later.clock_le, rfl⟩

end

def RotationEvent (fk : FkCheck) (raw : RawToken) (began : World Db) : Event → Prop
  | .tokenRotated raw' _ _ _ checkedAt _ => fk = .atCommit ∧ raw' = raw ∧ began.clock ≤ checkedAt
  | .graceAnswered raw' _ checkedAt _ => raw' = raw ∧ began.clock ≤ checkedAt
  | .reuseDetected raw' _ family _ sessions _ _ _ _ => raw' = raw ∧
      ∀ s ∈ began.db.sessions, s.userId = family.userId → s.deviceId = family.deviceId →
        s.id ∈ sessions
  | _ => False

def rotatedPair (pf : Platform) (refreshToken : RawToken) (family : RefreshTokenFamily)
    (claimed session : Uuid) (signedAt : Nat) : TokenPair :=
  { accessToken := generateAccessToken pf
      { sessionId := claimed, userId := family.userId, deviceId := family.deviceId,
        sessionVersion := 1 } signedAt
    refreshToken, expiresInSeconds := accessTokenTtl, sessionId := session, familyId := family.id }

def rotateRefreshTokenContract (pf : Platform) (fk : FkCheck) (raw : RawToken) (began : World Db) :
    Spec.Contract Db Event Answer where
  trace es := es.length ≤ 1 ∧ ∀ e ∈ es, RotationEvent fk raw began e
  answer
    | .ok v, es, w => ∃ e old refreshToken family claimed session signedAt,
        es = [e] ∧ e.refreshed = some (old, refreshToken) ∧ family.id = old.familyId ∧
          claimed ∉ w.db.ids ∧ session ∉ w.db.ids ∧ claimed ≠ session ∧
          v = .tokens (rotatedPair pf refreshToken family claimed session signedAt)
    | .error x, es, _ => x = reuseAlert → ∃ e ∈ es, e.isReuse

theorem sessionsWhere_of_grows {db db' : Db} (h : db.Holds) (hg : db.Grows db')
    {p : Session → Bool} (hp : ∀ s s' : Session, s.id = s'.id → s.Grows s' → p s → p s')
    {s : Session} (hs : s ∈ db.sessions) (hps : p s) : s.id ∈ db'.sessionsWhere p := by
  have hl := lookup_of_mem h.identity.sessions hs
  obtain ⟨s', hs', hgs⟩ := hg.sessions s.id s hl
  have hid : s'.id = s.id := lookup_key hs'
  have hm : s' ∈ db'.sessions.filter p :=
    List.mem_filter.mpr ⟨lookup_mem hs', hp s s' hid.symm hgs hps⟩
  exact hid ▸ List.mem_map_of_mem hm

theorem familiesWhere_of_grows {db db' : Db} (h : db.Holds) (hg : db.Grows db')
    {p : RefreshTokenFamily → Bool} (hp : ∀ f f' : RefreshTokenFamily, f.Grows f' → p f → p f')
    {f : RefreshTokenFamily} (hf : f ∈ db.refreshTokenFamilies) (hpf : p f) :
    f.id ∈ db'.familiesWhere p := by
  have hl := lookup_of_mem h.identity.families hf
  obtain ⟨f', hf', hgf⟩ := hg.families f.id f hl
  have hid : f'.id = f.id := lookup_key hf'
  have hm : f' ∈ db'.refreshTokenFamilies.filter p :=
    List.mem_filter.mpr ⟨lookup_mem hf', hp f f' hgf hpf⟩
  exact hid ▸ List.mem_map_of_mem hm

section
variable {pf : Platform} {fk : FkCheck} {raw : RawToken} {began w : World Db}
variable {L : List Key} {D : List Uuid}

theorem rotation_trace {e : Event} (h : RotationEvent fk raw began e) :
    (rotateRefreshTokenContract pf fk raw began).trace ([] ++ [e]) := by
  simpa [rotateRefreshTokenContract] using h

variable (pf fk raw began) in
theorem rotateRefreshToken_tolerates (es : List Event) :
    Tolerates (rotateRefreshTokenContract pf fk raw began) es :=
  ⟨fun _ _ h => by simp [reuseAlert] at h, fun _ _ h => by simp [reuseAlert] at h⟩

theorem safe_issueTokens (h : Since pf began [] w) {e : Event} {old : RefreshToken}
    {refreshToken : RawToken} (he : e.refreshed = some (old, refreshToken))
    {family : RefreshTokenFamily} (hf : family.id = old.familyId) :
    (backend pf).Safe (rotateRefreshTokenContract pf fk raw began)
      (issueTokens pf family refreshToken) [] D (applyAll []) [e] w := by
  intro w₁ hr₁ hi₁ claimed _ hc w₂ hr₂ hi₂ w₃ hr₃ hi₃ session hsD hs w₄ hr₄ hi₄
  have hnew : ∀ x : Uuid, [x] ⊆ x :: D := fun x => List.cons_subset_cons x (List.nil_subset D)
  have hboth : [session, claimed] ⊆ session :: claimed :: D :=
    List.cons_subset_cons session (hnew claimed)
  have h₁ := h.draw (hr₁.mono (List.nil_subset _) (List.nil_subset _)) hi₁ hc
  have h₂ := h₁.rely (hr₂.mono (List.nil_subset _) (hnew claimed)) hi₂
  have h₃ := h₂.draw (hr₃.mono (List.nil_subset _) (hnew claimed)) hi₃ hs
  have h₄ := h₃.rely (hr₄.mono (List.nil_subset _) hboth) hi₄
  refine ⟨e, old, refreshToken, family, claimed, session, w₂.clock, rfl, he, hf, ?_, ?_, ?_, rfl⟩
  · exact h₄.not_mem_ids (by simp)
  · exact h₄.not_mem_ids (by simp)
  · intro heq
    obtain rfl := heq
    exact hsD List.mem_cons_self

theorem safe_reportReuse (h : Since pf began D w) {old : RefreshToken}
    {family : RefreshTokenFamily} {checkedAt now startedAt : Nat}
    (hp : w.db.Presents pf raw old family checkedAt) (hrot : old.isRotated = true)
    (hlate : old.rotatedAt.getD 0 + concurrentGraceMs < now)
    (ht : .token old.id ∈ L) (hf : .family old.familyId ∈ L) :
    (backend pf).Safe (rotateRefreshTokenContract pf fk raw began)
      (reportReuse raw old family checkedAt now startedAt) L D (applyAll []) [] w := by
  have hC := rotateRefreshToken_tolerates pf fk raw began []
  have hfid : family.id = old.familyId := lookup_key hp.family
  intro w₁ hr₁ hi₁
  have h₁ := h.rely hr₁ hi₁
  have hp₁ := hp.rely hr₁ ht hf
  apply safe_write
  apply safe_updateWhere
  intro w₂ w₃ tokens L₃ hr₂ hi₂ htok hr₃ hi₃ hL₃ hsub₃
  have ht' : .token old.id ∈ .family family.id :: L := List.mem_cons_of_mem _ ht
  have hf' : .family old.familyId ∈ .family family.id :: L := List.mem_cons_of_mem _ hf
  have h₃ := (h₁.rely hr₂ hi₂).rely hr₃ hi₃
  have hp₃ := (hp₁.rely hr₂ ht' hf').rely hr₃ ht' hf'
  have ht₃ : .token old.id ∈ L₃ := hsub₃ ht'
  have hf₃ : .family old.familyId ∈ L₃ := hsub₃ hf'
  apply safe_updateWhere
  intro w₄ w₅ sessions L₅ hr₄ hi₄ hsess hr₅ hi₅ hL₅ hsub₅ w₆ hr₆ hi₆ eventId _ hev
  have h₄ := h₃.rely hr₄ hi₄
  have h₆ := (h₄.rely hr₅ hi₅).draw hr₆ hi₆ hev
  have hp₆ := ((hp₃.rely hr₄ ht₃ hf₃).rely hr₅ ht₃ hf₃).rely hr₆ (hsub₅ ht₃) (hsub₅ hf₃)
  apply safe_insertSecurityEvent hC
  intro w₇ hr₇ hi₇
  have hp₇ := hp₆.rely hr₇ (hsub₅ ht₃) (hsub₅ hf₃)
  apply safe_commit (e := .reuseDetected raw old family tokens sessions eventId checkedAt now
    startedAt) (fun _ => rfl)
  · simp only [Event.writes, List.mem_cons, List.not_mem_nil, or_false, forall_eq_or_imp,
      forall_eq, Write.touches, List.mem_map, List.map_nil, List.map_cons]
    refine ⟨.inr (hsub₅ (hfid ▸ hf₃)), ?_, ?_, .inl trivial⟩
    · intro _ hx
      obtain ⟨i, hi, rfl⟩ := hx
      exact .inr (hsub₅ (hL₃ i hi))
    · intro _ hx
      obtain ⟨i, hi, rfl⟩ := hx
      exact .inr (hL₅ i hi)
  · simp [Event.writes, Write.inserts, reuseEvent]
  · intro w₈ hr₈ hi₈
    have hp₈ := hp₇.rely hr₈ (List.mem_cons_of_mem _ (hsub₅ ht₃))
      (List.mem_cons_of_mem _ (hsub₅ hf₃))
    have hg := (grows_of_rely hr₃).trans ((grows_of_rely hr₄).trans ((grows_of_rely hr₅).trans
      ((grows_of_rely hr₆).trans ((grows_of_rely hr₇).trans (grows_of_rely hr₈)))))
    refine ⟨⟨hp₈, hrot, hlate, ?_⟩, ?_, ?_⟩
    · exact parentClosed_of_grows hi₂ hg hi₈ (Q := fun f => f = old.familyId)
        fun i => (htok i).trans Db.mem_tokensOfFamily
    · refine rotation_trace ⟨rfl, fun s hs hu hd => (hsess _).mpr ?_⟩
      apply sessionsWhere_of_grows h.valid h₄.grows ?_ hs (by simp [hu, hd])
      intro s s' _ hg hp
      simpa [hg.userId, hg.deviceId] using hp
    · intro w₉ _ _ _
      exact ⟨_, List.mem_singleton_self _, rfl⟩

theorem safe_rotate (h : Since pf began D w) {old : RefreshToken}
    {family : RefreshTokenFamily} {checkedAt : Nat}
    (hp : w.db.Presents pf raw old family checkedAt) (hrot : old.isRotated = false)
    (hc : began.clock ≤ checkedAt) (ht : .token old.id ∈ L) (hf : .family old.familyId ∈ L) :
    (backend pf).Safe (rotateRefreshTokenContract pf fk raw began)
      (rotate pf fk raw old family checkedAt) L D (applyAll []) [] w := by
  have hC := rotateRefreshToken_tolerates pf fk raw began []
  intro w₁ hr₁ hi₁ newRaw _ hraw w₂ hr₂ hi₂ token _ htok w₃ hr₃ hi₃ w₄ hr₄ hi₄
  have h₂ := (h.draw hr₁ hi₁ hraw).draw hr₂ hi₂ htok
  have h₄ := (h₂.rely hr₃ hi₃).rely hr₄ hi₄
  have hp₄ := (((hp.rely hr₁ ht hf).rely hr₂ ht hf).rely hr₃ ht hf).rely hr₄ ht hf
  apply safe_write
  intro w₅ hr₅ hi₅
  have ht' : .token old.id ∈ .token old.id :: L := List.mem_cons_self
  have hf' : .family old.familyId ∈ .token old.id :: L := List.mem_cons_of_mem _ hf
  have h₅ := h₄.rely hr₅ hi₅
  have hp₅ := hp₄.rely hr₅ ht' hf'
  have hnew := (Db.not_mem_of_ids (h₅.not_mem_ids (x := token) (by simp))).2.2.1
  have hpending : token ∉ keys (applyAll ([] ++ [.rotateRefreshToken old.id token w₃.clock])
      w₅.db).refreshTokens := by simpa [Write.apply] using hnew
  dsimp only
  split
  · exact safe_throw fun w => hC.foreignKey _ w
  · rename_i hfk
    have hdeferred : fk = .atCommit := by
      cases fk with
      | endOfStatement => exact absurd ⟨rfl, hpending⟩ hfk
      | atCommit => rfl
    apply safe_insertRefreshToken hC
    intro w₆ hr₆ hi₆ _ hh
    have h₆ := h₅.rely hr₆ hi₆
    have hp₆ := hp₅.rely hr₆ ht' hf'
    apply safe_commit (e := .tokenRotated raw newRaw old token checkedAt w₃.clock) (fun _ => rfl)
    · simp [Event.writes, Write.touches, childToken]
    · simp [Event.writes, Write.inserts, childToken]
    · intro w₇ hr₇ hi₇
      have h₇ := h₆.rely hr₇ hi₇
      have hp₇ := hp₆.rely hr₇ (by simp) (by simp [hf])
      have hhash := cell_of_rely hr₇ (k := .tokenHash (pf.hashRefreshToken newRaw))
        (by simp [childToken])
      simp only [Db.cell, Cell.taken.injEq] at hhash
      have hid := (Db.not_mem_of_ids (h₇.not_mem_ids (x := token) (by simp))).2.2.1
      have ha : (Event.tokenRotated raw newRaw old token checkedAt w₃.clock).Allowed pf w₇.clock
          w₇.db := ⟨⟨family, hp₇⟩, hrot, hid, hhash.trans hh⟩
      exact ⟨ha, rotation_trace ⟨hdeferred, rfl, hc⟩,
        safe_issueTokens (h₇.commit ha) rfl (lookup_key hp.family)⟩

theorem safe_selectForUpdate {hash : Digest} {k : Option (RefreshToken × RefreshTokenFamily) → Program}
    (h : Since pf began D w)
    (hnone : ∀ L w', (backend pf).Safe (rotateRefreshTokenContract pf fk raw began) (k none) L D
      (applyAll []) [] w')
    (hsome : ∀ w' rt rf, Since pf began D w' → lookup w'.db.refreshTokens rt.id = some rt →
      lookup w'.db.refreshTokenFamilies rt.familyId = some rf → rt.tokenVerifierHash = hash →
        (backend pf).Safe (rotateRefreshTokenContract pf fk raw began) (k (some (rt, rf)))
          [.family rt.familyId, .token rt.id] D (applyAll []) [] w') :
    (backend pf).Safe (rotateRefreshTokenContract pf fk raw began) (selectForUpdate hash k)
      [] D (applyAll []) [] w := by
  intro w₁ hr₁ hi₁
  have h₁ := h.rely hr₁ hi₁
  dsimp only [applyAll_nil]
  cases hfound : w₁.db.tokenByHash hash with
  | none => exact hnone _ _
  | some found =>
    intro w₂ hr₂ hi₂ w₃ hr₃ hi₃
    have h₃ := (h₁.rely hr₂ hi₂).rely hr₃ hi₃
    have hmem : found ∈ w₁.db.refreshTokens := List.mem_of_find?_eq_some hfound
    have hhash : found.tokenVerifierHash = hash := by simpa using List.find?_some hfound
    have hg := (grows_of_rely hr₂).trans (grows_of_rely hr₃)
    obtain ⟨rt, hrt, hgt⟩ := hg.tokens found.id found (lookup_of_mem hi₁.identity.tokens hmem)
    have hid : rt.id = found.id := lookup_key hrt
    simp only [applyAll_nil, hrt]
    cases hrf : lookup w₃.db.refreshTokenFamilies found.familyId with
    | none => exact hnone _ _
    | some rf =>
      have hsafe := hsome w₃ rt rf h₃ (by rw [hid]; exact hrt) (by rw [hgt.familyId]; exact hrf)
        (hgt.tokenVerifierHash.trans hhash)
      rw [hid, hgt.familyId] at hsafe
      exact hsafe

theorem safe_rotateRefreshToken (hi : w.db.Holds) :
    (backend pf).Safe (rotateRefreshTokenContract pf fk raw w) (rotateRefreshToken pf fk raw)
      [] [] (applyAll []) [] w := by
  intro w₁ hr₁ hi₁
  have h₁ := (Since.start hi).rely hr₁ hi₁
  apply safe_selectForUpdate h₁
  · intro L w'
    exact safe_throw fun _ he => absurd he (by decide)
  · intro w₂ token family h₂ hrt hrf hhash w₃ hr₃ hi₃
    have ht : Key.token token.id ∈ [Key.family token.familyId, .token token.id] := by simp
    have hf : Key.family token.familyId ∈ [Key.family token.familyId, .token token.id] := by simp
    have h₃ := h₂.rely hr₃ hi₃
    dsimp only
    split
    · exact safe_throw fun _ he => absurd he (by decide)
    · rename_i hbad
      simp only [Bool.or_eq_true, not_or, Bool.not_eq_true, decide_eq_true_eq, Nat.not_lt] at hbad
      obtain ⟨⟨hcomp, hrev⟩, hexp⟩ := hbad
      have hp₂ : w₂.db.Presents pf raw token family w₃.clock :=
        ⟨hrt, hrf, hhash, hcomp, hrev, hexp⟩
      have hp₃ := hp₂.rely hr₃ ht hf
      split
      · rename_i hrot
        intro w₄ hr₄ hi₄
        have h₄ := h₃.rely hr₄ hi₄
        have hp₄ := hp₃.rely hr₄ ht hf
        have hold := lookup_mem hp₄.token
        obtain ⟨replacement, hrep, _⟩ := hi₄.identity.replacement hold hrot hp₄.unrevoked
        rw [hrep]
        dsimp only
        split
        · rename_i hgrace
          intro w₅ hr₅ hi₅
          have h₅ := h₄.rely hr₅ hi₅
          have hp₅ := hp₄.rely hr₅ ht hf
          obtain ⟨r, hr, hfound⟩ := hi₅.identity.replacement (lookup_mem hp₅.token) hrot
            hp₅.unrevoked
          obtain rfl : r = replacement := Option.some.inj (hr.symm.trans hrep)
          simp only [applyAll_nil, hfound, if_true]
          apply safe_commit (fun _ => rfl)
          · simp [Event.writes]
          · simp [Event.writes]
          · intro w₆ hr₆ hi₆
            have h₆ := h₅.rely hr₆ hi₆
            have ha : (Event.graceAnswered raw token w₃.clock w₄.clock).Allowed pf w₆.clock w₆.db :=
              ⟨⟨family, hp₅.rely hr₆ ht hf⟩, hrot, hgrace⟩
            exact ⟨ha, rotation_trace ⟨rfl, h₃.clock⟩,
              safe_issueTokens (h₆.commit ha) rfl (lookup_key hrf)⟩
        · rename_i hgrace
          exact safe_reportReuse h₄ hp₄ hrot (Nat.lt_of_not_le hgrace) ht hf
      · rename_i hrot
        exact safe_rotate h₃ hp₃ (Bool.eq_false_of_not_eq_true hrot) h₃.clock ht hf

end

theorem safe_updateAlone {C : Spec.Contract Db Event Answer} {rows : Db → List Uuid}
    {key : Uuid → Key} {x : List Uuid → Nat → Write} {e : List Uuid → Nat → Event} {k : Program}
    {pf : Platform} {began w : World Db} {D : List Uuid} {es : List Event}
    (h : Since pf began [] w) (hx : ∀ ids now, (x ids now).touches = ids.map key)
    (hins : ∀ ids now, (x ids now).inserts = [])
    (hw : ∀ ids now, (e ids now).writes pf = [x ids now])
    (hk : ∀ ids now v v', Since pf began [] v → (∀ i, i ∈ ids ↔ i ∈ rows v.db) →
      v.db.Grows v'.db → Since pf began [] v' →
        (e ids now).Allowed pf v'.clock v'.db ∧ C.trace (es ++ [e ids now]) ∧
          ∀ u, Since pf began [] u → (backend pf).Safe C k [] D (applyAll []) (es ++ [e ids now]) u) :
    (backend pf).Safe C (updateAlone rows key x e k) [] D (applyAll []) es w := by
  have hsub : ∀ {L : List Key} {u v : World Db}, (backend pf).Rely L D u v →
      (backend pf).Rely L [] u v := fun hr => hr.mono (List.Subset.refl _) (List.nil_subset _)
  intro w₁ hr₁ hi₁
  have h₁ := h.rely (hsub hr₁) hi₁
  apply safe_updateWhere
  intro w₂ w₃ ids L₃ hr₂ hi₂ hids hr₃ hi₃ hL₃ _
  have h₂ := h₁.rely (hsub hr₂) hi₂
  apply safe_commit
  · exact fun db => by rw [hw, List.nil_append]
  · simp only [hw, List.mem_singleton, forall_eq, hx, List.mem_map]
    intro _ hx
    obtain ⟨i, hi, rfl⟩ := hx
    exact hL₃ i hi
  · simp [hw, hins]
  · intro w₄ hr₄ hi₄
    have h₄ := (h₂.rely (hsub hr₃) hi₃).rely (hsub hr₄) hi₄
    have hg := (grows_of_rely hr₃).trans (grows_of_rely hr₄)
    obtain ⟨ha, ht, hsafe⟩ := hk ids w₁.clock w₂ w₄ h₂ hids hg h₄
    exact ⟨ha, ht, hsafe _ (h₄.commit ha)⟩

def revokeSessionContract (session : Uuid) (began : World Db) : Spec.Contract Db Event Answer where
  trace es := ∀ e ∈ es, ∃ ids now, e = .sessionRevoked session ids now ∧
    (session ∈ keys began.db.sessions → session ∈ ids)
  answer r es _ := ∀ v, r = .ok v → ∃ ids now, es = [.sessionRevoked session ids now]

def RevokeAllEvent (user : Uuid) (began : World Db) : Event → Prop
  | .userSessionsRevoked u ids _ => u = user ∧ ∀ s ∈ began.db.sessions, s.userId = user → s.id ∈ ids
  | .userFamiliesCompromised u ids _ => u = user ∧
      ∀ f ∈ began.db.refreshTokenFamilies, f.userId = user → f.id ∈ ids
  | .userTokensRevoked u _ _ => u = user
  | _ => False

def revokeAllSessionsForUserContract (user : Uuid) (began : World Db) :
    Spec.Contract Db Event Answer where
  trace es := ∀ e ∈ es, RevokeAllEvent user began e
  answer r es _ := ∀ v, r = .ok v → ∃ sessions families tokens t₁ t₂ t₃,
    es = [.userSessionsRevoked user sessions t₁, .userFamiliesCompromised user families t₂,
      .userTokensRevoked user tokens t₃]

section
variable {pf : Platform} {w : World Db}

theorem safe_revokeSession {session : Uuid} (hi : w.db.Holds) :
    (backend pf).Safe (revokeSessionContract session w) (revokeSession session)
      [] [] (applyAll []) [] w := by
  apply safe_updateAlone (Since.start hi) (fun _ _ => rfl) (fun _ _ => rfl) (fun _ _ => rfl)
  intro ids now v v' hv hids _ _
  have hrows : ∀ i, i ∈ ids ↔ ∃ s ∈ v.db.sessions, s.id = session ∧ s.id = i := by
    intro i
    simpa [Db.sessionsWhere, and_assoc] using hids i
  refine ⟨?_, ?_, fun u _ w' _ _ _ _ => ⟨ids, now, rfl⟩⟩
  · intro i hi
    obtain ⟨s, _, hs, rfl⟩ := (hrows i).mp hi
    exact hs
  · simp only [revokeSessionContract, List.nil_append, List.mem_singleton, forall_eq]
    refine ⟨ids, now, rfl, fun hmem => ?_⟩
    obtain ⟨s, hs, hsid⟩ := mem_keys.mp hmem
    have hg := sessionsWhere_of_grows hv.valid hv.grows (p := fun s => s.id = session)
      (fun s s' he _ hp => by simpa [← he] using hp) hs (by simpa using hsid)
    exact hsid ▸ (hids _).mpr hg

theorem safe_revokeAllSessionsForUser {user : Uuid} (hi : w.db.Holds) :
    (backend pf).Safe (revokeAllSessionsForUserContract user w) (revokeAllSessionsForUser user)
      [] [] (applyAll []) [] w := by
  apply safe_updateAlone (Since.start hi) (fun _ _ => rfl) (fun _ _ => rfl) (fun _ _ => rfl)
  intro sessions t₁ v₁ _ hv₁ hs _ _
  have hs' : ∀ s ∈ w.db.sessions, s.userId = user → s.id ∈ sessions := by
    intro s hmem hu
    apply (hs _).mpr
    exact sessionsWhere_of_grows hv₁.valid hv₁.grows
      (fun s s' _ hg hp => by simpa [hg.userId] using hp) hmem (by simpa using hu)
  refine ⟨trivial, by simpa [revokeAllSessionsForUserContract, RevokeAllEvent] using hs', ?_⟩
  intro u₁ hu₁
  apply safe_updateAlone hu₁ (fun _ _ => rfl) (fun _ _ => rfl) (fun _ _ => rfl)
  intro families t₂ v₂ _ hv₂ hf _ _
  have hf' : ∀ f ∈ w.db.refreshTokenFamilies, f.userId = user → f.id ∈ families := by
    intro f hmem hu
    apply (hf _).mpr
    exact familiesWhere_of_grows hv₂.valid hv₂.grows
      (fun f f' hg hp => by simpa [hg.userId] using hp) hmem (by simpa using hu)
  refine ⟨trivial, ?_, ?_⟩
  · simpa [revokeAllSessionsForUserContract, RevokeAllEvent] using ⟨hs', hf'⟩
  intro u₂ hu₂
  apply safe_updateAlone hu₂ (fun _ _ => rfl) (fun _ _ => rfl) (fun _ _ => rfl)
  intro tokens t₃ v₃ v₃' hv₃ ht hg hv₃'
  refine ⟨?_, ?_, fun u _ w' _ _ _ _ => ⟨sessions, families, tokens, t₁, t₂, t₃, rfl⟩⟩
  · exact parentClosed_of_grows hv₃.holds hg hv₃'.holds
      fun i => (ht i).trans Db.mem_tokensOfFamilies
  · simpa [revokeAllSessionsForUserContract, RevokeAllEvent] using ⟨hs', hf'⟩

end

end SessionService

end GuffSuff
