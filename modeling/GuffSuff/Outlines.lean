import GuffSuff.Backend

/-! Rules for the outlines of the services: the pending writes of a call are a
list, and each statement adds to it under the locks it takes. -/

namespace GuffSuff

open ReadCommitted SessionService

section
variable {pf : Platform} {C : Spec.Contract Db Event Answer}
variable {L : List Key} {D : List Uuid} {ws : List Write} {es : List Event} {w : World Db}

theorem cell_of_rely {w' : World Db} {k : Key} (h : (backend pf).Rely L D w w') (hk : k ∈ L) :
    w'.db.cell k = w.db.cell k := h.same k hk

theorem grows_of_rely {w' : World Db} (h : (backend pf).Rely L D w w') : w.db.Grows w'.db :=
  grows_of_later h.later

theorem Db.Presents.rely {w' : World Db} {raw : RawToken} {old : RefreshToken}
    {rf : RefreshTokenFamily} {checkedAt : Nat} (h : w.db.Presents pf raw old rf checkedAt)
    (hr : (backend pf).Rely L D w w') (ht : .token old.id ∈ L) (hf : .family old.familyId ∈ L) :
    w'.db.Presents pf raw old rf checkedAt := by
  have hct := cell_of_rely hr ht
  have hcf := cell_of_rely hr hf
  simp only [Db.cell, Cell.token.injEq, Cell.family.injEq] at hct hcf
  exact { h with token := hct.trans h.token, family := hcf.trans h.family }

/-- Parents of a token belong to its family, so all tokens of some families are
closed under parents, and stay so. -/
theorem parentClosed_of_grows {db db' : Db} (h : db.Holds) (hg : db.Grows db')
    (h' : db'.Holds) {ids : List Uuid} {Q : Uuid → Prop}
    (hids : ∀ i, i ∈ ids ↔ ∃ t ∈ db.refreshTokens, t.id = i ∧ Q t.familyId) :
    db'.ParentClosed ids := by
  intro t ht hti p hp
  obtain ⟨s, hs, hst, hq⟩ := (hids t.id).mp hti
  obtain ⟨t', ht', hgt⟩ := hg.tokens s.id s (lookup_of_mem h.identity.tokens hs)
  have htt : t' = t :=
    eq_of_key_eq h'.identity.tokens (lookup_mem ht') ht ((lookup_key ht').trans hst)
  have hsp : s.parentTokenId = some p := by
    rw [← hgt.parentTokenId, htt]
    exact hp
  obtain ⟨u, hu, hup, huf, _⟩ := h.identity.parent_mem hs hsp
  exact (hids p).mpr ⟨u, hu, hup, huf ▸ hq⟩

theorem safe_throw {e : Failure} (h : ∀ w, C.answer (.error e) es w) :
    (backend pf).Safe C (throw e) L D (applyAll ws) es w := fun w' _ _ => h w'

theorem safe_write {x : Write} {k : Program}
    (h : (backend pf).Safe C k L D (applyAll (ws ++ [x])) es w) :
    (backend pf).Safe C (.write x.apply k) L D (applyAll ws) es w := by
  have hws : (fun db => x.apply (applyAll ws db)) = applyAll (ws ++ [x]) := by
    funext db
    simp [applyAll_append]
  change (backend pf).Safe C k L D (fun db => x.apply (applyAll ws db)) es w
  rw [hws]
  exact h

structure Tolerates (C : Spec.Contract Db Event Answer) (es : List Event) : Prop where
  unique : ∀ c w, C.answer (.error (.uniqueViolation c)) es w
  foreignKey : ∀ c w, C.answer (.error (.foreignKeyViolation c)) es w

theorem safe_unique {c : String} (h : Tolerates C es) :
    (backend pf).Safe C (throw (.uniqueViolation c)) L D (applyAll ws) es w :=
  safe_throw fun w => h.unique c w

theorem safe_foreignKey {c : String} (h : Tolerates C es) :
    (backend pf).Safe C (throw (.foreignKeyViolation c)) L D (applyAll ws) es w :=
  safe_throw fun w => h.foreignKey c w

theorem safe_check {c : Prop} [Decidable c] {x : Failure} {k : Program} {f : Db → Db}
    (hbad : (backend pf).Safe C (throw x) L D f es w)
    (h : ¬ c → (backend pf).Safe C k L D f es w) :
    (backend pf).Safe C (if c then throw x else k) L D f es w := by
  by_cases hc : c
  · rw [if_pos hc]
    exact hbad
  · rw [if_neg hc]
    exact h hc

/-- A commit publishes exactly the writes of its event, under locks on all of
them and with drawn identifiers only. -/
theorem safe_commit {e : Event} {k : Program} (hws : ∀ db, applyAll ws db = applyAll (e.writes pf) db)
    (hL : ∀ x ∈ e.writes pf, ∀ k ∈ x.touches, k ∈ L)
    (hD : ∀ x ∈ e.writes pf, ∀ i ∈ x.inserts, i ∈ D)
    (h : ∀ w', (backend pf).Rely L D w w' → w'.db.Holds →
      e.Allowed pf w'.clock w'.db ∧ C.trace (es ++ [e]) ∧
        (backend pf).Safe C k [] D (applyAll []) (es ++ [e])
          ⟨w'.clock, applyAll (e.writes pf) w'.db⟩) :
    (backend pf).Safe C (.commit e k) L D (applyAll ws) es w := by
  intro w' hr hi
  obtain ⟨ha, ht, hk⟩ := h w' hr hi
  rw [hws]
  refine ⟨⟨ha, rfl⟩, ?_, ?_, ht, hk⟩
  · intro key hkey
    exact cell_applyAll (fun x hx hmem => hkey (hL x hx key hmem)) w'.db
  · intro i hmem
    rcases ids_applyAll hmem with hmem | ⟨x, hx, hmem⟩
    · exact .inl hmem
    · exact .inr (hD x hx i hmem)

theorem safe_observe {accept : Db → List Uuid → Bool} {e : Db → List Uuid → Event}
    {k : Db → List Uuid → Program} (hw : ∀ db ids, (e db ids).writes pf = [])
    (h : ∀ w', (backend pf).Rely L D w w' → w'.db.Holds → ∀ ids,
      accept (applyAll ws w'.db) ids = true →
        (e (applyAll ws w'.db) ids).Allowed pf w'.clock w'.db ∧
        C.trace (es ++ [e (applyAll ws w'.db) ids]) ∧
        (backend pf).Safe C (k (applyAll ws w'.db) ids) L D (applyAll ws)
          (es ++ [e (applyAll ws w'.db) ids]) w') :
    (backend pf).Safe C (.observe accept e k) L D (applyAll ws) es w := by
  intro w' hr hi ids hacc
  obtain ⟨ha, ht, hk⟩ := h w' hr hi ids hacc
  refine ⟨⟨ha, ?_⟩, ht, hk⟩
  rw [hw]
  rfl

end

/-- What stays known of a call that began on `began` and has drawn `D`. -/
structure Since (pf : Platform) (began : World Db) (D : List Uuid) (w : World Db) : Prop where
  valid : began.db.Holds
  clock : began.clock ≤ w.clock
  grows : began.db.Grows w.db
  fresh : (backend pf).Fresh D w
  holds : w.db.Holds

namespace Since
variable {pf : Platform} {began : World Db} {L : List Key} {D : List Uuid} {w w' : World Db}

theorem start (h : w.db.Holds) : Since pf w [] w := ⟨h, Nat.le_refl _, .refl _, .nil _, h⟩

theorem rely (h : Since pf began D w) (hr : (backend pf).Rely L D w w') (hi : w'.db.Holds) :
    Since pf began D w' :=
  ⟨h.valid, h.clock.trans hr.later.clock_le, h.grows.trans (grows_of_rely hr), h.fresh.rely hr, hi⟩

theorem draw (h : Since pf began D w) (hr : (backend pf).Rely L D w w') (hi : w'.db.Holds)
    {x : Uuid} (hx : ¬ x ∈ w'.db.ids) : Since pf began (x :: D) w' :=
  ⟨h.valid, h.clock.trans hr.later.clock_le, h.grows.trans (grows_of_rely hr),
    (h.fresh.rely hr).cons hx, hi⟩

theorem commit (h : Since pf began D w) {e : Event} (ha : e.Allowed pf w.clock w.db) :
    Since pf began [] ⟨w.clock, applyAll (e.writes pf) w.db⟩ :=
  ⟨h.valid, h.clock, h.grows.trans (grows_applyAll _ _), .nil _, h.holds.event ha⟩

theorem not_mem_ids (h : Since pf began D w) {x : Uuid} (hx : x ∈ D) : x ∉ w.db.ids := h.fresh x hx

end Since

theorem Db.not_mem_of_ids {db : Db} {x : Uuid} (h : x ∉ db.ids) :
    x ∉ keys db.sessions ∧ x ∉ keys db.refreshTokenFamilies ∧ x ∉ keys db.refreshTokens ∧
      x ∉ keys db.messageEnvelopes ∧ x ∉ keys db.messageRecipientDevices ∧
      x ∉ keys db.messageIdempotencyKeys := by
  simp only [Db.ids, List.mem_append, not_or] at h
  tauto

theorem not_mem_keys_of_extends {Row : Type} [Keyed Row Uuid] {R : Row → Row → Prop}
    {t t' : List Row} (h : Extends R t t') {i : Uuid} (hi : i ∉ keys t') : i ∉ keys t := by
  intro hmem
  obtain ⟨r, hr⟩ := Option.isSome_iff_exists.mp (lookup_isSome.mpr hmem)
  obtain ⟨r', hr', _⟩ := h i r hr
  exact hi (mem_keys_of_lookup hr')

theorem hashTaken_apply {w : Write} {db : Db} {h : Digest} (ht : db.hashTaken h = true) :
    (w.apply db).hashTaken h = true := by
  cases w with
  | insertRefreshToken t =>
    simp only [Db.hashTaken, Write.apply, List.any_append, Bool.or_eq_true] at ht ⊢
    exact .inl ht
  | revokeRefreshTokens ids now =>
    exact (any_updateRows (f := RefreshToken.revoke now) fun _ => rfl).trans ht
  | rotateRefreshToken id new now =>
    exact (any_updateRows (f := RefreshToken.rotate new now) fun _ => rfl).trans ht
  | _ => exact ht

theorem hashTaken_of_applyAll {ws : List Write} {db : Db} {h : Digest}
    (ht : (applyAll ws db).hashTaken h = false) : db.hashTaken h = false := by
  induction ws generalizing db with
  | nil => exact ht
  | cons w ws ih =>
    have hw := ih ht
    by_contra hne
    rw [hashTaken_apply (Bool.eq_true_of_not_eq_false hne)] at hw
    exact absurd hw (by decide)

section
variable {pf : Platform} {C : Spec.Contract Db Event Answer}
variable {L : List Key} {D : List Uuid} {ws : List Write} {es : List Event} {w : World Db}
variable {k : Program}

theorem safe_insertSession {s : Session} (hC : Tolerates C es)
    (h : ∀ w', (backend pf).Rely L D w w' → w'.db.Holds → s.id ∉ keys w'.db.sessions →
      s.userId ∈ keys w'.db.users → s.deviceId ∈ keys w'.db.devices →
        (backend pf).Safe C k (.session s.id :: L) D (applyAll (ws ++ [.insertSession s])) es w') :
    (backend pf).Safe C (insertSession s k) L D (applyAll ws) es w := by
  intro w' hr hi
  have hg := grows_applyAll ws w'.db
  dsimp only
  apply safe_check (safe_unique hC)
  intro hid
  apply safe_check (safe_foreignKey hC)
  intro hu
  apply safe_check (safe_foreignKey hC)
  intro hd
  rw [hg.users, not_not] at hu
  rw [hg.deviceKeys, not_not] at hd
  exact safe_write (h w' hr hi (not_mem_keys_of_extends hg.sessions hid) hu hd)

theorem safe_insertFamily {f : RefreshTokenFamily} (hC : Tolerates C es)
    (h : ∀ w', (backend pf).Rely L D w w' → w'.db.Holds → f.id ∉ keys w'.db.refreshTokenFamilies →
      (backend pf).Safe C k (.family f.id :: L) D
        (applyAll (ws ++ [.insertRefreshTokenFamily f])) es w') :
    (backend pf).Safe C (insertFamily f k) L D (applyAll ws) es w := by
  intro w' hr hi
  have hg := grows_applyAll ws w'.db
  dsimp only
  apply safe_check (safe_unique hC)
  intro hid
  apply safe_check (safe_foreignKey hC)
  intro _
  apply safe_check (safe_foreignKey hC)
  intro _
  exact safe_write (h w' hr hi (not_mem_keys_of_extends hg.families hid))

theorem safe_insertRefreshToken {t : RefreshToken} (hC : Tolerates C es)
    (h : ∀ w', (backend pf).Rely L D w w' → w'.db.Holds → t.id ∉ keys w'.db.refreshTokens →
      w'.db.hashTaken t.tokenVerifierHash = false →
        (backend pf).Safe C k (.tokenHash t.tokenVerifierHash :: .token t.id :: L) D
          (applyAll (ws ++ [.insertRefreshToken t])) es w') :
    (backend pf).Safe C (insertRefreshToken t k) L D (applyAll ws) es w := by
  intro v hv _ w' hr hi
  have hg := grows_applyAll ws w'.db
  dsimp only
  apply safe_check (safe_unique hC)
  intro hid
  apply safe_check (safe_unique hC)
  intro hh
  apply safe_check (safe_foreignKey hC)
  intro _
  apply safe_check (safe_foreignKey hC)
  intro _
  have hfree := hashTaken_of_applyAll (Bool.eq_false_of_not_eq_true hh)
  exact safe_write (h w' (hv.trans hr.of_cons) hi (not_mem_keys_of_extends hg.tokens hid) hfree)

theorem safe_insertSecurityEvent {e : SecurityEvent} (hC : Tolerates C es)
    (h : ∀ w', (backend pf).Rely L D w w' → w'.db.Holds →
      (backend pf).Safe C k (.securityEvent e.id :: L) D
        (applyAll (ws ++ [.insertSecurityEvent e])) es w') :
    (backend pf).Safe C (insertSecurityEvent e k) L D (applyAll ws) es w := by
  intro w' hr hi
  dsimp only
  apply safe_check (safe_unique hC)
  intro _
  apply safe_check (safe_foreignKey hC)
  intro _
  apply safe_check (safe_foreignKey hC)
  intro _
  exact safe_write (h w' hr hi)

/-- The rows of an `UPDATE` are those of its snapshot, and all are locked when it writes. -/
theorem safe_updateWhere {rows : Db → List Uuid} {key : Uuid → Key} {x : List Uuid → Write}
    {k : List Uuid → Program}
    (h : ∀ w₁ w₂ ids L', (backend pf).Rely L D w w₁ → w₁.db.Holds →
      (∀ i, i ∈ ids ↔ i ∈ rows (applyAll ws w₁.db)) → (backend pf).Rely L D w₁ w₂ → w₂.db.Holds →
        (∀ i ∈ ids, key i ∈ L') → L ⊆ L' →
          (backend pf).Safe C (k ids) L' D (applyAll (ws ++ [x ids])) es w₂) :
    (backend pf).Safe C (updateWhere rows key x k) L D (applyAll ws) es w := by
  intro w₁ hr₁ hi₁ ids hids
  apply Spec.Safe.lockAll
  · intro w₂ hr₂ hi₂ L' hL' hsub
    exact safe_write (h w₁ w₂ ids L' hr₁ hi₁ (fun _ => mem_of_exactly hids) hr₂ hi₂ hL' hsub)
  · exact hi₁

end

end GuffSuff
