import GuffSuff.Services

/-! Every refresh-token family of a reachable state is one linear chain. -/

namespace GuffSuff

open ReadCommitted

theorem Chain.isChain {p : Option Uuid} {ts : List RefreshToken} (h : Chain p ts) :
    ts.IsChain fun t u => t.replacementTokenId = some u.id ∧ u.parentTokenId = some t.id := by
  induction ts generalizing p with
  | nil => exact .nil
  | cons t ts ih =>
    cases ts with
    | nil => exact .singleton t
    | cons u ts =>
      obtain ⟨_, _, h₃, h₄⟩ := h
      exact List.isChain_cons_cons.mpr ⟨⟨h₃, h₄.head⟩, ih h₄⟩

/-- The tokens of a family, as the table holds them, form a single lineage. -/
structure Db.SingleLineage (db : Db) (family : Uuid) : Prop where
  linear : (db.tokensIn family).IsChain fun t u =>
    t.replacementTokenId = some u.id ∧ u.parentTokenId = some t.id
  root : ∃! t, t ∈ db.tokensIn family ∧ t.parentTokenId = none
  parent : ∀ t ∈ db.tokensIn family, ∀ p, t.parentTokenId = some p →
    ∃ u ∈ db.tokensIn family, u.id = p ∧ u.replacementTokenId = some t.id
  rotated : ∀ t ∈ db.tokensIn family, t.isRotated = true ↔ t.replacementTokenId.isSome = true
  child : ∀ t ∈ db.tokensIn family, t.isRotated = true →
    ∃! u, u ∈ db.refreshTokens ∧ u.parentTokenId = some t.id
  latest : ∃! t, t ∈ db.tokensIn family ∧ t.isRotated = false

theorem Db.Identity.singleLineage {db : Db} (h : db.Identity) {f : Uuid}
    (hf : f ∈ keys db.refreshTokenFamilies) : db.SingleLineage f := by
  have hc := h.lineage f hf
  have hnone : ∀ t ∈ db.tokensIn f, t.isRotated = false → t.replacementTokenId = none :=
    fun t ht hr => hc.replacement_of_unrotated ht hr
  constructor
  case linear => exact hc.isChain
  case root =>
    obtain ⟨t, ts, hts⟩ := List.exists_cons_of_ne_nil hc.ne_nil
    have ht : t ∈ db.tokensIn f := hts ▸ List.mem_cons_self
    refine ⟨t, ⟨ht, (hts ▸ hc).head⟩, ?_⟩
    intro u hx
    obtain ⟨hu, hp⟩ := hx
    rcases hc.parent hu with ⟨hhead, _⟩ | ⟨s, _, hs, _⟩
    · rw [hts] at hhead
      exact (Option.some.inj hhead).symm
    · rw [hp] at hs
      exact absurd hs (by simp)
  case parent =>
    intro t ht p hp
    rcases hc.parent ht with ⟨_, hn⟩ | ⟨s, hs, hsp, _, hn⟩
    · rw [hp] at hn
      exact absurd hn (by simp)
    · rw [hp] at hsp
      exact ⟨s, hs, (Option.some.inj hsp).symm, hn⟩
  case rotated =>
    intro t ht
    constructor
    · intro hr
      obtain ⟨u, _, hn, _⟩ := hc.replacement_of_rotated ht hr
      rw [hn, Option.isSome_some]
    · intro hn
      by_contra hr
      rw [hnone t ht (Bool.eq_false_of_not_eq_true hr)] at hn
      exact absurd hn (by decide)
  case child =>
    intro t ht hr
    obtain ⟨u, hu, hn, hp⟩ := hc.replacement_of_rotated ht hr
    refine ⟨u, ⟨(Db.mem_tokensIn.mp hu).1, hp⟩, ?_⟩
    intro v hx
    obtain ⟨hv, hvp⟩ := hx
    obtain ⟨s, hs, hst, _, _, hsn⟩ := h.parent_mem hv hvp
    have hst' : s = t := eq_of_key_eq h.tokens hs (Db.mem_tokensIn.mp ht).1 hst
    rw [hst', hn] at hsn
    exact eq_of_key_eq h.tokens hv (Db.mem_tokensIn.mp hu).1 (Option.some.inj hsn).symm
  case latest =>
    obtain ⟨t, ht, hr, huniq⟩ := hc.unrotated
    exact ⟨t, ⟨ht, hr⟩, fun s hs => huniq s hs.1 hs.2⟩

/-- However calls interleave, and wherever they fail, no family ever branches. -/
theorem family_single_lineage {pf : Platform} {fk : FkCheck} {s : Server}
    (h : Reachable pf fk s) {f : RefreshTokenFamily} (hf : f ∈ s.db.refreshTokenFamilies) :
    s.db.SingleLineage f.id :=
  h.holds.identity.singleLineage (key_mem_keys hf)

def sampleRefreshes : List Choice :=
  sampleLogin ++ sampleRotation 1 12 14 15 ++ sampleIssue 1 16 17 ++ sampleRotation 2 14 18 19

theorem sampleRefreshes_single_lineage :
    let s := serve samplePlatform .atCommit sampleStart sampleRefreshes
    (s.db.tokensIn 11).map RefreshToken.id = [13, 15, 19] ∧ s.db.SingleLineage 11 := by
  refine ⟨by decide, ?_⟩
  exact family_single_lineage (f := ⟨11, 1, 3, false, 0, 0⟩)
    (sampleStart_reachable samplePlatform .atCommit sampleRefreshes) (by decide)

end GuffSuff
