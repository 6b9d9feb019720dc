import GuffSuff.SessionService

/-! A refresh-token family as one chain of rotations, in the order in which
its tokens were inserted. -/

namespace GuffSuff

open ReadCommitted SessionService

/-- `ts` starts below `parent`, each token was replaced by the next one, and the last was not. -/
def Chain : Option Uuid → List RefreshToken → Prop
  | _, [] => False
  | parent, [t] => t.parentTokenId = parent ∧ t.isRotated = false ∧ t.replacementTokenId = none
  | parent, t :: u :: ts =>
    t.parentTokenId = parent ∧ t.isRotated = true ∧ t.replacementTokenId = some u.id ∧
      Chain (some t.id) (u :: ts)

theorem Chain.ne_nil {p : Option Uuid} {ts : List RefreshToken} (h : Chain p ts) : ts ≠ [] := by
  intro heq
  obtain rfl := heq
  exact h

theorem Chain.head {p : Option Uuid} {t : RefreshToken} {ts : List RefreshToken}
    (h : Chain p (t :: ts)) : t.parentTokenId = p := by
  cases ts with
  | nil => exact h.1
  | cons u ts => exact h.1

theorem Chain.map {f : RefreshToken → RefreshToken} (hid : ∀ t, (f t).id = t.id)
    (hp : ∀ t, (f t).parentTokenId = t.parentTokenId) (hr : ∀ t, (f t).isRotated = t.isRotated)
    (hn : ∀ t, (f t).replacementTokenId = t.replacementTokenId) {p : Option Uuid}
    {ts : List RefreshToken} (h : Chain p ts) : Chain p (ts.map f) := by
  induction ts generalizing p with
  | nil => exact h
  | cons t ts ih =>
    cases ts with
    | nil =>
      obtain ⟨h₁, h₂, h₃⟩ := h
      exact ⟨(hp t).trans h₁, (hr t).trans h₂, (hn t).trans h₃⟩
    | cons u ts =>
      obtain ⟨h₁, h₂, h₃, h₄⟩ := h
      refine ⟨(hp t).trans h₁, (hr t).trans h₂, ?_, ?_⟩
      · rw [hn, h₃, hid]
      · rw [hid]
        exact ih h₄

theorem Chain.updateRevoked {p : Option Uuid} {ts : List RefreshToken} (h : Chain p ts)
    (ids : List Uuid) (now : Nat) : Chain p (updateRows ts ids (RefreshToken.revoke now)) := by
  refine h.map ?_ ?_ ?_ ?_ <;> intro t <;> split <;> rfl

/-- In a chain only the last token is still to be rotated; rotating it appends its child. -/
theorem Chain.rotate {p : Option Uuid} {ts : List RefreshToken} {old child : RefreshToken}
    (h : Chain p ts) (hnd : (keys ts).Nodup) (hold : old ∈ ts) (hr : old.isRotated = false)
    (hp : child.parentTokenId = some old.id) (hc : child.isRotated = false)
    (hn : child.replacementTokenId = none) (now : Nat) :
    Chain p (updateRows ts [old.id] (RefreshToken.rotate child.id now) ++ [child]) := by
  induction ts generalizing p with
  | nil => simp at hold
  | cons t ts ih =>
    rw [keys, List.map_cons, List.nodup_cons] at hnd
    cases ts with
    | nil =>
      obtain rfl := List.mem_singleton.mp hold
      simpa [updateRows, Chain, RefreshToken.rotate, hp, hc, hn] using h.1
    | cons u ts =>
      obtain ⟨h₁, h₂, h₃, h₄⟩ := h
      have hne : old ≠ t := by
        intro heq
        obtain rfl := heq
        rw [hr] at h₂
        exact absurd h₂ (by decide)
      have hmem : old ∈ u :: ts := (List.mem_cons.mp hold).resolve_left hne
      have hid : t.id ≠ old.id := by
        intro he
        have hk : (Keyed.key t : Uuid) = Keyed.key old := he
        exact hnd.1 (hk ▸ List.mem_map_of_mem hmem)
      have hu : (updateRows (t :: u :: ts) [old.id] (RefreshToken.rotate child.id now)) =
          t :: updateRows (u :: ts) [old.id] (RefreshToken.rotate child.id now) := by
        simp [updateRows, hid]
      have hrest := ih h₄ hnd.2 hmem
      rw [hu, List.cons_append]
      obtain ⟨v, vs, hv, hvid⟩ : ∃ v vs, updateRows (u :: ts) [old.id]
          (RefreshToken.rotate child.id now) = v :: vs ∧ v.id = u.id := by
        refine ⟨_, _, rfl, ?_⟩
        dsimp only
        split <;> rfl
      rw [hv] at hrest ⊢
      exact ⟨h₁, h₂, hvid.symm ▸ h₃, hrest⟩

theorem Chain.replacement_of_rotated {p : Option Uuid} {ts : List RefreshToken} (h : Chain p ts)
    {t : RefreshToken} (ht : t ∈ ts) (hr : t.isRotated = true) :
    ∃ u ∈ ts, t.replacementTokenId = some u.id ∧ u.parentTokenId = some t.id := by
  induction ts generalizing p with
  | nil => simp at ht
  | cons s ts ih =>
    cases ts with
    | nil =>
      obtain rfl := List.mem_singleton.mp ht
      rw [h.2.1] at hr
      exact absurd hr (by decide)
    | cons u ts =>
      obtain ⟨_, _, h₃, h₄⟩ := h
      rcases List.mem_cons.mp ht with rfl | ht
      · exact ⟨u, by simp, h₃, h₄.head⟩
      · obtain ⟨v, hv, hvr⟩ := ih h₄ ht
        exact ⟨v, List.mem_cons_of_mem _ hv, hvr⟩

theorem Chain.replacement_of_unrotated {p : Option Uuid} {ts : List RefreshToken} (h : Chain p ts)
    {t : RefreshToken} (ht : t ∈ ts) (hr : t.isRotated = false) : t.replacementTokenId = none := by
  induction ts generalizing p with
  | nil => simp at ht
  | cons s ts ih =>
    cases ts with
    | nil =>
      obtain rfl := List.mem_singleton.mp ht
      exact h.2.2
    | cons u ts =>
      obtain ⟨_, h₂, _, h₄⟩ := h
      rcases List.mem_cons.mp ht with rfl | ht
      · rw [h₂] at hr
        exact absurd hr (by decide)
      · exact ih h₄ ht

theorem Chain.parent {p : Option Uuid} {ts : List RefreshToken} (h : Chain p ts)
    {t : RefreshToken} (ht : t ∈ ts) : (ts.head? = some t ∧ t.parentTokenId = p) ∨
      ∃ s ∈ ts, t.parentTokenId = some s.id ∧ s.isRotated = true ∧
        s.replacementTokenId = some t.id := by
  induction ts generalizing p with
  | nil => simp at ht
  | cons s ts ih =>
    rcases List.mem_cons.mp ht with rfl | ht
    · exact .inl ⟨rfl, h.head⟩
    · cases ts with
      | nil => simp at ht
      | cons u ts =>
        obtain ⟨_, h₂, h₃, h₄⟩ := h
        rcases ih h₄ ht with ⟨hu, hp⟩ | ⟨v, hv, hvt⟩
        · obtain rfl : u = t := by simpa using hu
          exact .inr ⟨s, List.mem_cons_self, hp, h₂, h₃⟩
        · exact .inr ⟨v, List.mem_cons_of_mem _ hv, hvt⟩

theorem Chain.unrotated {p : Option Uuid} {ts : List RefreshToken} (h : Chain p ts) :
    ∃ t ∈ ts, t.isRotated = false ∧ ∀ s ∈ ts, s.isRotated = false → s = t := by
  induction ts generalizing p with
  | nil => exact absurd rfl h.ne_nil
  | cons s ts ih =>
    cases ts with
    | nil => exact ⟨s, by simp, h.2.1, fun t ht _ => List.mem_singleton.mp ht⟩
    | cons u ts =>
      obtain ⟨_, h₂, _, h₄⟩ := h
      obtain ⟨t, ht, htr, huniq⟩ := ih h₄
      refine ⟨t, List.mem_cons_of_mem _ ht, htr, ?_⟩
      intro v hv hvr
      rcases List.mem_cons.mp hv with rfl | hv
      · rw [h₂] at hvr
        exact absurd hvr (by decide)
      · exact huniq v hv hvr

namespace Db

def tokensIn (db : Db) (family : Uuid) : List RefreshToken :=
  db.refreshTokens.filter (fun t => t.familyId = family)

@[simp] theorem mem_tokensIn {db : Db} {family : Uuid} {t : RefreshToken} :
    t ∈ db.tokensIn family ↔ t ∈ db.refreshTokens ∧ t.familyId = family := by
  simp [tokensIn]

theorem mem_tokensOfFamily {db : Db} {family i : Uuid} : i ∈ tokensOfFamily family db ↔
    ∃ t ∈ db.refreshTokens, t.id = i ∧ t.familyId = family := by
  simp only [tokensOfFamily, List.mem_map, List.mem_filter, decide_eq_true_eq]
  exact exists_congr fun t => by rw [and_assoc, and_comm (a := t.id = i)]

theorem mem_tokensOfFamilies {db : Db} {p : RefreshTokenFamily → Bool} {i : Uuid} :
    i ∈ tokensOfFamilies p db ↔
      ∃ t ∈ db.refreshTokens, t.id = i ∧ t.familyId ∈ db.familiesWhere p := by
  simp only [tokensOfFamilies, List.mem_map, List.mem_filter, decide_eq_true_eq]
  exact exists_congr fun t => by rw [and_assoc, and_comm (a := t.id = i)]

theorem keys_tokensIn {db : Db} (h : (keys db.refreshTokens).Nodup) (family : Uuid) :
    (keys (db.tokensIn family)).Nodup :=
  h.sublist (List.filter_sublist.map _)

end Db

end GuffSuff
