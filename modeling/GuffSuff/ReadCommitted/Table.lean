import Mathlib.Data.List.Basic
import Mathlib.Data.List.Nodup

/-! Tables as lists of keyed rows: what `SELECT`, `UPDATE` and `INSERT` do to
them, and what a row key still finds afterwards. -/

namespace ReadCommitted

class Keyed (Row : Type) (Id : outParam Type) where
  key : Row → Id

theorem length_filter_eq_one {α : Type} {l : List α} (hnd : l.Nodup) {p : α → Bool} {x : α}
    (hx : x ∈ l) (hp : p x = true) (huniq : ∀ y ∈ l, p y = true → y = x) :
    (l.filter p).length = 1 := by
  have hmem : x ∈ l.filter p := List.mem_filter.mpr ⟨hx, hp⟩
  have hall : ∀ y ∈ l.filter p, y = x := fun y hy =>
    huniq y (List.mem_of_mem_filter hy) (List.of_mem_filter hy)
  have hf : (l.filter p).Nodup := hnd.filter p
  cases hl : l.filter p with
  | nil =>
    rw [hl] at hmem
    exact absurd hmem List.not_mem_nil
  | cons y ys =>
    cases ys with
    | nil => rfl
    | cons z zs =>
      rw [hl] at hall hf
      have hy : y = x := hall y List.mem_cons_self
      have hz : z = x := hall z (List.mem_cons_of_mem _ List.mem_cons_self)
      simp [hy, hz] at hf

section
variable {Row Id : Type} [Keyed Row Id]

def keys (t : List Row) : List Id := t.map Keyed.key

theorem mem_keys {t : List Row} {i : Id} : i ∈ keys t ↔ ∃ r ∈ t, Keyed.key r = i := by
  simp [keys]

theorem key_mem_keys {t : List Row} {r : Row} (h : r ∈ t) : Keyed.key r ∈ keys t :=
  mem_keys.mpr ⟨r, h, rfl⟩

@[simp] theorem keys_append (t u : List Row) : keys (t ++ u) = keys t ++ keys u := by
  simp [keys]

@[simp] theorem keys_singleton (r : Row) : keys [r] = [Keyed.key r] := rfl

theorem eq_of_key_eq {t : List Row} (hnd : (keys t).Nodup) {r s : Row}
    (hr : r ∈ t) (hs : s ∈ t) (h : Keyed.key r = Keyed.key s) : r = s :=
  List.inj_on_of_nodup_map hnd hr hs h

variable [DecidableEq Id]

def lookup (t : List Row) (i : Id) : Option Row := t.find? (fun r => Keyed.key r = i)

/-- `UPDATE .. SET f WHERE key IN ids`. -/
def updateRows (t : List Row) (ids : List Id) (f : Row → Row) : List Row :=
  t.map (fun r => if Keyed.key r ∈ ids then f r else r)

theorem lookup_mem {t : List Row} {i : Id} {r : Row} (h : lookup t i = some r) : r ∈ t :=
  List.mem_of_find?_eq_some h

theorem lookup_key {t : List Row} {i : Id} {r : Row} (h : lookup t i = some r) :
    Keyed.key r = i := by
  simpa using List.find?_some h

theorem lookup_eq_none {t : List Row} {i : Id} : lookup t i = none ↔ i ∉ keys t := by
  simp [lookup, mem_keys]

theorem lookup_isSome {t : List Row} {i : Id} : (lookup t i).isSome ↔ i ∈ keys t := by
  rw [Option.isSome_iff_ne_none, Ne, lookup_eq_none, not_not]

theorem mem_keys_of_lookup {t : List Row} {i : Id} {r : Row} (h : lookup t i = some r) :
    i ∈ keys t := lookup_isSome.mp (by simp [h])

theorem lookup_of_mem {t : List Row} (hnd : (keys t).Nodup) {r : Row} (hr : r ∈ t) :
    lookup t (Keyed.key r) = some r := by
  obtain ⟨s, hs⟩ := Option.isSome_iff_exists.mp (lookup_isSome.mpr (key_mem_keys hr))
  rw [hs, eq_of_key_eq hnd (lookup_mem hs) hr (lookup_key hs)]

theorem mem_updateRows {t : List Row} {ids : List Id} {f : Row → Row} {r : Row} :
    r ∈ updateRows t ids f ↔ ∃ s ∈ t, (if Keyed.key s ∈ ids then f s else s) = r := by
  simp [updateRows]

@[simp] theorem keys_updateRows (t : List Row) (ids : List Id) {f : Row → Row}
    (hf : ∀ r, (Keyed.key (f r) : Id) = Keyed.key r) : keys (updateRows t ids f) = keys t := by
  simp only [keys, updateRows, List.map_map]
  apply List.map_congr_left
  intro r _
  by_cases h : (Keyed.key r : Id) ∈ ids <;> simp [h, hf]

theorem lookup_updateRows {t : List Row} {ids : List Id} {f : Row → Row}
    (hf : ∀ r, (Keyed.key (f r) : Id) = Keyed.key r) (i : Id) :
    lookup (updateRows t ids f) i = (lookup t i).map (fun r => if i ∈ ids then f r else r) := by
  induction t with
  | nil => rfl
  | cons r t ih =>
    have hk : (Keyed.key (if Keyed.key r ∈ ids then f r else r) : Id) = Keyed.key r := by
      by_cases h : (Keyed.key r : Id) ∈ ids <;> simp [h, hf]
    by_cases hr : (Keyed.key r : Id) = i
    · subst hr
      simp [lookup, updateRows, hk]
    · simpa [lookup, updateRows, List.find?_cons, hk, hr] using ih

theorem lookup_updateRows_of_not_mem {t : List Row} {ids : List Id} {f : Row → Row}
    (hf : ∀ r, (Keyed.key (f r) : Id) = Keyed.key r) {i : Id} (hi : i ∉ ids) :
    lookup (updateRows t ids f) i = lookup t i := by
  rw [lookup_updateRows hf]
  simp [hi]

theorem lookup_append (t u : List Row) (i : Id) :
    lookup (t ++ u) i = (lookup t i).or (lookup u i) := by
  simp [lookup]

theorem lookup_insert_of_ne {t : List Row} {r : Row} {i : Id} (h : i ≠ Keyed.key r) :
    lookup (t ++ [r]) i = lookup t i := by
  have hr : lookup [r] i = none := lookup_eq_none.mpr (by simpa using h)
  rw [lookup_append, hr, Option.or_none]

/-- `DELETE .. WHERE key = i`. -/
def deleteRow (t : List Row) (i : Id) : List Row := t.filter (fun r => Keyed.key r ≠ i)

theorem lookup_deleteRow (t : List Row) (i j : Id) :
    lookup (deleteRow t i) j = if j = i then none else lookup t j := by
  by_cases hj : j = i
  · subst hj
    rw [if_pos rfl, lookup_eq_none, mem_keys]
    intro hmem
    obtain ⟨r, hr, hk⟩ := hmem
    exact (of_decide_eq_true (List.mem_filter.mp hr).2) hk
  · rw [if_neg hj, lookup, deleteRow, List.find?_filter, lookup]
    congr 1
    funext r
    by_cases hk : (Keyed.key r : Id) = j <;> simp [hk, hj]

theorem keys_deleteRow (t : List Row) (i : Id) : (keys (deleteRow t i)).Sublist (keys t) :=
  List.filter_sublist.map _

theorem filter_updateRows (t : List Row) (ids : List Id) (f : Row → Row) {p : Row → Bool}
    (hp : ∀ r, p (f r) = p r) : (updateRows t ids f).filter p = updateRows (t.filter p) ids f := by
  induction t with
  | nil => rfl
  | cons r t ih =>
    have hr : p (if Keyed.key r ∈ ids then f r else r) = p r := by
      split
      · exact hp r
      · rfl
    by_cases h : p r = true
    · simpa [updateRows, List.filter_cons, hr, h] using ih
    · simpa [updateRows, List.filter_cons, hr, h] using ih

/-- Where a changed row is no longer one of those looked for. -/
theorem filter_updateRows_of_false (t : List Row) (ids : List Id) {f : Row → Row} {p : Row → Bool}
    (hp : ∀ r, p (f r) = false) :
    (updateRows t ids f).filter p = (t.filter p).filter fun r => !decide ((Keyed.key r : Id) ∈ ids) := by
  induction t with
  | nil => rfl
  | cons r t ih =>
    have hsplit : updateRows (r :: t) ids f =
        (if (Keyed.key r : Id) ∈ ids then f r else r) :: updateRows t ids f := rfl
    rw [hsplit]
    by_cases hr : (Keyed.key r : Id) ∈ ids
    · by_cases hpr : p r = true
      · simp [hr, hp, hpr, ih]
      · simp [hr, hp, hpr, ih]
    · by_cases hpr : p r = true
      · simp [hr, hpr, ih]
      · simp [hr, hpr, ih]

theorem map_updateRows {β : Type} (t : List Row) (ids : List Id) (f : Row → Row) {g : Row → β}
    (hg : ∀ r, g (f r) = g r) : (updateRows t ids f).map g = t.map g := by
  simp only [updateRows, List.map_map]
  apply List.map_congr_left
  intro r _
  by_cases h : (Keyed.key r : Id) ∈ ids <;> simp [h, hg]

theorem updateRows_congr {t : List Row} {ids ids' : List Id} (f : Row → Row)
    (h : ∀ i, i ∈ ids ↔ i ∈ ids') : updateRows t ids f = updateRows t ids' f := by
  simp only [updateRows, h]

theorem updateRows_of_disjoint {t : List Row} {ids : List Id} (f : Row → Row)
    (h : ∀ r ∈ t, (Keyed.key r : Id) ∉ ids) : updateRows t ids f = t := by
  have hid : ∀ r ∈ t, (if (Keyed.key r : Id) ∈ ids then f r else r) = r := fun r hr =>
    if_neg (h r hr)
  rw [updateRows, List.map_congr_left hid, List.map_id']

/-- Every row is still there, changed at most as `R` allows. -/
def Extends (R : Row → Row → Prop) (t t' : List Row) : Prop :=
  ∀ i r, lookup t i = some r → ∃ r', lookup t' i = some r' ∧ R r r'

section
variable {R : Row → Row → Prop} {t u v : List Row}

theorem Extends.refl (hR : ∀ r, R r r) (t : List Row) : Extends R t t :=
  fun _ r h => ⟨r, h, hR r⟩

theorem Extends.trans (hR : ∀ a b c, R a b → R b c → R a c) (h : Extends R t u)
    (h' : Extends R u v) : Extends R t v := by
  intro i r hr
  obtain ⟨s, hs, hrs⟩ := h i r hr
  obtain ⟨q, hq, hsq⟩ := h' i s hs
  exact ⟨q, hq, hR r s q hrs hsq⟩

theorem Extends.append (hR : ∀ r, R r r) (t u : List Row) : Extends R t (t ++ u) := by
  intro i r h
  exact ⟨r, by rw [lookup_append, h, Option.some_or], hR r⟩

theorem Extends.updateRows (hR : ∀ r, R r r) {f : Row → Row}
    (hf : ∀ r, R r (f r)) (hk : ∀ r, (Keyed.key (f r) : Id) = Keyed.key r) (t : List Row)
    (ids : List Id) : Extends R t (ReadCommitted.updateRows t ids f) := by
  intro i r h
  rw [lookup_updateRows hk, h]
  refine ⟨_, rfl, ?_⟩
  split
  · exact hf r
  · exact hR r

end

end

end ReadCommitted
