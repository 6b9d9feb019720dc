import Mathlib.Data.List.Lex
import Mathlib.Data.List.Sort

/-! The order in which `sort()` of JavaScript puts texts: by their UTF-16 code
units. The code units of a text determine it, so the order of the input does not show. -/

namespace JavaScript

/-- One code unit, or the two surrogates of a character beyond `0xFFFF`. -/
def charUnits (c : Char) : List Nat :=
  if c.toNat < 0x10000 then [c.toNat]
  else [0xD800 + (c.toNat - 0x10000) / 0x400, 0xDC00 + (c.toNat - 0x10000) % 0x400]

def codeUnits (s : String) : List Nat := s.toList.flatMap charUnits

def CodeUnitLE (s t : String) : Prop := codeUnits s ≤ codeUnits t

instance : DecidableRel CodeUnitLE := fun s t => inferInstanceAs (Decidable (codeUnits s ≤ codeUnits t))

def sort (texts : List String) : List String := texts.insertionSort CodeUnitLE

theorem char_not_surrogate (c : Char) : c.toNat < 0xD800 ∨ (0xDFFF < c.toNat ∧ c.toNat < 0x110000) := c.valid

/-- No character starts with the code units of another. -/
theorem charUnits_append {c d : Char} {cs ds : List Nat} (h : charUnits c ++ cs = charUnits d ++ ds) :
    c = d ∧ cs = ds := by
  have hc := char_not_surrogate c
  have hd := char_not_surrogate d
  unfold charUnits at h
  split at h
  · split at h
    · obtain ⟨hunit, hrest⟩ := List.cons_eq_cons.mp h
      exact ⟨Char.toNat_inj.mp hunit, hrest⟩
    · obtain ⟨hunit, _⟩ := List.cons_eq_cons.mp h
      omega
  · split at h
    · obtain ⟨hunit, _⟩ := List.cons_eq_cons.mp h
      omega
    · obtain ⟨hhigh, htail⟩ := List.cons_eq_cons.mp h
      obtain ⟨hlow, hrest⟩ := List.cons_eq_cons.mp htail
      exact ⟨Char.toNat_inj.mp (by omega), hrest⟩

theorem charUnits_ne_nil (c : Char) : charUnits c ≠ [] := by
  unfold charUnits
  split <;> simp

theorem flatMap_charUnits_injective : Function.Injective fun cs : List Char => cs.flatMap charUnits := by
  intro cs ds h
  induction cs generalizing ds with
  | nil =>
    cases ds with
    | nil => rfl
    | cons d ds => exact absurd h (by simp [charUnits_ne_nil])
  | cons c cs ih =>
    cases ds with
    | nil => exact absurd h (by simp [charUnits_ne_nil])
    | cons d ds =>
      simp only [List.flatMap_cons] at h
      obtain ⟨rfl, hrest⟩ := charUnits_append h
      rw [ih hrest]

theorem codeUnits_injective : Function.Injective codeUnits := fun _ _ h =>
  String.toList_injective (flatMap_charUnits_injective h)

instance : Std.Total CodeUnitLE := ⟨fun s t => le_total (codeUnits s) (codeUnits t)⟩

instance : IsTrans String CodeUnitLE := ⟨fun _ _ _ hst htu => le_trans hst htu⟩

instance : Std.Antisymm CodeUnitLE := ⟨fun _ _ hst hts => codeUnits_injective (le_antisymm hst hts)⟩

theorem sort_perm (texts : List String) : (sort texts).Perm texts := List.perm_insertionSort CodeUnitLE texts

theorem sort_eq_of_perm {texts texts' : List String} (h : texts.Perm texts') : sort texts = sort texts' := by
  apply List.Perm.eq_of_pairwise' (List.pairwise_insertionSort CodeUnitLE texts)
    (List.pairwise_insertionSort CodeUnitLE texts')
  exact (sort_perm texts).trans (h.trans (sort_perm texts').symm)

/-- Surrogates come before the last characters below `0x10000`. -/
example : sort ["\uff5e", "b", "𐍈", "ab", "a"] = ["a", "ab", "b", "𐍈", "\uff5e"] := by decide

end JavaScript
