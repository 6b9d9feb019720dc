import Mathlib.Algebra.BigOperators.Group.Finset.Basic
import Mathlib.Algebra.BigOperators.Group.Finset.Piecewise
import Mathlib.Algebra.Order.BigOperators.Group.Finset
import Mathlib.Data.Finset.Card

/-! Counters that are raised in batches: each round raises a batch of the members
below their goal by one, and an adversary chooses which. -/

namespace Batches

variable {ι : Type} {size goal : Nat} {members : Finset ι} {count count' : ι → Nat}

def unfinished (goal : Nat) (members : Finset ι) (count : ι → Nat) : Finset ι :=
  members.filter fun i => count i < goal

def missing (goal : Nat) (members : Finset ι) (count : ι → Nat) : Nat :=
  ∑ i ∈ members, (goal - count i)

theorem mem_unfinished {i : ι} : i ∈ unfinished goal members count ↔ i ∈ members ∧ count i < goal :=
  Finset.mem_filter

variable [DecidableEq ι]

/-- The batch is full, or else nobody below the goal is left out. -/
inductive Round (size goal : Nat) (members : Finset ι) (count count' : ι → Nat) : Prop
  | intro (batch : Finset ι) (hsub : batch ⊆ unfinished goal members count)
      (hcard : batch.card = min size (unfinished goal members count).card)
      (hraised : ∀ i ∈ members, count' i = if i ∈ batch then count i + 1 else count i)

inductive Rounds (size goal : Nat) (members : Finset ι) : Nat → (ι → Nat) → (ι → Nat) → Prop
  | refl (count : ι → Nat) : Rounds size goal members 0 count count
  | step {n : Nat} {count count' count'' : ι → Nat} (h : Round size goal members count count')
      (rest : Rounds size goal members n count' count'') :
      Rounds size goal members (n + 1) count count''

theorem Round.mono (h : Round size goal members count count') {i : ι} (hi : i ∈ members) :
    count i ≤ count' i := by
  obtain ⟨batch, _, _, hraised⟩ := h
  rw [hraised i hi]
  split
  · exact Nat.le_succ _
  · exact Nat.le_refl _

theorem Round.capped (h : Round size goal members count count') {i : ι} (hi : i ∈ members)
    (hcap : count i ≤ goal) : count' i ≤ goal := by
  obtain ⟨batch, hsub, _, hraised⟩ := h
  rw [hraised i hi]
  split
  · rename_i hbatch
    exact (mem_unfinished.mp (hsub hbatch)).2
  · exact hcap

theorem Round.missing_eq (h : Round size goal members count count') :
    missing goal members count' + min size (unfinished goal members count).card =
      missing goal members count := by
  obtain ⟨batch, hsub, hcard, hraised⟩ := h
  have hmem : batch ⊆ members := fun i hi => (mem_unfinished.mp (hsub hi)).1
  have hones : (∑ i ∈ members, if i ∈ batch then 1 else 0) = batch.card := by
    rw [Finset.sum_ite_mem, Finset.inter_eq_right.mpr hmem, ← Finset.card_eq_sum_ones]
  rw [← hcard, ← hones, missing, missing, ← Finset.sum_add_distrib]
  refine Finset.sum_congr rfl fun i hi => ?_
  rw [hraised i hi]
  split
  · rename_i hbatch
    have hlt := (mem_unfinished.mp (hsub hbatch)).2
    omega
  · rfl

theorem Round.unfinished_subset (h : Round size goal members count count') :
    unfinished goal members count' ⊆ unfinished goal members count := by
  intro i hi
  obtain ⟨hmem, hlt⟩ := mem_unfinished.mp hi
  exact mem_unfinished.mpr ⟨hmem, Nat.lt_of_le_of_lt (h.mono hmem) hlt⟩

/-- Once a batch takes everybody below the goal, it raises all of them. -/
theorem Round.raises (h : Round size goal members count count')
    (hfew : (unfinished goal members count).card ≤ size) {i : ι} (hi : i ∈ members) (hlt : count i < goal) :
    count' i = count i + 1 := by
  obtain ⟨batch, hsub, hcard, hraised⟩ := h
  have hall : batch = unfinished goal members count :=
    Finset.eq_of_subset_of_card_le hsub (by rw [hcard, Nat.min_eq_right hfew])
  rw [hraised i hi, hall, if_pos (mem_unfinished.mpr ⟨hi, hlt⟩)]

theorem Rounds.few {n : Nat} (h : Rounds size goal members n count count')
    (hfew : (unfinished goal members count).card ≤ size) (hcap : ∀ i ∈ members, count i ≤ goal)
    (hn : ∀ i ∈ members, goal ≤ count i + n) : ∀ i ∈ members, count' i = goal := by
  induction h with
  | refl count => exact fun i hi => Nat.le_antisymm (hcap i hi) (hn i hi)
  | @step n count count' count'' hround rest ih =>
    refine ih ?_ (fun i hi => hround.capped hi (hcap i hi)) fun i hi => ?_
    · exact Nat.le_trans (Finset.card_le_card hround.unfinished_subset) hfew
    · have hle := hn i hi
      by_cases hlt : count i < goal
      · rw [hround.raises hfew hi hlt]
        omega
      · have hmono := hround.mono hi
        omega

/-- Full batches come first, and each of them lowers what is missing by its size;
afterwards every round raises everybody below the goal. -/
theorem Rounds.complete {n : Nat} (hsize : 0 < size) (h : Rounds size goal members n count count')
    (hcap : ∀ i ∈ members, count i ≤ goal) (hn : missing goal members count / size + goal ≤ n) :
    ∀ i ∈ members, count' i = goal := by
  have hgoal := Nat.le_trans (Nat.le_add_left goal _) hn
  induction h with
  | refl count =>
    rw [Nat.le_zero] at hgoal
    exact fun i hi => Nat.le_antisymm (hcap i hi) (hgoal ▸ Nat.zero_le _)
  | @step n count count' count'' hround rest ih =>
    by_cases hfew : (unfinished goal members count).card ≤ size
    · refine (Rounds.step hround rest).few hfew hcap fun i hi => ?_
      omega
    · have heq := hround.missing_eq
      rw [Nat.min_eq_left (Nat.le_of_not_le hfew)] at heq
      have hdiv : missing goal members count / size = missing goal members count' / size + 1 := by
        rw [← heq, Nat.add_div_right _ hsize]
      have hless : missing goal members count' / size + goal ≤ n := by omega
      exact ih (fun i hi => hround.capped hi (hcap i hi)) hless
        (Nat.le_trans (Nat.le_add_left goal _) hless)

end Batches
