import Mathlib.Algebra.BigOperators.Group.Finset.Basic
import Mathlib.Algebra.Order.BigOperators.Group.Finset

/-! Times at which something was let through, each after a gap that grows with
the number of earlier ones in a sliding window: how many fit into any window. -/

namespace SlidingWindow

/-- Each time comes after the gap that the earlier times of its own window ask for, as seen at some
moment before it. -/
def Throttled (span : Nat) (gap : Nat → Nat) (times : List Nat) : Prop :=
  ∀ first t rest, times = first ++ t :: rest →
    ∃ seen ≤ t, ∀ x ∈ first, seen < x + span → x + gap (first.countP (seen < · + span)) ≤ t

def inside (since span : Nat) (times : List Nat) : List Nat :=
  times.filter fun t => since ≤ t && t < since + span

/-- From one time of the window to the next, the gap grows with those before. -/
def Spaced (gap : Nat → Nat) (times : List Nat) : Prop :=
  ∀ first x y rest, times = first ++ x :: y :: rest → x + gap (first.length + 1) ≤ y

section
variable {span since t : Nat} {gap : Nat → Nat} {times : List Nat}

theorem throttled_nil : Throttled span gap [] :=
  fun _ _ _ h => absurd h (List.append_ne_nil_of_right_ne_nil _ (List.cons_ne_nil _ _)).symm

theorem Throttled.concat (h : Throttled span gap times) {seen : Nat} (hseen : seen ≤ t)
    (hgap : ∀ x ∈ times, seen < x + span → x + gap (times.countP (seen < · + span)) ≤ t) :
    Throttled span gap (times ++ [t]) := by
  intro first u rest hsplit
  rcases List.eq_nil_or_concat rest with rfl | ⟨rest, last, rfl⟩
  · obtain ⟨rfl, hlast⟩ := List.append_inj' hsplit rfl
    obtain rfl := List.singleton_inj.mp hlast
    exact ⟨seen, hseen, hgap⟩
  · rw [List.concat_eq_append, ← List.cons_append, ← List.append_assoc] at hsplit
    obtain ⟨rfl, _⟩ := List.append_inj' hsplit rfl
    exact h first u rest rfl

/-- Every earlier time of a window counts when a later one of it is let through. -/
theorem Throttled.spaced (h : Throttled span gap times) (hgap : Monotone gap) (since : Nat) :
    Spaced gap (inside since span times) := by
  intro first x y rest hsplit
  obtain ⟨before, after, rfl, hbefore, hafter⟩ := List.filter_eq_append_iff.mp
    (show inside since span times = (first ++ [x]) ++ y :: rest by simpa using hsplit)
  obtain ⟨between, later, rfl, hbetween, hy, _⟩ := List.filter_eq_cons_iff.mp hafter
  have hsplit' : before ++ (between ++ y :: later) = (before ++ between) ++ y :: later := by simp
  obtain ⟨seen, hseen, hthrottled⟩ := h (before ++ between) y later hsplit'
  have hywindow : since ≤ y ∧ y < since + span := by simpa using hy
  have hx : x ∈ before ∧ since ≤ x ∧ x < since + span := by
    have hmem : x ∈ List.filter (fun t => since ≤ t && t < since + span) before := by
      rw [hbefore]
      exact List.mem_append_right _ (List.mem_singleton_self _)
    simpa using hmem
  have hcount : first.length + 1 ≤ (before ++ between).countP (seen < · + span) := by
    calc first.length + 1 = (before.filter fun t => since ≤ t && t < since + span).length := by
          rw [hbefore, List.length_append, List.length_singleton]
      _ = before.countP fun t => since ≤ t && t < since + span := List.countP_eq_length_filter.symm
      _ ≤ before.countP (seen < · + span) := by
          refine List.countP_mono_left fun t _ ht => ?_
          simp only [Bool.and_eq_true, decide_eq_true_eq] at ht ⊢
          omega
      _ ≤ (before ++ between).countP (seen < · + span) := by
          rw [List.countP_append]
          exact Nat.le_add_right _ _
  calc x + gap (first.length + 1)
      ≤ x + gap ((before ++ between).countP (seen < · + span)) := Nat.add_le_add_left (hgap hcount) x
    _ ≤ y := hthrottled x (List.mem_append_left _ hx.1) (by omega)

theorem Spaced.sum_le (h : Spaced gap times) (hstart : ∀ x ∈ times, since ≤ x) {first rest : List Nat}
    {x : Nat} (hsplit : times = first ++ x :: rest) :
    since + ∑ j ∈ Finset.range first.length, gap (j + 1) ≤ x := by
  induction first using List.reverseRecOn generalizing x rest with
  | nil => simpa using hstart x (by simp [hsplit])
  | append_singleton first y ih =>
    have hsplit' : times = first ++ y :: x :: rest := by simpa using hsplit
    have hstep := h first y x rest hsplit'
    have hfirst := ih hsplit'
    rw [List.length_append, List.length_singleton, Finset.sum_range_succ]
    omega

theorem Throttled.length_inside (h : Throttled span gap times) (hgap : Monotone gap) {most : Nat}
    (hmost : span ≤ ∑ j ∈ Finset.range most, gap (j + 1)) (since : Nat) :
    (inside since span times).length ≤ most := by
  by_contra hmore
  have hlt : most < (inside since span times).length := Nat.lt_of_not_le hmore
  have hmem : ∀ x ∈ inside since span times, since ≤ x ∧ x < since + span := by
    intro x hx
    simpa using (List.mem_filter.mp hx).2
  have hsplit : inside since span times = (inside since span times).take most ++
      (inside since span times)[most] :: (inside since span times).drop (most + 1) := by
    rw [List.getElem_cons_drop, List.take_append_drop]
  have hfar := (h.spaced hgap since).sum_le (fun x hx => (hmem x hx).1) hsplit
  rw [List.length_take, Nat.min_eq_left (Nat.le_of_lt hlt)] at hfar
  have hnear := (hmem _ (List.getElem_mem hlt)).2
  omega

end

end SlidingWindow
