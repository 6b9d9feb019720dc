import Mathlib.Algebra.BigOperators.Fin
import Mathlib.Algebra.BigOperators.Group.Finset.Piecewise
import Mathlib.Algebra.Order.BigOperators.Group.Finset
import Mathlib.Data.Fintype.BigOperators
import Mathlib.Logic.Relation

/-! Callers that share the connections of one pool, and keep what they have
while they wait for more. -/

namespace ConnectionPool

/-- What a call does with connections: it asks the pool for one, sends a
statement over one that it has, or gives one back. -/
inductive Usage where
  | done
  | connect (granted refused : Usage)
  | query (sql : String) (ok failed : Usage)
  | release (next : Usage)

structure Caller where
  held : Nat
  todo : Usage

def Caller.waits (c : Caller) : Bool :=
  match c.todo with
  | .connect _ _ => true
  | _ => false

/-- A pool of `n` callers, who together hold at most `max` connections. -/
structure Pool (max n : Nat) where
  callers : Fin n → Caller
  within : ∑ i, (callers i).held ≤ max

section
variable {max n : Nat}

def Pool.inUse (s : Pool max n) : Nat := ∑ i, (s.callers i).held

/-- Every connection is held by a caller that waits for another one. -/
def Pool.Deadlocked (s : Pool max n) : Prop :=
  ∑ i with (s.callers i).waits, (s.callers i).held = max

/-- A turn of one caller, in a pool that has a connection left or not. The pool
answers a request only with a connection, or while one is being opened; a
caller that has finished may call again. -/
inductive Turn (start : Usage) (left : Prop) : Caller → Caller → Prop
  | granted {h : Nat} {k k' : Usage} (hleft : left) : Turn start left ⟨h, .connect k k'⟩ ⟨h + 1, k⟩
  | refused {h : Nat} {k k' : Usage} (hleft : left) : Turn start left ⟨h, .connect k k'⟩ ⟨h, k'⟩
  | answered {h : Nat} {sql : String} {k k' : Usage} : Turn start left ⟨h, .query sql k k'⟩ ⟨h, k⟩
  | failed {h : Nat} {sql : String} {k k' : Usage} : Turn start left ⟨h, .query sql k k'⟩ ⟨h, k'⟩
  | released {h : Nat} {k : Usage} : Turn start left ⟨h, .release k⟩ ⟨h - 1, k⟩
  | again {h : Nat} : Turn start left ⟨h, .done⟩ ⟨h, start⟩

def Step (start : Usage) (s t : Pool max n) : Prop :=
  ∃ i c, Turn start (s.inUse < max) (s.callers i) c ∧ t.callers = Function.update s.callers i c

def Pool.idle (start : Usage) : Pool max n where
  callers := fun _ => ⟨0, start⟩
  within := by simp

abbrev Reachable (start : Usage) (s : Pool max n) : Prop :=
  Relation.ReflTransGen (Step start) (Pool.idle start) s

end

/-- A caller that holds `h` connections asks for another while it holds at most
`k`, and gives all of them back. -/
def Usage.Asks (k : Nat) : Usage → Nat → Prop
  | .done, h => h = 0
  | .connect granted refused, h => h ≤ k ∧ granted.Asks k (h + 1) ∧ refused.Asks k h
  | .query _ ok failed, h => ok.Asks k h ∧ failed.Asks k h
  | .release next, h => next.Asks k (h - 1)

section
variable {max n k : Nat} {start : Usage} {s t : Pool max n}

theorem Turn.asks {left : Prop} {c c' : Caller} (hstart : start.Asks k 0) (h : Turn start left c c')
    (hc : c.todo.Asks k c.held) : c'.todo.Asks k c'.held := by
  cases h with
  | granted => exact hc.2.1
  | refused => exact hc.2.2
  | answered => exact hc.1
  | failed => exact hc.2
  | released => exact hc
  | again =>
    obtain rfl := show _ = 0 from hc
    exact hstart

theorem Step.asks (hstart : start.Asks k 0) (h : Step start s t)
    (hs : ∀ i, (s.callers i).todo.Asks k (s.callers i).held) :
    ∀ i, (t.callers i).todo.Asks k (t.callers i).held := by
  obtain ⟨i, c, hturn, ht⟩ := h
  intro j
  rw [ht]
  by_cases hj : j = i
  · subst hj
    rw [Function.update_self]
    exact hturn.asks hstart (hs j)
  · rw [Function.update_of_ne hj]
    exact hs j

theorem Reachable.asks (hstart : start.Asks k 0) (h : Reachable start s) :
    ∀ i, (s.callers i).todo.Asks k (s.callers i).held := by
  induction h with
  | refl => exact fun _ => hstart
  | tail _ hstep ih => exact hstep.asks hstart ih

theorem Usage.Asks.held_le {c : Caller} (h : c.todo.Asks k c.held) (hw : c.waits = true) : c.held ≤ k := by
  obtain ⟨held, todo⟩ := c
  cases todo with
  | connect granted refused => exact h.1
  | _ => exact absurd hw (by simp [Caller.waits])

theorem Reachable.not_deadlocked (hstart : start.Asks k 0) (hn : n * k < max) (h : Reachable start s) :
    ¬ s.Deadlocked := by
  intro hdead
  have hle : ∑ i with (s.callers i).waits, (s.callers i).held ≤
      ∑ i with (s.callers i).waits, k :=
    Finset.sum_le_sum fun i hi => (h.asks hstart i).held_le (Finset.mem_filter.mp hi).2
  have hcard : (Finset.univ.filter fun i => (s.callers i).waits).card ≤ n := by
    simpa using Finset.card_filter_le Finset.univ fun i => (s.callers i).waits = true
  rw [show ∑ i with (s.callers i).waits, (s.callers i).held = max from hdead, Finset.sum_const,
    smul_eq_mul] at hle
  exact absurd (hle.trans (Nat.mul_le_mul_right k hcard)) (Nat.not_le.mpr hn)

theorem Pool.deadlocked_iff : s.Deadlocked ↔
    ∑ i, (if (s.callers i).waits then (s.callers i).held else 0) = max := by
  rw [Pool.Deadlocked, Finset.sum_filter]

/-- In a deadlock only the callers without a connection move, and they get none. -/
theorem Pool.Deadlocked.step (hdead : s.Deadlocked) (h : Step start s t) : t.Deadlocked := by
  obtain ⟨i, c, hturn, ht⟩ := h
  rw [Pool.deadlocked_iff] at hdead ⊢
  have hle : ∀ j ∈ Finset.univ, (if (s.callers j).waits then (s.callers j).held else 0) ≤
      (s.callers j).held := by
    intro j _
    split
    · exact Nat.le_refl _
    · exact Nat.zero_le _
  have hfull : ∑ j, (s.callers j).held = max :=
    Nat.le_antisymm s.within (hdead.symm.le.trans (Finset.sum_le_sum hle))
  have hnone : ¬ s.inUse < max := fun hlt => absurd hlt (by rw [Pool.inUse, hfull]; exact Nat.lt_irrefl max)
  have heq := (Finset.sum_eq_sum_iff_of_le hle).mp (hdead.trans hfull.symm) i (Finset.mem_univ i)
  -- the caller that moves is not waiting, so it holds nothing, and the turn gives it nothing
  have hmoves : (s.callers i).waits = false ∧ ((s.callers i).held = 0 → c.held = 0) := by
    generalize s.callers i = b at hturn
    cases hturn with
    | granted hleft => exact absurd hleft hnone
    | refused hleft => exact absurd hleft hnone
    | answered | failed | again => exact ⟨rfl, id⟩
    | released => exact ⟨rfl, fun h => Nat.sub_eq_zero_of_le (Nat.le_succ_of_le (Nat.le_of_eq h))⟩
  have hheld : c.held = 0 := hmoves.2 (by simpa [hmoves.1] using heq.symm)
  refine Eq.trans (Finset.sum_congr rfl fun j _ => ?_) hdead
  rw [ht]
  by_cases hj : j = i
  · subst hj
    simp [hheld, hmoves.1]
  · rw [Function.update_of_ne hj]

theorem Pool.Deadlocked.forever (hdead : s.Deadlocked) (h : Relation.ReflTransGen (Step start) s t) :
    t.Deadlocked := by
  induction h with
  | refl => exact hdead
  | tail _ hstep ih => exact ih.step hstep

end

section
variable {max n : Nat} {start : Usage}

/-- From one usage to the other by statements that succeed. -/
abbrev Usage.Queries : Usage → Usage → Prop :=
  Relation.ReflTransGen fun u v => ∃ sql failed, u = .query sql v failed

/-- The first `j` callers have one connection and are at `u`, the next one is
`c`, and the others have not begun. -/
def climb (start u : Usage) (c : Caller) (j : Nat) (i : Fin n) : Caller :=
  if i.val < j then ⟨1, u⟩ else if i.val = j then c else ⟨0, start⟩

theorem sum_climb (start u : Usage) (c : Caller) (j : Nat) :
    ∑ i : Fin n, (climb start u c j i).held = if j < n then j + c.held else n := by
  induction n with
  | zero => simp
  | succ n ih =>
    have hinit : ∑ i : Fin n, (climb start u c j i.castSucc).held = if j < n then j + c.held else n := ih
    rw [Fin.sum_univ_castSucc, hinit]
    rcases Nat.lt_trichotomy n j with h | h | h
    · simp [climb, h, Nat.lt_asymm h, Nat.not_lt.mpr (Nat.succ_le_of_lt h)]
    · simp [climb, h]
    · simp [climb, h, Nat.lt_asymm h, Nat.ne_of_gt h, Nat.lt_succ_of_lt h]

theorem climb_update (start u : Usage) (c c' : Caller) {j : Nat} (hn : j < n) :
    Function.update (climb start u c j) ⟨j, hn⟩ c' = climb (n := n) start u c' j := by
  funext i
  by_cases hi : i = ⟨j, hn⟩
  · subst hi
    simp [climb]
  · have hval : i.val ≠ j := fun h => hi (Fin.ext h)
    rw [Function.update_of_ne hi]
    simp [climb, hval]

theorem climb_next (start u : Usage) (j : Nat) :
    climb (n := n) start u ⟨1, u⟩ j = climb start u ⟨0, start⟩ (j + 1) := by
  funext i
  rcases Nat.lt_trichotomy i.val j with h | h | h
  · simp [climb, h, Nat.lt_succ_of_lt h]
  · simp [climb, h]
  · simp [climb, Nat.lt_asymm h, Nat.ne_of_gt h, Nat.not_lt.mpr (Nat.succ_le_of_lt h)]

theorem climb_reachable {k r u : Usage} (hstart : start = .connect k r) (hqueries : k.Queries u) {j : Nat}
    (hj : j ≤ max) (hn : j ≤ n) :
    ∃ s : Pool max n, Reachable start s ∧ s.callers = climb start u ⟨0, start⟩ j := by
  induction j with
  | zero =>
    refine ⟨Pool.idle start, .refl, ?_⟩
    funext i
    simp [Pool.idle, climb]
  | succ j ih =>
    obtain ⟨s, hs, hcallers⟩ := ih (Nat.le_of_succ_le hj) (Nat.le_of_succ_le hn)
    have hlt : j < n := hn
    have hwithin : ∀ v : Usage, ∑ i : Fin n, (climb start u ⟨1, v⟩ j i).held ≤ max := by
      intro v
      rw [sum_climb, if_pos hlt]
      exact hj
    have hat : ∀ c : Caller, climb start u c j ⟨j, hlt⟩ = c := fun c => by simp [climb]
    have hgranted : Step start s ⟨climb start u ⟨1, k⟩ j, hwithin k⟩ := by
      refine ⟨⟨j, hlt⟩, ⟨1, k⟩, ?_, ?_⟩
      · rw [hcallers, hat, hstart]
        refine .granted ?_
        rw [Pool.inUse, hcallers, sum_climb, if_pos hlt]
        exact hj
      · rw [hcallers, climb_update]
    have hqueried : ∀ v, k.Queries v → Reachable start ⟨climb start u ⟨1, v⟩ j, hwithin v⟩ := by
      intro v hv
      induction hv with
      | refl => exact hs.tail hgranted
      | @tail b c _ hstep ih =>
        obtain ⟨sql, failed, rfl⟩ := hstep
        have hturn : Turn start (Pool.inUse ⟨_, hwithin (.query sql c failed)⟩ < max)
            (climb start u ⟨1, .query sql c failed⟩ j ⟨j, hlt⟩) ⟨1, c⟩ := by
          rw [hat]
          exact .answered
        exact ih.tail ⟨⟨j, hlt⟩, ⟨1, c⟩, hturn, (climb_update ..).symm⟩
    exact ⟨_, hqueried u hqueries, climb_next start u j⟩

theorem deadlock_reachable {k r g f : Usage} (hstart : start = .connect k r)
    (hqueries : k.Queries (.connect g f)) (hn : max ≤ n) :
    ∃ s : Pool max n, Reachable start s ∧ s.Deadlocked := by
  obtain ⟨s, hs, hcallers⟩ := climb_reachable hstart hqueries (Nat.le_refl max) hn
  have hwaits : ∀ i, (s.callers i).waits = true := by
    intro i
    rw [hcallers, hstart]
    unfold climb
    split
    · rfl
    · split <;> rfl
  refine ⟨s, hs, ?_⟩
  rw [Pool.deadlocked_iff]
  simp only [hwaits, if_true]
  rw [hcallers, sum_climb]
  split
  · rfl
  · exact Nat.le_antisymm (Nat.not_lt.mp ‹_›) hn

end

end ConnectionPool
