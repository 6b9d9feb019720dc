import Mathlib.Data.List.Induction
import Mathlib.Data.List.Perm.Subperm
import GuffSuff.ReadCommitted.Soundness

/-! Logs in which the calls that act go one after the other: whoever enters has
all the earlier ones behind it, so the last one to enter counts them all. -/

namespace ReadCommitted

namespace Server

variable {Event : Type} {log : List (Nat × Event)} {enter act leave : Event → Prop}

def Performs (P : Event → Prop) (log : List (Nat × Event)) (p : Nat) : Prop :=
  ∃ e, (p, e) ∈ log ∧ P e

/-- Of two calls that act, the one that entered first has left before the other entered. -/
def Exclusive (enter act leave : Event → Prop) (log : List (Nat × Event)) : Prop :=
  ∀ l₁ q e l₂, log = l₁ ++ (q, e) :: l₂ → enter e → Performs act log q →
    ∀ p, p ≠ q → Performs enter l₁ p → Performs act log p → Performs leave l₁ p

instance (P : Event → Prop) [DecidablePred P] (log : List (Nat × Event)) (p : Nat) :
    Decidable (Performs P log p) :=
  decidable_of_iff (∃ x ∈ log, x.1 = p ∧ P x.2) <| by
    constructor
    · intro h
      obtain ⟨x, hx, rfl, hP⟩ := h
      exact ⟨x.2, hx, hP⟩
    · intro h
      obtain ⟨e, he, hP⟩ := h
      exact ⟨(p, e), he, rfl, hP⟩

theorem exclusive_iff : Exclusive enter act leave log ↔ ∀ i (hi : i < log.length),
    enter log[i].2 → Performs act log log[i].1 → ∀ x ∈ log.take i, x.1 ≠ log[i].1 → enter x.2 →
      Performs act log x.1 → Performs leave (log.take i) x.1 := by
  constructor
  · intro h i hi hen hact x hx hne hxen hxact
    have hsplit : log = log.take i ++ (log[i].1, log[i].2) :: log.drop (i + 1) := by
      have hdrop := List.drop_eq_getElem_cons hi
      rw [← hdrop, List.take_append_drop]
    exact h _ _ _ _ hsplit hen hact x.1 hne ⟨x.2, hx, hxen⟩ hxact
  · intro h l₁ q e l₂ hlog hen hact p hne hpen hpact
    obtain ⟨e', he', hen'⟩ := hpen
    have hlen : l₁.length < log.length := by simp [hlog]
    have hget : log[l₁.length] = (q, e) := by simp [hlog]
    have htake : log.take l₁.length = l₁ := by simp [hlog]
    have hall := h l₁.length hlen
    rw [hget, htake] at hall
    exact hall hen hact (p, e') he' hne hen' hpact

instance [DecidablePred enter] [DecidablePred act] [DecidablePred leave]
    (log : List (Nat × Event)) : Decidable (Exclusive enter act leave log) :=
  decidable_of_iff _ exclusive_iff.symm

theorem exists_last {α : Type} {l : List α} {P : α → Prop} (h : ∃ x ∈ l, P x) :
    ∃ l₁ x l₂, l = l₁ ++ x :: l₂ ∧ P x ∧ ∀ y ∈ l₂, ¬ P y := by
  induction l using List.reverseRecOn with
  | nil =>
    obtain ⟨x, hx, _⟩ := h
    exact absurd hx List.not_mem_nil
  | append_singleton l a ih =>
    by_cases ha : P a
    · exact ⟨l, a, [], rfl, ha, by simp⟩
    · obtain ⟨x, hx, hP⟩ := h
      have hne : x ≠ a := fun heq => ha (heq ▸ hP)
      have hxl : x ∈ l := by simpa [hne] using hx
      obtain ⟨l₁, y, l₂, rfl, hy, hafter⟩ := ih ⟨x, hxl, hP⟩
      refine ⟨l₁, y, l₂ ++ [a], by simp, hy, fun z hz => ?_⟩
      rcases List.mem_append.mp hz with hz | hz
      · exact hafter z hz
      · rw [List.mem_singleton.mp hz]
        exact ha

/-- Of some calls that act in an exclusive log, the last to enter finds the others gone. -/
theorem Exclusive.last_entrant (h : Exclusive enter act leave log) {ps : List Nat} (hne : ps ≠ [])
    (henter : ∀ p ∈ ps, Performs enter log p) (hact : ∀ p ∈ ps, Performs act log p) :
    ∃ q ∈ ps, ∃ l₁ e l₂, log = l₁ ++ (q, e) :: l₂ ∧ enter e ∧
      ∀ p ∈ ps, p ≠ q → Performs leave l₁ p := by
  have hsome : ∃ x ∈ log, x.1 ∈ ps ∧ enter x.2 := by
    obtain ⟨p, hp⟩ := List.exists_mem_of_ne_nil ps hne
    obtain ⟨e, he, hen⟩ := henter p hp
    exact ⟨(p, e), he, hp, hen⟩
  obtain ⟨l₁, x, l₂, hlog, ⟨hq, hen⟩, hlast⟩ := exists_last hsome
  refine ⟨x.1, hq, l₁, x.2, l₂, hlog, hen, fun p hp hpq => ?_⟩
  obtain ⟨e, he, hpen⟩ := henter p hp
  have hbefore : (p, e) ∈ l₁ := by
    rw [hlog] at he
    rcases List.mem_append.mp he with he | he
    · exact he
    · rcases List.mem_cons.mp he with he | he
      · exact absurd (congrArg Prod.fst he) hpq
      · exact absurd ⟨hp, hpen⟩ (hlast _ he)
  exact h l₁ x.1 x.2 l₂ hlog hen (hact _ hq) p hpq ⟨e, hbefore, hpen⟩ (hact p hp)

theorem length_le_of_performs {P : Event → Bool} {ps : List Nat} (hnd : ps.Nodup)
    (h : ∀ p ∈ ps, Performs (fun e => P e = true) log p) :
    ps.length ≤ (log.filter (fun x => P x.2)).length := by
  have hsub : ps ⊆ (log.filter (fun x => P x.2)).map Prod.fst := by
    intro p hp
    obtain ⟨e, he, hP⟩ := h p hp
    exact List.mem_map.mpr ⟨(p, e), by simp [he, hP], rfl⟩
  simpa using (hnd.subperm hsub).length_le

/-- Calls that record at most one event of a kind appear once each. -/
theorem nodup_performers {P : Event → Bool}
    (h : ∀ p, ((eventsOf log p).filter P).length ≤ 1) :
    ((log.filter (fun x => P x.2)).map Prod.fst).Nodup := by
  rw [List.nodup_iff_count_le_one]
  intro p
  have hcount : ((log.filter (fun x => P x.2)).map Prod.fst).count p =
      ((eventsOf log p).filter P).length := by
    rw [List.count, List.countP_map, List.countP_filter, List.countP_eq_length_filter, eventsOf,
      List.filter_map, List.length_map, List.filter_filter]
    congr 2
    funext x
    by_cases hP : P x.2 = true <;> by_cases hp : x.1 = p <;> simp [hP, hp]
  rw [hcount]
  exact h p

end Server

end ReadCommitted
