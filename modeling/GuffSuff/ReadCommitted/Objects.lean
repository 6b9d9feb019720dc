import GuffSuff.ReadCommitted.Path

/-! What a component is for, as an object used by one caller at a time: which
operations its state allows and what each of them leaves. A specification
shows such an object when every path of it is a legal history. -/

namespace ReadCommitted

structure Object (State Op : Type) where
  allows : State → Op → Prop
  apply : State → Op → State

namespace Object

variable {State Op : Type} {O : Object State Op} {a b c : State} {ops more : List Op} {op : Op}

variable (O) in
/-- Each operation is allowed by what the earlier ones have left. -/
inductive Legal (a : State) : List Op → State → Prop
  | nil : Legal a [] a
  | snoc {b : State} {ops : List Op} {op : Op} :
      Legal a ops b → O.allows b op → Legal a (ops ++ [op]) (O.apply b op)

theorem Legal.append (h : O.Legal a ops b) (h' : O.Legal b more c) : O.Legal a (ops ++ more) c := by
  induction h' with
  | nil => simpa using h
  | snoc _ hop ih => simpa only [List.append_assoc] using ih.snoc hop

theorem Legal.single (h : O.allows a op) : O.Legal a [op] (O.apply a op) := Legal.nil.snoc h

theorem Legal.cut (h : O.Legal a (ops ++ op :: more) c) :
    ∃ b, O.Legal a ops b ∧ O.allows b op ∧ O.Legal (O.apply b op) more c := by
  generalize hl : ops ++ op :: more = all at h
  induction h generalizing more with
  | nil => simp at hl
  | @snoc b all last hall hlast ih =>
    rcases List.eq_nil_or_concat more with rfl | ⟨more', last', rfl⟩
    · obtain ⟨rfl, hop⟩ := List.append_inj' hl rfl
      obtain rfl := (List.cons.inj hop).1
      exact ⟨b, hall, hlast, .nil⟩
    · simp only [List.concat_eq_append] at hl ⊢
      rw [← List.cons_append, ← List.append_assoc] at hl
      obtain ⟨hl', hop⟩ := List.append_inj' hl rfl
      obtain rfl := (List.cons.inj hop).1
      obtain ⟨m, hfirst, hallowed, hrest⟩ := ih hl'
      exact ⟨m, hfirst, hallowed, hrest.snoc hlast⟩

/-- What every allowed operation of a history keeps, the whole history keeps. -/
theorem Legal.keeps {P : State → Prop} (hstep : ∀ a op, P a → O.allows a op → P (O.apply a op))
    (h : O.Legal a ops b) (ha : P a) : P b := by
  induction h with
  | nil => exact ha
  | snoc _ hop ih => exact hstep _ _ ih hop

/-- Where the history has kept `P`, no operation that `P` rules out is part of it. -/
theorem Legal.never {P : State → Prop} (hstep : ∀ a op, P a → O.allows a op → P (O.apply a op))
    {no : Op → Prop} (hno : ∀ a op, P a → O.allows a op → ¬ no op) (h : O.Legal a ops b) (ha : P a) :
    ∀ op ∈ ops, ¬ no op := by
  induction h with
  | nil => exact fun _ hop => absurd hop List.not_mem_nil
  | @snoc b ops op hops hop ih =>
    intro op' hmem
    rcases List.mem_append.mp hmem with hmem | hmem
    · exact ih op' hmem
    · obtain rfl := List.mem_singleton.mp hmem
      exact hno _ _ (hops.keeps hstep ha) hop

end Object

variable {Db Key Id Event Cell State Op : Type}

/-- Seen through `view`, a move is the operation that its event stands for, or nothing. -/
structure Spec.Shows (S : Spec Db Key Id Event Cell) (O : Object State Op) (view : Db → State)
    (operation : Event → Option Op) : Prop where
  silent : ∀ {c db e db'}, S.holds c db → S.moves c db e db' → operation e = none → view db' = view db
  acts : ∀ {c db e db' op}, S.holds c db → S.moves c db e db' → operation e = some op →
    O.allows (view db) op ∧ view db' = O.apply (view db) op

theorem Spec.Shows.legal {S : Spec Db Key Id Event Cell} {O : Object State Op} {view : Db → State}
    {operation : Event → Option Op} (hS : S.Shows O view operation) {v w : World Db} {es : List Event}
    (h : S.Path v es w) (hv : S.holds v.clock v.db) :
    O.Legal (view v.db) (es.filterMap operation) (view w.db) := by
  induction h with
  | refl => exact .nil
  | tick _ _ ih => exact ih
  | @move _ c db db' e hpath hm ih =>
    have hi := hpath.holds hv
    rw [List.filterMap_append]
    cases hop : operation e with
    | none =>
      have hsame : view db' = view db := hS.silent hi hm hop
      simpa [hop, hsame] using ih
    | some op =>
      obtain ⟨hallowed, hleft⟩ := hS.acts hi hm hop
      simpa [hop, hleft] using ih.snoc hallowed

end ReadCommitted
