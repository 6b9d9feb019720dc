import Mathlib.Logic.Relation
import GuffSuff.ReadCommitted.Program

/-! The abstract side of a server: what each committed event does to the
database, and the runs made of such events. -/

namespace ReadCommitted

/-- A specification of a database: the moves an event stands for, an invariant
they keep, the part of the database each lock key protects, and the
identifiers already stored. -/
structure Spec (Db Key Id Event Cell : Type) where
  moves : Nat → Db → Event → Db → Prop
  holds : Nat → Db → Prop
  cell : Key → Db → Cell
  has : Id → Db → Prop
  holds_move : ∀ {c db e db'}, holds c db → moves c db e db' → holds c db'
  holds_tick : ∀ {c c' db}, holds c db → c ≤ c' → holds c' db

variable {Db Key Id Event Cell : Type}

namespace Spec
variable (S : Spec Db Key Id Event Cell)

inductive Path : World Db → List Event → World Db → Prop
  | refl (w : World Db) : Path w [] w
  | tick {w : World Db} {es : List Event} {c c' : Nat} {db : Db} :
      Path w es ⟨c, db⟩ → c ≤ c' → Path w es ⟨c', db⟩
  | move {w : World Db} {es : List Event} {c : Nat} {db db' : Db} {e : Event} :
      Path w es ⟨c, db⟩ → S.moves c db e db' → Path w (es ++ [e]) ⟨c, db'⟩

variable {S}

theorem Path.trans {u v w : World Db} {es fs : List Event}
    (h : S.Path u es v) (h' : S.Path v fs w) : S.Path u (es ++ fs) w := by
  induction h' with
  | refl => simpa using h
  | tick _ hc ih => exact .tick ih hc
  | move _ hm ih => simpa only [List.append_assoc] using Path.move ih hm

theorem Path.single {c : Nat} {db db' : Db} {e : Event} (h : S.moves c db e db') :
    S.Path ⟨c, db⟩ [e] ⟨c, db'⟩ := .move (.refl _) h

/-- The induction behind every invariant: kept by the clock and by each event. -/
theorem Path.keeps {P : Nat → Db → Prop}
    (htick : ∀ c c' db, P c db → c ≤ c' → P c' db)
    (hmove : ∀ c db e db', P c db → S.moves c db e db' → P c db')
    {v w : World Db} {es : List Event} (h : S.Path v es w) (hv : P v.clock v.db) :
    P w.clock w.db := by
  induction h with
  | refl => exact hv
  | tick _ hc ih => exact htick _ _ _ ih hc
  | move _ hm ih => exact hmove _ _ _ _ ih hm

theorem Path.holds {v w : World Db} {es : List Event} (h : S.Path v es w)
    (hv : S.holds v.clock v.db) : S.holds w.clock w.db :=
  h.keeps (P := S.holds) (fun _ _ _ => S.holds_tick) (fun _ _ _ _ => S.holds_move) hv

theorem Path.keeps_of_mem {P : Nat → Db → Prop} {v w : World Db} {es : List Event}
    (h : S.Path v es w) (htick : ∀ c c' db, P c db → c ≤ c' → P c' db)
    (hmove : ∀ c db e db', e ∈ es → S.holds c db → P c db → S.moves c db e db' → P c db')
    (hv : S.holds v.clock v.db) (hp : P v.clock v.db) : P w.clock w.db := by
  induction h with
  | refl => exact hp
  | tick _ hc ih => exact htick _ _ _ (ih hmove) hc
  | move hpath hm ih =>
    have hold := ih fun c db e db' he => hmove c db e db' (List.mem_append_left _ he)
    exact hmove _ _ _ _ (List.mem_append_right _ (List.mem_singleton_self _)) (hpath.holds hv) hold hm

/-- As `keeps`, for what also depends on the events so far. -/
theorem Path.keeps_log {P : List Event → Db → Prop} {v w : World Db} {es : List Event}
    (h : S.Path v es w)
    (hmove : ∀ es c db e db', S.holds c db → P es db → S.moves c db e db' → P (es ++ [e]) db')
    (hv : S.holds v.clock v.db) (hp : P [] v.db) : P es w.db := by
  induction h with
  | refl => exact hp
  | tick _ _ ih => exact ih
  | move hpath hm ih => exact hmove _ _ _ _ _ (hpath.holds hv) ih hm

theorem Path.db_eq {v w : World Db} (h : S.Path v [] w) : w.db = v.db := by
  generalize hl : ([] : List Event) = es at h
  induction h with
  | refl => rfl
  | tick _ _ ih => exact ih hl
  | move _ _ _ => simp at hl

theorem Path.clock_le {v w : World Db} {es : List Event} (h : S.Path v es w) :
    v.clock ≤ w.clock := by
  induction h with
  | refl => exact Nat.le_refl _
  | tick _ hc ih => exact Nat.le_trans ih hc
  | move _ _ ih => exact ih

theorem Path.cut {v w : World Db} {es fs : List Event} {e : Event}
    (h : S.Path v (es ++ e :: fs) w) :
    ∃ c db db', S.Path v es ⟨c, db⟩ ∧ S.moves c db e db' ∧ S.Path ⟨c, db'⟩ fs w := by
  generalize hl : es ++ e :: fs = l at h
  induction h generalizing fs with
  | refl => simp at hl
  | tick _ hc ih =>
    obtain ⟨c, db, db', h₁, hm, h₂⟩ := ih hl
    exact ⟨c, db, db', h₁, hm, h₂.tick hc⟩
  | @move es' c db db' e' hp hm ih =>
    rcases List.eq_nil_or_concat fs with rfl | ⟨gs, g, rfl⟩
    · obtain ⟨rfl, he⟩ := List.append_inj' hl rfl
      obtain rfl := (List.cons.inj he).1
      exact ⟨c, db, db', hp, hm, .refl _⟩
    · simp only [List.concat_eq_append] at hl ⊢
      rw [← List.cons_append, ← List.append_assoc] at hl
      obtain ⟨hl', he⟩ := List.append_inj' hl rfl
      obtain rfl := (List.cons.inj he).1
      obtain ⟨c₁, db₁, db₁', h₁, hm₁, h₂⟩ := ih hl'
      exact ⟨c₁, db₁, db₁', h₁, hm₁, h₂.move hm⟩

theorem Path.of_singleton {v w : World Db} {e : Event} (h : S.Path v [e] w) :
    ∃ c, v.clock ≤ c ∧ S.moves c v.db e w.db := by
  obtain ⟨c, db, db', h₁, hm, h₂⟩ := Path.cut (show S.Path v ([] ++ e :: []) w from h)
  have hv : db = v.db := h₁.db_eq
  have hw : w.db = db' := h₂.db_eq
  rw [hv] at hm
  exact ⟨c, h₁.clock_le, hw ▸ hm⟩

variable (S) in
def Later (w w' : World Db) : Prop := ∃ es, S.Path w es w'

theorem Later.refl (w : World Db) : S.Later w w := ⟨[], .refl w⟩

theorem Later.trans {u v w : World Db} (h : S.Later u v) (h' : S.Later v w) : S.Later u w := by
  obtain ⟨es, h⟩ := h
  obtain ⟨fs, h'⟩ := h'
  exact ⟨es ++ fs, h.trans h'⟩

theorem Later.clock_le {w w' : World Db} (h : S.Later w w') : w.clock ≤ w'.clock := by
  obtain ⟨_, h⟩ := h
  exact h.clock_le

end Spec

end ReadCommitted
