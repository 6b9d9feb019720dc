import GuffSuff.ReadCommitted.Program

/-! A process that moves alone: each of its turns executes one statement, and
the database changes by its own commits only. -/

namespace ReadCommitted

variable {Db Key Id Event Result Call : Type}

namespace Choice

def RunsAlone (p : Nat) : Choice Id Call → Prop
  | .tick _ => True
  | .exec q _ => q = p
  | _ => False

instance (p : Nat) (ch : Choice Id Call) : Decidable (ch.RunsAlone p) :=
  match ch with
  | .tick _ => isTrue trivial
  | .exec q _ => inferInstanceAs (Decidable (q = p))
  | .call _ _ => isFalse id
  | .fail _ => isFalse id

def isTurn (p : Nat) : Choice Id Call → Bool
  | .exec q _ => q == p
  | _ => false

def turns (p : Nat) (sched : List (Choice Id Call)) : Nat := sched.countP (isTurn p)

end Choice

namespace Server

/-- Process `p` is at `prog` in the call `c`, with nothing pending, and the database is `db`. -/
structure At (s : Server Db Key Id Event Result Call) (p : Nat) (c : Call)
    (prog : Program Db Key Id Event Result) (db : Db) : Prop where
  db : s.db = db
  proc : ∃ pr, s.procs p = some pr ∧ pr.call = c ∧ pr.program = prog ∧ pr.pending = id

theorem At.returned {s : Server Db Key Id Event Result Call} {p : Nat} {c : Call} {r : Result} {db : Db}
    (h : s.At p c (.ret r) db) : s.Returned p c r := by
  obtain ⟨pr, hp, hc, hprog, _⟩ := h.proc
  exact returned_iff.mpr ⟨pr, hp, hc, hprog⟩

variable [DecidableEq Key] [DecidableEq Id]
variable {code : Call → Program Db Key Id Event Result} {aborted : Call → Result}
variable {s : Server Db Key Id Event Result Call} {p : Nat} {c : Call} {db : Db}
variable {prog prog' : Program Db Key Id Event Result}

variable (code aborted) in
theorem At.call (h : s.procs p = none) :
    (s.step code aborted (.call p c)).At p c (code c) s.db := by
  have hstep : s.step code aborted (.call p c) = s.setProc p (.start s.world c (code c)) := by
    simp only [step, h]
  rw [hstep]
  exact ⟨rfl, _, Function.update_self .., rfl, rfl, rfl⟩

theorem At.query {k : Db → Program Db Key Id Event Result} (h : s.At p c (.query k) db)
    (ids : List Id) : (s.step code aborted (.exec p ids)).At p c (k db) db := by
  obtain ⟨rfl, pr, hp, hc, hprog, hpend⟩ := h
  have hstep : s.step code aborted (.exec p ids) =
      s.setProc p { pr with program := k (pr.pending s.db) } := by
    simp only [step, hp, exec, hprog]
  rw [hstep, hpend]
  exact ⟨rfl, _, Function.update_self .., hc, rfl, rfl⟩

theorem At.observe {e : Db → List Id → Event} {k : Db → List Id → Program Db Key Id Event Result}
    (h : s.At p c (.observe (fun _ _ => true) e k) db) (ids : List Id) :
    (s.step code aborted (.exec p ids)).At p c (k db ids) db := by
  obtain ⟨rfl, pr, hp, hc, hprog, hpend⟩ := h
  have hstep : s.step code aborted (.exec p ids) =
      { s with log := s.log ++ [(p, e (pr.pending s.db) ids)] }.setProc p
        { pr with program := k (pr.pending s.db) ids,
                  events := pr.events ++ [e (pr.pending s.db) ids] } := by
    simp only [step, hp, exec, hprog, if_true]
  rw [hstep, hpend]
  exact ⟨rfl, _, Function.update_self .., hc, rfl, rfl⟩

theorem At.tick (h : s.At p c prog db) (n : Nat) : (s.step code aborted (.tick n)).At p c prog db :=
  ⟨h.db, h.proc⟩

variable (code aborted) in
theorem At.advance (h : s.At p c prog db)
    (hexec : ∀ (s : Server Db Key Id Event Result Call) ids, s.At p c prog db →
      (s.step code aborted (.exec p ids)).At p c prog' db)
    {sched : List (Choice Id Call)} (halone : ∀ ch ∈ sched, ch.RunsAlone p) {n : Nat}
    (hn : n + 1 ≤ Choice.turns p sched) :
    ∃ (s' : Server Db Key Id Event Result Call) (sched' : List (Choice Id Call)),
      s.run code aborted sched = s'.run code aborted sched' ∧ s'.At p c prog' db ∧
        (∀ ch ∈ sched', ch.RunsAlone p) ∧ n ≤ Choice.turns p sched' := by
  induction sched generalizing s with
  | nil => simp [Choice.turns] at hn
  | cons ch sched ih =>
    have hch := halone ch List.mem_cons_self
    have hrest := fun ch' h' => halone ch' (List.mem_cons_of_mem ch h')
    cases ch with
    | tick m =>
      have hturns : n + 1 ≤ Choice.turns p sched := by simpa [Choice.turns, Choice.isTurn] using hn
      exact ih (h.tick m) hrest hturns
    | exec q ids =>
      obtain rfl : q = p := hch
      have hturns : n ≤ Choice.turns q sched := by simpa [Choice.turns, Choice.isTurn] using hn
      exact ⟨s.step code aborted (.exec q ids), sched, rfl, hexec s ids h, hrest, hturns⟩
    | call q c' => exact absurd hch id
    | fail q => exact absurd hch id

theorem At.finished {r : Result} (h : s.At p c (.ret r) db) {sched : List (Choice Id Call)}
    (halone : ∀ ch ∈ sched, ch.RunsAlone p) : (s.run code aborted sched).At p c (.ret r) db := by
  induction sched generalizing s with
  | nil => exact h
  | cons ch sched ih =>
    have hch := halone ch List.mem_cons_self
    have hrest := fun ch' h' => halone ch' (List.mem_cons_of_mem ch h')
    cases ch with
    | tick m => exact ih (h.tick m) hrest
    | exec q ids =>
      obtain rfl : q = p := hch
      obtain ⟨pr, hp, _, hprog, _⟩ := h.proc
      have hstep : s.step code aborted (.exec q ids) = s := by simp only [step, hp, exec, hprog]
      refine ih ?_ hrest
      rw [hstep]
      exact h
    | call q c' => exact absurd hch id
    | fail q => exact absurd hch id

end Server

end ReadCommitted
