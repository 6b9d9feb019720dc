import Mathlib.Logic.Function.Basic
import GuffSuff.ReadCommitted.Table

/-! Calls against one database under READ COMMITTED with row locks, executed
statement by statement in any order a schedule gives. -/

namespace ReadCommitted

/-- What a call still has to do. `write` only fills the transaction's private
buffer; `commit` publishes the buffer, records the event it stands for and
drops the locks. `observe` is a `select` that also records what it read. -/
inductive Program (Db Key Id Event Result : Type) where
  | ret (r : Result)
  | now (k : Nat → Program Db Key Id Event Result)
  | fresh (k : Id → Program Db Key Id Event Result)
  | query (k : Db → Program Db Key Id Event Result)
  | select (accept : Db → List Id → Bool) (k : List Id → Program Db Key Id Event Result)
  | lock (key : Key) (k : Db → Program Db Key Id Event Result)
  | write (f : Db → Db) (k : Program Db Key Id Event Result)
  | commit (e : Event) (k : Program Db Key Id Event Result)
  | observe (accept : Db → List Id → Bool) (e : Db → List Id → Event)
      (k : Db → List Id → Program Db Key Id Event Result)
  | rollback (k : Program Db Key Id Event Result)

section
variable {Db Key Id Event Result : Type}

/-- Lock the rows one after the other, each wait seeing the versions committed meanwhile. -/
def Program.lockAll (key : Id → Key) (ids : List Id) (k : Program Db Key Id Event Result) :
    Program Db Key Id Event Result :=
  match ids with
  | [] => k
  | i :: ids => .lock (key i) fun _ => lockAll key ids k

/-- Lock the rows one after the other and keep those that still satisfy the
`WHERE` clause once their lock is held. -/
def Program.lockEach (key : Id → Key) (still : Id → Db → Bool) (kept ids : List Id)
    (k : List Id → Program Db Key Id Event Result) : Program Db Key Id Event Result :=
  match ids with
  | [] => k kept
  | i :: ids => .lock (key i) fun db =>
      lockEach key still (if still i db then kept ++ [i] else kept) ids k

structure World (Db : Type) where
  clock : Nat
  db : Db

/-- A call in progress. `call`, `began` and `events` are history only. -/
structure Process (Db Key Id Event Result Call : Type) where
  call : Call
  began : World Db
  program : Program Db Key Id Event Result
  pending : Db → Db
  drawn : List Id
  events : List Event

variable {Call : Type}

def Process.start (w : World Db) (c : Call) (p : Program Db Key Id Event Result) :
    Process Db Key Id Event Result Call :=
  { call := c, began := w, program := p, pending := id, drawn := [], events := [] }

def Process.Finished (pr : Process Db Key Id Event Result Call) (r : Result) : Prop :=
  pr.program = .ret r

def Program.result : Program Db Key Id Event Result → Option Result
  | .ret r => some r
  | _ => none

theorem Program.result_eq_some {p : Program Db Key Id Event Result} {r : Result} :
    p.result = some r ↔ p = .ret r := by
  cases p <;> simp [Program.result]

variable (Db Key Id Event Result Call) in
structure Server where
  db : Db
  clock : Nat
  used : List Id
  owner : Key → Option Nat
  procs : Nat → Option (Process Db Key Id Event Result Call)
  log : List (Nat × Event)

/-- One scheduling decision. `exec p ids` runs the next statement of process
`p`; `ids` are the values it draws, or the order in which its rows come. -/
inductive Choice (Id Call : Type) where
  | tick (n : Nat)
  | call (p : Nat) (c : Call)
  | exec (p : Nat) (ids : List Id)
  | fail (p : Nat)

namespace Server

def boot (db : Db) (clock : Nat) (used : List Id) : Server Db Key Id Event Result Call :=
  { db, clock, used, owner := fun _ => none, procs := fun _ => none, log := [] }

def world (s : Server Db Key Id Event Result Call) : World Db := ⟨s.clock, s.db⟩

def Returned (s : Server Db Key Id Event Result Call) (p : Nat) (c : Call) (r : Result) : Prop :=
  (s.procs p).map (fun pr => (pr.call, pr.program.result)) = some (c, some r)

instance [DecidableEq Call] [DecidableEq Result] (s : Server Db Key Id Event Result Call) (p : Nat)
    (c : Call) (r : Result) : Decidable (s.Returned p c r) :=
  inferInstanceAs (Decidable (_ = _))

theorem returned_iff {s : Server Db Key Id Event Result Call} {p : Nat} {c : Call} {r : Result} :
    s.Returned p c r ↔ ∃ pr, s.procs p = some pr ∧ pr.call = c ∧ pr.Finished r := by
  simp [Returned, Option.map_eq_some_iff, Program.result_eq_some, Process.Finished]

def release (owner : Key → Option Nat) (p : Nat) : Key → Option Nat :=
  fun k => if owner k = some p then none else owner k

def setProc (s : Server Db Key Id Event Result Call) (p : Nat)
    (pr : Process Db Key Id Event Result Call) : Server Db Key Id Event Result Call :=
  { s with procs := Function.update s.procs p (some pr) }

/-- A failing statement aborts its transaction and the call answers `aborted`. -/
def abort (aborted : Call → Result) (s : Server Db Key Id Event Result Call) (p : Nat)
    (pr : Process Db Key Id Event Result Call) : Server Db Key Id Event Result Call :=
  match pr.program with
  | .ret _ => s
  | _ => { s with owner := release s.owner p }.setProc p
      { pr with program := .ret (aborted pr.call), pending := id }

variable [DecidableEq Key] [DecidableEq Id]

/-- The next statement of process `p`; a statement that has to wait changes nothing. -/
def exec (s : Server Db Key Id Event Result Call) (p : Nat) (ids : List Id)
    (pr : Process Db Key Id Event Result Call) : Server Db Key Id Event Result Call :=
  match pr.program with
  | .ret _ => s
  | .now k => s.setProc p { pr with program := k s.clock }
  | .fresh k =>
    match ids with
    | [x] =>
      if x ∈ s.used then s
      else { s with used := x :: s.used }.setProc p { pr with program := k x, drawn := x :: pr.drawn }
    | _ => s
  | .query k => s.setProc p { pr with program := k (pr.pending s.db) }
  | .select accept k =>
    if accept (pr.pending s.db) ids then s.setProc p { pr with program := k ids } else s
  | .lock key k =>
    if s.owner key = none ∨ s.owner key = some p then
      { s with owner := Function.update s.owner key (some p) }.setProc p
        { pr with program := k (pr.pending s.db) }
    else s
  | .write f k => s.setProc p { pr with program := k, pending := fun db => f (pr.pending db) }
  | .commit e k =>
    { s with db := pr.pending s.db, owner := release s.owner p, log := s.log ++ [(p, e)] }.setProc p
      { pr with program := k, pending := id, events := pr.events ++ [e] }
  | .observe accept e k =>
    if accept (pr.pending s.db) ids then
      { s with log := s.log ++ [(p, e (pr.pending s.db) ids)] }.setProc p
        { pr with program := k (pr.pending s.db) ids,
                  events := pr.events ++ [e (pr.pending s.db) ids] }
    else s
  | .rollback k =>
    { s with owner := release s.owner p }.setProc p { pr with program := k, pending := id }

def step (code : Call → Program Db Key Id Event Result) (aborted : Call → Result)
    (s : Server Db Key Id Event Result Call) : Choice Id Call → Server Db Key Id Event Result Call
  | .tick n => { s with clock := s.clock + n }
  | .call p c =>
    match s.procs p with
    | none => s.setProc p (.start s.world c (code c))
    | some _ => s
  | .exec p ids =>
    match s.procs p with
    | none => s
    | some pr => s.exec p ids pr
  | .fail p =>
    match s.procs p with
    | none => s
    | some pr => s.abort aborted p pr

def run (code : Call → Program Db Key Id Event Result) (aborted : Call → Result)
    (s : Server Db Key Id Event Result Call) (sched : List (Choice Id Call)) :
    Server Db Key Id Event Result Call :=
  sched.foldl (step code aborted) s

end Server

end

end ReadCommitted
