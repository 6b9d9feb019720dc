import GuffSuff.ReadCommitted.Runs
import Mathlib.Data.List.Induction

/-! The commits of a run one by one: the state in which each of them takes
place, and what the database keeps when every one of them keeps it. -/

namespace ReadCommitted

variable {Db Key Id Event Result Call Cell : Type}

/-- The event whose `COMMIT` is the next statement. -/
def Program.committing : Program Db Key Id Event Result → Option Event
  | .commit e _ => some e
  | _ => none

namespace Server

def committing (s : Server Db Key Id Event Result Call) : Choice Id Call → Option Event
  | .exec p _ => (s.procs p).bind fun pr => pr.program.committing
  | _ => none

theorem committing_eq_some {s : Server Db Key Id Event Result Call} {ch : Choice Id Call}
    {e : Event} (h : s.committing ch = some e) :
    ∃ p ids pr k, ch = .exec p ids ∧ s.procs p = some pr ∧ pr.program = .commit e k := by
  cases ch with
  | exec p ids =>
    obtain ⟨pr, hp, he⟩ := Option.bind_eq_some_iff.mp h
    cases hprog : pr.program with
    | commit e' k =>
      rw [hprog] at he
      obtain rfl : e' = e := Option.some.inj he
      exact ⟨p, ids, pr, k, rfl, hp, hprog⟩
    | _ => simp [hprog, Program.committing] at he
  | _ => simp [Server.committing] at h

section
variable [DecidableEq Key] [DecidableEq Id]
variable (code : Call → Program Db Key Id Event Result) (aborted : Call → Result)

/-- In state `s'` of the run, event `e` commits. -/
def Commits (s : Server Db Key Id Event Result Call) (sched : List (Choice Id Call))
    (s' : Server Db Key Id Event Result Call) (e : Event) : Prop :=
  ∃ first ch rest, sched = first ++ ch :: rest ∧ s' = s.run code aborted first ∧
    s'.committing ch = some e

/-- In every state of the run the database satisfies `P`. -/
def Always (P : Db → Prop) (s : Server Db Key Id Event Result Call)
    (sched : List (Choice Id Call)) : Prop :=
  ∀ first rest, sched = first ++ rest → P (s.run code aborted first).db

/-- Once the database satisfies `P`, it does so to the end of the run. -/
def Stays (P : Db → Prop) (s : Server Db Key Id Event Result Call)
    (sched : List (Choice Id Call)) : Prop :=
  ∀ first mid rest, sched = first ++ mid ++ rest → P (s.run code aborted first).db →
    P (s.run code aborted (first ++ mid)).db

variable {code aborted} {P : Db → Prop} {s : Server Db Key Id Event Result Call}
variable {sched : List (Choice Id Call)}

theorem run_append (s : Server Db Key Id Event Result Call) (first rest : List (Choice Id Call)) :
    s.run code aborted (first ++ rest) = (s.run code aborted first).run code aborted rest :=
  List.foldl_append ..

theorem run_concat (s : Server Db Key Id Event Result Call) (first : List (Choice Id Call))
    (ch : Choice Id Call) :
    s.run code aborted (first ++ [ch]) = (s.run code aborted first).step code aborted ch := by
  rw [run_append]
  rfl

theorem exec_quiet {p : Nat} {pr : Process Db Key Id Event Result Call}
    (h : pr.program.committing = none) (ids : List Id) : (s.exec p ids pr).db = s.db := by
  cases hprog : pr.program with
  | commit e k => simp [hprog, Program.committing] at h
  | fresh k =>
    simp only [Server.exec, hprog]
    split
    · split <;> rfl
    · rfl
  | select accept k | lock key k | observe accept e k =>
    simp only [Server.exec, hprog]
    split <;> rfl
  | ret r => simp only [Server.exec, hprog]
  | _ =>
    simp only [Server.exec, hprog]
    rfl

theorem step_quiet {ch : Choice Id Call} (h : s.committing ch = none) :
    (s.step code aborted ch).db = s.db := by
  cases ch with
  | tick n => rfl
  | call p c =>
    simp only [Server.step]
    split <;> rfl
  | fail p =>
    simp only [Server.step]
    split
    · rfl
    · unfold Server.abort
      split <;> rfl
  | exec p ids =>
    simp only [Server.step]
    split
    · rfl
    · rename_i pr hp
      rw [Server.committing, hp] at h
      exact exec_quiet h ids

variable (code aborted) in
theorem committing_logged {ch : Choice Id Call} {e : Event} (h : s.committing ch = some e) :
    ∃ p ids, ch = .exec p ids ∧ (s.step code aborted ch).log = s.log ++ [(p, e)] := by
  obtain ⟨p, ids, pr, k, rfl, hp, hprog⟩ := committing_eq_some h
  refine ⟨p, ids, rfl, ?_⟩
  simp only [Server.step, hp, Server.exec, hprog]
  rfl

variable {S : Spec Db Key Id Event Cell} {Post : Call → World Db → Spec.Contract Db Event Result}
variable {w₀ : World Db}

variable (code aborted) in
theorem Sound.commit_step (h : Sound S Post w₀ s) {ch : Choice Id Call} {e : Event}
    (hc : s.committing ch = some e) : ∃ p, (s.step code aborted ch).log = s.log ++ [(p, e)] ∧
      S.moves s.clock s.db e (s.step code aborted ch).db := by
  obtain ⟨p, ids, pr, k, rfl, hp, hprog⟩ := committing_eq_some hc
  obtain ⟨L, hL, hs⟩ := h.safe p pr hp
  rw [hprog] at hs
  obtain ⟨hm, _⟩ := hs s.world (.refl _ _ _) h.holds
  refine ⟨p, ?_, ?_⟩
  · simp only [Server.step, hp, Server.exec, hprog]
    rfl
  · simp only [Server.step, hp, Server.exec, hprog]
    exact hm

theorem Stays.of_steps
    (h : ∀ first ch rest, sched = first ++ ch :: rest → P (s.run code aborted first).db →
      P (s.run code aborted (first ++ [ch])).db) : Stays code aborted P s sched := by
  intro first mid rest hsched hp
  induction mid using List.reverseRecOn generalizing rest with
  | nil => simpa using hp
  | append_singleton mid ch ih =>
    have hmid := ih (ch :: rest) (by simp [hsched])
    have hstep := h (first ++ mid) ch rest (by simp [hsched]) hmid
    rwa [List.append_assoc] at hstep

variable (hs : Sound S Post w₀ s) (hsched : ∀ ch ∈ sched, Covers S Post code aborted ch)
include hs hsched

theorem Commits.sound {s' : Server Db Key Id Event Result Call} {e : Event}
    (h : Commits code aborted s sched s' e) : Sound S Post w₀ s' := by
  obtain ⟨first, ch, rest, rfl, rfl, _⟩ := h
  exact hs.run fun ch hch => hsched ch (List.mem_append_left _ hch)

theorem Commits.after {s' : Server Db Key Id Event Result Call} {e : Event}
    (h : Commits code aborted s sched s' e) : ∃ first ch rest p, sched = first ++ [ch] ++ rest ∧
      s' = s.run code aborted first ∧ (s.run code aborted (first ++ [ch])).log = s'.log ++ [(p, e)] ∧
      S.moves s'.clock s'.db e (s.run code aborted (first ++ [ch])).db := by
  have hs' := h.sound hs hsched
  obtain ⟨first, ch, rest, rfl, rfl, hc⟩ := h
  obtain ⟨p, hlog, hm⟩ := hs'.commit_step code aborted hc
  refine ⟨first, ch, rest, p, by simp, rfl, ?_⟩
  rw [run_concat]
  exact ⟨hlog, hm⟩

theorem Stays.of_commits
    (h : ∀ s' e db', Commits code aborted s sched s' e → S.moves s'.clock s'.db e db' →
      P s'.db → P db') : Stays code aborted P s sched := by
  apply Stays.of_steps
  intro first ch rest hsplit hp
  have hfirst : Sound S Post w₀ (s.run code aborted first) :=
    hs.run fun ch' hch => hsched ch' (by rw [hsplit]; exact List.mem_append_left _ hch)
  rw [run_concat]
  cases hc : (s.run code aborted first).committing ch with
  | none =>
    rw [step_quiet hc]
    exact hp
  | some e =>
    obtain ⟨_, _, hm⟩ := hfirst.commit_step code aborted hc
    exact h _ e _ ⟨first, ch, rest, hsplit, rfl, hc⟩ hm hp

theorem Always.of_commits (hp : P s.db)
    (h : ∀ s' e db', Commits code aborted s sched s' e → S.moves s'.clock s'.db e db' →
      P s'.db → P db') : Always code aborted P s sched := by
  intro first rest hsplit
  exact Stays.of_commits hs hsched h [] first rest (by simpa using hsplit) hp

end

end Server

end ReadCommitted
