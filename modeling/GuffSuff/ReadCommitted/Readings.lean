import GuffSuff.ReadCommitted.Answers
import GuffSuff.ReadCommitted.Commits

/-! Calls that only read: what they answer is computed from states that the run
passes through while they are in progress. -/

namespace ReadCommitted

variable {Db Key Id Event Result Call : Type}

/-- The program reads outside of any transaction, with no locks and nothing to record. -/
def Program.Reading : Program Db Key Id Event Result → Prop
  | .ret _ => True
  | .now k => ∀ t, (k t).Reading
  | .query k => ∀ db, (k db).Reading
  | .select _ k => ∀ ids, (k ids).Reading
  | .rollback k => k.Reading
  | .fresh _ | .lock _ _ | .write _ _ | .commit _ _ | .observe _ _ _ => False

/-- The program answers `r` if its reads meet these worlds, one after the other. -/
def Program.Reads (r : Result) : Program Db Key Id Event Result → List (World Db) → Prop
  | .ret r', [] => r' = r
  | .now k, w :: ws => (k w.clock).Reads r ws
  | .query k, w :: ws => (k w.db).Reads r ws
  | .select accept k, w :: ws => ∃ ids, accept w.db ids = true ∧ (k ids).Reads r ws
  | .rollback k, ws => k.Reads r ws
  | _, _ => False

section
variable {r r' : Result} {ws : List (World Db)}

@[simp] theorem Program.reads_ret :
    (Program.ret r' : Program Db Key Id Event Result).Reads r ws ↔ ws = [] ∧ r' = r := by
  cases ws <;> simp [Program.Reads]

@[simp] theorem Program.reads_now {k : Nat → Program Db Key Id Event Result} :
    (Program.now k).Reads r ws ↔ ∃ w rest, ws = w :: rest ∧ (k w.clock).Reads r rest := by
  cases ws <;> simp [Program.Reads]

@[simp] theorem Program.reads_query {k : Db → Program Db Key Id Event Result} :
    (Program.query k).Reads r ws ↔ ∃ w rest, ws = w :: rest ∧ (k w.db).Reads r rest := by
  cases ws <;> simp [Program.Reads]

@[simp] theorem Program.reads_rollback {k : Program Db Key Id Event Result} :
    (Program.rollback k).Reads r ws ↔ k.Reads r ws := by
  cases ws <;> exact Iff.rfl

end

namespace Server

variable [DecidableEq Key] [DecidableEq Id]
variable (code : Call → Program Db Key Id Event Result) (aborted : Call → Result)

/-- The run of the schedule passes through these states in this order. -/
def Passes (s : Server Db Key Id Event Result Call) (sched : List (Choice Id Call)) :
    List (Server Db Key Id Event Result Call) → Prop
  | [] => True
  | t :: ts => ∃ first rest, sched = first ++ rest ∧ t = s.run code aborted first ∧ Passes t rest ts

variable {code aborted}
variable {s : Server Db Key Id Event Result Call} {sched : List (Choice Id Call)}
variable {ts : List (Server Db Key Id Event Result Call)} {p : Nat} {r : Result}

theorem Passes.after (first : List (Choice Id Call))
    (h : Passes code aborted (s.run code aborted first) sched ts) :
    Passes code aborted s (first ++ sched) ts := by
  cases ts with
  | nil => trivial
  | cons t ts =>
    obtain ⟨mid, rest, rfl, rfl, h⟩ := h
    exact ⟨first ++ mid, rest, (List.append_assoc ..).symm, (run_append s first mid).symm, h⟩

theorem Passes.here (h : Passes code aborted s sched ts) : Passes code aborted s sched (s :: ts) :=
  ⟨[], sched, rfl, rfl, h⟩

/-- A call with two reads meets a state of the run and then the same state or a later one. -/
theorem Passes.pair (h : Passes code aborted s sched ts) {w₁ w₂ : World Db}
    (hws : ts.map Server.world = [w₁, w₂]) : ∃ first mid rest, sched = first ++ mid ++ rest ∧
      w₁ = (s.run code aborted first).world ∧ w₂ = (s.run code aborted (first ++ mid)).world := by
  obtain ⟨t₁, _, rfl, rfl, hnext⟩ := List.map_eq_cons_iff.mp hws
  obtain ⟨t₂, _, rfl, rfl, _⟩ := List.map_eq_cons_iff.mp hnext
  obtain ⟨first, _, rfl, rfl, mid, rest, rfl, rfl, _⟩ := h
  exact ⟨first, mid, rest, (List.append_assoc ..).symm, rfl, congrArg Server.world (run_append ..).symm⟩

/-- The process reads, and no transaction of its own is open. -/
structure Reader (pr : Process Db Key Id Event Result Call) : Prop where
  reading : pr.program.Reading
  pending : pr.pending = id

omit [DecidableEq Key] [DecidableEq Id] in
theorem reader_ret (pr : Process Db Key Id Event Result Call) (r : Result) :
    Reader ({ pr with program := .ret r, pending := id } : Process Db Key Id Event Result Call) where
  reading := trivial
  pending := rfl

/-- What a statement makes of a reading process: it read the present state, or nothing. -/
structure Advances (w : World Db) (pr pr' : Process Db Key Id Event Result Call) : Prop where
  reader : Reader pr'
  call : pr'.call = pr.call
  reads : (∀ r ws, pr'.program.Reads r ws → pr.program.Reads r ws) ∨
    ∀ r ws, pr'.program.Reads r ws → pr.program.Reads r (w :: ws)

omit [DecidableEq Key] [DecidableEq Id] in
theorem Reader.stays {pr : Process Db Key Id Event Result Call} (h : Reader pr) (w : World Db) :
    Advances w pr pr := ⟨h, rfl, .inl fun _ _ hr => hr⟩

theorem Reader.exec {pr : Process Db Key Id Event Result Call} (h : Reader pr) (hp : s.procs p = some pr)
    (ids : List Id) : ∃ pr', (s.exec p ids pr).procs p = some pr' ∧ Advances s.world pr pr' := by
  obtain ⟨hread, hpend⟩ := h
  cases hprog : pr.program with
  | ret r =>
    simp only [Server.exec, hprog]
    exact ⟨pr, hp, Reader.stays ⟨hread, hpend⟩ _⟩
  | now k =>
    simp only [Server.exec, hprog]
    rw [hprog] at hread
    refine ⟨_, setProc_self .., ⟨hread _, hpend⟩, rfl, .inr fun r ws hr => ?_⟩
    rw [hprog]
    exact hr
  | query k =>
    simp only [Server.exec, hprog]
    rw [hprog] at hread
    refine ⟨_, setProc_self .., ⟨hread _, hpend⟩, rfl, .inr fun r ws hr => ?_⟩
    rw [hprog]
    rw [hpend] at hr
    exact hr
  | select accept k =>
    simp only [Server.exec, hprog]
    split
    · rename_i haccept
      rw [hprog] at hread
      refine ⟨_, setProc_self .., ⟨hread _, hpend⟩, rfl, .inr fun r ws hr => ?_⟩
      rw [hprog]
      rw [hpend] at haccept
      exact ⟨ids, haccept, hr⟩
    · exact ⟨pr, hp, Reader.stays ⟨hread, hpend⟩ _⟩
  | rollback k =>
    simp only [Server.exec, hprog]
    rw [hprog] at hread
    refine ⟨_, setProc_self .., ⟨hread, rfl⟩, rfl, .inl fun r ws hr => ?_⟩
    rw [hprog]
    exact hr
  | _ =>
    rw [hprog] at hread
    exact absurd hread id

theorem Reader.step {pr : Process Db Key Id Event Result Call} (h : Reader pr) (hp : s.procs p = some pr)
    (ch : Choice Id Call) : ∃ pr', (s.step code aborted ch).procs p = some pr' ∧
      (Advances s.world pr pr' ∨ pr' = { pr with program := .ret (aborted pr.call), pending := id }) := by
  have hwaits : (s.step code aborted ch).procs p = some pr → ∃ pr', (s.step code aborted ch).procs p = some pr' ∧
      (Advances s.world pr pr' ∨ pr' = { pr with program := .ret (aborted pr.call), pending := id }) :=
    fun hp' => ⟨pr, hp', .inl (h.stays _)⟩
  cases ch with
  | tick n => exact hwaits hp
  | call q c =>
    cases hq : s.procs q with
    | some _ => exact hwaits (by simpa only [Server.step, hq] using hp)
    | none =>
      have hne : p ≠ q := fun heq => absurd (hp.symm.trans (heq ▸ hq)) (by simp)
      refine hwaits ?_
      simp only [Server.step, hq]
      rw [setProc_ne _ _ hne, hp]
  | exec q ids =>
    by_cases hpq : p = q
    · subst hpq
      obtain ⟨pr', hp', hadv⟩ := h.exec hp ids
      exact ⟨pr', by simpa only [Server.step, hp] using hp', .inl hadv⟩
    · refine hwaits ?_
      simp only [Server.step]
      split
      · exact hp
      · rename_i qr hq
        rw [exec_ne hq ids hpq, hp]
  | fail q =>
    by_cases hpq : p = q
    · subst hpq
      simp only [Server.step, hp, Server.abort]
      split
      · exact ⟨pr, hp, .inl (h.stays _)⟩
      · exact ⟨_, setProc_self .., .inr rfl⟩
    · refine hwaits ?_
      simp only [Server.step]
      split
      · exact hp
      · rename_i qr hq
        rw [abort_ne hq hpq, hp]

/-- By induction on the schedule: the rest of the run adds the states that the rest of the
reads meet. -/
theorem Reader.answer {pr pr' : Process Db Key Id Event Result Call} (h : Reader pr)
    (hp : s.procs p = some pr) (hp' : (s.run code aborted sched).procs p = some pr')
    (hr : pr'.Finished r) : r = aborted pr.call ∨
      ∃ ts, Passes code aborted s sched ts ∧ pr.program.Reads r (ts.map Server.world) := by
  induction sched generalizing s pr with
  | nil =>
    obtain rfl := Option.some.inj (hp.symm.trans hp')
    refine .inr ⟨[], trivial, ?_⟩
    rw [hr]
    rfl
  | cons ch sched ih =>
    obtain ⟨qr, hq, hadv | rfl⟩ := h.step hp ch
    · obtain hr | ⟨ts, hts, hreads⟩ := ih hadv.reader hq hp'
      · exact .inl (hr.trans (congrArg aborted hadv.call))
      · have hpass : Passes code aborted s (ch :: sched) ts := Passes.after [ch] hts
        rcases hadv.reads with hsame | hread
        · exact .inr ⟨ts, hpass, hsame _ _ hreads⟩
        · exact .inr ⟨s :: ts, hpass.here, hread _ _ hreads⟩
    · obtain hr | ⟨ts, _, hreads⟩ := ih (reader_ret pr _) hq hp'
      · exact .inl hr
      · cases ts with
        | nil => exact .inl (Eq.symm hreads)
        | cons t ts => exact absurd hreads id

/-- A reading call that starts after state `s` answers from states that the run passes through. -/
theorem answer_of_reading {c : Call} (hcode : (code c).Reading) (hidle : s.procs p = none)
    (hret : (s.run code aborted sched).Returned p c r) : r = aborted c ∨
      ∃ ts, Passes code aborted s sched ts ∧ (code c).Reads r (ts.map Server.world) := by
  obtain ⟨pr', hp', rfl, hr⟩ := returned_iff.mp hret
  clear hret
  induction sched generalizing s with
  | nil => exact absurd (hidle.symm.trans hp') (by simp)
  | cons ch sched ih =>
    rcases step_cases code aborted s ch p with hsame | ⟨qr, _, hq, _⟩ | ⟨c, rfl, _, hstart⟩
    · obtain hr | ⟨ts, hts, hreads⟩ := ih (hsame.trans hidle) hp'
      · exact .inl hr
      · exact .inr ⟨ts, Passes.after [ch] hts, hreads⟩
    · exact absurd (hidle.symm.trans hq) (by simp)
    · obtain ⟨qr, hq, hc⟩ := run_continues code aborted sched hstart
      obtain rfl := Option.some.inj (hq.symm.trans hp')
      have hcall : qr.call = c := hc.call
      rw [hcall] at hcode ⊢
      obtain hr | ⟨ts, hts, hreads⟩ := Reader.answer ⟨hcode, rfl⟩ hstart hp' hr
      · exact .inl hr
      · exact .inr ⟨ts, Passes.after [.call p c] hts, hreads⟩

end Server

end ReadCommitted
