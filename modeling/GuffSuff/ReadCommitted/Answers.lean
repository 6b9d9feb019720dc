import Mathlib.Data.Fintype.EquivFin
import GuffSuff.ReadCommitted.Runs

/-! Calls that read tables which stay as they are: what they answer, and that
those which only read never wait. -/

namespace ReadCommitted

variable {Db Key Id Event Result Call : Type}

/-- All answers of the program are in `P` while what it reads is in `I`. Once it
has written, it may read anything. -/
def Program.Answers (I : Db → Prop) (P : Result → Prop) : Program Db Key Id Event Result → Prop
  | .ret r => P r
  | .now k => ∀ t, (k t).Answers I P
  | .fresh k => ∀ x, (k x).Answers I P
  | .query k => ∀ db, I db → (k db).Answers I P
  | .select _ k => ∀ ids, (k ids).Answers I P
  | .lock _ k => ∀ db, I db → (k db).Answers I P
  | .write _ k => k.Quiet P
  | .commit _ k => k.Answers I P
  | .observe _ _ k => ∀ db ids, I db → (k db ids).Answers I P
  | .rollback k => k.Answers I P

/-- The program only reads and has answered after `n` statements. -/
def Program.Prompt (I : Db → Prop) : Nat → Program Db Key Id Event Result → Prop
  | _, .ret _ => True
  | n + 1, .now k => ∀ t, (k t).Prompt I n
  | n + 1, .query k => ∀ db, I db → (k db).Prompt I n
  | _, _ => False

section
variable {I : Db → Prop} {P : Result → Prop} {p : Program Db Key Id Event Result}

theorem Program.Answers.of_quiet (h : p.Quiet P) : p.Answers I P := by
  induction p with
  | ret r => exact h
  | now k ih => exact fun t => ih t (h t)
  | fresh k ih => exact fun x => ih x (h x)
  | query k ih => exact fun db _ => ih db (h db)
  | select accept k ih => exact fun ids => ih ids (h ids)
  | lock key k ih => exact fun db _ => ih db (h db)
  | write f k => exact h
  | commit e k => exact absurd h id
  | observe accept e k => exact absurd h id
  | rollback k ih => exact ih h

theorem Program.Prompt.succ {n : Nat} (h : p.Prompt I n) : p.Prompt I (n + 1) := by
  induction n generalizing p with
  | zero =>
    cases p with
    | ret r => trivial
    | _ => exact absurd h id
  | succ n ih =>
    cases p with
    | ret r => trivial
    | now k => exact fun t => ih (h t)
    | query k => exact fun db hdb => ih (h db hdb)
    | _ => exact absurd h id

end

def Choice.caller : Choice Id Call → Option Nat
  | .call p _ => some p
  | _ => none

namespace Server

variable {code : Call → Program Db Key Id Event Result} {aborted : Call → Result}
variable {s : Server Db Key Id Event Result Call} {p : Nat} {I : Db → Prop}

theorem abort_ne {q : Nat} {pr : Process Db Key Id Event Result Call} (hq : s.procs q = some pr)
    (hne : p ≠ q) : (s.abort aborted q pr).procs p = s.procs p := by
  obtain ⟨pr', hprocs, _⟩ := abort_procs aborted hq
  rw [hprocs, Function.update_of_ne hne]

/-- Before its first write the process sees the database itself. -/
def Answering (I : Db → Prop) (P : Result → Prop) (pr : Process Db Key Id Event Result Call) : Prop :=
  (pr.pending = id ∧ pr.program.Answers I P) ∨ pr.program.Quiet P

variable [DecidableEq Key] [DecidableEq Id]

theorem exec_ne {q : Nat} {pr : Process Db Key Id Event Result Call} (hq : s.procs q = some pr)
    (ids : List Id) (hne : p ≠ q) : (s.exec q ids pr).procs p = s.procs p := by
  obtain ⟨pr', hprocs, _⟩ := exec_procs hq ids
  rw [hprocs, Function.update_of_ne hne]

theorem step_keeps (Q : Process Db Key Id Event Result Call → Prop) {ch : Choice Id Call} (hdb : I s.db)
    (hstart : ∀ c w, ch = .call p c → Q (.start w c (code c)))
    (hexec : ∀ (s' : Server Db Key Id Event Result Call) ids pr pr', I s'.db →
      s'.procs p = some pr → Q pr → (s'.exec p ids pr).procs p = some pr' → Q pr')
    (hfail : ∀ pr, ch = .fail p → Q pr → Q { pr with program := .ret (aborted pr.call), pending := id })
    (hs : ∀ pr, s.procs p = some pr → Q pr) {pr : Process Db Key Id Event Result Call}
    (hp : (s.step code aborted ch).procs p = some pr) : Q pr := by
  cases ch with
  | tick n => exact hs pr hp
  | call q c =>
    cases hq : s.procs q with
    | some _ =>
      simp only [Server.step, hq] at hp
      exact hs pr hp
    | none =>
      simp only [Server.step, hq] at hp
      by_cases hpq : p = q
      · subst hpq
        rw [setProc_self] at hp
        obtain rfl := Option.some.inj hp
        exact hstart c _ rfl
      · rw [setProc_ne _ _ hpq] at hp
        exact hs pr hp
  | exec q ids =>
    cases hq : s.procs q with
    | none =>
      simp only [Server.step, hq] at hp
      exact hs pr hp
    | some qr =>
      simp only [Server.step, hq] at hp
      by_cases hpq : p = q
      · subst hpq
        exact hexec s ids qr pr hdb hq (hs qr hq) hp
      · rw [exec_ne hq ids hpq] at hp
        exact hs pr hp
  | fail q =>
    cases hq : s.procs q with
    | none =>
      simp only [Server.step, hq] at hp
      exact hs pr hp
    | some qr =>
      simp only [Server.step, hq] at hp
      by_cases hpq : p = q
      · subst hpq
        unfold Server.abort at hp
        split at hp
        · exact hs pr hp
        · rw [setProc_self] at hp
          obtain rfl := Option.some.inj hp
          exact hfail qr rfl (hs qr hq)
      · rw [abort_ne hq hpq] at hp
        exact hs pr hp

/-- What the statements of process `p` keep of it is kept by every run on databases in `I`. -/
theorem run_keeps (Q : Process Db Key Id Event Result Call → Prop) {sched : List (Choice Id Call)}
    (hI : ∀ first rest, sched = first ++ rest → I (s.run code aborted first).db)
    (hstart : ∀ c w, .call p c ∈ sched → Q (.start w c (code c)))
    (hexec : ∀ (s' : Server Db Key Id Event Result Call) ids pr pr', I s'.db →
      s'.procs p = some pr → Q pr → (s'.exec p ids pr).procs p = some pr' → Q pr')
    (hfail : ∀ pr, .fail p ∈ sched → Q pr →
      Q { pr with program := .ret (aborted pr.call), pending := id })
    (hs : ∀ pr, s.procs p = some pr → Q pr) {pr : Process Db Key Id Event Result Call}
    (hp : (s.run code aborted sched).procs p = some pr) : Q pr := by
  induction sched generalizing s with
  | nil => exact hs pr hp
  | cons ch sched ih =>
    have hrun : ∀ first, (s.step code aborted ch).run code aborted first =
        s.run code aborted (ch :: first) := fun _ => rfl
    refine ih ?_ (fun c w hc => hstart c w (List.mem_cons_of_mem _ hc))
      (fun pr hf => hfail pr (List.mem_cons_of_mem _ hf)) ?_ hp
    · intro first rest hsched
      rw [hrun]
      exact hI (ch :: first) rest (by rw [hsched, List.cons_append])
    · intro pr' hp'
      refine step_keeps Q (hI [] (ch :: sched) rfl) (fun c w hc => ?_) hexec (fun pr hf => ?_) hs hp'
      · exact hstart c w (hc ▸ List.mem_cons_self)
      · exact hfail pr (hf ▸ List.mem_cons_self)

theorem Answering.exec {P : Result → Prop} {ids : List Id}
    {pr pr' : Process Db Key Id Event Result Call} (hdb : I s.db) (hp : s.procs p = some pr)
    (h : Answering I P pr) (hp' : (s.exec p ids pr).procs p = some pr') : Answering I P pr' := by
  have hsame : s.procs p = some pr' → Answering I P pr' := fun hq =>
    Option.some.inj (hp.symm.trans hq) ▸ h
  have hsees : pr.pending = id → I (pr.pending s.db) := by
    intro hpend
    rw [hpend]
    exact hdb
  have hnext : ∀ k : Program Db Key Id Event Result, (pr.pending = id → pr.program.Answers I P → k.Answers I P) →
      (pr.program.Quiet P → k.Quiet P) → Answering I P { pr with program := k } := by
    intro k hanswers hquiet
    rcases h with ⟨hpend, h⟩ | h
    · exact .inl ⟨hpend, hanswers hpend h⟩
    · exact .inr (hquiet h)
  cases hprog : pr.program with
  | ret r =>
    simp only [Server.exec, hprog] at hp'
    exact hsame hp'
  | now k =>
    simp only [Server.exec, hprog, setProc_self, Option.some.injEq] at hp'
    subst hp'
    rw [hprog] at hnext
    exact hnext _ (fun _ h => h _) fun h => h _
  | fresh k =>
    simp only [Server.exec, hprog] at hp'
    split at hp'
    · split at hp'
      · exact hsame hp'
      · rw [setProc_self] at hp'
        obtain rfl := Option.some.inj hp'
        rw [hprog] at hnext
        exact hnext _ (fun _ h => h _) fun h => h _
    · exact hsame hp'
  | query k =>
    simp only [Server.exec, hprog, setProc_self, Option.some.injEq] at hp'
    subst hp'
    rw [hprog] at hnext
    exact hnext _ (fun hpend h => h _ (hsees hpend)) fun h => h _
  | select accept k =>
    simp only [Server.exec, hprog] at hp'
    split at hp'
    · rw [setProc_self] at hp'
      obtain rfl := Option.some.inj hp'
      rw [hprog] at hnext
      exact hnext _ (fun _ h => h _) fun h => h _
    · exact hsame hp'
  | lock key k =>
    simp only [Server.exec, hprog] at hp'
    split at hp'
    · rw [setProc_self] at hp'
      obtain rfl := Option.some.inj hp'
      rw [hprog] at hnext
      exact hnext _ (fun hpend h => h _ (hsees hpend)) fun h => h _
    · exact hsame hp'
  | write f k =>
    simp only [Server.exec, hprog, setProc_self, Option.some.injEq] at hp'
    subst hp'
    rw [Answering, hprog] at h
    rcases h with ⟨_, h⟩ | h
    · exact .inr h
    · exact .inr h
  | commit e k =>
    simp only [Server.exec, hprog, setProc_self, Option.some.injEq] at hp'
    subst hp'
    rw [Answering, hprog] at h
    rcases h with ⟨_, h⟩ | h
    · exact .inl ⟨rfl, h⟩
    · exact absurd h id
  | observe accept e k =>
    simp only [Server.exec, hprog] at hp'
    split at hp'
    · rw [setProc_self] at hp'
      obtain rfl := Option.some.inj hp'
      rw [Answering, hprog] at h
      rcases h with ⟨hpend, h⟩ | h
      · exact .inl ⟨hpend, h _ _ (hsees hpend)⟩
      · exact absurd h id
    · exact hsame hp'
  | rollback k =>
    simp only [Server.exec, hprog, setProc_self, Option.some.injEq] at hp'
    subst hp'
    rw [Answering, hprog] at h
    rcases h with ⟨_, h⟩ | h
    · exact .inl ⟨rfl, h⟩
    · exact .inr h

theorem call_of_exec {ids : List Id} {pr pr' : Process Db Key Id Event Result Call}
    (hp : s.procs p = some pr) (hp' : (s.exec p ids pr).procs p = some pr') : pr'.call = pr.call := by
  obtain ⟨qr, hprocs, hc⟩ := exec_procs hp ids
  rw [hprocs, Function.update_self] at hp'
  rw [← Option.some.inj hp']
  exact hc.call

theorem answer_of_run {P : Result → Prop} {sched : List (Choice Id Call)} {c : Call}
    (hI : ∀ first rest, sched = first ++ rest → I (s.run code aborted first).db)
    (hidle : s.procs p = none) (hcode : (code c).Answers I P) (hfail : .fail p ∈ sched → P (aborted c))
    {pr : Process Db Key Id Event Result Call} {r : Result}
    (hp : (s.run code aborted sched).procs p = some pr) (hc : pr.call = c) (hr : pr.Finished r) : P r := by
  have hanswering : pr.call = c → Answering I P pr := by
    refine run_keeps (fun pr => pr.call = c → Answering I P pr) hI ?_ ?_ ?_ ?_ hp
    · intro c' w _ hc'
      obtain rfl : c' = c := hc'
      exact .inl ⟨rfl, hcode⟩
    · intro s' ids qr qr' hdb hq h hq' hcall
      exact (h ((call_of_exec hq hq').symm.trans hcall)).exec hdb hq hq'
    · exact fun qr hf _ hcall => .inr (hcall ▸ hfail hf)
    · exact fun qr hq => absurd (hidle.symm.trans hq) (by simp)
  have h := hanswering hc
  rw [Answering, hr] at h
  rcases h with ⟨_, h⟩ | h
  · exact h
  · exact h

theorem prompt_exec {n : Nat} {ids : List Id} {pr pr' : Process Db Key Id Event Result Call}
    (hdb : I s.db) (hp : s.procs p = some pr) (h : pr.pending = id ∧ pr.program.Prompt I n)
    (hp' : (s.exec p ids pr).procs p = some pr') : pr'.pending = id ∧ pr'.program.Prompt I n := by
  obtain ⟨hpend, h⟩ := h
  cases hprog : pr.program with
  | ret r =>
    simp only [Server.exec, hprog] at hp'
    obtain rfl := Option.some.inj (hp.symm.trans hp')
    exact ⟨hpend, h⟩
  | now k =>
    simp only [Server.exec, hprog, setProc_self, Option.some.injEq] at hp'
    subst hp'
    rw [hprog] at h
    cases n with
    | zero => exact absurd h id
    | succ n => exact ⟨hpend, (h _).succ⟩
  | query k =>
    simp only [Server.exec, hprog, setProc_self, Option.some.injEq] at hp'
    subst hp'
    rw [hprog] at h
    cases n with
    | zero => exact absurd h id
    | succ n =>
      refine ⟨hpend, (h _ ?_).succ⟩
      rw [hpend]
      exact hdb
  | _ =>
    rw [hprog] at h
    cases n <;> exact absurd h id

variable (code aborted) in
/-- Whatever the others are doing, `n` turns are enough for a prompt process. -/
theorem finish_prompt {n : Nat} {pr : Process Db Key Id Event Result Call} (hdb : I s.db)
    (hp : s.procs p = some pr) (hpend : pr.pending = id) (h : pr.program.Prompt I n) :
    ∃ pr' r, (s.run code aborted (List.replicate n (.exec p []))).procs p = some pr' ∧ pr'.Finished r := by
  induction n generalizing s pr with
  | zero =>
    cases hprog : pr.program with
    | ret r => exact ⟨pr, r, hp, hprog⟩
    | _ =>
      rw [hprog] at h
      exact absurd h id
  | succ n ih =>
    have hrun : s.run code aborted (List.replicate (n + 1) (.exec p [])) =
        (s.exec p [] pr).run code aborted (List.replicate n (.exec p [])) := by
      simp [Server.run, List.replicate_succ, Server.step, hp]
    rw [hrun]
    cases hprog : pr.program with
    | ret r =>
      have hsame : s.exec p [] pr = s := by simp only [Server.exec, hprog]
      have hprompt : pr.program.Prompt I n := by
        rw [hprog]
        cases n <;> trivial
      rw [hsame]
      exact ih hdb hp hpend hprompt
    | now k =>
      rw [hprog] at h
      simp only [Server.exec, hprog]
      exact ih (s := s.setProc p { pr with program := k s.clock }) hdb (setProc_self ..) hpend (h _)
    | query k =>
      rw [hprog] at h
      simp only [Server.exec, hprog]
      refine ih (s := s.setProc p { pr with program := k (pr.pending s.db) }) hdb (setProc_self ..)
        hpend (h _ ?_)
      rw [hpend]
      exact hdb
    | _ =>
      rw [hprog] at h
      exact absurd h id

theorem prompt_of_run {n : Nat} {sched : List (Choice Id Call)} {c : Call}
    (hI : ∀ first rest, sched = first ++ rest → I (s.run code aborted first).db)
    (hidle : s.procs p = none) (hcode : (code c).Prompt I n)
    {pr : Process Db Key Id Event Result Call}
    (hp : (s.run code aborted sched).procs p = some pr) (hc : pr.call = c) :
    ∃ pr' r, (s.run code aborted (sched ++ List.replicate n (.exec p []))).procs p = some pr' ∧
      pr'.call = c ∧ pr'.Finished r := by
  have hprompt : pr.call = c → pr.pending = id ∧ pr.program.Prompt I n := by
    refine run_keeps (fun pr => pr.call = c → pr.pending = id ∧ pr.program.Prompt I n) hI
      ?_ ?_ ?_ ?_ hp
    · intro c' w _ hc'
      obtain rfl : c' = c := hc'
      exact ⟨rfl, hcode⟩
    · intro s' ids qr qr' hdb hq h hq' hcall
      exact prompt_exec hdb hq (h ((call_of_exec hq hq').symm.trans hcall)) hq'
    · refine fun qr _ _ _ => ⟨rfl, ?_⟩
      cases n <;> trivial
    · exact fun qr hq => absurd (hidle.symm.trans hq) (by simp)
  have hsplit : s.run code aborted (sched ++ List.replicate n (.exec p [])) =
      (s.run code aborted sched).run code aborted (List.replicate n (.exec p [])) :=
    List.foldl_append ..
  rw [hsplit]
  obtain ⟨hpend, h⟩ := hprompt hc
  obtain ⟨pr', r, hpr', hr⟩ :=
    finish_prompt code aborted (hI sched [] (List.append_nil _).symm) hp hpend h
  obtain ⟨qr, hqr, hcont⟩ := run_continues code aborted (List.replicate n (.exec p [])) hp
  obtain rfl := Option.some.inj (hqr.symm.trans hpr')
  exact ⟨qr, r, hpr', hcont.call.trans hc, hr⟩

theorem exists_idle (db : Db) (clock : Nat) (used : List Id) (sched : List (Choice Id Call)) :
    ∃ p, ((boot db clock used : Server Db Key Id Event Result Call).run code aborted sched).procs p =
      none := by
  obtain ⟨p, hp⟩ := Infinite.exists_notMem_finset (sched.filterMap Choice.caller).toFinset
  refine ⟨p, ?_⟩
  rw [Option.eq_none_iff_forall_ne_some]
  intro pr hpr
  rcases run_procs hpr with ⟨_, hboot, _⟩ | ⟨c, hc, _⟩
  · simp [boot] at hboot
  · exact hp (List.mem_toFinset.mpr (List.mem_filterMap.mpr ⟨_, hc, rfl⟩))

end Server

end ReadCommitted
