import Mathlib.Data.Fintype.EquivFin
import GuffSuff.ReadCommitted.Commits

/-! What a call may answer in any run, whatever the others commit meanwhile, and
what it can be made to answer in a run of its own. -/

namespace ReadCommitted

variable {Db Key Id Event Result Call Cell : Type}

/-- The program answers in `P` if the others only change the world within `R`: it reads each
state of it through what it has written so far. -/
def Program.Results (R : World Db → World Db → Prop) (P : Result → World Db → Prop) :
    Program Db Key Id Event Result → (Db → Db) → World Db → Prop
  | .ret r, _, w => ∀ w', R w w' → P r w'
  | .now k, f, w => ∀ w', R w w' → (k w'.clock).Results R P f w'
  | .fresh k, f, w => ∀ x, (k x).Results R P f w
  | .query k, f, w => ∀ w', R w w' → (k (f w'.db)).Results R P f w'
  | .select accept k, f, w => ∀ w', R w w' → ∀ ids, accept (f w'.db) ids = true →
      (k ids).Results R P f w'
  | .lock _ k, f, w => ∀ w', R w w' → (k (f w'.db)).Results R P f w'
  | .write g k, f, w => k.Results R P (fun db => g (f db)) w
  | .commit _ k, f, w => ∀ w', R w w' → k.Results R P id ⟨w'.clock, f w'.db⟩
  | .observe accept _ k, f, w => ∀ w', R w w' → ∀ ids, accept (f w'.db) ids = true →
      (k (f w'.db) ids).Results R P f w'
  | .rollback k, _, w => k.Results R P id w

/-- Run alone from `w`, with the locks in `free` at hand, the program can be made to answer in `Q`. -/
def Program.Reaches (free : Key → Prop) (Q : Result → Prop) :
    Program Db Key Id Event Result → (Db → Db) → World Db → Prop
  | .ret r, _, _ => Q r
  | .now k, f, w => (k w.clock).Reaches free Q f w
  | .fresh k, f, w => ∀ x, (k x).Reaches free Q f w
  | .query k, f, w => (k (f w.db)).Reaches free Q f w
  | .select accept k, f, w => ∃ ids, accept (f w.db) ids = true ∧ (k ids).Reaches free Q f w
  | .lock key k, f, w => free key ∧ (k (f w.db)).Reaches free Q f w
  | .write g k, f, w => k.Reaches free Q (fun db => g (f db)) w
  | .commit _ k, f, w => k.Reaches free Q id ⟨w.clock, f w.db⟩
  | .observe accept _ k, f, w => ∃ ids, accept (f w.db) ids = true ∧ (k (f w.db) ids).Reaches free Q f w
  | .rollback k, _, w => k.Reaches free Q id w

section
variable {R : World Db → World Db → Prop} {P : Result → World Db → Prop} {f : Db → Db} {w w' : World Db}

theorem Program.Results.later (htrans : ∀ u v w, R u v → R v w → R u w)
    {p : Program Db Key Id Event Result} (h : p.Results R P f w) (hw : R w w') : p.Results R P f w' := by
  induction p generalizing f w with
  | ret r => exact fun v hv => h v (htrans _ _ _ hw hv)
  | now k ih => exact fun v hv => h v (htrans _ _ _ hw hv)
  | fresh k ih => exact fun x => ih x (h x) hw
  | query k ih => exact fun v hv => h v (htrans _ _ _ hw hv)
  | select accept k ih => exact fun v hv => h v (htrans _ _ _ hw hv)
  | lock key k ih => exact fun v hv => h v (htrans _ _ _ hw hv)
  | write g k ih => exact ih h hw
  | commit e k ih => exact fun v hv => h v (htrans _ _ _ hw hv)
  | observe accept e k ih => exact fun v hv => h v (htrans _ _ _ hw hv)
  | rollback k ih => exact ih h hw

end

def Choice.Executes (p : Nat) (ch : Choice Id Call) : Prop := ∃ ids, ch = .exec p ids

namespace Server

variable {code : Call → Program Db Key Id Event Result} {aborted : Call → Result}
variable {s : Server Db Key Id Event Result Call} {p : Nat} {c : Call}
variable {R : World Db → World Db → Prop} {P : Result → World Db → Prop} {Q : Result → Prop}

variable (code R P) in
/-- If process `p` makes the call `c`, or is in it already, it answers in `P`. -/
structure ResultsAt (s : Server Db Key Id Event Result Call) (p : Nat) (c : Call) : Prop where
  idle : s.procs p = none → (code c).Results R P id s.world
  busy : ∀ pr, s.procs p = some pr → pr.call = c → pr.program.Results R P pr.pending s.world

theorem ResultsAt.of_setProc {pr : Process Db Key Id Event Result Call}
    (h : pr.call = c → pr.program.Results R P pr.pending s.world) :
    (s.setProc p pr).ResultsAt code R P p c where
  idle hp := by
    rw [setProc_self] at hp
    exact nomatch hp
  busy pr' hp' hc := by
    rw [setProc_self] at hp'
    obtain rfl := Option.some.inj hp'
    exact h hc

theorem ResultsAt.other (htrans : ∀ u v w, R u v → R v w → R u w) (h : s.ResultsAt code R P p c)
    {s' : Server Db Key Id Event Result Call} (hp : s'.procs p = s.procs p) (hw : R s.world s'.world) :
    s'.ResultsAt code R P p c where
  idle hidle := (h.idle (hp.symm.trans hidle)).later htrans hw
  busy pr hpr hc := (h.busy pr (hp.symm.trans hpr) hc).later htrans hw

theorem resultsAt_boot {db : Db} {clock : Nat} (h : (code c).Results R P id ⟨clock, db⟩) (used : List Id)
    (p : Nat) : (boot db clock used : Server Db Key Id Event Result Call).ResultsAt code R P p c where
  idle _ := h
  busy _ hp _ := nomatch hp

/-- Nobody else holds one of these locks. -/
def AtHand (free : Key → Prop) (s : Server Db Key Id Event Result Call) (p : Nat) : Prop :=
  ∀ key, free key → s.owner key = none ∨ s.owner key = some p

theorem AtHand.release {free : Key → Prop} (h : s.AtHand free p) {key : Key} (hkey : free key) :
    release s.owner p key = none ∨ release s.owner p key = some p := by
  unfold Server.release
  rcases h key hkey with hown | hown <;> simp [hown]

variable [DecidableEq Key] [DecidableEq Id]

theorem ResultsAt.exec (hrefl : ∀ w, R w w) (h : s.ResultsAt code R P p c) {ids : List Id}
    {pr : Process Db Key Id Event Result Call} (hp : s.procs p = some pr) :
    (s.exec p ids pr).ResultsAt code R P p c := by
  have hprog := h.busy pr hp
  unfold Server.exec
  cases hk : pr.program with
  | ret r => exact h
  | now k =>
    rw [hk] at hprog
    exact .of_setProc fun hc => hprog hc s.world (hrefl _)
  | fresh k =>
    rw [hk] at hprog
    dsimp only
    split
    · split
      · exact h
      · exact .of_setProc fun hc => hprog hc _
    · exact h
  | query k =>
    rw [hk] at hprog
    exact .of_setProc fun hc => hprog hc s.world (hrefl _)
  | select accept k =>
    rw [hk] at hprog
    dsimp only
    split
    · exact .of_setProc fun hc => hprog hc s.world (hrefl _) ids ‹_›
    · exact h
  | lock key k =>
    rw [hk] at hprog
    dsimp only
    split
    · exact .of_setProc fun hc => hprog hc s.world (hrefl _)
    · exact h
  | write g k =>
    rw [hk] at hprog
    exact .of_setProc fun hc => hprog hc
  | commit e k =>
    rw [hk] at hprog
    exact .of_setProc fun hc => hprog hc s.world (hrefl _)
  | observe accept e k =>
    rw [hk] at hprog
    dsimp only
    split
    · exact .of_setProc fun hc => hprog hc s.world (hrefl _) ids ‹_›
    · exact h
  | rollback k =>
    rw [hk] at hprog
    exact .of_setProc fun hc => hprog hc

theorem ResultsAt.step (hrefl : ∀ w, R w w) (htrans : ∀ u v w, R u v → R v w → R u w)
    {ch : Choice Id Call} (hfail : ch = .fail p → ∀ w, P (aborted c) w)
    (hw : ¬ ch.Executes p → R s.world (s.step code aborted ch).world)
    (h : s.ResultsAt code R P p c) : (s.step code aborted ch).ResultsAt code R P p c := by
  cases ch with
  | tick n => exact h.other htrans rfl (hw fun hx => absurd hx.choose_spec (by simp))
  | call q c' =>
    cases hq : s.procs q with
    | some qr =>
      simp only [Server.step, hq]
      exact h
    | none =>
      simp only [Server.step, hq]
      by_cases hpq : p = q
      · subst hpq
        refine .of_setProc fun hc => ?_
        obtain rfl : c' = c := hc
        exact h.idle hq
      · exact h.other htrans (setProc_ne _ _ hpq) (hrefl _)
  | exec q ids =>
    cases hq : s.procs q with
    | none =>
      simp only [Server.step, hq]
      exact h
    | some qr =>
      simp only [Server.step, hq] at hw ⊢
      by_cases hpq : p = q
      · subst hpq
        exact h.exec hrefl hq
      · refine h.other htrans ?_ (hw fun hx => hpq (Choice.exec.inj hx.choose_spec).1.symm)
        obtain ⟨qr', hprocs, _⟩ := exec_procs hq ids
        rw [hprocs, Function.update_of_ne hpq]
  | fail q =>
    cases hq : s.procs q with
    | none =>
      simp only [Server.step, hq]
      exact h
    | some qr =>
      simp only [Server.step, hq] at hw ⊢
      by_cases hpq : p = q
      · subst hpq
        unfold Server.abort
        split
        · exact h
        · refine .of_setProc fun hc => ?_
          obtain rfl : qr.call = c := hc
          exact fun w _ => hfail rfl w
      · refine h.other htrans ?_ (hw fun hx => absurd hx.choose_spec (by simp))
        obtain ⟨qr', hprocs, _⟩ := abort_procs aborted hq
        rw [hprocs, Function.update_of_ne hpq]

variable (code aborted R) in
/-- Each step of the run that is no statement of process `p` changes the world within `R`. -/
def StaysWithin (s : Server Db Key Id Event Result Call) (p : Nat) (sched : List (Choice Id Call)) : Prop :=
  ∀ first ch rest, sched = first ++ ch :: rest → ¬ ch.Executes p →
    R (s.run code aborted first).world (s.run code aborted (first ++ [ch])).world

theorem StaysWithin.of_moves {S : Spec Db Key Id Event Cell}
    {Post : Call → World Db → Spec.Contract Db Event Result} {w₀ : World Db}
    (hs : Sound S Post w₀ s) {sched : List (Choice Id Call)}
    (hsched : ∀ ch ∈ sched, Covers S Post code aborted ch) {R : Db → Db → Prop} (hrefl : ∀ a, R a a)
    (hmove : ∀ t db e db', S.moves t db e db' → R db db') (p : Nat) :
    StaysWithin code aborted (fun w w' => R w.db w'.db) s p sched := by
  intro first ch rest hsplit _
  have hfirst : Sound S Post w₀ (s.run code aborted first) :=
    hs.run fun ch' hch => hsched ch' (by rw [hsplit]; exact List.mem_append_left _ hch)
  rw [run_concat]
  show R (s.run code aborted first).db ((s.run code aborted first).step code aborted ch).db
  cases hc : (s.run code aborted first).committing ch with
  | none =>
    rw [step_quiet hc]
    exact hrefl _
  | some e =>
    obtain ⟨_, _, hm⟩ := hfirst.commit_step code aborted hc
    exact hmove _ _ _ _ hm

theorem StaysWithin.of_others {S : Spec Db Key Id Event Cell}
    {Post : Call → World Db → Spec.Contract Db Event Result} {w₀ : World Db}
    (hs : Sound S Post w₀ s) {sched : List (Choice Id Call)}
    (hsched : ∀ ch ∈ sched, Covers S Post code aborted ch) {new : List (Nat × Event)}
    (hlog : (s.run code aborted sched).log = s.log ++ new) {E : Event → Prop}
    (hothers : ∀ x ∈ new, x.1 ≠ p → E x.2) {R : Db → Db → Prop} (hrefl : ∀ a, R a a)
    (hmove : ∀ t db e db', E e → S.moves t db e db' → R db db') :
    StaysWithin code aborted (fun w w' => w.clock ≤ w'.clock ∧ R w.db w'.db) s p sched := by
  intro first ch rest hsplit hnot
  have hcovers : ∀ ch' ∈ first, Covers S Post code aborted ch' := fun ch' hch =>
    hsched ch' (by rw [hsplit]; exact List.mem_append_left _ hch)
  have hfirst : Sound S Post w₀ (s.run code aborted first) := hs.run hcovers
  rw [run_concat]
  refine ⟨step_clock_le code aborted _ ch, ?_⟩
  show R (s.run code aborted first).db ((s.run code aborted first).step code aborted ch).db
  cases hc : (s.run code aborted first).committing ch with
  | none =>
    rw [step_quiet hc]
    exact hrefl _
  | some e =>
    obtain ⟨q, hq, hm⟩ := hfirst.commit_step code aborted hc
    obtain ⟨q', ids, rfl, hq'⟩ := committing_logged code aborted hc
    obtain rfl : q' = q := (Prod.mk.inj (List.singleton_inj.mp
      (List.append_cancel_left (hq'.symm.trans hq)))).1
    have hne : q' ≠ p := fun heq => hnot ⟨ids, heq ▸ rfl⟩
    refine hmove _ _ _ _ (hothers (q', e) ?_ hne) hm
    -- The entry of this commit is part of what the run adds to the log.
    have hstep : Sound S Post w₀ ((s.run code aborted first).step code aborted (.exec q' ids)) :=
      hfirst.step (hsched _ (by rw [hsplit]; exact List.mem_append_right _ List.mem_cons_self))
    obtain ⟨before, hbefore, _⟩ := hs.run_added hcovers
    obtain ⟨after, hafter, _⟩ := hstep.run_added fun ch' hch => hsched ch' (by
      rw [hsplit]
      exact List.mem_append_right _ (List.mem_cons_of_mem _ hch))
    have hrun : s.run code aborted sched =
        ((s.run code aborted first).step code aborted (.exec q' ids)).run code aborted rest := by
      rw [hsplit, run_append]
      rfl
    rw [hrun, hafter.log, hq, hbefore.log] at hlog
    simp only [List.append_assoc] at hlog
    rw [← List.append_cancel_left hlog]
    simp

theorem StaysWithin.tail {ch : Choice Id Call} {sched : List (Choice Id Call)}
    (h : StaysWithin code aborted R s p (ch :: sched)) :
    StaysWithin code aborted R (s.step code aborted ch) p sched :=
  fun first ch' rest hsched => h (ch :: first) ch' rest (by rw [hsched, List.cons_append])

/-- The run lemma: the answer of a call in every run in which the others stay within `R`. -/
theorem ResultsAt.run (hrefl : ∀ w, R w w) (htrans : ∀ u v w, R u v → R v w → R u w)
    {sched : List (Choice Id Call)} (hfail : .fail p ∈ sched → ∀ w, P (aborted c) w)
    (hw : StaysWithin code aborted R s p sched) (h : s.ResultsAt code R P p c) {r : Result}
    (hret : (s.run code aborted sched).Returned p c r) : P r (s.run code aborted sched).world := by
  induction sched generalizing s with
  | nil =>
    obtain ⟨pr, hp, hc, hr⟩ := returned_iff.mp hret
    have hprog := h.busy pr hp hc
    rw [hr] at hprog
    exact hprog _ (hrefl _)
  | cons ch sched ih =>
    refine ih (fun hmem => hfail (List.mem_cons_of_mem ch hmem)) hw.tail ?_ hret
    exact h.step hrefl htrans (fun hch => hfail (hch ▸ List.mem_cons_self)) (hw [] ch sched rfl)

variable (code aborted Q) in
/-- Statements of process `p` alone can lead to an answer in `Q`. -/
def CanReach (s : Server Db Key Id Event Result Call) (p : Nat) (c : Call) : Prop :=
  ∃ sched, (∀ ch ∈ sched, ∃ ids, ch = .exec p ids) ∧
    ∃ r, (s.run code aborted sched).Returned p c r ∧ Q r

theorem CanReach.of_exec {pr : Process Db Key Id Event Result Call} (hp : s.procs p = some pr)
    (ids : List Id) (h : CanReach code aborted Q (s.exec p ids pr) p c) :
    CanReach code aborted Q s p c := by
  obtain ⟨sched, honly, hret⟩ := h
  have hstep : s.step code aborted (.exec p ids) = s.exec p ids pr := by simp only [Server.step, hp]
  refine ⟨.exec p ids :: sched, ?_, ?_⟩
  · intro ch hch
    rcases List.mem_cons.mp hch with rfl | hch
    · exact ⟨ids, rfl⟩
    · exact honly ch hch
  · have hrun : s.run code aborted (.exec p ids :: sched) = (s.exec p ids pr).run code aborted sched := by
      rw [← hstep]
      rfl
    rw [hrun]
    exact hret

theorem canReach [Infinite Id] {free : Key → Prop} {prog : Program Db Key Id Event Result}
    {pr : Process Db Key Id Event Result Call} (hp : s.procs p = some pr) (hc : pr.call = c)
    (hprog : pr.program = prog) (hfree : s.AtHand free p) (h : prog.Reaches free Q pr.pending s.world) :
    CanReach code aborted Q s p c := by
  induction prog generalizing s pr with
  | ret r =>
    exact ⟨[], fun _ hch => absurd hch List.not_mem_nil, r, returned_iff.mpr ⟨pr, hp, hc, hprog⟩, h⟩
  | now k ih =>
    refine .of_exec hp [] ?_
    simp only [Server.exec, hprog]
    exact ih _ (setProc_self ..) hc rfl hfree h
  | fresh k ih =>
    obtain ⟨x, hx⟩ := Infinite.exists_notMem_finset s.used.toFinset
    have hx : x ∉ s.used := fun hmem => hx (List.mem_toFinset.mpr hmem)
    refine .of_exec hp [x] ?_
    simp only [Server.exec, hprog, if_neg hx]
    exact ih x (setProc_self ..) hc rfl hfree (h x)
  | query k ih =>
    refine .of_exec hp [] ?_
    simp only [Server.exec, hprog]
    exact ih _ (setProc_self ..) hc rfl hfree h
  | select accept k ih =>
    obtain ⟨ids, hids, h⟩ := h
    have hids : accept (pr.pending s.db) ids = true := hids
    refine .of_exec hp ids ?_
    simp only [Server.exec, hprog, if_pos hids]
    exact ih ids (setProc_self ..) hc rfl hfree h
  | lock key k ih =>
    obtain ⟨hkey, h⟩ := h
    refine .of_exec hp [] ?_
    simp only [Server.exec, hprog, if_pos (hfree key hkey)]
    refine ih _ (setProc_self ..) hc rfl ?_ h
    intro key' hkey'
    by_cases heq : key' = key
    · subst heq
      exact .inr (Function.update_self ..)
    · simp only [setProc, Function.update_of_ne heq]
      exact hfree key' hkey'
  | write g k ih =>
    refine .of_exec hp [] ?_
    simp only [Server.exec, hprog]
    exact ih (setProc_self ..) hc rfl hfree h
  | commit e k ih =>
    refine .of_exec hp [] ?_
    simp only [Server.exec, hprog]
    exact ih (setProc_self ..) hc rfl (fun _ hkey => hfree.release hkey) h
  | observe accept e k ih =>
    obtain ⟨ids, hids, h⟩ := h
    have hids : accept (pr.pending s.db) ids = true := hids
    refine .of_exec hp ids ?_
    simp only [Server.exec, hprog, if_pos hids]
    exact ih _ ids (setProc_self ..) hc rfl hfree h
  | rollback k ih =>
    refine .of_exec hp [] ?_
    simp only [Server.exec, hprog]
    exact ih (setProc_self ..) hc rfl (fun _ hkey => hfree.release hkey) h

variable (code aborted) in
/-- The run lemma: an idle process makes the call and is led to the answer. -/
theorem reaches_run [Infinite Id] {free : Key → Prop} (hidle : s.procs p = none)
    (hfree : s.AtHand free p) (h : (code c).Reaches free Q id s.world) :
    ∃ sched, (∀ ch ∈ sched, ∃ ids, ch = .exec p ids) ∧
      ∃ r, (s.run code aborted (.call p c :: sched)).Returned p c r ∧ Q r := by
  have hcall : s.step code aborted (.call p c) = s.setProc p (.start s.world c (code c)) := by
    simp only [Server.step, hidle]
  have hreach : CanReach code aborted Q (s.step code aborted (.call p c)) p c := by
    rw [hcall]
    exact canReach (setProc_self ..) rfl rfl hfree h
  exact hreach

end Server

end ReadCommitted
