import GuffSuff.ReadCommitted.Solo

/-! Calls that run while the others stand still and one of whose statements may
fail: what a fault can find, and what it leaves behind. -/

namespace ReadCommitted

variable {Db Key Id Event Result Call : Type}

def Program.isStatement : Program Db Key Id Event Result → Bool
  | .ret _ | .now _ | .fresh _ => false
  | _ => true

theorem Program.not_statement {p : Program Db Key Id Event Result} (hp : p.isStatement = false) {P : Prop}
    (h : p.isStatement = true) : P :=
  absurd (hp.symm.trans h) Bool.false_ne_true

section
variable (F : Program Db Key Id Event Result → List Id → List Event → Prop)
variable (Fail : List Id → List Event → Db → Prop)
variable (Ret : Result → List Id → List Event → Db → Prop)

/-- Run alone from `w`, the program answers in `Ret`, and a fault at a point in
`F` finds what it has drawn, recorded and committed in `Fail`. -/
def Program.Stops :
    Program Db Key Id Event Result → List Id → (Db → Db) → List Event → World Db → Prop
  | .ret r, d, _, es, w => Ret r d es w.db
  | .now k, d, f, es, w => (F (.now k) d es → Fail d es w.db) ∧
      ∀ t, w.clock ≤ t → (k t).Stops d f es ⟨t, w.db⟩
  | .fresh k, d, f, es, w => (F (.fresh k) d es → Fail d es w.db) ∧ ∀ x, (k x).Stops (x :: d) f es w
  | .query k, d, f, es, w => (F (.query k) d es → Fail d es w.db) ∧ (k (f w.db)).Stops d f es w
  | .select accept k, d, f, es, w => (F (.select accept k) d es → Fail d es w.db) ∧
      ∀ ids, accept (f w.db) ids = true → (k ids).Stops d f es w
  | .lock key k, d, f, es, w => (F (.lock key k) d es → Fail d es w.db) ∧ (k (f w.db)).Stops d f es w
  | .write g k, d, f, es, w => (F (.write g k) d es → Fail d es w.db) ∧
      k.Stops d (fun db => g (f db)) es w
  | .commit e k, d, f, es, w => (F (.commit e k) d es → Fail d es w.db) ∧
      k.Stops d id (es ++ [e]) ⟨w.clock, f w.db⟩
  | .observe accept e k, d, f, es, w => (F (.observe accept e k) d es → Fail d es w.db) ∧
      ∀ ids, accept (f w.db) ids = true → (k (f w.db) ids).Stops d f (es ++ [e (f w.db) ids]) w
  | .rollback k, d, _, es, w => (F (.rollback k) d es → Fail d es w.db) ∧ k.Stops d id es w

end

section
variable {F : Program Db Key Id Event Result → List Id → List Event → Prop}
variable {Fail : List Id → List Event → Db → Prop} {Ret : Result → List Id → List Event → Db → Prop}
variable {d : List Id} {f : Db → Db} {es : List Event} {w : World Db}

theorem Program.Stops.later {p : Program Db Key Id Event Result} (h : p.Stops F Fail Ret d f es w)
    {t : Nat} (ht : w.clock ≤ t) : p.Stops F Fail Ret d f es ⟨t, w.db⟩ := by
  induction p generalizing d f es w with
  | ret r => exact h
  | now k ih => exact ⟨h.1, fun t' ht' => h.2 t' (Nat.le_trans ht ht')⟩
  | fresh k ih => exact ⟨h.1, fun x => ih x (h.2 x) ht⟩
  | query k ih => exact ⟨h.1, ih _ h.2 ht⟩
  | select accept k ih => exact ⟨h.1, fun ids hids => ih ids (h.2 ids hids) ht⟩
  | lock key k ih => exact ⟨h.1, ih _ h.2 ht⟩
  | write g k ih => exact ⟨h.1, ih h.2 ht⟩
  | commit e k ih => exact ⟨h.1, ih h.2 ht⟩
  | observe accept e k ih => exact ⟨h.1, fun ids hids => ih _ ids (h.2 ids hids) ht⟩
  | rollback k ih => exact ⟨h.1, ih h.2 ht⟩

theorem Program.Stops.lockAll {key : Id → Key} {k : Program Db Key Id Event Result} (ids : List Id)
    (hfail : Fail d es w.db) (h : k.Stops F Fail Ret d f es w) :
    (Program.lockAll key ids k).Stops F Fail Ret d f es w := by
  induction ids with
  | nil => exact h
  | cons i ids ih => exact ⟨fun _ => hfail, ih⟩

theorem Program.Stops.fault {p : Program Db Key Id Event Result} (h : p.Stops F Fail Ret d f es w)
    (hret : ∀ r, ¬ F (.ret r) d es) (hF : F p d es) : Fail d es w.db := by
  cases p with
  | ret r => exact absurd hF (hret r)
  | _ => exact h.1 hF

end

namespace Server

section
variable [DecidableEq Key] [DecidableEq Id]
variable (code : Call → Program Db Key Id Event Result) (aborted : Call → Result)

/-- The process `p` as the first fault of the schedule finds it. -/
def struck (p : Nat) (s : Server Db Key Id Event Result Call) :
    List (Choice Id Call) → Option (Process Db Key Id Event Result Call)
  | [] => none
  | .fail q :: sched => if q = p then s.procs p else struck p (s.step code aborted (.fail q)) sched
  | ch :: sched => struck p (s.step code aborted ch) sched

end

variable {code : Call → Program Db Key Id Event Result} {aborted : Call → Result}
variable {s : Server Db Key Id Event Result Call} {p : Nat} {c : Call} {r : Result}
variable {F : Program Db Key Id Event Result → List Id → List Event → Prop}
variable {Fail : List Id → List Event → Db → Prop} {Ret : Result → List Id → List Event → Db → Prop}

variable (F Fail Ret) in
/-- Process `p` is in the call `c`, and from here on alone stops as told. -/
def StopsAt (s : Server Db Key Id Event Result Call) (p : Nat) (c : Call) : Prop :=
  ∃ pr, s.procs p = some pr ∧ pr.call = c ∧
    pr.program.Stops F Fail Ret pr.drawn pr.pending pr.events s.world

theorem StopsAt.of_setProc {pr : Process Db Key Id Event Result Call} (hc : pr.call = c)
    (h : pr.program.Stops F Fail Ret pr.drawn pr.pending pr.events s.world) :
    (s.setProc p pr).StopsAt F Fail Ret p c :=
  ⟨pr, Function.update_self .., hc, h⟩

variable [DecidableEq Key] [DecidableEq Id]

theorem StopsAt.exec (h : s.StopsAt F Fail Ret p c) (ids : List Id) :
    (s.step code aborted (.exec p ids)).StopsAt F Fail Ret p c := by
  obtain ⟨pr, hp, hc, hprog⟩ := h
  have hstay : s.StopsAt F Fail Ret p c := ⟨pr, hp, hc, hprog⟩
  simp only [step, hp, Server.exec]
  cases hk : pr.program with
  | ret r => exact hstay
  | now k =>
    rw [hk] at hprog
    exact .of_setProc hc (hprog.2 s.clock (Nat.le_refl _))
  | fresh k =>
    rw [hk] at hprog
    dsimp only
    split
    · split
      · exact hstay
      · exact .of_setProc hc (hprog.2 _)
    · exact hstay
  | query k | write g k | commit e k | rollback k =>
    rw [hk] at hprog
    exact .of_setProc hc hprog.2
  | select accept k | observe accept e k =>
    rw [hk] at hprog
    dsimp only
    split
    · exact .of_setProc hc (hprog.2 ids ‹_›)
    · exact hstay
  | lock key k =>
    rw [hk] at hprog
    dsimp only
    split
    · exact .of_setProc hc hprog.2
    · exact hstay

variable (code aborted) in
theorem stopped_run {pr : Process Db Key Id Event Result Call} (hp : s.procs p = some pr)
    (hr : pr.Finished r) {sched : List (Choice Id Call)} (honly : ∀ ch ∈ sched, ch.OnlyMoves p) :
    (s.run code aborted sched).procs p = some pr ∧ (s.run code aborted sched).db = s.db := by
  have hprog : pr.program = .ret r := hr
  induction sched generalizing s with
  | nil => exact ⟨hp, rfl⟩
  | cons ch sched ih =>
    have hrest := fun ch' hch => honly ch' (List.mem_cons_of_mem ch hch)
    have hch := honly ch List.mem_cons_self
    cases ch with
    | tick n => exact ih (s := s.step code aborted (.tick n)) hp hrest
    | call q c' => exact absurd hch id
    | exec q ids =>
      obtain rfl : q = p := hch
      have hstep : s.step code aborted (.exec q ids) = s := by simp only [step, hp, exec, hprog]
      have hrun : s.run code aborted (.exec q ids :: sched) = s.run code aborted sched :=
        congrArg (run code aborted · sched) hstep
      rw [hrun]
      exact ih hp hrest
    | fail q =>
      obtain rfl : q = p := hch
      have hstep : s.step code aborted (.fail q) = s := by simp only [step, hp, abort, hprog]
      have hrun : s.run code aborted (.fail q :: sched) = s.run code aborted sched :=
        congrArg (run code aborted · sched) hstep
      rw [hrun]
      exact ih hp hrest

variable (code aborted p r) in
/-- How a call that ran alone came to its answer. -/
inductive Stopped (Fail : List Id → List Event → Db → Prop)
    (Ret : Result → List Id → List Event → Db → Prop) (c : Call)
    (s : Server Db Key Id Event Result Call) (sched : List (Choice Id Call)) : Prop
  | returned {pr : Process Db Key Id Event Result Call} (hstruck : s.struck code aborted p sched = none)
      (hp : (s.run code aborted sched).procs p = some pr)
      (hret : Ret r pr.drawn pr.events (s.run code aborted sched).db)
  | failed {qr : Process Db Key Id Event Result Call} (hstruck : s.struck code aborted p sched = some qr)
      (hp : (s.run code aborted sched).procs p = some { qr with program := .ret (aborted c), pending := id })
      (hfail : Fail qr.drawn qr.events (s.run code aborted sched).db) (hr : r = aborted c)

theorem StopsAt.run (h : s.StopsAt F Fail Ret p c) (hret : ∀ r d es, ¬ F (.ret r) d es)
    {sched : List (Choice Id Call)} (honly : ∀ ch ∈ sched, ch.OnlyMoves p)
    (hfaults : ∀ qr, s.struck code aborted p sched = some qr → F qr.program qr.drawn qr.events)
    (hr : (s.run code aborted sched).Returned p c r) : Stopped code aborted p r Fail Ret c s sched := by
  induction sched generalizing s with
  | nil =>
    obtain ⟨pr, hp, _, hprog⟩ := h
    obtain ⟨pr', hp', _, hfinished⟩ := returned_iff.mp hr
    obtain rfl := Option.some.inj (hp.symm.trans hp')
    rw [hfinished] at hprog
    exact .returned rfl hp hprog
  | cons ch sched ih =>
    have hrest := fun ch' hch => honly ch' (List.mem_cons_of_mem ch hch)
    have hch := honly ch List.mem_cons_self
    -- a choice other than a fault strikes nothing
    have hnext : s.struck code aborted p (ch :: sched) = (s.step code aborted ch).struck code aborted p sched →
        (s.step code aborted ch).StopsAt F Fail Ret p c →
          Stopped code aborted p r Fail Ret c s (ch :: sched) := by
      intro hstruck hstops
      cases ih hstops hrest (fun qr hq => hfaults qr (hstruck.trans hq)) hr with
      | returned h hp hret => exact .returned (hstruck.trans h) hp hret
      | failed h hp hfail hr => exact .failed (hstruck.trans h) hp hfail hr
    cases ch with
    | tick n =>
      obtain ⟨pr, hp, hc, hprog⟩ := h
      exact hnext rfl ⟨pr, hp, hc, hprog.later (Nat.le_add_right _ _)⟩
    | call q c' => exact absurd hch id
    | exec q ids =>
      obtain rfl : q = p := hch
      exact hnext rfl (h.exec ids)
    | fail q =>
      obtain rfl : q = p := hch
      obtain ⟨pr, hp, hc, hprog⟩ := h
      have hstruck : s.struck code aborted q (.fail q :: sched) = some pr := by
        simp only [struck, if_true, hp]
      have hF := hfaults pr hstruck
      have hdb : (s.step code aborted (.fail q)).db = s.db := by
        simp only [step, hp, abort]
        split <;> rfl
      have hproc : (s.step code aborted (.fail q)).procs q =
          some { pr with program := .ret (aborted c), pending := id } := by
        simp only [step, hp, abort, hc]
        split
        · rename_i hprog'
          exact absurd (hprog' ▸ hF) (hret _ _ _)
        · exact Function.update_self ..
      obtain ⟨hp', hdb'⟩ := stopped_run code aborted hproc rfl hrest
      obtain ⟨pr', hpr', _, hfinished⟩ := returned_iff.mp hr
      refine .failed hstruck hp' ?_ ?_
      · rw [show (s.run code aborted (.fail q :: sched)).db = s.db from hdb'.trans hdb]
        exact hprog.fault (fun r => hret r _ _) hF
      · obtain rfl := Option.some.inj (hp'.symm.trans hpr')
        exact (Program.ret.inj hfinished).symm

variable (code aborted F p c r s) in
/-- Process `p` makes the call on its own, a fault strikes it in `F` if at all, and it answers. -/
structure FaultyCall (sched : List (Choice Id Call)) : Prop where
  idle : s.procs p = none
  alone : ∀ ch ∈ sched, ch.OnlyMoves p
  faults : ∀ qr, s.struck code aborted p (.call p c :: sched) = some qr → F qr.program qr.drawn qr.events
  returned : (s.run code aborted (.call p c :: sched)).Returned p c r

/-- The run lemma: a call on its own answers in `Ret`, or a fault leaves what it found in `Fail`. -/
theorem FaultyCall.stopped {sched : List (Choice Id Call)} (h : FaultyCall code aborted s p c r F sched)
    (hret : ∀ r d es, ¬ F (.ret r) d es) (hc : (code c).Stops F Fail Ret [] id [] s.world) :
    Stopped code aborted p r Fail Ret c s (.call p c :: sched) := by
  have hstep : s.step code aborted (.call p c) = s.setProc p (.start s.world c (code c)) := by
    simp only [step, h.idle]
  have hcall : (s.step code aborted (.call p c)).StopsAt F Fail Ret p c := by
    rw [hstep]
    exact .of_setProc rfl hc
  cases hcall.run hret h.alone h.faults h.returned with
  | returned hstruck hp hret => exact .returned hstruck hp hret
  | failed hstruck hp hfail hr => exact .failed hstruck hp hfail hr

end Server

end ReadCommitted
