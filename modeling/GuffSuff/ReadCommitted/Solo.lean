import GuffSuff.ReadCommitted.Runs

/-! Calls that run while the others stand still: what they read is the database
they started on and their own writes. -/

namespace ReadCommitted

variable {Db Key Id Event Result Call : Type}

/-- Run alone from `w`, the program commits databases in `P` only and answers in `Q`. -/
def Program.Solo (P : Db → Prop) (Q : Result → Prop) :
    Program Db Key Id Event Result → (Db → Db) → World Db → Prop
  | .ret r, _, _ => Q r
  | .now k, f, w => ∀ t, w.clock ≤ t → (k t).Solo P Q f ⟨t, w.db⟩
  | .fresh k, f, w => ∀ x, (k x).Solo P Q f w
  | .query k, f, w => (k (f w.db)).Solo P Q f w
  | .select accept k, f, w => ∀ ids, accept (f w.db) ids = true → (k ids).Solo P Q f w
  | .lock _ k, f, w => (k (f w.db)).Solo P Q f w
  | .write g k, f, w => k.Solo P Q (fun db => g (f db)) w
  | .commit _ k, f, w => P (f w.db) ∧ k.Solo P Q id ⟨w.clock, f w.db⟩
  | .observe accept _ k, f, w => ∀ ids, accept (f w.db) ids = true → (k (f w.db) ids).Solo P Q f w
  | .rollback k, _, w => k.Solo P Q id w

section
variable {P P' : Db → Prop} {Q Q' : Result → Prop} {f : Db → Db} {w : World Db}

theorem Program.Solo.mono (hP : ∀ db, P db → P' db) (hQ : ∀ r, Q r → Q' r)
    {p : Program Db Key Id Event Result} (h : p.Solo P Q f w) : p.Solo P' Q' f w := by
  induction p generalizing f w with
  | ret r => exact hQ r h
  | now k ih => exact fun t ht => ih t (h t ht)
  | fresh k ih => exact fun x => ih x (h x)
  | query k ih => exact ih _ h
  | select accept k ih => exact fun ids hids => ih ids (h ids hids)
  | lock key k ih => exact ih _ h
  | write g k ih => exact ih h
  | commit e k ih => exact ⟨hP _ h.1, ih h.2⟩
  | observe accept e k ih => exact fun ids hids => ih _ ids (h ids hids)
  | rollback k ih => exact ih h

theorem Program.solo_true (p : Program Db Key Id Event Result) (f : Db → Db) (w : World Db) :
    p.Solo (fun _ => True) (fun _ => True) f w := by
  induction p generalizing f w with
  | ret r => trivial
  | now k ih => exact fun t _ => ih t f _
  | fresh k ih => exact fun x => ih x f w
  | query k ih => exact ih _ f w
  | select accept k ih => exact fun ids _ => ih ids f w
  | lock key k ih => exact ih _ f w
  | write g k ih => exact ih _ w
  | commit e k ih => exact ⟨trivial, ih _ _⟩
  | observe accept e k ih => exact fun ids _ => ih _ ids f w
  | rollback k ih => exact ih _ w

theorem Program.Solo.later {p : Program Db Key Id Event Result} (h : p.Solo P Q f w) {t : Nat}
    (ht : w.clock ≤ t) : p.Solo P Q f ⟨t, w.db⟩ := by
  induction p generalizing f w with
  | ret r => exact h
  | now k ih => exact fun t' ht' => h t' (Nat.le_trans ht ht')
  | fresh k ih => exact fun x => ih x (h x) ht
  | query k ih => exact ih _ h ht
  | select accept k ih => exact fun ids hids => ih ids (h ids hids) ht
  | lock key k ih => exact ih _ h ht
  | write g k ih => exact ih h ht
  | commit e k ih => exact ⟨h.1, ih h.2 ht⟩
  | observe accept e k ih => exact fun ids hids => ih _ ids (h ids hids) ht
  | rollback k ih => exact ih h ht

theorem Program.Solo.lockAll {key : Id → Key} {k : Program Db Key Id Event Result} (ids : List Id)
    (h : k.Solo P Q f w) : (Program.lockAll key ids k).Solo P Q f w := by
  induction ids with
  | nil => exact h
  | cons i ids ih => exact ih

/-- Alone, a row that the `WHERE` clause has found is still there when it is locked. -/
theorem Program.Solo.lockEach {key : Id → Key} {still : Id → Db → Bool}
    {k : List Id → Program Db Key Id Event Result} (ids kept : List Id)
    (hstill : ∀ i ∈ ids, still i (f w.db) = true) (h : (k (kept ++ ids)).Solo P Q f w) :
    (Program.lockEach key still kept ids k).Solo P Q f w := by
  induction ids generalizing kept with
  | nil => exact (List.append_nil kept) ▸ h
  | cons i ids ih =>
    have hi : still i (f w.db) = true := hstill i List.mem_cons_self
    simp only [Program.lockEach, Program.Solo, hi, if_true]
    refine ih _ (fun j hj => hstill j (List.mem_cons_of_mem i hj)) ?_
    rw [List.append_assoc, List.singleton_append]
    exact h

end

namespace Server

variable {code : Call → Program Db Key Id Event Result} {aborted : Call → Result}
variable {s : Server Db Key Id Event Result Call} {p : Nat} {c : Call}
variable {P : Db → Prop} {Q : Result → Prop}

variable (P Q) in
/-- Process `p` is in the call `c`, and from here on alone keeps to `P` and `Q`. -/
structure SoloAt (s : Server Db Key Id Event Result Call) (p : Nat) (c : Call) : Prop where
  db : P s.db
  proc : ∃ pr, s.procs p = some pr ∧ pr.call = c ∧ pr.program.Solo P Q pr.pending s.world

theorem SoloAt.of_setProc {pr : Process Db Key Id Event Result Call} (hdb : P s.db) (hc : pr.call = c)
    (h : pr.program.Solo P Q pr.pending s.world) : (s.setProc p pr).SoloAt P Q p c :=
  ⟨hdb, pr, Function.update_self .., hc, h⟩

variable [DecidableEq Key] [DecidableEq Id]

theorem SoloAt.call (hp : s.procs p = none) (hdb : P s.db) (hc : (code c).Solo P Q id s.world) :
    (s.step code aborted (.call p c)).SoloAt P Q p c := by
  have hstep : s.step code aborted (.call p c) = s.setProc p (.start s.world c (code c)) := by
    simp only [step, hp]
  rw [hstep]
  exact .of_setProc hdb rfl hc

theorem SoloAt.exec (h : s.SoloAt P Q p c) (ids : List Id) :
    (s.step code aborted (.exec p ids)).SoloAt P Q p c := by
  obtain ⟨hdb, pr, hp, hc, hprog⟩ := h
  have hstay : s.SoloAt P Q p c := ⟨hdb, pr, hp, hc, hprog⟩
  simp only [step, hp, Server.exec]
  cases hk : pr.program with
  | ret r => exact hstay
  | now k =>
    rw [hk] at hprog
    exact .of_setProc hdb hc (hprog s.clock (Nat.le_refl _))
  | fresh k =>
    rw [hk] at hprog
    dsimp only
    split
    · split
      · exact hstay
      · exact .of_setProc hdb hc (hprog _)
    · exact hstay
  | query k =>
    rw [hk] at hprog
    exact .of_setProc hdb hc hprog
  | select accept k =>
    rw [hk] at hprog
    dsimp only
    split
    · exact .of_setProc hdb hc (hprog ids ‹_›)
    · exact hstay
  | lock key k =>
    rw [hk] at hprog
    dsimp only
    split
    · exact .of_setProc hdb hc hprog
    · exact hstay
  | write g k =>
    rw [hk] at hprog
    exact .of_setProc hdb hc hprog
  | commit e k =>
    rw [hk] at hprog
    exact .of_setProc hprog.1 hc hprog.2
  | observe accept e k =>
    rw [hk] at hprog
    dsimp only
    split
    · exact .of_setProc hdb hc (hprog ids ‹_›)
    · exact hstay
  | rollback k =>
    rw [hk] at hprog
    exact .of_setProc hdb hc hprog

theorem SoloAt.fail (haborted : Q (aborted c)) (h : s.SoloAt P Q p c) :
    (s.step code aborted (.fail p)).SoloAt P Q p c := by
  obtain ⟨hdb, pr, hp, hc, hprog⟩ := h
  have hret : (Program.ret (aborted pr.call) : Program Db Key Id Event Result).Solo P Q id s.world :=
    hc.symm ▸ haborted
  simp only [step, hp, abort]
  split
  · exact ⟨hdb, pr, hp, hc, hprog⟩
  · exact .of_setProc hdb hc hret

theorem SoloAt.run (haborted : Q (aborted c)) {sched : List (Choice Id Call)}
    (honly : ∀ ch ∈ sched, ch.OnlyMoves p) (h : s.SoloAt P Q p c) :
    (s.run code aborted sched).SoloAt P Q p c := by
  induction sched generalizing s with
  | nil => exact h
  | cons ch sched ih =>
    refine ih (fun ch' hch => honly ch' (List.mem_cons_of_mem ch hch)) ?_
    have hch := honly ch List.mem_cons_self
    cases ch with
    | tick n =>
      obtain ⟨hdb, pr, hp, hc, hprog⟩ := h
      exact ⟨hdb, pr, hp, hc, hprog.later (Nat.le_add_right _ _)⟩
    | call q c' => exact absurd hch id
    | exec q ids =>
      obtain rfl : q = p := hch
      exact h.exec ids
    | fail q =>
      obtain rfl : q = p := hch
      exact h.fail haborted

variable (code aborted) in
/-- While only process `p` moves, its call does what its program does alone. -/
theorem solo_run (hp : s.procs p = none) (hdb : P s.db) (hc : (code c).Solo P Q id s.world)
    (haborted : Q (aborted c)) {sched : List (Choice Id Call)} (honly : ∀ ch ∈ sched, ch.OnlyMoves p) :
    P (s.run code aborted (.call p c :: sched)).db ∧
      ∀ r, (s.run code aborted (.call p c :: sched)).Returned p c r → Q r := by
  have hcall : (s.step code aborted (.call p c)).SoloAt P Q p c := .call hp hdb hc
  obtain ⟨hdb', pr, hpr, _, hprog⟩ := hcall.run haborted honly
  refine ⟨hdb', fun r hr => ?_⟩
  obtain ⟨pr', hpr', _, hfinished⟩ := returned_iff.mp hr
  obtain rfl := Option.some.inj (hpr.symm.trans hpr')
  rw [hfinished] at hprog
  exact hprog

end Server

end ReadCommitted
