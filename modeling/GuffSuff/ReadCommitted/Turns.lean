import GuffSuff.ReadCommitted.Alone
import GuffSuff.ReadCommitted.Runs

/-! Calls made one after the other: each moves alone until it has answered, with
what it records, the database it leaves and the time at which it does. -/

namespace ReadCommitted

variable {Db Key Id Event Result Call : Type}

/-- Run alone from `w`, the program keeps `J` whenever it has recorded an event,
and answers in `Q`. -/
def Program.Ends (J : List Event → World Db → Prop) (Q : Result → List Event → World Db → Prop) :
    Program Db Key Id Event Result → (Db → Db) → List Event → World Db → Prop
  | .ret r, _, es, w => Q r es w
  | .now k, f, es, w => ∀ t, w.clock ≤ t → (k t).Ends J Q f es ⟨t, w.db⟩
  | .fresh k, f, es, w => ∀ x, (k x).Ends J Q f es w
  | .query k, f, es, w => (k (f w.db)).Ends J Q f es w
  | .select accept k, f, es, w => ∀ ids, accept (f w.db) ids = true → (k ids).Ends J Q f es w
  | .lock _ k, f, es, w => (k (f w.db)).Ends J Q f es w
  | .write g k, f, es, w => k.Ends J Q (fun db => g (f db)) es w
  | .commit e k, f, es, w =>
    J (es ++ [e]) ⟨w.clock, f w.db⟩ ∧ k.Ends J Q id (es ++ [e]) ⟨w.clock, f w.db⟩
  | .observe accept e k, f, es, w => ∀ ids, accept (f w.db) ids = true →
      J (es ++ [e (f w.db) ids]) w ∧ (k (f w.db) ids).Ends J Q f (es ++ [e (f w.db) ids]) w
  | .rollback k, _, es, w => k.Ends J Q id es w

/-- The clock alone does not end it. -/
def Lasting (J : List Event → World Db → Prop) : Prop :=
  ∀ es c c' db, J es ⟨c, db⟩ → c ≤ c' → J es ⟨c', db⟩

section
variable {J : List Event → World Db → Prop} {Q : Result → List Event → World Db → Prop}
variable {f : Db → Db} {es : List Event} {w : World Db}

theorem Program.Ends.later (hJ : Lasting J) (hQ : ∀ r, Lasting (Q r))
    {p : Program Db Key Id Event Result} (h : p.Ends J Q f es w) {t : Nat} (ht : w.clock ≤ t) :
    p.Ends J Q f es ⟨t, w.db⟩ := by
  induction p generalizing f es w with
  | ret r => exact hQ r _ _ _ _ h ht
  | now k ih => exact fun t' ht' => h t' (Nat.le_trans ht ht')
  | fresh k ih => exact fun x => ih x (h x) ht
  | query k ih => exact ih _ h ht
  | select accept k ih => exact fun ids hids => ih ids (h ids hids) ht
  | lock key k ih => exact ih _ h ht
  | write g k ih => exact ih h ht
  | commit e k ih => exact ⟨hJ _ _ _ _ h.1 ht, ih h.2 ht⟩
  | observe accept e k ih =>
    exact fun ids hids => ⟨hJ _ _ _ _ (h ids hids).1 ht, ih _ ids (h ids hids).2 ht⟩
  | rollback k ih => exact ih h ht

theorem Program.Ends.mono {J' : List Event → World Db → Prop} {Q' : Result → List Event → World Db → Prop}
    (hJ : ∀ es w, J es w → J' es w) (hQ : ∀ r es w, Q r es w → Q' r es w)
    {p : Program Db Key Id Event Result} (h : p.Ends J Q f es w) : p.Ends J' Q' f es w := by
  induction p generalizing f es w with
  | ret r => exact hQ _ _ _ h
  | now k ih => exact fun t ht => ih t (h t ht)
  | fresh k ih => exact fun x => ih x (h x)
  | query k ih => exact ih _ h
  | select accept k ih => exact fun ids hids => ih ids (h ids hids)
  | lock key k ih => exact ih _ h
  | write g k ih => exact ih h
  | commit e k ih => exact ⟨hJ _ _ h.1, ih h.2⟩
  | observe accept e k ih => exact fun ids hids => ⟨hJ _ _ (h ids hids).1, ih _ ids (h ids hids).2⟩
  | rollback k ih => exact ih h

theorem Program.Ends.of_keeps {R : Db → Db → Prop} {E : Event → Prop} (hlast : Lasting J)
    (hrefl : ∀ db, R db db) (htrans : ∀ a b c, R a b → R b c → R a c)
    (hJ : ∀ es e c db db', E e → R db db' → J es ⟨c, db⟩ → J (es ++ [e]) ⟨c, db'⟩)
    {p : Program Db Key Id Event Result} (hp : p.Keeps R E) (hf : ∀ db, R db (f db)) (h : J es w) :
    p.Ends J (fun _ _ _ => True) f es w := by
  induction p generalizing f es w with
  | ret r => trivial
  | now k ih => exact fun t ht => ih t (hp t) hf (hlast _ _ _ _ h ht)
  | fresh k ih => exact fun x => ih x (hp x) hf h
  | query k ih => exact ih _ (hp _) hf h
  | select accept k ih => exact fun ids _ => ih ids (hp ids) hf h
  | lock key k ih => exact ih _ (hp _) hf h
  | write g k ih => exact ih hp.2 (fun db => htrans _ _ _ (hf db) (hp.1 _)) h
  | commit e k ih =>
    have hkept := hJ _ _ _ _ _ hp.1 (hf w.db) h
    exact ⟨hkept, ih hp.2 hrefl hkept⟩
  | observe accept e k ih =>
    intro ids _
    have hkept := hJ _ _ _ _ _ (hp (f w.db) ids).1 (hrefl w.db) h
    exact ⟨hkept, ih _ ids (hp _ ids).2 hf hkept⟩
  | rollback k ih => exact ih hp hrefl h

/-- Alone, a row that the `WHERE` clause has found is still there when it is locked. -/
theorem Program.Ends.lockEach {key : Id → Key} {still : Id → Db → Bool}
    {k : List Id → Program Db Key Id Event Result} (ids kept : List Id)
    (hstill : ∀ i ∈ ids, still i (f w.db) = true) (h : (k (kept ++ ids)).Ends J Q f es w) :
    (Program.lockEach key still kept ids k).Ends J Q f es w := by
  induction ids generalizing kept with
  | nil => exact (List.append_nil kept) ▸ h
  | cons i ids ih =>
    have hi : still i (f w.db) = true := hstill i List.mem_cons_self
    simp only [Program.lockEach, Program.Ends, hi, if_true]
    refine ih _ (fun j hj => hstill j (List.mem_cons_of_mem i hj)) ?_
    rw [List.append_assoc, List.singleton_append]
    exact h

end

namespace Server

variable {code : Call → Program Db Key Id Event Result} {aborted : Call → Result}
variable {s : Server Db Key Id Event Result Call} {p : Nat} {c : Call} {log : List (Nat × Event)}
variable {J : List Event → World Db → Prop} {Q : Result → List Event → World Db → Prop}

variable (J Q) in
/-- Process `p` is in the call `c`, has recorded what the log has beyond `log`, and goes on alone. -/
inductive EndsAt (s : Server Db Key Id Event Result Call) (p : Nat) (c : Call)
    (log : List (Nat × Event)) : Prop
  | intro (es : List Event) (pr : Process Db Key Id Event Result Call)
      (hlog : s.log = log ++ es.map (Prod.mk p)) (hkept : J es s.world) (hp : s.procs p = some pr)
      (hc : pr.call = c) (hprog : pr.program.Ends J Q pr.pending es s.world)

theorem EndsAt.tick (hJ : Lasting J) (hQ : ∀ r, Lasting (Q r)) (h : s.EndsAt J Q p c log) (n : Nat) :
    ({ s with clock := s.clock + n } : Server Db Key Id Event Result Call).EndsAt J Q p c log := by
  obtain ⟨es, pr, hlog, hkept, hp, hc, hprog⟩ := h
  exact ⟨es, pr, hlog, hJ _ _ _ _ hkept (Nat.le_add_right _ _), hp, hc,
    hprog.later hJ hQ (Nat.le_add_right _ _)⟩

variable [DecidableEq Key] [DecidableEq Id]

theorem EndsAt.call (hidle : s.procs p = none) (hstart : J [] s.world)
    (hc : (code c).Ends J Q id [] s.world) :
    (s.step code aborted (.call p c)).EndsAt J Q p c s.log := by
  have hstep : s.step code aborted (.call p c) = s.setProc p (.start s.world c (code c)) := by
    simp only [step, hidle]
  rw [hstep]
  exact ⟨[], _, by simp [setProc], hstart, Function.update_self .., rfl, hc⟩

theorem EndsAt.exec (h : s.EndsAt J Q p c log) (ids : List Id) :
    (s.step code aborted (.exec p ids)).EndsAt J Q p c log := by
  obtain ⟨es, pr, hlog, hkept, hp, hc, hprog⟩ := h
  have hstay : s.EndsAt J Q p c log := ⟨es, pr, hlog, hkept, hp, hc, hprog⟩
  simp only [step, hp, Server.exec]
  cases hk : pr.program with
  | ret r => exact hstay
  | now k =>
    rw [hk] at hprog
    exact ⟨es, _, hlog, hkept, Function.update_self .., hc, hprog s.clock (Nat.le_refl _)⟩
  | fresh k =>
    rw [hk] at hprog
    dsimp only
    split
    · split
      · exact hstay
      · exact ⟨es, _, hlog, hkept, Function.update_self .., hc, hprog _⟩
    · exact hstay
  | query k | write g k | rollback k =>
    rw [hk] at hprog
    exact ⟨es, _, hlog, hkept, Function.update_self .., hc, hprog⟩
  | select accept k =>
    rw [hk] at hprog
    dsimp only
    split
    · exact ⟨es, _, hlog, hkept, Function.update_self .., hc, hprog ids ‹_›⟩
    · exact hstay
  | lock key k =>
    rw [hk] at hprog
    dsimp only
    split
    · exact ⟨es, _, hlog, hkept, Function.update_self .., hc, hprog⟩
    · exact hstay
  | commit e k =>
    rw [hk] at hprog
    refine ⟨es ++ [e], _, ?_, hprog.1, Function.update_self .., hc, hprog.2⟩
    simp [setProc, hlog]
  | observe accept e k =>
    rw [hk] at hprog
    dsimp only
    split
    · obtain ⟨hj, hnext⟩ := hprog ids ‹_›
      refine ⟨es ++ [e (pr.pending s.db) ids], _, ?_, hj, Function.update_self .., hc, hnext⟩
      simp [setProc, hlog]
    · exact hstay

theorem EndsAt.fail (hfail : ∀ es w, J es w → Q (aborted c) es w) (h : s.EndsAt J Q p c log) :
    (s.step code aborted (.fail p)).EndsAt J Q p c log := by
  obtain ⟨es, pr, hlog, hkept, hp, hc, hprog⟩ := h
  simp only [step, hp, abort]
  split
  · exact ⟨es, pr, hlog, hkept, hp, hc, hprog⟩
  · exact ⟨es, _, hlog, hkept, Function.update_self .., hc, hc.symm ▸ hfail es _ hkept⟩

theorem EndsAt.run (hJ : Lasting J) (hQ : ∀ r, Lasting (Q r)) {sched : List (Choice Id Call)}
    (honly : ∀ ch ∈ sched, ch.OnlyMoves p)
    (hfail : .fail p ∈ sched → ∀ es w, J es w → Q (aborted c) es w) (h : s.EndsAt J Q p c log) :
    (s.run code aborted sched).EndsAt J Q p c log := by
  induction sched generalizing s with
  | nil => exact h
  | cons ch sched ih =>
    have hch := honly ch List.mem_cons_self
    refine ih (fun ch' hch' => honly ch' (List.mem_cons_of_mem ch hch'))
      (fun hmem => hfail (List.mem_cons_of_mem ch hmem)) ?_
    cases ch with
    | tick n => exact h.tick hJ hQ n
    | call q c' => exact absurd hch id
    | exec q ids =>
      obtain rfl : q = p := hch
      exact h.exec ids
    | fail q =>
      obtain rfl : q = p := hch
      exact h.fail (hfail List.mem_cons_self)

/-- The run lemma: what a call that moves alone has recorded and left so far, and what it answers. -/
theorem ends_run (hJ : Lasting J) (hQ : ∀ r, Lasting (Q r)) (hidle : s.procs p = none)
    (hstart : J [] s.world) (hc : (code c).Ends J Q id [] s.world) {sched : List (Choice Id Call)}
    (honly : ∀ ch ∈ sched, ch.OnlyMoves p)
    (hfail : .fail p ∈ sched → ∀ es w, J es w → Q (aborted c) es w) :
    ∃ es, (s.run code aborted (.call p c :: sched)).log = s.log ++ es.map (Prod.mk p) ∧
      J es (s.run code aborted (.call p c :: sched)).world ∧
        ∀ r, (s.run code aborted (.call p c :: sched)).Returned p c r →
          Q r es (s.run code aborted (.call p c :: sched)).world := by
  have hcall : (s.step code aborted (.call p c)).EndsAt J Q p c s.log := .call hidle hstart hc
  obtain ⟨es, pr, hlog, hkept, hp, _, hprog⟩ := hcall.run hJ hQ honly hfail
  refine ⟨es, hlog, hkept, fun r hr => ?_⟩
  obtain ⟨pr', hp', _, hfinished⟩ := returned_iff.mp hr
  obtain rfl := Option.some.inj (hp.symm.trans hp')
  rw [hfinished] at hprog
  exact hprog

variable (code aborted) in
theorem kept_run (c : Call) (hJ : Lasting J) (hidle : s.procs p = none) (hstart : J [] s.world)
    (hc : (code c).Ends J Q id [] s.world) {sched : List (Choice Id Call)}
    (honly : ∀ ch ∈ sched, ch.OnlyMoves p) :
    ∃ es, (s.run code aborted (.call p c :: sched)).log = s.log ++ es.map (Prod.mk p) ∧
      J es (s.run code aborted (.call p c :: sched)).world := by
  have hkept : (code c).Ends J (fun _ _ _ => True) id [] s.world :=
    hc.mono (fun _ _ h => h) fun _ _ _ _ => trivial
  have hanswer : .fail p ∈ sched → ∀ es w, J es w → True := fun _ _ _ _ => trivial
  have hrun : ∃ es, (s.run code aborted (.call p c :: sched)).log = s.log ++ es.map (Prod.mk p) ∧
      J es (s.run code aborted (.call p c :: sched)).world ∧
        ∀ r, (s.run code aborted (.call p c :: sched)).Returned p c r → True :=
    ends_run hJ (fun _ _ _ _ _ h _ => h) hidle hstart hkept honly hanswer
  obtain ⟨es, hlog, hkept, _⟩ := hrun
  exact ⟨es, hlog, hkept⟩

variable (code aborted) in
/-- Process `p`, idle so far, makes the call and moves alone until it has answered. -/
structure Turn (s : Server Db Key Id Event Result Call) (p : Nat) (c : Call)
    (sched : List (Choice Id Call)) (r : Result) : Prop where
  idle : s.procs p = none
  only : ∀ ch ∈ sched, ch.OnlyMoves p
  returned : (s.run code aborted (.call p c :: sched)).Returned p c r

variable (code aborted) in
/-- Calls made one after the other, each with its answer and the events it has recorded. -/
inductive Turns (s : Server Db Key Id Event Result Call) :
    List (Call × Result × List Event) → Server Db Key Id Event Result Call → Prop
  | nil : Turns s [] s
  | snoc {turns : List (Call × Result × List Event)} {s' : Server Db Key Id Event Result Call}
      {p : Nat} {c : Call} {r : Result} {es : List Event} {sched : List (Choice Id Call)}
      (h : Turns s turns s') (turn : Turn code aborted s' p c sched r)
      (hlog : (s'.run code aborted (.call p c :: sched)).log = s'.log ++ es.map (Prod.mk p)) :
      Turns s (turns ++ [(c, r, es)]) (s'.run code aborted (.call p c :: sched))

theorem Turns.exists_run {turns : List (Call × Result × List Event)}
    {s' : Server Db Key Id Event Result Call} (h : Turns code aborted s turns s') :
    ∃ sched, s' = s.run code aborted sched := by
  induction h with
  | nil => exact ⟨[], rfl⟩
  | @snoc _ _ p c _ _ sched _ _ _ ih =>
    obtain ⟨first, rfl⟩ := ih
    exact ⟨first ++ .call p c :: sched, (List.foldl_append ..).symm⟩

theorem Turns.last {turns : List (Call × Result × List Event)} {r : Result} {es : List Event}
    {s' : Server Db Key Id Event Result Call} (h : Turns code aborted s (turns ++ [(c, r, es)]) s') :
    ∃ s₁ p sched, Turns code aborted s turns s₁ ∧ Turn code aborted s₁ p c sched r ∧
      s' = s₁.run code aborted (.call p c :: sched) ∧ s'.log = s₁.log ++ es.map (Prod.mk p) := by
  generalize hl : turns ++ [(c, r, es)] = l at h
  cases h with
  | nil => exact absurd hl (by simp)
  | snoc h turn hlog =>
    obtain ⟨rfl, hlast⟩ := List.append_inj' hl rfl
    obtain ⟨rfl, rfl, rfl⟩ : c = _ ∧ r = _ ∧ es = _ := by simpa using hlast
    exact ⟨_, _, _, h, turn, rfl, hlog⟩

theorem Turns.sound {Cell : Type} {S : Spec Db Key Id Event Cell}
    {Post : Call → World Db → Spec.Contract Db Event Result} {w₀ : World Db}
    {turns : List (Call × Result × List Event)} {s' : Server Db Key Id Event Result Call}
    (h : Turns code aborted s turns s') (hcovers : ∀ ch, Covers S Post code aborted ch)
    (hs : Sound S Post w₀ s) : Sound S Post w₀ s' ∧ S.Later s.world s'.world := by
  induction h with
  | nil => exact ⟨hs, .refl _⟩
  | snoc _ _ _ ih =>
    obtain ⟨hs', hlater⟩ := ih
    obtain ⟨_, hadded, _⟩ := hs'.run_added fun ch _ => hcovers ch
    exact ⟨hs'.run fun ch _ => hcovers ch, hlater.trans hadded.later⟩

theorem Turn.ends {r : Result} {sched : List (Choice Id Call)} (h : Turn code aborted s p c sched r)
    (hJ : Lasting J) (hQ : ∀ r, Lasting (Q r)) (hstart : J [] s.world)
    (hc : (code c).Ends J Q id [] s.world)
    (hfail : .fail p ∈ sched → ∀ es w, J es w → Q (aborted c) es w) {es : List Event}
    (hlog : (s.run code aborted (.call p c :: sched)).log = s.log ++ es.map (Prod.mk p)) :
    Q r es (s.run code aborted (.call p c :: sched)).world := by
  obtain ⟨es', hlog', _, hret⟩ := ends_run hJ hQ h.idle hstart hc h.only hfail
  have hes : es' = es := List.map_injective_iff.mpr (fun _ _ h => (Prod.mk.inj h).2)
    (List.append_cancel_left (hlog'.symm.trans hlog))
  exact hes ▸ hret r h.returned

end Server

end ReadCommitted
