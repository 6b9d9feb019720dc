import GuffSuff.ReadCommitted.Embedding
import GuffSuff.ReadCommitted.Records

/-! A database that is the replay of the log: every transaction does to it what
the event that it records stands for. -/

namespace ReadCommitted

variable {Db Key Id Event Result Call View : Type}

/-- Each transaction of the program does to `view` what its event stands for, and the events are in `E`.
`f` is what the transaction that is open has written so far. -/
def Program.Publishes (view : Db → View) (effect : Event → View → View) (E : Event → Prop) (f : Db → Db) :
    Program Db Key Id Event Result → Prop
  | .ret _ => True
  | .now k => ∀ t, (k t).Publishes view effect E f
  | .fresh k => ∀ x, (k x).Publishes view effect E f
  | .query k => ∀ db, (k db).Publishes view effect E f
  | .select accept k => ∀ db ids, accept db ids = true → (k ids).Publishes view effect E f
  | .lock _ k => ∀ db, (k db).Publishes view effect E f
  | .write g k => k.Publishes view effect E fun db => g (f db)
  | .commit e k => E e ∧ (∀ db, view (f db) = effect e (view db)) ∧ k.Publishes view effect E id
  | .observe accept e k => ∀ db ids, accept db ids = true →
      E (e db ids) ∧ (∀ v, effect (e db ids) v = v) ∧ (k db ids).Publishes view effect E f
  | .rollback k => k.Publishes view effect E id

section
variable {view : Db → View} {effect : Event → View → View} {E : Event → Prop} {f : Db → Db}
variable {k : Program Db Key Id Event Result}

theorem Program.Publishes.records {p : Program Db Key Id Event Result} {db : Db} {ids : List Id} {e : Event}
    (h : p.Publishes view effect E f) (hrec : p.Records db ids e) : E e := by
  cases p with
  | commit e' k =>
    obtain rfl : e' = e := hrec
    exact h.1
  | observe accept ev k =>
    obtain ⟨hacc, rfl⟩ := hrec
    exact (h db ids hacc).1
  | _ => exact absurd hrec id

theorem Program.publishes_lockAll {key : Id → Key} (hk : k.Publishes view effect E f) (ids : List Id) :
    (Program.lockAll key ids k).Publishes view effect E f := by
  induction ids with
  | nil => exact hk
  | cons i ids ih => exact fun _ => ih

/-- Of the rows found, only those that are kept matter. -/
theorem Program.publishes_lockEach {key : Id → Key} {still : Id → Db → Bool}
    {k : List Id → Program Db Key Id Event Result} (ids kept : List Id)
    (hk : ∀ kept', kept'.Sublist (kept ++ ids) → (k kept').Publishes view effect E f) :
    (Program.lockEach key still kept ids k).Publishes view effect E f := by
  induction ids generalizing kept with
  | nil => exact hk kept (by simp)
  | cons i ids ih =>
    intro db
    apply ih
    intro kept' hsub
    by_cases hstill : still i db = true
    · rw [if_pos hstill, List.append_assoc] at hsub
      exact hk kept' hsub
    · rw [if_neg hstill] at hsub
      exact hk kept' (hsub.trans ((List.sublist_cons_self i ids).append_left kept))

/-- A call made inside a larger system publishes the same there. -/
theorem Program.Publishes.embed {Db' Key' Event' Result' : Type} {view' : Db' → View}
    {effect' : Event' → View → View} {E' : Event' → Prop} {B : Embedding Db Key Event Db' Key' Event'}
    {q : Result → Program Db' Key' Id Event' Result'} {p : Program Db Key Id Event Result}
    (h : p.Publishes view effect E f) (hview : ∀ db, view' db = view (B.view db))
    (hput : ∀ d db, B.view (B.put d db) = d) (heffect : ∀ e, effect' (B.event e) = effect e)
    (hE : ∀ e, E e → E' (B.event e)) (hq : ∀ r f', (q r).Publishes view' effect' E' f') {f' : Db' → Db'}
    (hf : ∀ db, B.view (f' db) = f (B.view db)) : (p.embed B q).Publishes view' effect' E' f' := by
  induction p generalizing f f' with
  | ret r => exact hq r f'
  | now p ih => exact fun t => ih t (h t) hf
  | fresh p ih => exact fun x => ih x (h x) hf
  | query p ih => exact fun db => ih _ (h _) hf
  | select accept p ih => exact fun db ids hacc => ih ids (h _ ids hacc) hf
  | lock key p ih => exact fun db => ih _ (h _) hf
  | write g p ih =>
    refine ih h fun db => ?_
    rw [hput, hf]
  | commit e p ih =>
    obtain ⟨he, hwritten, hrest⟩ := h
    refine ⟨hE e he, fun db => ?_, ih hrest fun _ => rfl⟩
    rw [hview, hf, hwritten, heffect, hview]
  | observe accept e p ih =>
    intro db ids hacc
    obtain ⟨he, hquiet, hrest⟩ := h (B.view db) ids hacc
    exact ⟨hE _ he, fun v => (congrFun (heffect _) v).trans (hquiet v), ih _ ids hrest hf⟩
  | rollback p ih => exact ih h fun _ => rfl

end

/-- By induction on the entries: what is listed was listed before or by one of them, and nothing
since has struck it off. -/
theorem mem_foldl_listed {Name : Type} (strikes : Event → Name → Bool) (lists : Event → List Name)
    (es : List Event) (t : List Name) {x : Name} :
    x ∈ es.foldl (fun t e => t.filter (fun x => !strikes e x) ++ lists e) t ↔
      (x ∈ t ∧ ∀ e ∈ es, strikes e x = false) ∨
        ∃ before e after, es = before ++ e :: after ∧ x ∈ lists e ∧ ∀ e' ∈ after, strikes e' x = false := by
  induction es using List.reverseRecOn with
  | nil => simp
  | append_singleton es e ih =>
    have hlast : (∃ before e₁ after, es ++ [e] = before ++ e₁ :: after ∧ x ∈ lists e₁ ∧
        ∀ e' ∈ after, strikes e' x = false) ↔ x ∈ lists e ∨ strikes e x = false ∧
          ∃ before e₁ after, es = before ++ e₁ :: after ∧ x ∈ lists e₁ ∧
            ∀ e' ∈ after, strikes e' x = false := by
      constructor
      · intro h
        obtain ⟨before, e₁, after, heq, hx, hafter⟩ := h
        rcases List.eq_nil_or_concat after with rfl | ⟨after', e', rfl⟩
        · obtain ⟨_, he⟩ := List.append_inj' heq rfl
          obtain rfl := (List.cons.inj he).1
          exact .inl hx
        · rw [List.concat_eq_append] at heq hafter
          rw [← List.cons_append, ← List.append_assoc] at heq
          obtain ⟨hes, he⟩ := List.append_inj' heq rfl
          obtain rfl := (List.cons.inj he).1
          have hstrikes := hafter e (List.mem_append_right _ (List.mem_singleton_self e))
          have hrest : ∀ e' ∈ after', strikes e' x = false := fun e' he' =>
            hafter e' (List.mem_append_left _ he')
          exact .inr ⟨hstrikes, before, e₁, after', hes, hx, hrest⟩
      · intro h
        obtain hx | ⟨hstrikes, before, e₁, after, rfl, hx, hafter⟩ := h
        · exact ⟨es, e, [], rfl, hx, fun e' he' => absurd he' List.not_mem_nil⟩
        · refine ⟨before, e₁, after ++ [e], by simp, hx, fun e' he' => ?_⟩
          rcases List.mem_append.mp he' with he' | he'
          · exact hafter e' he'
          · exact List.mem_singleton.mp he' ▸ hstrikes
    rw [hlast, List.foldl_append, List.foldl_cons, List.foldl_nil, List.mem_append, List.mem_filter, ih]
    simp only [Bool.not_eq_true', List.mem_append, List.mem_singleton]
    grind

namespace Server

variable [DecidableEq Key] [DecidableEq Id]
variable {code : Call → Program Db Key Id Event Result} {aborted : Call → Result}
variable {view : Db → View} {effect : Event → View → View} {E : Event → Prop} {E' : Call → Event → Prop}
variable {s : Server Db Key Id Event Result Call} {p : Nat}

/-- What the log makes of the view it starts with. -/
def replay (effect : Event → View → View) (log : List (Nat × Event)) (v : View) : View :=
  log.foldl (fun v x => effect x.2 v) v

theorem exec_publishes {ids : List Id} {pr pr' : Process Db Key Id Event Result Call}
    (hp : s.procs p = some pr) (h : pr.program.Publishes view effect E pr.pending)
    (hp' : (s.exec p ids pr).procs p = some pr') : pr'.program.Publishes view effect E pr'.pending := by
  have hsame : s.procs p = some pr' → pr'.program.Publishes view effect E pr'.pending := fun hq =>
    Option.some.inj (hp.symm.trans hq) ▸ h
  cases hprog : pr.program with
  | ret r =>
    simp only [Server.exec, hprog] at hp'
    exact hsame hp'
  | now k | query k =>
    simp only [Server.exec, hprog, setProc_self, Option.some.injEq] at hp'
    subst hp'
    rw [hprog] at h
    exact h _
  | rollback k | write f k =>
    simp only [Server.exec, hprog, setProc_self, Option.some.injEq] at hp'
    subst hp'
    rw [hprog] at h
    exact h
  | commit e k =>
    simp only [Server.exec, hprog, setProc_self, Option.some.injEq] at hp'
    subst hp'
    rw [hprog] at h
    exact h.2.2
  | fresh k =>
    simp only [Server.exec, hprog] at hp'
    split at hp'
    · split at hp'
      · exact hsame hp'
      · rw [setProc_self] at hp'
        obtain rfl := Option.some.inj hp'
        rw [hprog] at h
        exact h _
    · exact hsame hp'
  | lock key k =>
    simp only [Server.exec, hprog] at hp'
    split at hp'
    · rw [setProc_self] at hp'
      obtain rfl := Option.some.inj hp'
      rw [hprog] at h
      exact h _
    · exact hsame hp'
  | select accept k =>
    simp only [Server.exec, hprog] at hp'
    split at hp'
    · rename_i hacc
      rw [setProc_self] at hp'
      obtain rfl := Option.some.inj hp'
      rw [hprog] at h
      exact h _ ids hacc
    · exact hsame hp'
  | observe accept e k =>
    simp only [Server.exec, hprog] at hp'
    split at hp'
    · rename_i hacc
      rw [setProc_self] at hp'
      obtain rfl := Option.some.inj hp'
      rw [hprog] at h
      exact (h _ ids hacc).2.2
    · exact hsame hp'

/-- A statement adds to the log what it does to the view. -/
theorem exec_replays {ids : List Id} {pr : Process Db Key Id Event Result Call}
    (h : pr.program.Publishes view effect E pr.pending) {v : View} (hv : view s.db = replay effect s.log v) :
    view (s.exec p ids pr).db = replay effect (s.exec p ids pr).log v := by
  cases hprog : pr.program with
  | commit e k =>
    rw [hprog] at h
    have hwritten : view (pr.pending s.db) = effect e (view s.db) := h.2.1 s.db
    simp only [Server.exec, hprog, setProc, replay, List.foldl_append, List.foldl_cons, List.foldl_nil]
    rw [hwritten, hv]
    rfl
  | observe accept e k =>
    rw [hprog] at h
    simp only [Server.exec, hprog]
    split
    · rename_i hacc
      have hquiet := (h _ ids hacc).2.1 (view s.db)
      simp only [setProc, replay, List.foldl_append, List.foldl_cons, List.foldl_nil]
      rw [hv] at hquiet ⊢
      exact hquiet.symm
    · exact hv
  | fresh k =>
    simp only [Server.exec, hprog]
    split
    · split <;> exact hv
    · exact hv
  | select accept k | lock key k =>
    simp only [Server.exec, hprog]
    split <;> exact hv
  | _ =>
    simp only [Server.exec, hprog]
    exact hv

theorem publishes_of_run (hcode : ∀ c, (code c).Publishes view effect (E' c) id) (db : Db) (clock : Nat)
    (used : List Id) (sched : List (Choice Id Call)) {pr : Process Db Key Id Event Result Call}
    (hp : ((boot db clock used).run code aborted sched).procs p = some pr) :
    pr.program.Publishes view effect (E' pr.call) pr.pending := by
  refine run_keeps (I := fun _ => True) (fun pr => pr.program.Publishes view effect (E' pr.call) pr.pending)
    ?_ ?_ ?_ ?_ ?_ hp
  · exact fun _ _ _ => trivial
  · exact fun c w _ => hcode c
  · intro s' ids pr pr' _ hp h hp'
    rw [call_of_exec hp hp']
    exact exec_publishes hp h hp'
  · exact fun _ _ _ => trivial
  · exact fun pr hp => absurd hp (by simp [boot])

/-- By induction on the schedule: in every run the view is the replay of the log. -/
theorem replays (hcode : ∀ c, (code c).Publishes view effect (E' c) id) (db : Db) (clock : Nat)
    (used : List Id) (sched : List (Choice Id Call)) : view ((boot db clock used).run code aborted sched).db =
      replay effect ((boot db clock used).run code aborted sched).log (view db) := by
  induction sched using List.reverseRecOn with
  | nil => rfl
  | append_singleton sched ch ih =>
    have hpublishes : ∀ p pr, ((boot db clock used).run code aborted sched).procs p = some pr →
        pr.program.Publishes view effect (E' pr.call) pr.pending :=
      fun p pr hp => publishes_of_run hcode db clock used sched hp
    rw [run_concat]
    generalize (boot db clock used).run code aborted sched = s at ih hpublishes ⊢
    cases ch with
    | tick n => exact ih
    | call q c =>
      simp only [Server.step]
      split <;> exact ih
    | fail q =>
      simp only [Server.step, Server.abort]
      split
      · exact ih
      · split <;> exact ih
    | exec q ids =>
      simp only [Server.step]
      split
      · exact ih
      · rename_i pr hq
        exact exec_replays (hpublishes q pr hq) ih

/-- Each entry of the log is one that its call may record. -/
theorem log_publishes (hcode : ∀ c, (code c).Publishes view effect (E' c) id) (db : Db) (clock : Nat)
    (used : List Id) (sched : List (Choice Id Call)) {e : Event}
    (he : (p, e) ∈ ((boot db clock used).run code aborted sched).log) :
    ∃ pr, ((boot db clock used).run code aborted sched).procs p = some pr ∧ E' pr.call e := by
  induction sched using List.reverseRecOn with
  | nil => exact absurd he List.not_mem_nil
  | append_singleton sched ch ih =>
    have hpublishes : ∀ p pr, ((boot db clock used).run code aborted sched).procs p = some pr →
        pr.program.Publishes view effect (E' pr.call) pr.pending :=
      fun p pr hp => publishes_of_run hcode db clock used sched hp
    rw [run_concat] at he ⊢
    generalize (boot db clock used).run code aborted sched = s at he ih hpublishes ⊢
    have hold : (p, e) ∈ s.log → ∃ pr, (s.step code aborted ch).procs p = some pr ∧ E' pr.call e := by
      intro hmem
      obtain ⟨pr, hp, hE⟩ := ih hmem
      obtain ⟨pr', hp', hc⟩ := step_continues code aborted ch hp
      exact ⟨pr', hp', hc.call ▸ hE⟩
    obtain hlog | ⟨q, e', hlog⟩ := step_log code aborted s ch
    · exact hold (hlog ▸ he)
    · rw [hlog] at he
      obtain hmem | hmem := List.mem_append.mp he
      · exact hold hmem
      · obtain ⟨rfl, rfl⟩ := Prod.mk.inj (List.mem_singleton.mp hmem)
        obtain ⟨ids, pr, rfl, hp, hrec⟩ := step_records hlog
        obtain ⟨pr', hp', hc⟩ := step_continues code aborted (.exec p ids) hp
        exact ⟨pr', hp', hc.call ▸ (hpublishes p pr hp).records hrec⟩

end Server

end ReadCommitted
