import GuffSuff.ReadCommitted.Answers
import GuffSuff.ReadCommitted.Commits

/-! Which statement of a call made an entry of the log, and what the entries of a
run leave behind. -/

namespace ReadCommitted

variable {Db Key Id Event Result Call : Type}

/-- The next statement of the program records the event, when the call sees `db` and the rows
come as `ids`. -/
def Program.Records (db : Db) (ids : List Id) (e : Event) : Program Db Key Id Event Result → Prop
  | .commit e' _ => e' = e
  | .observe accept ev _ => accept db ids = true ∧ ev db ids = e
  | _ => False

theorem Program.Keeps.records {R : Db → Db → Prop} {E : Event → Prop}
    {p : Program Db Key Id Event Result} {db : Db} {ids : List Id} {e : Event} (h : p.Keeps R E)
    (hrec : p.Records db ids e) : E e := by
  cases p with
  | commit e' k =>
    obtain rfl : e' = e := hrec
    exact h.1
  | observe accept ev k =>
    obtain ⟨_, rfl⟩ := hrec
    exact (h db ids).1
  | _ => exact absurd hrec id

theorem Program.keeps_all {R : Db → Db → Prop} {E : Event → Prop} (hR : ∀ db db', R db db') (hE : ∀ e, E e)
    (p : Program Db Key Id Event Result) : p.Keeps R E := by
  induction p with
  | ret r => trivial
  | now k ih => exact fun t => ih t
  | fresh k ih => exact fun x => ih x
  | query k ih => exact fun db => ih db
  | select accept k ih => exact fun ids => ih ids
  | lock key k ih => exact fun db => ih db
  | write g k ih => exact ⟨fun db => hR db _, ih⟩
  | commit e k ih => exact ⟨hE e, ih⟩
  | observe accept e k ih => exact fun db ids => ⟨hE _, ih db ids⟩
  | rollback k ih => exact ih

section
variable {α Row Name : Type} {step : Row → Event → Row} {name : Row → Name} {field : Row → α}
variable {word : Name → Event → Option α}

theorem foldl_name (hname : ∀ r e, name (step r e) = name r) (es : List Event) (r : Row) :
    name (es.foldl step r) = name r := by
  induction es generalizing r with
  | nil => rfl
  | cons e es ih => exact (ih (step r e)).trans (hname r e)

/-- A field that each entry overwrites or leaves alone holds the last word on its row. -/
theorem foldl_overwrite (hname : ∀ r e, name (step r e) = name r)
    (h : ∀ r e, field (step r e) = (word (name r) e).getD (field r)) (es : List Event) (r : Row) :
    field (es.foldl step r) = (es.filterMap (word (name r))).getLast?.getD (field r) := by
  induction es using List.reverseRecOn with
  | nil => rfl
  | append_singleton es e ih =>
    rw [List.foldl_append, List.foldl_cons, List.foldl_nil, h, foldl_name hname, ih, List.filterMap_append]
    cases hword : word (name r) e with
    | none => simp [hword]
    | some a => simp [hword]

end

namespace Server

variable [DecidableEq Key] [DecidableEq Id]
variable {code : Call → Program Db Key Id Event Result} {aborted : Call → Result}
variable {s : Server Db Key Id Event Result Call} {p q : Nat} {e : Event}

theorem exec_records {ids : List Id} {pr : Process Db Key Id Event Result Call}
    (h : (s.exec q ids pr).log = s.log ++ [(p, e)]) :
    p = q ∧ pr.program.Records (pr.pending s.db) ids e := by
  have hquiet : ∀ {l : List (Nat × Event)}, l = s.log → l = s.log ++ [(p, e)] →
      p = q ∧ pr.program.Records (pr.pending s.db) ids e := by
    intro l hl hlog
    rw [hl] at hlog
    exact absurd hlog.symm (by simp)
  cases hprog : pr.program with
  | commit e' k =>
    simp only [Server.exec, hprog, setProc] at h
    obtain ⟨rfl, rfl⟩ := Prod.mk.inj (List.singleton_inj.mp (List.append_cancel_left h))
    exact ⟨rfl, rfl⟩
  | observe accept ev k =>
    simp only [Server.exec, hprog] at h
    split at h
    · rename_i haccept
      simp only [setProc] at h
      obtain ⟨rfl, rfl⟩ := Prod.mk.inj (List.singleton_inj.mp (List.append_cancel_left h))
      exact ⟨rfl, haccept, rfl⟩
    · exact hprog ▸ hquiet rfl h
  | fresh k =>
    simp only [Server.exec, hprog] at h
    split at h
    · split at h
      · exact hprog ▸ hquiet rfl h
      · exact hprog ▸ hquiet rfl h
    · exact hprog ▸ hquiet rfl h
  | select accept k =>
    simp only [Server.exec, hprog] at h
    split at h <;> exact hprog ▸ hquiet rfl h
  | lock key k =>
    simp only [Server.exec, hprog] at h
    split at h <;> exact hprog ▸ hquiet rfl h
  | _ =>
    simp only [Server.exec, hprog] at h
    exact hprog ▸ hquiet rfl h

theorem step_records {ch : Choice Id Call} (h : (s.step code aborted ch).log = s.log ++ [(p, e)]) :
    ∃ ids pr, ch = .exec p ids ∧ s.procs p = some pr ∧ pr.program.Records (pr.pending s.db) ids e := by
  have hquiet : ∀ {l : List (Nat × Event)}, l = s.log → l ≠ s.log ++ [(p, e)] := by
    intro l hl hlog
    rw [hl] at hlog
    exact absurd hlog.symm (by simp)
  cases ch with
  | tick n => exact absurd h (hquiet rfl)
  | call q c =>
    refine absurd h (hquiet ?_)
    simp only [Server.step]
    split <;> rfl
  | fail q =>
    refine absurd h (hquiet ?_)
    simp only [Server.step, Server.abort]
    split
    · rfl
    · split <;> rfl
  | exec q ids =>
    cases hq : s.procs q with
    | none =>
      simp only [Server.step, hq] at h
      exact absurd h (hquiet rfl)
    | some pr =>
      simp only [Server.step, hq] at h
      obtain ⟨rfl, hrec⟩ := exec_records h
      exact ⟨ids, pr, rfl, hq, hrec⟩

theorem exec_keeps {R : Db → Db → Prop} {E : Event → Prop} {ids : List Id}
    {pr pr' : Process Db Key Id Event Result Call} (hp : s.procs p = some pr)
    (h : pr.program.Keeps R E) (hp' : (s.exec p ids pr).procs p = some pr') :
    pr'.program.Keeps R E := by
  have hsame : s.procs p = some pr' → pr'.program.Keeps R E := fun hq =>
    Option.some.inj (hp.symm.trans hq) ▸ h
  cases hprog : pr.program with
  | ret r =>
    simp only [Server.exec, hprog] at hp'
    exact hsame hp'
  | now k | query k | rollback k =>
    simp only [Server.exec, hprog, setProc_self, Option.some.injEq] at hp'
    subst hp'
    rw [hprog] at h
    first | exact h _ | exact h
  | write f k | commit e k =>
    simp only [Server.exec, hprog, setProc_self, Option.some.injEq] at hp'
    subst hp'
    rw [hprog] at h
    exact h.2
  | fresh k =>
    simp only [Server.exec, hprog] at hp'
    split at hp'
    · split at hp'
      · exact hsame hp'
      · rw [setProc_self] at hp'
        obtain rfl := Option.some.inj hp'
        rw [hprog] at h
        exact h _
    · exact hsame hp'
  | select accept k | lock key k =>
    simp only [Server.exec, hprog] at hp'
    split at hp'
    · rw [setProc_self] at hp'
      obtain rfl := Option.some.inj hp'
      rw [hprog] at h
      exact h _
    · exact hsame hp'
  | observe accept ev k =>
    simp only [Server.exec, hprog] at hp'
    split at hp'
    · rw [setProc_self] at hp'
      obtain rfl := Option.some.inj hp'
      rw [hprog] at h
      exact (h _ _).2
    · exact hsame hp'

variable (code aborted) in
theorem step_log (s : Server Db Key Id Event Result Call) (ch : Choice Id Call) :
    (s.step code aborted ch).log = s.log ∨ ∃ p e, (s.step code aborted ch).log = s.log ++ [(p, e)] := by
  cases ch with
  | tick n => exact .inl rfl
  | call q c =>
    simp only [Server.step]
    split <;> exact .inl rfl
  | fail q =>
    simp only [Server.step, Server.abort]
    split
    · exact .inl rfl
    · split <;> exact .inl rfl
  | exec q ids =>
    simp only [Server.step]
    split
    · exact .inl rfl
    · unfold Server.exec
      split
      any_goals exact .inl rfl
      · split
        · split <;> exact .inl rfl
        · exact .inl rfl
      · split <;> exact .inl rfl
      · split <;> exact .inl rfl
      · exact .inr ⟨_, _, rfl⟩
      · split
        · exact .inr ⟨_, _, rfl⟩
        · exact .inl rfl

/-- Each entry of the log is one that the program of its call may record. -/
theorem log_keeps {R : Db → Db → Prop} {E : Call → Event → Prop} (hcode : ∀ c, (code c).Keeps R (E c))
    (db : Db) (clock : Nat) (used : List Id) (sched : List (Choice Id Call)) {p : Nat} {e : Event}
    (he : (p, e) ∈ ((boot db clock used).run code aborted sched).log) :
    ∃ pr, ((boot db clock used).run code aborted sched).procs p = some pr ∧ E pr.call e := by
  induction sched using List.reverseRecOn with
  | nil => exact absurd he List.not_mem_nil
  | append_singleton sched ch ih =>
    rw [run_concat] at he ⊢
    generalize hs : (boot db clock used).run code aborted sched = s at he ih ⊢
    have hold : (p, e) ∈ s.log → ∃ pr, (s.step code aborted ch).procs p = some pr ∧ E pr.call e := by
      intro hmem
      obtain ⟨pr, hp, hE⟩ := ih hmem
      obtain ⟨pr', hp', hc⟩ := step_continues code aborted ch hp
      exact ⟨pr', hp', hc.call ▸ hE⟩
    obtain hlog | ⟨q, e', hlog⟩ := step_log code aborted s ch
    · exact hold (hlog ▸ he)
    · rw [hlog] at he
      obtain hmem | hmem := List.mem_append.mp he
      · exact hold hmem
      · obtain ⟨rfl, rfl⟩ := Prod.mk.inj (List.mem_singleton.mp hmem)
        obtain ⟨ids, pr, rfl, hp, hrec⟩ := step_records hlog
        have hkeeps : pr.program.Keeps R (E pr.call) := by
          subst hs
          refine run_keeps (I := fun _ => True) (fun pr => pr.program.Keeps R (E pr.call)) ?_ ?_ ?_ ?_ ?_ hp
          · exact fun _ _ _ => trivial
          · exact fun c w _ => hcode c
          · intro s' ids pr pr' _ hp h hp'
            rw [call_of_exec hp hp']
            exact exec_keeps hp h hp'
          · exact fun _ _ _ => trivial
          · exact fun pr hp => absurd hp (by simp [boot])
        obtain ⟨pr', hp', hc⟩ := step_continues code aborted (.exec p ids) hp
        exact ⟨pr', hp', hc.call ▸ hkeeps.records hrec⟩

end Server

end ReadCommitted
