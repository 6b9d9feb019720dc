import GuffSuff.ReadCommitted.Answers

/-! What a call does once it has recorded an event of a kind. -/

namespace ReadCommitted

variable {Db Key Id Event Result Call : Type}

/-- Wherever the program records an event in `E`, it goes on as `R` says. -/
def Program.Then (E : Event → Prop) (R : Program Db Key Id Event Result → Prop) :
    Program Db Key Id Event Result → Prop
  | .ret _ => True
  | .now k => ∀ t, (k t).Then E R
  | .fresh k => ∀ x, (k x).Then E R
  | .query k => ∀ db, (k db).Then E R
  | .select _ k => ∀ ids, (k ids).Then E R
  | .lock _ k => ∀ db, (k db).Then E R
  | .write _ k => k.Then E R
  | .commit e k => (E e → R k) ∧ k.Then E R
  | .observe _ e k => ∀ db ids, (E (e db ids) → R (k db ids)) ∧ (k db ids).Then E R
  | .rollback k => k.Then E R

section
variable {E : Event → Prop} {R : Program Db Key Id Event Result → Prop}

theorem Program.Then.lockAll {key : Id → Key} {k : Program Db Key Id Event Result} (ids : List Id)
    (h : k.Then E R) : (Program.lockAll key ids k).Then E R := by
  induction ids with
  | nil => exact h
  | cons i ids ih => exact fun _ => ih

end

namespace Server

variable {s : Server Db Key Id Event Result Call} {p : Nat}
variable {E : Event → Prop} {R : Program Db Key Id Event Result → Prop}

/-- The process has an event in `E` behind it only if it is now where `R` says. -/
structure Following (E : Event → Prop) (R : Program Db Key Id Event Result → Prop)
    (pr : Process Db Key Id Event Result Call) : Prop where
  ahead : pr.program.Then E R
  behind : (∃ e ∈ pr.events, E e) → R pr.program

variable [DecidableEq Key] [DecidableEq Id]

theorem Following.exec {ids : List Id} {pr pr' : Process Db Key Id Event Result Call}
    (hR : ∀ (s : Server Db Key Id Event Result Call) pr pr', s.procs p = some pr → R pr.program →
      (s.exec p ids pr).procs p = some pr' → R pr'.program)
    (hp : s.procs p = some pr) (h : Following E R pr) (hp' : (s.exec p ids pr).procs p = some pr') :
    Following E R pr' := by
  have hstay : (∃ e ∈ pr.events, E e) → R pr'.program := fun he => hR s pr pr' hp (h.behind he) hp'
  have hquiet : pr'.events = pr.events → pr'.program.Then E R → Following E R pr' := fun hev hahead =>
    ⟨hahead, fun he => hstay (hev ▸ he)⟩
  have hsame : s.procs p = some pr' → Following E R pr' := fun hq =>
    Option.some.inj (hp.symm.trans hq) ▸ h
  have hrecord : ∀ e k, pr'.events = pr.events ++ [e] → pr'.program = k → (E e → R k) → k.Then E R →
      Following E R pr' := by
    intro e k hev hk hek hthen
    refine ⟨hk ▸ hthen, fun hx => ?_⟩
    obtain ⟨x, hx, hxe⟩ := hx
    rw [hev] at hx
    rcases List.mem_append.mp hx with hx | hx
    · exact hstay ⟨x, hx, hxe⟩
    · obtain rfl := List.mem_singleton.mp hx
      exact hk ▸ hek hxe
  have hahead := h.ahead
  cases hprog : pr.program with
  | ret r =>
    simp only [Server.exec, hprog] at hp'
    exact hsame hp'
  | now k | query k | rollback k =>
    simp only [Server.exec, hprog, setProc_self, Option.some.injEq] at hp'
    subst hp'
    rw [hprog] at hahead
    exact hquiet rfl (by first | exact hahead _ | exact hahead)
  | write f k =>
    simp only [Server.exec, hprog, setProc_self, Option.some.injEq] at hp'
    subst hp'
    rw [hprog] at hahead
    exact hquiet rfl hahead
  | fresh k =>
    simp only [Server.exec, hprog] at hp'
    split at hp'
    · split at hp'
      · exact hsame hp'
      · rw [setProc_self] at hp'
        obtain rfl := Option.some.inj hp'
        rw [hprog] at hahead
        exact hquiet rfl (hahead _)
    · exact hsame hp'
  | select accept k | lock key k =>
    simp only [Server.exec, hprog] at hp'
    split at hp'
    · rw [setProc_self] at hp'
      obtain rfl := Option.some.inj hp'
      rw [hprog] at hahead
      exact hquiet rfl (hahead _)
    · exact hsame hp'
  | commit e k =>
    simp only [Server.exec, hprog, setProc_self, Option.some.injEq] at hp'
    subst hp'
    rw [hprog] at hahead
    exact hrecord e k rfl rfl hahead.1 hahead.2
  | observe accept e k =>
    simp only [Server.exec, hprog] at hp'
    split at hp'
    · rw [setProc_self] at hp'
      obtain rfl := Option.some.inj hp'
      rw [hprog] at hahead
      obtain ⟨hrec, hthen⟩ := hahead (pr.pending s.db) ids
      exact hrecord _ _ rfl rfl hrec hthen
    · exact hsame hp'

/-- The run lemma: in every state, a call that has recorded an event in `E` is where `R` says. -/
theorem following_run {code : Call → Program Db Key Id Event Result} {aborted : Call → Result} {c : Call}
    (hcode : (code c).Then E R) (hfail : R (.ret (aborted c)))
    (hR : ∀ (s : Server Db Key Id Event Result Call) ids pr pr', s.procs p = some pr → R pr.program →
      (s.exec p ids pr).procs p = some pr' → R pr'.program)
    (db : Db) (clock : Nat) (used : List Id) {sched : List (Choice Id Call)}
    {pr : Process Db Key Id Event Result Call}
    (hp : ((boot db clock used).run code aborted sched).procs p = some pr) (hc : pr.call = c) :
    Following E R pr := by
  refine run_keeps (fun pr => pr.call = c → Following E R pr) (I := fun _ => True) (fun _ _ _ => trivial)
    ?_ ?_ ?_ ?_ hp hc
  · intro c' w _ hc'
    obtain rfl : c' = c := hc'
    exact ⟨hcode, fun hx => absurd hx (by simp [Process.start])⟩
  · intro s' ids qr qr' _ hq h hq' hcall
    exact (h ((call_of_exec hq hq').symm.trans hcall)).exec (fun s pr pr' => hR s ids pr pr') hq hq'
  · intro qr _ h hcall
    exact ⟨trivial, fun _ => hcall ▸ hfail⟩
  · intro qr hq
    exact absurd hq (by simp [boot])

end Server

end ReadCommitted
