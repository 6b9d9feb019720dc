import GuffSuff.ReadCommitted.Soundness

/-! What a sound server says about a run that goes on: the new part of the log
is a path from the old world to the new one, and each entry is a move. -/

namespace ReadCommitted

variable {Db Key Id Event Result Call Cell : Type}

def Choice.OnlyMoves (p : Nat) : Choice Id Call → Prop
  | .tick _ => True
  | .call _ _ => False
  | .exec q _ => q = p
  | .fail q => q = p

instance (p : Nat) (ch : Choice Id Call) : Decidable (ch.OnlyMoves p) :=
  match ch with
  | .tick _ => isTrue trivial
  | .call _ _ => isFalse id
  | .exec q _ => inferInstanceAs (Decidable (q = p))
  | .fail q => inferInstanceAs (Decidable (q = p))

namespace Server

variable {S : Spec Db Key Id Event Cell}
variable {Post : Call → World Db → Spec.Contract Db Event Result} {w₀ : World Db}
variable {s : Server Db Key Id Event Result Call}

structure Added (S : Spec Db Key Id Event Cell) (s s' : Server Db Key Id Event Result Call)
    (new : List (Nat × Event)) : Prop where
  log : s'.log = s.log ++ new
  path : S.Path s.world (new.map Prod.snd) s'.world

theorem Added.refl (s : Server Db Key Id Event Result Call) : Added S s s [] :=
  ⟨by simp, .refl _⟩

theorem Added.trans {s₁ s₂ s₃ : Server Db Key Id Event Result Call} {l m : List (Nat × Event)}
    (h : Added S s₁ s₂ l) (h' : Added S s₂ s₃ m) : Added S s₁ s₃ (l ++ m) :=
  ⟨by rw [h'.log, h.log, List.append_assoc], by rw [List.map_append]; exact h.path.trans h'.path⟩

theorem Added.later {s' : Server Db Key Id Event Result Call} {new : List (Nat × Event)}
    (h : Added S s s' new) : S.Later s.world s'.world := ⟨_, h.path⟩

/-- Every entry of the log was a move of the specification, and what it led to came before now. -/
theorem Sound.cut (h : Sound S Post w₀ s) (hi : S.holds w₀.clock w₀.db)
    {l₁ l₂ : List (Nat × Event)} {p : Nat} {e : Event} (hl : s.log = l₁ ++ (p, e) :: l₂) :
    ∃ c db db', S.Path w₀ (l₁.map Prod.snd) ⟨c, db⟩ ∧ S.holds c db ∧ S.moves c db e db' ∧
      S.Path ⟨c, db'⟩ (l₂.map Prod.snd) s.world := by
  have hp := h.path
  rw [hl, List.map_append, List.map_cons] at hp
  obtain ⟨c, db, db', h₁, hm, h₂⟩ := hp.cut
  exact ⟨c, db, db', h₁, h₁.holds hi, hm, h₂⟩

theorem Sound.entry (h : Sound S Post w₀ s) (hi : S.holds w₀.clock w₀.db) {p : Nat} {e : Event}
    (he : (p, e) ∈ s.log) : ∃ c db db', S.holds c db ∧ S.Later w₀ ⟨c, db⟩ ∧
      S.moves c db e db' ∧ S.Later ⟨c, db'⟩ s.world := by
  obtain ⟨l₁, l₂, hl⟩ := List.append_of_mem he
  obtain ⟨c, db, db', h₁, hc, hm, h₂⟩ := h.cut hi hl
  exact ⟨c, db, db', hc, ⟨_, h₁⟩, hm, ⟨_, h₂⟩⟩

theorem Sound.trace_of_log (h : Sound S Post w₀ s) {p : Nat} {e : Event} (he : (p, e) ∈ s.log) :
    ∃ pr, s.procs p = some pr ∧ (Post pr.call pr.began).trace (eventsOf s.log p) := by
  cases hp : s.procs p with
  | none =>
    have hmem := mem_eventsOf.mpr he
    rw [h.idle p hp] at hmem
    exact absurd hmem List.not_mem_nil
  | some pr => exact ⟨pr, rfl, h.events p pr hp ▸ h.trace p pr hp⟩

/-- A call that had recorded nothing yet in an earlier part of the log began
before or after it, but whatever it records comes later. -/
theorem eventsOf_new {l m : List (Nat × Event)} {p : Nat} {e : Event} (hl : eventsOf l p = [])
    (he : e ∈ eventsOf (l ++ m) p) : (p, e) ∈ m := by
  rw [eventsOf_append, hl, List.nil_append] at he
  exact mem_eventsOf.mp he

theorem eventsOf_eq_singleton {l : List (Nat × Event)} {p : Nat} {e : Event}
    (h : eventsOf l p = [e]) : ∃ l₁ l₂, l = l₁ ++ (p, e) :: l₂ ∧ eventsOf l₁ p = [] ∧
      eventsOf l₂ p = [] := by
  have he : (p, e) ∈ l := mem_eventsOf.mp (by simp [h])
  obtain ⟨l₁, l₂, rfl⟩ := List.append_of_mem he
  have hl : eventsOf l₁ p ++ e :: eventsOf l₂ p = [e] := by simpa [eventsOf] using h
  have hlen := congrArg List.length hl
  simp only [List.length_append, List.length_cons, List.length_nil] at hlen
  exact ⟨l₁, l₂, rfl, List.eq_nil_of_length_eq_zero (by omega),
    List.eq_nil_of_length_eq_zero (by omega)⟩

theorem entries_in_order {α : Type} {l : List α} {x y : α} (hx : x ∈ l) (hy : y ∈ l) (hne : x ≠ y) :
    ∃ l₁ l₂, (l = l₁ ++ x :: l₂ ∧ y ∈ l₂) ∨ (l = l₁ ++ y :: l₂ ∧ x ∈ l₂) := by
  obtain ⟨l₁, l₂, rfl⟩ := List.append_of_mem hx
  rcases List.mem_append.mp hy with hy | hy
  · obtain ⟨m₁, m₂, rfl⟩ := List.append_of_mem hy
    exact ⟨m₁, m₂ ++ x :: l₂, .inr ⟨by simp, by simp⟩⟩
  · have hy' := (List.mem_cons.mp hy).resolve_left (Ne.symm hne)
    exact ⟨l₁, l₂, .inl ⟨rfl, hy'⟩⟩

theorem Sound.entry_since (h : Sound S Post w₀ s) {p : Nat}
    {pr : Process Db Key Id Event Result Call} (hp : s.procs p = some pr) {e : Event}
    (he : e ∈ eventsOf s.log p) : ∃ c db db', S.holds c db ∧ S.Later pr.began ⟨c, db⟩ ∧
      S.moves c db e db' ∧ S.Later ⟨c, db'⟩ s.world := by
  obtain ⟨pre, post, hlog, hpre, hi, _, hpath⟩ := h.began p pr hp
  rw [hlog] at he
  obtain ⟨l₁, l₂, hl⟩ := List.append_of_mem (eventsOf_new hpre he)
  rw [hl, List.map_append, List.map_cons] at hpath
  obtain ⟨c, db, db', h₁, hm, h₂⟩ := hpath.cut
  exact ⟨c, db, db', h₁.holds hi, ⟨_, h₁⟩, hm, ⟨_, h₂⟩⟩

structure Continues (pr pr' : Process Db Key Id Event Result Call) : Prop where
  call : pr'.call = pr.call
  began : pr'.began = pr.began
  finished : ∀ r, pr.Finished r → pr' = pr

theorem Continues.refl (pr : Process Db Key Id Event Result Call) : Continues pr pr :=
  ⟨rfl, rfl, fun _ _ => rfl⟩

theorem Continues.trans {pr₁ pr₂ pr₃ : Process Db Key Id Event Result Call}
    (h : Continues pr₁ pr₂) (h' : Continues pr₂ pr₃) : Continues pr₁ pr₃ := by
  refine ⟨h'.call.trans h.call, h'.began.trans h.began, fun r hr => ?_⟩
  have h₂ := h.finished r hr
  rw [h'.finished r (h₂ ▸ hr), h₂]

theorem abort_procs (aborted : Call → Result) {p : Nat} {pr : Process Db Key Id Event Result Call}
    (hp : s.procs p = some pr) :
    ∃ pr', (s.abort aborted p pr).procs = Function.update s.procs p (some pr') ∧ Continues pr pr' := by
  have hsame : s.procs = Function.update s.procs p (some pr) := by
    rw [← hp, Function.update_eq_self]
  cases hprog : pr.program with
  | ret r =>
    simp only [Server.abort, hprog]
    exact ⟨pr, hsame, .refl pr⟩
  | _ =>
    simp only [Server.abort, hprog]
    exact ⟨_, rfl, rfl, rfl, fun r hr => by simp [Process.Finished, hprog] at hr⟩

variable [DecidableEq Key] [DecidableEq Id]

theorem Sound.exec_added (h : Sound S Post w₀ s) {p : Nat}
    {pr : Process Db Key Id Event Result Call} (hp : s.procs p = some pr) (ids : List Id) :
    ∃ new, Added S s (s.exec p ids pr) new ∧ (∀ x ∈ new, x.1 = p) ∧ new.length ≤ 1 := by
  obtain ⟨L, hL, hs⟩ := h.safe p pr hp
  have hr : S.Rely L pr.drawn s.world s.world := .refl _ _ _
  have hquiet : ∀ s' : Server Db Key Id Event Result Call, s'.log = s.log → s'.world = s.world →
      ∃ new, Added S s s' new ∧ (∀ x ∈ new, x.1 = p) ∧ new.length ≤ 1 := fun s' hl hw =>
    ⟨[], ⟨by simp [hl], by rw [hw]; exact .refl _⟩, by simp, by simp⟩
  cases hprog : pr.program with
  | commit e k =>
    rw [hprog] at hs
    simp only [Server.exec, hprog]
    obtain ⟨hm, _⟩ := hs s.world hr h.holds
    exact ⟨[(p, e)], ⟨rfl, .single hm⟩, by simp, by simp⟩
  | observe accept e k =>
    rw [hprog] at hs
    simp only [Server.exec, hprog]
    split
    · rename_i ha
      obtain ⟨hm, _⟩ := hs s.world hr h.holds ids ha
      exact ⟨[(p, _)], ⟨rfl, .single hm⟩, by simp, by simp⟩
    · exact hquiet _ rfl rfl
  | fresh k =>
    simp only [Server.exec, hprog]
    split
    · split <;> exact hquiet _ rfl rfl
    · exact hquiet _ rfl rfl
  | select accept k =>
    simp only [Server.exec, hprog]
    split <;> exact hquiet _ rfl rfl
  | lock key k =>
    simp only [Server.exec, hprog]
    split <;> exact hquiet _ rfl rfl
  | _ =>
    simp only [Server.exec, hprog]
    exact hquiet _ rfl rfl

variable {code : Call → Program Db Key Id Event Result} {aborted : Call → Result}

variable (code aborted) in
theorem Sound.step_added (h : Sound S Post w₀ s) (ch : Choice Id Call) :
    ∃ new, Added S s (s.step code aborted ch) new ∧
      (∀ p, ch.OnlyMoves p → ∀ x ∈ new, x.1 = p) ∧ new.length ≤ 1 := by
  cases ch with
  | tick n =>
    exact ⟨[], ⟨by simp [Server.step], .tick (.refl _) (Nat.le_add_right _ _)⟩, by simp, by simp⟩
  | call p c =>
    simp only [Server.step]
    split <;> exact ⟨[], ⟨by simp [setProc], .refl _⟩, by simp, by simp⟩
  | exec p ids =>
    simp only [Server.step]
    split
    · exact ⟨[], .refl s, by simp, by simp⟩
    · rename_i pr hp
      obtain ⟨new, hnew, hps, hlen⟩ := h.exec_added hp ids
      exact ⟨new, hnew, fun q hq => by rw [← show p = q from hq]; exact hps, hlen⟩
  | fail p =>
    simp only [Server.step]
    split
    · exact ⟨[], .refl s, by simp, by simp⟩
    · rename_i pr hp
      refine ⟨[], ?_, by simp, by simp⟩
      cases hprog : pr.program with
      | ret r =>
        simp only [Server.abort, hprog]
        exact .refl s
      | _ =>
        simp only [Server.abort, hprog]
        exact ⟨by simp [setProc], .refl _⟩

variable (code aborted) in
theorem Sound.step_changed (h : Sound S Post w₀ s) {ch : Choice Id Call}
    (hne : (s.step code aborted ch).db ≠ s.db) : ∃ p ids e c, ch = .exec p ids ∧
      (s.step code aborted ch).log = s.log ++ [(p, e)] ∧
        S.moves c s.db e (s.step code aborted ch).db := by
  obtain ⟨new, hnew, hps, hlen⟩ := h.step_added code aborted ch
  cases ch with
  | tick n => exact absurd rfl hne
  | call p c =>
    refine absurd ?_ hne
    simp only [Server.step]
    split <;> rfl
  | fail p =>
    refine absurd ?_ hne
    simp only [Server.step]
    split
    · rfl
    · unfold Server.abort
      split <;> rfl
  | exec p ids =>
    have hmem := hps p rfl
    cases new with
    | nil => exact absurd (Spec.Path.db_eq hnew.path) hne
    | cons x rest =>
      obtain rfl : rest = [] := List.eq_nil_of_length_eq_zero (by simpa using hlen)
      obtain rfl : x.1 = p := hmem x List.mem_cons_self
      obtain ⟨c, _, hm⟩ := Spec.Path.of_singleton hnew.path
      exact ⟨x.1, ids, x.2, c, rfl, hnew.log, hm⟩

theorem Sound.run_added (h : Sound S Post w₀ s) {sched : List (Choice Id Call)}
    (hsched : ∀ ch ∈ sched, Covers S Post code aborted ch) :
    ∃ new, Added S s (s.run code aborted sched) new ∧
      ∀ p, (∀ ch ∈ sched, ch.OnlyMoves p) → ∀ x ∈ new, x.1 = p := by
  induction sched generalizing s with
  | nil => exact ⟨[], .refl s, by simp⟩
  | cons ch sched ih =>
    obtain ⟨l, hl, hlp, _⟩ := h.step_added code aborted ch
    have hs := h.step (hsched ch List.mem_cons_self)
    obtain ⟨m, hm, hmp⟩ := ih hs fun ch' hch => hsched ch' (List.mem_cons_of_mem _ hch)
    refine ⟨l ++ m, hl.trans hm, fun p hp x hx => ?_⟩
    rcases List.mem_append.mp hx with hx | hx
    · exact hlp p (hp ch List.mem_cons_self) x hx
    · exact hmp p (fun ch' hch => hp ch' (List.mem_cons_of_mem _ hch)) x hx

theorem Sound.run_entry (h : Sound S Post w₀ s) {sched : List (Choice Id Call)}
    (hsched : ∀ ch ∈ sched, Covers S Post code aborted ch) {l₁ l₂ : List (Nat × Event)}
    {x : Nat × Event} (hlog : (s.run code aborted sched).log = s.log ++ l₁ ++ x :: l₂) :
    ∃ sched₁ ch sched₂, sched = sched₁ ++ ch :: sched₂ ∧
      (s.run code aborted sched₁).log = s.log ++ l₁ ∧
      (s.run code aborted (sched₁ ++ [ch])).log = s.log ++ l₁ ++ [x] := by
  induction sched generalizing s l₁ with
  | nil =>
    have hlen := congrArg List.length hlog
    simp [Server.run] at hlen
  | cons ch sched ih =>
    obtain ⟨new, hnew, _, hlen⟩ := h.step_added code aborted ch
    have hs := h.step (hsched ch List.mem_cons_self)
    have hrest := fun ch' hch => hsched ch' (List.mem_cons_of_mem ch hch)
    obtain ⟨m, hm, _⟩ := hs.run_added hrest
    have hrun : (s.run code aborted (ch :: sched)).log = s.log ++ (new ++ m) := by
      rw [← List.append_assoc, ← hnew.log]
      exact hm.log
    rw [hrun, List.append_assoc] at hlog
    have hsplit := List.append_cancel_left hlog
    cases new with
    | nil =>
      have hsame : (s.step code aborted ch).log = s.log := by simpa using hnew.log
      have hlater : ((s.step code aborted ch).run code aborted sched).log =
          (s.step code aborted ch).log ++ l₁ ++ x :: l₂ := by
        rw [hm.log, List.append_assoc, ← hsplit, List.nil_append]
      obtain ⟨sched₁, ch', sched₂, rfl, h₁, h₂⟩ := ih hs hrest hlater
      rw [hsame] at h₁ h₂
      exact ⟨ch :: sched₁, ch', sched₂, rfl, h₁, h₂⟩
    | cons y ys =>
      have hys : ys = [] := List.eq_nil_of_length_eq_zero (by simpa using hlen)
      subst hys
      cases l₁ with
      | nil =>
        have hy : y = x := (List.cons.inj hsplit).1
        rw [hy] at hnew
        exact ⟨[], ch, sched, rfl, by simp [Server.run], by simpa [Server.run] using hnew.log⟩
      | cons z l₁ =>
        have hcons : y :: m = z :: (l₁ ++ x :: l₂) := hsplit
        obtain ⟨rfl, hml⟩ := List.cons.inj hcons
        have hlater : ((s.step code aborted ch).run code aborted sched).log =
            (s.step code aborted ch).log ++ l₁ ++ x :: l₂ := by rw [hm.log, hml, List.append_assoc]
        obtain ⟨sched₁, ch', sched₂, rfl, h₁, h₂⟩ := ih hs hrest hlater
        rw [hnew.log, List.append_assoc s.log, List.singleton_append] at h₁ h₂
        exact ⟨ch :: sched₁, ch', sched₂, rfl, h₁, h₂⟩

theorem exec_procs {p : Nat} {pr : Process Db Key Id Event Result Call}
    (hp : s.procs p = some pr) (ids : List Id) :
    ∃ pr', (s.exec p ids pr).procs = Function.update s.procs p (some pr') ∧ Continues pr pr' := by
  have hsame : s.procs = Function.update s.procs p (some pr) := by
    rw [← hp, Function.update_eq_self]
  cases hprog : pr.program with
  | ret r =>
    simp only [Server.exec, hprog]
    exact ⟨pr, hsame, .refl pr⟩
  | fresh k =>
    simp only [Server.exec, hprog]
    split
    · split
      · exact ⟨pr, hsame, .refl pr⟩
      · exact ⟨_, rfl, rfl, rfl, fun r hr => by simp [Process.Finished, hprog] at hr⟩
    · exact ⟨pr, hsame, .refl pr⟩
  | select accept k =>
    simp only [Server.exec, hprog]
    split
    · exact ⟨_, rfl, rfl, rfl, fun r hr => by simp [Process.Finished, hprog] at hr⟩
    · exact ⟨pr, hsame, .refl pr⟩
  | lock key k =>
    simp only [Server.exec, hprog]
    split
    · exact ⟨_, rfl, rfl, rfl, fun r hr => by simp [Process.Finished, hprog] at hr⟩
    · exact ⟨pr, hsame, .refl pr⟩
  | observe accept e k =>
    simp only [Server.exec, hprog]
    split
    · exact ⟨_, rfl, rfl, rfl, fun r hr => by simp [Process.Finished, hprog] at hr⟩
    · exact ⟨pr, hsame, .refl pr⟩
  | _ =>
    simp only [Server.exec, hprog]
    exact ⟨_, rfl, rfl, rfl, fun r hr => by simp [Process.Finished, hprog] at hr⟩

variable (code aborted) in
/-- What a step can do to process `q`: nothing, let it go on, or start it. -/
theorem step_cases (s : Server Db Key Id Event Result Call) (ch : Choice Id Call) (q : Nat) :
    (s.step code aborted ch).procs q = s.procs q ∨
      (∃ qr qr', s.procs q = some qr ∧ (s.step code aborted ch).procs q = some qr' ∧
        Continues qr qr') ∨
      ∃ c, ch = .call q c ∧ s.procs q = none ∧
        (s.step code aborted ch).procs q = some (.start s.world c (code c)) := by
  have hupd : ∀ {p pr pr'} {s' : Server Db Key Id Event Result Call}, s.procs p = some pr →
      s'.procs = Function.update s.procs p (some pr') → Continues pr pr' →
        s'.procs q = s.procs q ∨
          ∃ qr qr', s.procs q = some qr ∧ s'.procs q = some qr' ∧ Continues qr qr' := by
    intro p pr pr' s' hp hs' hc
    by_cases hqp : q = p
    · subst hqp
      exact .inr ⟨pr, pr', hp, by rw [hs', Function.update_self], hc⟩
    · exact .inl (by rw [hs', Function.update_of_ne hqp])
  cases ch with
  | tick n => exact .inl rfl
  | call p c =>
    cases hp : s.procs p with
    | some _ => exact .inl (by simp only [Server.step, hp])
    | none =>
      simp only [Server.step, hp]
      by_cases hqp : q = p
      · subst hqp
        exact .inr (.inr ⟨c, rfl, hp, setProc_self ..⟩)
      · exact .inl (setProc_ne _ _ hqp)
  | exec p ids =>
    cases hp : s.procs p with
    | none => exact .inl (by simp only [Server.step, hp])
    | some pr =>
      obtain ⟨pr', hpr, hc⟩ := exec_procs hp ids
      simp only [Server.step, hp]
      rcases hupd hp hpr hc with h | h
      · exact .inl h
      · exact .inr (.inl h)
  | fail p =>
    cases hp : s.procs p with
    | none => exact .inl (by simp only [Server.step, hp])
    | some pr =>
      obtain ⟨pr', hpr, hc⟩ := abort_procs aborted hp
      simp only [Server.step, hp]
      rcases hupd hp hpr hc with h | h
      · exact .inl h
      · exact .inr (.inl h)

theorem step_procs {ch : Choice Id Call} {q : Nat} {qr' : Process Db Key Id Event Result Call}
    (hq : (s.step code aborted ch).procs q = some qr') :
    (∃ qr, s.procs q = some qr ∧ Continues qr qr') ∨ ∃ c, ch = .call q c ∧ qr'.call = c := by
  rcases step_cases code aborted s ch q with h | ⟨qr, qr₁, h₀, h₁, hc⟩ | ⟨c, hch, _, h₁⟩
  · exact .inl ⟨qr', h ▸ hq, .refl qr'⟩
  · obtain rfl := Option.some.inj (h₁.symm.trans hq)
    exact .inl ⟨qr, h₀, hc⟩
  · obtain rfl := Option.some.inj (h₁.symm.trans hq)
    exact .inr ⟨c, hch, rfl⟩

theorem run_procs {sched : List (Choice Id Call)} {q : Nat}
    {qr' : Process Db Key Id Event Result Call} (hq : (s.run code aborted sched).procs q = some qr') :
    (∃ qr, s.procs q = some qr ∧ Continues qr qr') ∨ ∃ c, .call q c ∈ sched ∧ qr'.call = c := by
  induction sched generalizing s with
  | nil => exact .inl ⟨qr', hq, .refl qr'⟩
  | cons ch sched ih =>
    rcases ih hq with ⟨qr₁, h₁, hc₁⟩ | ⟨c, hc, hcall⟩
    · rcases step_procs h₁ with ⟨qr, h₀, hc₀⟩ | ⟨c, rfl, hcall⟩
      · exact .inl ⟨qr, h₀, hc₀.trans hc₁⟩
      · exact .inr ⟨c, List.mem_cons_self, hc₁.call.trans hcall⟩
    · exact .inr ⟨c, List.mem_cons_of_mem _ hc, hcall⟩

variable (code aborted) in
theorem step_continues (ch : Choice Id Call) {q : Nat} {qr : Process Db Key Id Event Result Call}
    (hq : s.procs q = some qr) :
    ∃ qr', (s.step code aborted ch).procs q = some qr' ∧ Continues qr qr' := by
  rcases step_cases code aborted s ch q with h | ⟨qr₀, qr', h₀, h₁, hc⟩ | ⟨_, _, hnone, _⟩
  · exact ⟨qr, h.trans hq, .refl qr⟩
  · obtain rfl := Option.some.inj (h₀.symm.trans hq)
    exact ⟨qr', h₁, hc⟩
  · rw [hq] at hnone
    exact absurd hnone (by simp)

variable (code aborted) in
theorem run_continues (sched : List (Choice Id Call)) {q : Nat}
    {qr : Process Db Key Id Event Result Call} (hq : s.procs q = some qr) :
    ∃ qr', (s.run code aborted sched).procs q = some qr' ∧ Continues qr qr' := by
  induction sched generalizing s qr with
  | nil => exact ⟨qr, hq, .refl qr⟩
  | cons ch sched ih =>
    obtain ⟨qr₁, h₁, hc₁⟩ := step_continues code aborted ch hq
    obtain ⟨qr₂, h₂, hc₂⟩ := ih h₁
    exact ⟨qr₂, h₂, hc₁.trans hc₂⟩

theorem step_starts (ch : Choice Id Call) {q : Nat} {qr : Process Db Key Id Event Result Call}
    (hq : s.procs q = none) (hq' : (s.step code aborted ch).procs q = some qr) :
    qr.began = s.world := by
  rcases step_cases code aborted s ch q with h | ⟨qr₀, _, h₀, _, _⟩ | ⟨c, _, _, h₁⟩
  · rw [h, hq] at hq'
    exact absurd hq' (by simp)
  · rw [hq] at h₀
    exact absurd h₀ (by simp)
  · obtain rfl := Option.some.inj (h₁.symm.trans hq')
    rfl

theorem Sound.run_starts (h : Sound S Post w₀ s) {sched : List (Choice Id Call)}
    (hsched : ∀ ch ∈ sched, Covers S Post code aborted ch) {q : Nat}
    {qr : Process Db Key Id Event Result Call} (hq : s.procs q = none)
    (hq' : (s.run code aborted sched).procs q = some qr) : S.Later s.world qr.began := by
  induction sched generalizing s with
  | nil =>
    rw [Server.run, List.foldl_nil, hq] at hq'
    exact absurd hq' (by simp)
  | cons ch sched ih =>
    have hs := h.step (hsched ch List.mem_cons_self)
    cases hq₁ : (s.step code aborted ch).procs q with
    | some qr₁ =>
      obtain ⟨qr₂, h₂, hc⟩ := run_continues code aborted sched hq₁
      obtain rfl := Option.some.inj (hq'.symm.trans h₂)
      rw [hc.began, step_starts ch hq hq₁]
      exact .refl _
    | none =>
      obtain ⟨_, hadd, _, _⟩ := h.step_added code aborted ch
      exact hadd.later.trans
        (ih hs (fun ch' hch => hsched ch' (List.mem_cons_of_mem _ hch)) hq₁ hq')

theorem exec_clock (p : Nat) (ids : List Id) (pr : Process Db Key Id Event Result Call) :
    (s.exec p ids pr).clock = s.clock := by
  unfold exec
  split
  case h_3 =>
    split
    · split <;> rfl
    · rfl
  all_goals first | rfl | (split <;> rfl)

variable (code aborted) in
theorem step_clock_le (s : Server Db Key Id Event Result Call) (ch : Choice Id Call) :
    s.clock ≤ (s.step code aborted ch).clock := by
  cases ch with
  | tick n => exact Nat.le_add_right _ _
  | call p c =>
    simp only [step]
    split <;> exact Nat.le_refl _
  | exec p ids =>
    simp only [step]
    split
    · exact Nat.le_refl _
    · exact Nat.le_of_eq (exec_clock p ids _).symm
  | fail p =>
    simp only [step, abort]
    split
    · exact Nat.le_refl _
    · split <;> exact Nat.le_refl _

variable (code aborted) in
theorem run_clock_le (s : Server Db Key Id Event Result Call) (sched : List (Choice Id Call)) :
    s.clock ≤ (s.run code aborted sched).clock := by
  induction sched generalizing s with
  | nil => exact Nat.le_refl _
  | cons ch sched ih => exact Nat.le_trans (step_clock_le code aborted s ch) (ih _)

end Server

end ReadCommitted
