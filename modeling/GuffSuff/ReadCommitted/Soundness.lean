import GuffSuff.ReadCommitted.Outline

/-! Outlines of the single calls give an abstract run of the whole server:
whatever the schedule, the log is a path of the specification. -/

namespace ReadCommitted

variable {Db Key Id Event Result Call Cell : Type}

namespace Server

def eventsOf (log : List (Nat × Event)) (p : Nat) : List Event :=
  (log.filter (fun x => x.1 = p)).map Prod.snd

@[simp] theorem eventsOf_append (l m : List (Nat × Event)) (p : Nat) :
    eventsOf (l ++ m) p = eventsOf l p ++ eventsOf m p := by
  simp [eventsOf]

@[simp] theorem eventsOf_self (p : Nat) (e : Event) : eventsOf [(p, e)] p = [e] := by
  simp [eventsOf]

theorem eventsOf_ne {p q : Nat} (e : Event) (h : p ≠ q) : eventsOf [(p, e)] q = [] := by
  simp [eventsOf, h]

theorem mem_eventsOf {log : List (Nat × Event)} {p : Nat} {e : Event} :
    e ∈ eventsOf log p ↔ (p, e) ∈ log := by
  simp [eventsOf]

theorem eventsOf_eq_map {log : List (Nat × Event)} {p : Nat} (h : ∀ x ∈ log, x.1 = p) :
    eventsOf log p = log.map Prod.snd := by
  rw [eventsOf, List.filter_eq_self.mpr]
  simpa using h

/-- The process began in a world of the run, and all its events come after it. -/
def Began (S : Spec Db Key Id Event Cell) (w₀ : World Db)
    (s : Server Db Key Id Event Result Call) (p : Nat) (w : World Db) : Prop :=
  ∃ pre post, s.log = pre ++ post ∧ eventsOf pre p = [] ∧ S.holds w.clock w.db ∧
    S.Path w₀ (pre.map Prod.snd) w ∧ S.Path w (post.map Prod.snd) s.world

structure Sound (S : Spec Db Key Id Event Cell)
    (Post : Call → World Db → Spec.Contract Db Event Result) (w₀ : World Db)
    (s : Server Db Key Id Event Result Call) : Prop where
  path : S.Path w₀ (s.log.map Prod.snd) s.world
  holds : S.holds s.clock s.db
  used : ∀ x, S.has x s.db → x ∈ s.used
  drawn : ∀ p pr, s.procs p = some pr → ∀ x ∈ pr.drawn, x ∈ s.used
  apart : ∀ p q pr qr, p ≠ q → s.procs p = some pr → s.procs q = some qr →
    ∀ x ∈ pr.drawn, x ∉ qr.drawn
  safe : ∀ p pr, s.procs p = some pr → ∃ L, (∀ k ∈ L, s.owner k = some p) ∧
    S.Safe (Post pr.call pr.began) pr.program L pr.drawn pr.pending pr.events s.world
  events : ∀ p pr, s.procs p = some pr → pr.events = eventsOf s.log p
  trace : ∀ p pr, s.procs p = some pr → (Post pr.call pr.began).trace pr.events
  idle : ∀ p, s.procs p = none → eventsOf s.log p = []
  began : ∀ p pr, s.procs p = some pr → Began S w₀ s p pr.began

variable {S : Spec Db Key Id Event Cell}
variable {Post : Call → World Db → Spec.Contract Db Event Result} {w₀ : World Db}
variable {s : Server Db Key Id Event Result Call}

theorem release_of_ne {owner : Key → Option Nat} {k : Key} {p q : Nat}
    (h : owner k = some q) (hne : q ≠ p) : release owner p k = some q := by
  simp [release, h, hne]

theorem setProc_self (s : Server Db Key Id Event Result Call) (p : Nat)
    (pr : Process Db Key Id Event Result Call) : (s.setProc p pr).procs p = some pr := by
  simp [setProc]

theorem setProc_ne (s : Server Db Key Id Event Result Call) {p q : Nat}
    (pr : Process Db Key Id Event Result Call) (h : q ≠ p) :
    (s.setProc p pr).procs q = s.procs q := by
  simp [setProc, Function.update_of_ne h]

theorem sound_boot {db : Db} {clock : Nat} {used : List Id} (hi : S.holds clock db)
    (hu : ∀ x, S.has x db → x ∈ used) :
    Sound S Post ⟨clock, db⟩ (boot db clock used : Server Db Key Id Event Result Call) where
  path := .refl _
  holds := hi
  used := hu
  drawn := by simp [boot]
  apart := by simp [boot]
  safe := by simp [boot]
  events := by simp [boot]
  trace := by simp [boot]
  idle := by simp [boot, eventsOf]
  began := by simp [boot]

theorem Sound.tick (h : Sound S Post w₀ s) (n : Nat) :
    Sound S Post w₀ { s with clock := s.clock + n } := by
  have hw : S.Path s.world [] ⟨s.clock + n, s.db⟩ := .tick (.refl _) (Nat.le_add_right _ _)
  have hr : ∀ L D, S.Rely L D s.world ⟨s.clock + n, s.db⟩ :=
    fun L D => ⟨⟨_, hw⟩, fun _ _ => rfl, fun _ _ hx => hx⟩
  constructor
  case path => exact h.path.tick (Nat.le_add_right _ _)
  case holds => exact S.holds_tick h.holds (Nat.le_add_right _ _)
  case used => exact h.used
  case drawn => exact h.drawn
  case apart => exact h.apart
  case events => exact h.events
  case trace => exact h.trace
  case idle => exact h.idle
  case safe =>
    intro p pr hp
    obtain ⟨L, hL, hs⟩ := h.safe p pr hp
    exact ⟨L, hL, hs.rely (hr _ _)⟩
  case began =>
    intro p pr hp
    obtain ⟨pre, post, hlog, hpre, hi, h₁, h₂⟩ := h.began p pr hp
    exact ⟨pre, post, hlog, hpre, hi, h₁, h₂.tick (Nat.le_add_right _ _)⟩

theorem Sound.call (h : Sound S Post w₀ s) {p : Nat} (hp : s.procs p = none) {c : Call}
    {prog : Program Db Key Id Event Result}
    (ht : (Post c s.world).trace []) (hs : S.Safe (Post c s.world) prog [] [] id [] s.world) :
    Sound S Post w₀ (s.setProc p (.start s.world c prog)) := by
  have hcases : ∀ q pr, (s.setProc p (.start s.world c prog)).procs q = some pr →
      (q = p ∧ pr = .start s.world c prog) ∨ (q ≠ p ∧ s.procs q = some pr) := by
    intro q pr hq
    by_cases hqp : q = p
    · subst hqp
      rw [setProc_self] at hq
      exact .inl ⟨rfl, (Option.some.inj hq).symm⟩
    · rw [setProc_ne _ _ hqp] at hq
      exact .inr ⟨hqp, hq⟩
  constructor
  case path => exact h.path
  case holds => exact h.holds
  case used => exact h.used
  case drawn =>
    intro q pr hq
    rcases hcases q pr hq with ⟨_, rfl⟩ | ⟨_, hq⟩
    · simp [Process.start]
    · exact h.drawn q pr hq
  case apart =>
    intro q r pr rr hne hq hr
    rcases hcases q pr hq with ⟨_, rfl⟩ | ⟨_, hq⟩
    · simp [Process.start]
    · rcases hcases r rr hr with ⟨_, rfl⟩ | ⟨_, hr⟩
      · simp [Process.start]
      · exact h.apart q r pr rr hne hq hr
  case safe =>
    intro q pr hq
    rcases hcases q pr hq with ⟨_, rfl⟩ | ⟨_, hq⟩
    · exact ⟨[], by simp, hs⟩
    · exact h.safe q pr hq
  case events =>
    intro q pr hq
    rcases hcases q pr hq with ⟨rfl, rfl⟩ | ⟨_, hq⟩
    · exact (h.idle q hp).symm
    · exact h.events q pr hq
  case trace =>
    intro q pr hq
    rcases hcases q pr hq with ⟨_, rfl⟩ | ⟨_, hq⟩
    · exact ht
    · exact h.trace q pr hq
  case idle =>
    intro q hq
    by_cases hqp : q = p
    · subst hqp
      simp [setProc_self] at hq
    · rw [setProc_ne _ _ hqp] at hq
      exact h.idle q hq
  case began =>
    intro q pr hq
    rcases hcases q pr hq with ⟨rfl, rfl⟩ | ⟨_, hq⟩
    · exact ⟨s.log, [], by simp [setProc], h.idle q hp, h.holds, h.path, .refl _⟩
    · exact h.began q pr hq

theorem Sound.move (h : Sound S Post w₀ s) {p : Nat} {pr : Process Db Key Id Event Result Call}
    (hp : s.procs p = some pr) (prog : Program Db Key Id Event Result) (f : Db → Db) (D : List Id)
    (used' : List Id) (owner' : Key → Option Nat) (hused : ∀ x ∈ s.used, x ∈ used')
    (hdrawn : ∀ x ∈ D, x ∈ pr.drawn ∨ (x ∈ used' ∧ x ∉ s.used))
    (howner : ∀ k q, q ≠ p → s.owner k = some q → owner' k = some q)
    (hs : ∃ L, (∀ k ∈ L, owner' k = some p) ∧
      S.Safe (Post pr.call pr.began) prog L D f pr.events s.world) :
    Sound S Post w₀ ({ s with used := used', owner := owner' }.setProc p
      { pr with program := prog, pending := f, drawn := D }) := by
  have hcases : ∀ q qr, ({ s with used := used', owner := owner' }.setProc p
      { pr with program := prog, pending := f, drawn := D }).procs q = some qr →
      (q = p ∧ qr = { pr with program := prog, pending := f, drawn := D }) ∨
        (q ≠ p ∧ s.procs q = some qr) := by
    intro q qr hq
    by_cases hqp : q = p
    · subst hqp
      rw [setProc_self] at hq
      exact .inl ⟨rfl, (Option.some.inj hq).symm⟩
    · rw [setProc_ne _ _ hqp] at hq
      exact .inr ⟨hqp, hq⟩
  have hnew : ∀ q qr, q ≠ p → s.procs q = some qr → ∀ x ∈ D, x ∉ qr.drawn := by
    intro q qr hqp hq x hx hxq
    rcases hdrawn x hx with hx | ⟨_, hx⟩
    · exact h.apart p q pr qr (Ne.symm hqp) hp hq x hx hxq
    · exact hx (h.drawn q qr hq x hxq)
  constructor
  case path => exact h.path
  case holds => exact h.holds
  case used => exact fun x hx => hused x (h.used x hx)
  case drawn =>
    intro q qr hq x hx
    rcases hcases q qr hq with ⟨_, rfl⟩ | ⟨_, hq⟩
    · rcases hdrawn x hx with hx | ⟨hx, _⟩
      · exact hused x (h.drawn p pr hp x hx)
      · exact hx
    · exact hused x (h.drawn q qr hq x hx)
  case apart =>
    intro q r qr rr hne hq hr x hx hxr
    rcases hcases q qr hq with ⟨rfl, rfl⟩ | ⟨hqp, hq'⟩ <;>
      rcases hcases r rr hr with ⟨rfl, rfl⟩ | ⟨hrp, hr'⟩
    · exact hne rfl
    · exact hnew r rr hrp hr' x hx hxr
    · exact hnew q qr hqp hq' x hxr hx
    · exact h.apart q r qr rr hne hq' hr' x hx hxr
  case safe =>
    intro q qr hq
    rcases hcases q qr hq with ⟨rfl, rfl⟩ | ⟨hqp, hq⟩
    · exact hs
    · obtain ⟨L, hL, hsq⟩ := h.safe q qr hq
      exact ⟨L, fun k hk => howner k q hqp (hL k hk), hsq⟩
  case events =>
    intro q qr hq
    rcases hcases q qr hq with ⟨rfl, rfl⟩ | ⟨_, hq⟩
    · exact h.events q pr hp
    · exact h.events q qr hq
  case trace =>
    intro q qr hq
    rcases hcases q qr hq with ⟨rfl, rfl⟩ | ⟨_, hq⟩
    · exact h.trace q pr hp
    · exact h.trace q qr hq
  case idle =>
    intro q hq
    by_cases hqp : q = p
    · subst hqp
      simp [setProc_self] at hq
    · rw [setProc_ne _ _ hqp] at hq
      exact h.idle q hq
  case began =>
    intro q qr hq
    rcases hcases q qr hq with ⟨rfl, rfl⟩ | ⟨_, hq⟩
    · exact h.began q pr hp
    · exact h.began q qr hq

/-- One process records an event and publishes `db'`; the others only notice
what they may rely on. -/
theorem Sound.emit (h : Sound S Post w₀ s) {p : Nat} {pr : Process Db Key Id Event Result Call}
    (hp : s.procs p = some pr) {prog : Program Db Key Id Event Result} {f : Db → Db}
    {owner' : Key → Option Nat} {e : Event} {db' : Db}
    (hm : S.moves s.clock s.db e db')
    (hcell : ∀ k q, q ≠ p → s.owner k = some q → S.cell k db' = S.cell k s.db)
    (hhas : ∀ x, S.has x db' → S.has x s.db ∨ x ∈ pr.drawn)
    (ht : (Post pr.call pr.began).trace (pr.events ++ [e]))
    (howner : ∀ k q, q ≠ p → s.owner k = some q → owner' k = some q)
    (hs : ∃ L, (∀ k ∈ L, owner' k = some p) ∧
      S.Safe (Post pr.call pr.began) prog L pr.drawn f (pr.events ++ [e]) ⟨s.clock, db'⟩) :
    Sound S Post w₀ ({ s with db := db', owner := owner', log := s.log ++ [(p, e)] }.setProc p
      { pr with program := prog, pending := f, events := pr.events ++ [e] }) := by
  have hpath : S.Path s.world [e] ⟨s.clock, db'⟩ := .single hm
  have hcases : ∀ q qr, ({ s with db := db', owner := owner', log := s.log ++ [(p, e)] }.setProc p
      { pr with program := prog, pending := f, events := pr.events ++ [e] }).procs q = some qr →
      (q = p ∧ qr = { pr with program := prog, pending := f, events := pr.events ++ [e] }) ∨
        (q ≠ p ∧ s.procs q = some qr) := by
    intro q qr hq
    by_cases hqp : q = p
    · subst hqp
      rw [setProc_self] at hq
      exact .inl ⟨rfl, (Option.some.inj hq).symm⟩
    · rw [setProc_ne _ _ hqp] at hq
      exact .inr ⟨hqp, hq⟩
  have hbegan : ∀ q w, Began S w₀ s q w →
      Began S w₀ ({ s with db := db', owner := owner', log := s.log ++ [(p, e)] }.setProc p
        { pr with program := prog, pending := f, events := pr.events ++ [e] }) q w := by
    intro q w hx
    obtain ⟨pre, post, hlog, hpre, hi, h₁, h₂⟩ := hx
    refine ⟨pre, post ++ [(p, e)], ?_, hpre, hi, h₁, ?_⟩
    · simp [setProc, hlog]
    · have hh := h₂.trans hpath
      rw [← List.map_singleton (f := Prod.snd) (a := (p, e)), ← List.map_append] at hh
      exact hh
  constructor
  case path =>
    have hh := h.path.trans hpath
    rw [← List.map_singleton (f := Prod.snd) (a := (p, e)), ← List.map_append] at hh
    exact hh
  case holds => exact S.holds_move h.holds hm
  case used =>
    intro x hx
    rcases hhas x hx with hx | hx
    · exact h.used x hx
    · exact h.drawn p pr hp x hx
  case drawn =>
    intro q qr hq
    rcases hcases q qr hq with ⟨rfl, rfl⟩ | ⟨_, hq⟩
    · exact h.drawn q pr hp
    · exact h.drawn q qr hq
  case apart =>
    intro q r qr rr hne hq hr
    rcases hcases q qr hq with ⟨rfl, rfl⟩ | ⟨_, hq'⟩ <;>
      rcases hcases r rr hr with ⟨rfl, rfl⟩ | ⟨_, hr'⟩
    · exact absurd rfl hne
    · exact h.apart q r pr rr hne hp hr'
    · exact h.apart q r qr pr hne hq' hp
    · exact h.apart q r qr rr hne hq' hr'
  case safe =>
    intro q qr hq
    rcases hcases q qr hq with ⟨rfl, rfl⟩ | ⟨hqp, hq⟩
    · exact hs
    · obtain ⟨L, hL, hsq⟩ := h.safe q qr hq
      refine ⟨L, fun k hk => howner k q hqp (hL k hk), hsq.rely ⟨⟨_, hpath⟩, ?_, ?_⟩⟩
      · exact fun k hk => hcell k q hqp (hL k hk)
      · intro x hx hx'
        rcases hhas x hx' with hx' | hx'
        · exact hx'
        · exact absurd hx (h.apart p q pr qr (Ne.symm hqp) hp hq x hx')
  case events =>
    intro q qr hq
    rcases hcases q qr hq with ⟨rfl, rfl⟩ | ⟨hqp, hq⟩
    · simp [setProc, h.events q pr hp]
    · simpa [setProc, eventsOf_ne e (Ne.symm hqp)] using h.events q qr hq
  case trace =>
    intro q qr hq
    rcases hcases q qr hq with ⟨rfl, rfl⟩ | ⟨_, hq⟩
    · exact ht
    · exact h.trace q qr hq
  case idle =>
    intro q hq
    by_cases hqp : q = p
    · subst hqp
      simp [setProc_self] at hq
    · rw [setProc_ne _ _ hqp] at hq
      simpa [setProc, eventsOf_ne e (Ne.symm hqp)] using h.idle q hq
  case began =>
    intro q qr hq
    rcases hcases q qr hq with ⟨rfl, rfl⟩ | ⟨_, hq⟩
    · exact hbegan q pr.began (h.began q pr hp)
    · exact hbegan q qr.began (h.began q qr hq)

theorem Sound.abort (h : Sound S Post w₀ s) {aborted : Call → Result}
    (ha : ∀ c v es w, (Post c v).answer (aborted c) es w) {p : Nat}
    {pr : Process Db Key Id Event Result Call} (hp : s.procs p = some pr) :
    Sound S Post w₀ (s.abort aborted p pr) := by
  have hs : S.Safe (Post pr.call pr.began) (.ret (aborted pr.call) : Program Db Key Id Event Result) []
      pr.drawn id pr.events s.world := fun _ _ _ => ha _ _ _ _
  have hm : Sound S Post w₀ ({ s with owner := release s.owner p }.setProc p
      { pr with program := .ret (aborted pr.call), pending := id }) :=
    h.move hp (.ret (aborted pr.call)) id pr.drawn s.used _ (fun _ hx => hx) (fun _ hx => .inl hx)
      (fun k q hq hk => release_of_ne hk hq) ⟨[], by simp, hs⟩
  cases hprog : pr.program with
  | ret r => simpa only [Server.abort, hprog] using h
  | _ => simpa only [Server.abort, hprog] using hm

theorem Sound.post (h : Sound S Post w₀ s) {p : Nat} {pr : Process Db Key Id Event Result Call}
    (hp : s.procs p = some pr) {r : Result} (hr : pr.Finished r) :
    (Post pr.call pr.began).answer r (eventsOf s.log p) s.world := by
  obtain ⟨L, _, hs⟩ := h.safe p pr hp
  rw [hr] at hs
  rw [← h.events p pr hp]
  exact hs s.world (.refl _ _ _) h.holds

variable [DecidableEq Key] [DecidableEq Id]

theorem Sound.exec (h : Sound S Post w₀ s) {p : Nat} {pr : Process Db Key Id Event Result Call}
    (hp : s.procs p = some pr) (ids : List Id) : Sound S Post w₀ (s.exec p ids pr) := by
  obtain ⟨L, hL, hs⟩ := h.safe p pr hp
  have hr : S.Rely L pr.drawn s.world s.world := .refl _ _ _
  have hfree : ∀ k q, q ≠ p → s.owner k = some q → release s.owner p k = some q :=
    fun k q hq hk => release_of_ne hk hq
  have hmove : ∀ (prog : Program Db Key Id Event Result) (f : Db → Db),
      S.Safe (Post pr.call pr.began) prog L pr.drawn f pr.events s.world →
      Sound S Post w₀ (s.setProc p { pr with program := prog, pending := f }) := fun prog f hs' =>
    h.move hp prog f pr.drawn s.used s.owner (fun _ hx => hx) (fun _ hx => .inl hx)
      (fun _ _ _ hk => hk) ⟨L, hL, hs'⟩
  cases hprog : pr.program with
  | ret r => simpa only [Server.exec, hprog] using h
  | now k =>
    rw [hprog] at hs
    simp only [Server.exec, hprog]
    exact hmove _ _ (hs s.world hr h.holds)
  | query k =>
    rw [hprog] at hs
    simp only [Server.exec, hprog]
    exact hmove _ _ (hs s.world hr h.holds)
  | write g k =>
    rw [hprog] at hs
    simp only [Server.exec, hprog]
    exact hmove _ _ hs
  | select accept k =>
    rw [hprog] at hs
    simp only [Server.exec, hprog]
    split
    · rename_i ha
      exact hmove _ _ (hs s.world hr h.holds ids ha)
    · exact h
  | rollback k =>
    rw [hprog] at hs
    simp only [Server.exec, hprog]
    exact h.move hp k id pr.drawn s.used _ (fun _ hx => hx) (fun _ hx => .inl hx) hfree
      ⟨[], by simp, hs⟩
  | lock key k =>
    rw [hprog] at hs
    by_cases hkey : s.owner key = none ∨ s.owner key = some p
    · simp only [Server.exec, hprog, hkey, if_true]
      refine h.move hp (k (pr.pending s.db)) pr.pending pr.drawn s.used _ (fun _ hx => hx)
        (fun _ hx => .inl hx) ?_ ⟨key :: L, ?_, hs s.world hr h.holds⟩
      · intro j q hq hj
        have hne : j ≠ key := by
          intro heq
          obtain rfl := heq
          rcases hkey with hf | hf <;> rw [hf] at hj
          · simp at hj
          · exact hq (Option.some.inj hj).symm
        rw [Function.update_of_ne hne]
        exact hj
      · intro j hj
        by_cases hjk : j = key
        · simp [hjk]
        · rw [Function.update_of_ne hjk]
          exact hL j ((List.mem_cons.mp hj).resolve_left hjk)
    · simpa only [Server.exec, hprog, hkey, if_false] using h
  | fresh k =>
    rw [hprog] at hs
    cases ids with
    | nil => simpa only [Server.exec, hprog] using h
    | cons x rest =>
      cases rest with
      | cons y rest => simpa only [Server.exec, hprog] using h
      | nil =>
        by_cases hx : x ∈ s.used
        · simpa only [Server.exec, hprog, hx, if_true] using h
        · simp only [Server.exec, hprog, hx, if_false]
          refine h.move hp (k x) pr.pending (x :: pr.drawn) (x :: s.used) s.owner
            (fun _ hy => List.mem_cons_of_mem _ hy) ?_ (fun _ _ _ hk => hk)
            ⟨L, hL, hs s.world hr h.holds x ?_ ?_⟩
          · intro y hy
            rcases List.mem_cons.mp hy with rfl | hy
            · exact .inr ⟨List.mem_cons_self, hx⟩
            · exact .inl hy
          · exact fun hd => hx (h.drawn p _ hp x hd)
          · exact fun hh => hx (h.used x hh)
  | commit e k =>
    rw [hprog] at hs
    obtain ⟨hm, hcell, hhas, ht, hk⟩ := hs s.world hr h.holds
    simp only [Server.exec, hprog]
    refine h.emit hp hm ?_ hhas ht hfree ⟨[], by simp, hk⟩
    intro j q hq hj
    apply hcell j
    intro hjL
    rw [hL j hjL] at hj
    exact hq (Option.some.inj hj).symm
  | observe accept e k =>
    rw [hprog] at hs
    simp only [Server.exec, hprog]
    split
    · rename_i ha
      obtain ⟨hm, ht, hk⟩ := hs s.world hr h.holds ids ha
      exact h.emit hp hm (fun _ _ _ _ => rfl) (fun _ hx => .inl hx) ht (fun _ _ _ hj => hj)
        ⟨L, hL, hk⟩
    · exact h

variable {code : Call → Program Db Key Id Event Result} {aborted : Call → Result}

variable (S Post code aborted) in
/-- What the contracts must be good for: that a call which starts keeps its own,
and that each allows the answer of an aborted call where statements fail. -/
def Covers : Choice Id Call → Prop
  | .call _ c => ∀ w, S.holds w.clock w.db →
      (Post c w).trace [] ∧ S.Safe (Post c w) (code c) [] [] id [] w
  | .fail _ => ∀ c v es w, (Post c v).answer (aborted c) es w
  | _ => True

/-- The step lemma: every choice of the scheduler keeps the server sound. -/
theorem Sound.step (h : Sound S Post w₀ s) {ch : Choice Id Call}
    (hch : Covers S Post code aborted ch) : Sound S Post w₀ (s.step code aborted ch) := by
  cases ch with
  | tick n => exact h.tick n
  | call p c =>
    simp only [Server.step]
    split
    · rename_i hp
      obtain ⟨ht, hs⟩ := hch s.world h.holds
      exact h.call hp ht hs
    · exact h
  | exec p ids =>
    simp only [Server.step]
    split
    · exact h
    · rename_i pr hp
      exact h.exec hp ids
  | fail p =>
    simp only [Server.step]
    split
    · exact h
    · rename_i pr hp
      exact h.abort hch hp

theorem Sound.run (h : Sound S Post w₀ s) {sched : List (Choice Id Call)}
    (hsched : ∀ ch ∈ sched, Covers S Post code aborted ch) :
    Sound S Post w₀ (s.run code aborted sched) := by
  induction sched generalizing s with
  | nil => exact h
  | cons ch sched ih =>
    exact ih (h.step (hsched ch List.mem_cons_self))
      (fun ch' hch => hsched ch' (List.mem_cons_of_mem _ hch))

end Server

end ReadCommitted
