import GuffSuff.PinGuesses
import GuffSuff.ReadCommitted.Answers
import GuffSuff.ReadCommitted.Turns

/-! How long a lockout lasts: it is no row of its own, but the count of the failed
attempts of the last 30 minutes, and ends with the oldest of them. -/

namespace GuffSuff

open ReadCommitted

namespace RegistrationLock

abbrev Turns (pf : Platform) (s : Server) (turns : List (Call × Answer × List Event)) (s' : Server) : Prop :=
  ReadCommitted.Server.Turns (Call.program pf) Call.aborted s turns s'

/-- A call that has counted the failures of the user before `limit` compares no PIN. -/
def Barred (user : Uuid) (limit : Nat) (es : List Event) : Prop :=
  ∀ now failures, .failuresCounted user now failures ∈ es → now < limit → ∀ e ∈ es, e.compares = false

def Refused (user : Uuid) (limit : Nat) (r : Answer) (es : List Event) : Prop :=
  ∀ now failures, .failuresCounted user now failures ∈ es → now < limit →
    (∃ x, r = .error x) ∧ ∀ e ∈ es, e.compares = false

/-- Every later verification that counts the failures in the 30 minutes from `t` on throws without
comparing a PIN. -/
def LockoutLasts (pf : Platform) (user : Uuid) (t : Nat) (s : Server) : Prop :=
  ∀ turns s', Turns pf s turns s' → ∀ pin ip r es, (Call.verifyPin user pin ip, r, es) ∈ turns →
    Refused user (t + lockoutMs) r es

section
variable {pf : Platform} {user : Uuid} {pin : String} {ip : Option String} {limit now : Nat}
variable {w₀ w : World Db} {s s' : Server} {turns : List (Call × Answer × List Event)}

def Attempt.fails (user : Uuid) (now : Nat) (a : Attempt) : Bool :=
  a.userId = user && now < a.createdAt + lockoutMs && !a.isSuccessful

theorem Db.failures_eq (db : Db) (user : Uuid) (now : Nat) :
    db.failures user now = db.registrationLockAttempts.countP (Attempt.fails user now) := by
  rw [Db.failures, List.filter_filter, ← List.countP_eq_length_filter]
  congr 1
  funext a
  exact Bool.and_comm ..

theorem failures_later {v w : World Db} (h : (lock pf).Later v w) (user : Uuid) (now : Nat) :
    v.db.failures user now ≤ w.db.failures user now := by
  obtain ⟨es, h⟩ := h
  rw [Db.failures_eq, Db.failures_eq, attempts_of_path h, List.countP_append]
  exact Nat.le_add_right _ _

theorem ends_verifyPin (hlocked : ∀ t, w.clock ≤ t → t < limit → maxFailures ≤ w.db.failures user t) :
    (verifyPin pf user pin ip).Ends (fun es _ => Barred user limit es)
      (fun r es _ => Refused user limit r es) id [] w := by
  intro now hnow ids _
  have hcounted : Barred user limit [.failuresCounted user now (w.db.failures user now)] := by
    intro _ _ _ _
    simp [Event.compares]
  refine ⟨hcounted, ?_⟩
  dsimp only [id_eq]
  split
  · exact fun n f hn hlt => ⟨⟨_, rfl⟩, hcounted n f hn hlt⟩
  · rename_i hopen
    have hlate : limit ≤ now := Nat.le_of_not_lt fun hlt => hopen (hlocked now hnow hlt)
    -- It has counted too late to be barred, whatever it does next.
    have hfree : ∀ {r : Answer} {es : List Event}, (∀ n f, .failuresCounted user n f ∈ es → n = now) →
        Barred user limit es ∧ Refused user limit r es := by
      intro r es hes
      constructor
      all_goals exact fun n f hn hlt => absurd (hes n f hn ▸ hlt) (Nat.not_lt.mpr hlate)
    intro ids _
    refine ⟨(hfree (r := .error .database) (by simp)).1, ?_⟩
    dsimp only [id_eq]
    split
    · exact (hfree (by simp)).2
    · intro comparedAt _ ids _
      refine ⟨(hfree (r := .error .database) (by simp)).1, ?_⟩
      intro id recordedAt _
      simp only [insertAttempt, Program.Ends]
      split
      · exact (hfree (by simp)).2
      split
      · exact (hfree (by simp)).2
      split
      · exact (hfree (by simp)).2
      · exact ⟨(hfree (r := .error .database) (by simp)).1, (hfree (by simp)).2⟩

/-- The run lemma: who counts five failures refuses. -/
theorem lasts_of_failures (hs : SoundRun pf w₀ s) {t : Nat}
    (hlocked : ∀ y, s.clock ≤ y → y < t + lockoutMs → maxFailures ≤ s.db.failures user y) :
    LockoutLasts pf user t s := by
  intro turns s' h pin ip r es hmem
  induction h with
  | nil => exact absurd hmem List.not_mem_nil
  | @snoc turns s' p c r' es' sched h turn hlog ih =>
    rcases List.mem_append.mp hmem with hmem | hmem
    · exact ih hmem
    · obtain ⟨rfl, rfl, rfl⟩ : Call.verifyPin user pin ip = c ∧ r = r' ∧ es = es' := by simpa using hmem
      obtain ⟨_, hlater⟩ := h.sound covers hs
      have hlocked' : ∀ y, s'.clock ≤ y → y < t + lockoutMs → maxFailures ≤ s'.db.failures user y :=
        fun y hy hlt => Nat.le_trans (hlocked y (Nat.le_trans hlater.clock_le hy) hlt)
          (failures_later hlater user y)
      have hcode : (Call.program pf (.verifyPin user pin ip)).Ends
          (fun es _ => Barred user (t + lockoutMs) es) (fun r es _ => Refused user (t + lockoutMs) r es)
          id [] s'.world := ends_verifyPin hlocked'
      refine turn.ends (fun _ _ _ _ h _ => h) (fun _ _ _ _ _ h _ => h) (fun _ _ h => nomatch h) hcode ?_ hlog
      exact fun _ es w hbarred n f hn hlt => ⟨⟨_, rfl⟩, hbarred n f hn hlt⟩

/-- A call that breaks off after its comparison, `n` milliseconds later. -/
def comparing (q n : Nat) : List Choice := .tick n :: List.replicate 5 (.exec q []) ++ [.fail q]

variable (pf) in
theorem compares_turn {q n : Nat} (hidle : s.procs q = none)
    (hopen : ¬ maxFailures ≤ s.db.failures user (s.clock + n)) {row : Credential}
    (hrow : lookup s.db.registrationLockCredentials user = some row) (pin : String) :
    ReadCommitted.Server.Turn (Call.program pf) Call.aborted s q (.verifyPin user pin none) (comparing q n)
      (.error .database) ∧
    (s.run (Call.program pf) Call.aborted (.call q (.verifyPin user pin none) :: comparing q n)).log =
      s.log ++ [.failuresCounted user (s.clock + n) (s.db.failures user (s.clock + n)),
        .hashRead user (some row.pinArgon2Hash),
        .pinCompared user pin row.pinArgon2Hash (s.clock + n)].map (Prod.mk q) := by
  refine ⟨⟨hidle, by simp [comparing, ReadCommitted.Choice.OnlyMoves], ?_⟩, ?_⟩
  all_goals simp [comparing, ReadCommitted.Server.run, ReadCommitted.Server.step, hidle,
    ReadCommitted.Server.setProc, ReadCommitted.Process.start, Call.program, verifyPin, verify,
    ReadCommitted.Server.exec, hopen, hrow, ReadCommitted.Server.abort, ReadCommitted.Server.Returned,
    ReadCommitted.Program.result, Call.aborted, List.replicate]

theorem failures_of_lasts {t : Nat} (hidle : ∃ q, s.procs q = none) {row : Credential}
    (hrow : lookup s.db.registrationLockCredentials user = some row) (h : LockoutLasts pf user t s) :
    ∀ y, s.clock ≤ y → y < t + lockoutMs → maxFailures ≤ s.db.failures user y := by
  intro y hy hlt
  by_contra hopen
  obtain ⟨n, rfl⟩ := Nat.exists_eq_add_of_le hy
  obtain ⟨q, hq⟩ := hidle
  obtain ⟨turn, hlog⟩ := compares_turn pf hq hopen hrow ""
  obtain ⟨_, hnone⟩ := h _ _ (.snoc .nil turn hlog) "" none _ _ (List.mem_singleton_self _) (s.clock + n) _
    List.mem_cons_self hlt
  simp [Event.compares] at hnone

theorem credentials_of_path {v w : World Db} {es : List Event} (h : (lock pf).Path v es w)
    (hes : ∀ e ∈ es, e.compares = true ∨ ∃ a, e = .attemptRecorded a) :
    w.db.registrationLockCredentials = v.db.registrationLockCredentials := by
  induction h with
  | refl => rfl
  | tick _ _ ih => exact ih hes
  | @move es c db db' e _ hm ih =>
    obtain ⟨_, rfl⟩ := hm
    have hsame := ih fun e he => hes e (List.mem_append_left _ he)
    rcases hes e (List.mem_append_right _ List.mem_cons_self) with hcmp | ⟨a, rfl⟩
    · cases e with
      | pinCompared => exact hsame
      | _ => exact absurd hcmp Bool.false_ne_true
    · exact hsame

theorem credential_of_recorded {r : Answer} {es : List Event} {a : Attempt} (hs : SoundRun pf w₀ s)
    (hw₀ : w₀.db.Holds) (h : Turns pf s (turns ++ [(.verifyPin user pin ip, r, es)]) s')
    (ha : .attemptRecorded a ∈ es) : ∃ row, lookup s'.db.registrationLockCredentials user = some row := by
  obtain ⟨hs', _⟩ := h.sound covers hs
  obtain ⟨s₁, p, sched, hbefore, turn, rfl, hlog⟩ := h.last
  obtain ⟨hs₁, _⟩ := hbefore.sound covers hs
  have hown : ReadCommitted.Server.eventsOf (es.map (Prod.mk p)) p = es := by
    rw [ReadCommitted.Server.eventsOf_eq_map (by simp), List.map_map]
    exact List.map_id es
  have hmem : (p, .attemptRecorded a) ∈ (s₁.run (Call.program pf) Call.aborted
      (.call p (.verifyPin user pin ip) :: sched)).log := by
    rw [hlog]
    exact List.mem_append_right _ (List.mem_map_of_mem ha)
  obtain ⟨pr, hp, htrace⟩ := hs'.trace_of_log hmem
  obtain ⟨pr', hp', hcall, _⟩ := ReadCommitted.Server.returned_iff.mp turn.returned
  obtain rfl := Option.some.inj (hp.symm.trans hp')
  rw [hlog, ReadCommitted.Server.eventsOf_append, hs₁.idle p turn.idle, List.nil_append, hown, hcall] at htrace
  rcases htrace with hearly | ⟨now, failures, comparedAt, hash, b, rest, _, hrest, rfl⟩
  · cases hearly <;> simp at ha
  obtain rfl : rest = [] := hrest
  simp only [verifiedEvents, List.append_nil, List.map_cons, List.map_nil] at hlog
  have hsplit : s₁.log ++ [(p, .failuresCounted user now failures), (p, .hashRead user (some hash)),
      (p, .pinCompared user pin hash comparedAt), (p, .attemptRecorded b)] =
      (s₁.log ++ [(p, .failuresCounted user now failures)]) ++ (p, .hashRead user (some hash)) ::
        [(p, .pinCompared user pin hash comparedAt), (p, .attemptRecorded b)] := by simp
  rw [hsplit] at hlog
  obtain ⟨c, db, db', _, _, ⟨hread, hdb⟩, hrest⟩ := hs'.cut hw₀ hlog
  have hsame := credentials_of_path hrest (by simp [Event.compares])
  have hread : some hash = (lookup db.registrationLockCredentials user).map Credential.pinArgon2Hash := hread
  obtain ⟨row, hrow, _⟩ := Option.map_eq_some_iff.mp hread.symm
  refine ⟨row, (congrArg (lookup · user) hsame).trans ?_⟩
  rw [show db' = db from hdb]
  exact hrow

/-- Five failures still count when those of the last 30 minutes are none of them older than `t`. -/
theorem failures_iff {db : Db} {t clock : Nat} (hfive : db.failures user t = maxFailures) :
    (∀ y, clock ≤ y → y < t + lockoutMs → maxFailures ≤ db.failures user y) ↔
      t + lockoutMs ≤ clock ∨ ∀ b ∈ db.registrationLockAttempts, b.userId = user →
        b.isSuccessful = false → t < b.createdAt + lockoutMs → t ≤ b.createdAt := by
  have hms : 0 < lockoutMs := by decide
  rw [← hfive, Db.failures_eq]
  constructor
  · intro h
    rcases Nat.lt_or_ge clock (t + lockoutMs) with hlt | hge
    · right
      intro b hb huser hfailed hrecent
      -- At the last moment, the attempts that fail are all those that failed at `t`.
      have hcount := h (t + lockoutMs - 1) (by omega) (by omega)
      have hsub : ∀ a, Attempt.fails user (t + lockoutMs - 1) a = true → Attempt.fails user t a = true := by
        intro a hfails
        simp only [Attempt.fails, Bool.and_eq_true, decide_eq_true_eq] at hfails ⊢
        obtain ⟨⟨hu, hlate⟩, hf⟩ := hfails
        exact ⟨⟨hu, by omega⟩, hf⟩
      rw [Db.failures_eq, List.countP_eq_length_filter, List.countP_eq_length_filter] at hcount
      have hsame := (List.monotone_filter_right db.registrationLockAttempts hsub).eq_of_length_le hcount
      have hmem : b ∈ db.registrationLockAttempts.filter (Attempt.fails user t) :=
        List.mem_filter.mpr ⟨hb, by simp [Attempt.fails, huser, hfailed, hrecent]⟩
      rw [← hsame] at hmem
      have hlate : t + lockoutMs - 1 < b.createdAt + lockoutMs := by
        have hfails := (List.mem_filter.mp hmem).2
        simp only [Attempt.fails, Bool.and_eq_true, decide_eq_true_eq] at hfails
        exact hfails.1.2
      omega
    · exact .inl hge
  · intro h y hy hlt
    rcases h with hge | hall
    · omega
    · rw [Db.failures_eq]
      refine List.countP_mono_left fun b hb hfails => ?_
      simp only [Attempt.fails, Bool.and_eq_true, Bool.not_eq_true', decide_eq_true_eq] at hfails ⊢
      obtain ⟨⟨huser, hrecent⟩, hfailed⟩ := hfails
      have hnew := hall b hb huser hfailed hrecent
      exact ⟨⟨huser, by omega⟩, hfailed⟩

/-- A lockout lasts 30 minutes exactly when the five failures have come at once. -/
theorem lockout_lasts_iff {db : Db} {clock : Nat} {used : List Uuid} (hdb : db.Holds)
    (hused : ∀ x ∈ db.ids, x ∈ used) {r : Answer} {es : List Event} {a : Attempt}
    (h : Turns pf (.boot db clock used) (turns ++ [(.verifyPin user pin ip, r, es)]) s)
    (ha : .attemptRecorded a ∈ es) (hfive : s.db.failures user a.createdAt = 5) :
    LockoutLasts pf user a.createdAt s ↔ a.createdAt + 1800000 ≤ s.clock ∨
      ∀ b ∈ s.db.registrationLockAttempts, b.userId = user → b.isSuccessful = false →
        a.createdAt < b.createdAt + 1800000 → a.createdAt ≤ b.createdAt := by
  have hboot : SoundRun pf ⟨clock, db⟩ (.boot db clock used) := soundRun_boot hdb hused []
  obtain ⟨hs, _⟩ := h.sound covers hboot
  have hidle : ∃ q, s.procs q = none := by
    obtain ⟨sched, rfl⟩ := h.exists_run
    exact ReadCommitted.Server.exists_idle db clock used sched
  obtain ⟨row, hrow⟩ := credential_of_recorded hboot hdb h ha
  refine Iff.trans ?_ (failures_iff hfive)
  exact ⟨failures_of_lasts hidle hrow, lasts_of_failures hs⟩

end

/-- Process `p` records a wrong guess, `wait` milliseconds after its call. -/
def sampleFailure (wait p : Nat) : List Choice :=
  .tick wait :: (List.replicate 5 (.exec p []) ++ .exec p [p + 10] :: List.replicate 4 (.exec p []))

/-- The fifth of the guesses waits, the others come at once. -/
def sampleLocked (wait : Nat) : Nat → Server
  | 0 => sampleStart
  | n + 1 => serve samplePlatform (sampleLocked wait n)
      (.call n (.verifyPin 1 "1234567" none) :: sampleFailure (if n = 4 then wait else 0) n)

def sampleEvents (wait n : Nat) : List Event :=
  verifiedEvents 1 "1234567" wait n wait 13 ⟨n + 10, 1, false, none, wait⟩

theorem sampleLocked_turns {wait : Nat} (hwait : wait ∈ [0, 1740000]) : ∃ turns,
    Turns samplePlatform sampleStart
      (turns ++ [(.verifyPin 1 "1234567" none, .ok (.matches false), sampleEvents wait 4)])
      (sampleLocked wait 5) := by
  have hsteps : ∀ wait ∈ [0, 1740000], ∀ n < 5, ((sampleLocked wait n).procs n).isNone = true ∧
      (sampleLocked wait (n + 1)).Returned n (.verifyPin 1 "1234567" none) (.ok (.matches false)) ∧
      (sampleLocked wait (n + 1)).log = (sampleLocked wait n).log ++
        (sampleEvents (if n = 4 then wait else 0) n).map (Prod.mk n) := by decide +kernel
  have hnext : ∀ n < 5, ∀ turns, Turns samplePlatform sampleStart turns (sampleLocked wait n) →
      Turns samplePlatform sampleStart (turns ++ [(.verifyPin 1 "1234567" none, .ok (.matches false),
        sampleEvents (if n = 4 then wait else 0) n)]) (sampleLocked wait (n + 1)) := by
    intro n hn turns hturns
    obtain ⟨hidle, hret, hlog⟩ := hsteps wait hwait n hn
    refine hturns.snoc ⟨Option.isNone_iff_eq_none.mp hidle, ?_, hret⟩ hlog
    simp [sampleFailure, ReadCommitted.Choice.OnlyMoves]
  have hall : ∀ n < 5, ∃ turns, Turns samplePlatform sampleStart turns (sampleLocked wait n) := by
    intro n
    induction n with
    | zero => exact fun _ => ⟨[], .nil⟩
    | succ n ih =>
      intro hn
      obtain ⟨turns, hturns⟩ := ih (by omega)
      exact ⟨_, hnext n (by omega) turns hturns⟩
  obtain ⟨turns, hturns⟩ := hall 4 (by decide)
  exact ⟨turns, hnext 4 (by decide) turns hturns⟩

theorem sampleLocked_lasts : LockoutLasts samplePlatform 1 0 (sampleLocked 0 5) := by
  obtain ⟨turns, hturns⟩ := sampleLocked_turns (show 0 ∈ [0, 1740000] by decide)
  refine (lockout_lasts_iff sampleDb_holds (by decide) hturns (a := ⟨14, 1, false, none, 0⟩)
    (by decide) (by decide +kernel)).mpr (.inr ?_)
  decide +kernel

/-- Four failures, the fifth 29 minutes later, and a comparison of the right PIN two minutes after it. -/
theorem sampleLocked_ends :
    (∃ turns, Turns samplePlatform sampleStart
      (turns ++ [(.verifyPin 1 "1234567" none, .ok (.matches false), sampleEvents 1740000 4)])
      (sampleLocked 1740000 5)) ∧
    (sampleLocked 1740000 5).db.failures 1 1740000 = 5 ∧
    ¬ LockoutLasts samplePlatform 1 1740000 (sampleLocked 1740000 5) := by
  refine ⟨sampleLocked_turns (by decide), by decide +kernel, fun h => ?_⟩
  let sched : List Choice := .tick 120000 :: (List.replicate 5 (.exec 5 []) ++
    .exec 5 [15] :: List.replicate 4 (.exec 5 []))
  have hidle : ((sampleLocked 1740000 5).procs 5).isNone = true := by decide +kernel
  have hret : (serve samplePlatform (sampleLocked 1740000 5) (.call 5 (.verifyPin 1 "123456" none) ::
      sched)).Returned 5 (.verifyPin 1 "123456" none) (.ok (.matches true)) := by decide +kernel
  have hlog : (serve samplePlatform (sampleLocked 1740000 5) (.call 5 (.verifyPin 1 "123456" none) ::
      sched)).log = (sampleLocked 1740000 5).log ++ (verifiedEvents 1 "123456" 1860000 1 1860000 13
        ⟨15, 1, true, none, 1860000⟩).map (Prod.mk 5) := by decide +kernel
  have hturn : ReadCommitted.Server.Turn (Call.program samplePlatform) Call.aborted (sampleLocked 1740000 5)
      5 (.verifyPin 1 "123456" none) sched (.ok (.matches true)) :=
    ⟨Option.isNone_iff_eq_none.mp hidle, by simp [sched, ReadCommitted.Choice.OnlyMoves], hret⟩
  obtain ⟨⟨x, hx⟩, _⟩ := h _ _ (.snoc .nil hturn hlog) "123456" none _ _ (List.mem_singleton_self _)
    1860000 1 List.mem_cons_self (by decide)
  exact nomatch hx

end RegistrationLock

end GuffSuff
