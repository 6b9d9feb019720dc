import GuffSuff.ReadCommitted.Completion
import GuffSuff.ReadCommitted.Records

/-! Requests in front of the calls. A gate decides, from the time and from the
database of one statement, whether a call is made; a run of requests is a run of
the calls they became. -/

namespace ReadCommitted

variable {Db Key Id Event Result Call Request : Type}

/-- How a request becomes a call: at once, or after a check that may refuse it. -/
inductive Gate (Db Call Result : Type) where
  | free (c : Call)
  | guarded (check : Nat → Db → Except Result Call)

namespace Gate

def outcome (code : Call → Program Db Key Id Event Result) :
    Except Result Call → Program Db Key Id Event Result
  | .ok c => code c
  | .error r => .ret r

def program (code : Call → Program Db Key Id Event Result) :
    Gate Db Call Result → Program Db Key Id Event Result
  | .free c => code c
  | .guarded check => .now fun now => .query fun db => outcome code (check now db)

/-- The calls that the request may become. -/
def Opens : Gate Db Call Result → Call → Prop
  | .free c, c' => c' = c
  | .guarded check, c => ∃ now db, check now db = .ok c

end Gate

/-- The same process, as one of another call that began elsewhere. -/
def Process.recast (pr : Process Db Key Id Event Result Request) (c : Call) (w : World Db) :
    Process Db Key Id Event Result Call :=
  { call := c, began := w, program := pr.program, pending := pr.pending, drawn := pr.drawn,
    events := pr.events }

namespace Server

/-- Two servers that differ in their processes only. -/
structure Alike (s : Server Db Key Id Event Result Request) (t : Server Db Key Id Event Result Call) :
    Prop where
  db : t.db = s.db
  clock : t.clock = s.clock
  used : t.used = s.used
  owner : t.owner = s.owner
  log : t.log = s.log

section
variable {s s' : Server Db Key Id Event Result Request} {t : Server Db Key Id Event Result Call} {p : Nat}

theorem Alike.setProc (h : s.Alike t) (pr : Process Db Key Id Event Result Request)
    (pr' : Process Db Key Id Event Result Call) : (s.setProc p pr).Alike (t.setProc p pr') :=
  ⟨h.db, h.clock, h.used, h.owner, h.log⟩

theorem Alike.release (h : s.Alike t) (p : Nat) :
    Alike { s with owner := release s.owner p } { t with owner := release t.owner p } :=
  ⟨h.db, h.clock, h.used, by rw [h.owner], h.log⟩

/-- A process and its recast do the same to the rest of the server. -/
theorem Alike.abort (h : s.Alike t) {pr : Process Db Key Id Event Result Request} {c : Call} {w : World Db}
    {refused : Request → Result} {aborted : Call → Result} (hp : s.procs p = some pr)
    (hp' : t.procs p = some (pr.recast c w)) (hsame : refused pr.call = aborted c) :
    (s.abort refused p pr).Alike (t.abort aborted p (pr.recast c w)) ∧
      ∃ qr, (s.abort refused p pr).procs p = some qr ∧ qr.call = pr.call ∧
        (t.abort aborted p (pr.recast c w)).procs p = some (qr.recast c w) := by
  have hprogram : (pr.recast c w).program = pr.program := rfl
  cases hprog : pr.program with
  | ret r =>
    simp only [Server.abort, hprogram, hprog]
    exact ⟨h, pr, hp, rfl, hp'⟩
  | _ =>
    simp only [Server.abort, hprogram, hprog]
    refine ⟨(h.release p).setProc _ _, _, setProc_self .., rfl, ?_⟩
    rw [setProc_self, hsame]
    rfl

variable [DecidableEq Key] [DecidableEq Id]

theorem Alike.exec (h : s.Alike t) {pr : Process Db Key Id Event Result Request} {c : Call} {w : World Db}
    (hp : s.procs p = some pr) (hp' : t.procs p = some (pr.recast c w)) (ids : List Id) :
    (s.exec p ids pr).Alike (t.exec p ids (pr.recast c w)) ∧
      ∃ qr, (s.exec p ids pr).procs p = some qr ∧ qr.call = pr.call ∧
        (t.exec p ids (pr.recast c w)).procs p = some (qr.recast c w) := by
  have hprogram : (pr.recast c w).program = pr.program := rfl
  have hpending : (pr.recast c w).pending = pr.pending := rfl
  have hstay : s.Alike t ∧ ∃ qr, s.procs p = some qr ∧ qr.call = pr.call ∧ t.procs p = some (qr.recast c w) :=
    ⟨h, pr, hp, rfl, hp'⟩
  cases hprog : pr.program with
  | ret r => simpa only [Server.exec, hprogram, hprog] using hstay
  | now k =>
    simp only [Server.exec, hprogram, hprog, h.clock]
    exact ⟨h.setProc _ _, _, setProc_self .., rfl, setProc_self ..⟩
  | query k =>
    simp only [Server.exec, hprogram, hprog, hpending, h.db]
    exact ⟨h.setProc _ _, _, setProc_self .., rfl, setProc_self ..⟩
  | write f k =>
    simp only [Server.exec, hprogram, hprog, hpending]
    exact ⟨h.setProc _ _, _, setProc_self .., rfl, setProc_self ..⟩
  | rollback k =>
    simp only [Server.exec, hprogram, hprog]
    exact ⟨(h.release p).setProc _ _, _, setProc_self .., rfl, setProc_self ..⟩
  | commit e k =>
    simp only [Server.exec, hprogram, hprog, hpending, h.db, h.owner, h.log]
    exact ⟨⟨rfl, h.clock, h.used, rfl, rfl⟩, _, setProc_self .., rfl, setProc_self ..⟩
  | fresh k =>
    simp only [Server.exec, hprogram, hprog, h.used]
    split
    · split
      · exact hstay
      · exact ⟨⟨h.db, h.clock, rfl, h.owner, h.log⟩, _, setProc_self .., rfl, setProc_self ..⟩
    · exact hstay
  | select accept k =>
    simp only [Server.exec, hprogram, hprog, hpending, h.db]
    split
    · exact ⟨h.setProc _ _, _, setProc_self .., rfl, setProc_self ..⟩
    · exact hstay
  | lock key k =>
    simp only [Server.exec, hprogram, hprog, hpending, h.db, h.owner]
    split
    · exact ⟨⟨rfl, h.clock, h.used, rfl, h.log⟩, _, setProc_self .., rfl, setProc_self ..⟩
    · exact hstay
  | observe accept e k =>
    simp only [Server.exec, hprogram, hprog, hpending, h.db, h.log]
    split
    · exact ⟨⟨rfl, h.clock, h.used, h.owner, rfl⟩, _, setProc_self .., rfl, setProc_self ..⟩
    · exact hstay

end

section
variable [DecidableEq Key] [DecidableEq Id]
variable {code : Call → Program Db Key Id Event Result} {aborted : Call → Result}
variable {s : Server Db Key Id Event Result Call}

/-- Only processes that there are hold locks. -/
theorem owner_busy (db : Db) (clock : Nat) (used : List Id) (sched : List (Choice Id Call)) {key : Key}
    {p : Nat} (h : ((boot db clock used).run code aborted sched).owner key = some p) :
    ∃ pr, ((boot db clock used).run code aborted sched).procs p = some pr := by
  induction sched using List.reverseRecOn with
  | nil => exact absurd h (by simp [run, boot])
  | append_singleton sched ch ih =>
    rw [run_concat] at h ⊢
    generalize (boot db clock used).run code aborted sched = s at h ih ⊢
    have hkeeps : s.owner key = some p → ∃ pr, (s.step code aborted ch).procs p = some pr := by
      intro hold
      obtain ⟨pr, hp⟩ := ih hold
      obtain ⟨pr', hp', _⟩ := step_continues code aborted ch hp
      exact ⟨pr', hp'⟩
    cases ch with
    | tick n => exact hkeeps h
    | call q c =>
      refine hkeeps ?_
      simp only [Server.step] at h
      split at h <;> exact h
    | exec q ids =>
      simp only [Server.step] at h
      split at h
      · exact hkeeps h
      · rename_i qr hq
        by_cases hpq : p = q
        · obtain ⟨pr', hp', _⟩ := step_continues code aborted (.exec q ids) hq
          exact ⟨pr', hpq ▸ hp'⟩
        · exact hkeeps (owner_of_exec h hpq)
    | fail q =>
      simp only [Server.step, Server.abort] at h
      split at h
      · exact hkeeps h
      · split at h
        · exact hkeeps h
        · exact hkeeps (of_release h)

theorem logged_busy (db : Db) (clock : Nat) (used : List Id) (sched : List (Choice Id Call)) {p : Nat}
    {e : Event} (h : (p, e) ∈ ((boot db clock used).run code aborted sched).log) :
    ∃ pr, ((boot db clock used).run code aborted sched).procs p = some pr := by
  have hall : ∀ c, (code c).Keeps (fun _ _ => True) fun _ => True := fun c =>
    Program.keeps_all (fun _ _ => trivial) (fun _ => trivial) (code c)
  obtain ⟨pr, hp, _⟩ := log_keeps (E := fun _ _ => True) hall db clock used sched h
  exact ⟨pr, hp⟩

end

section
variable (gate : Request → Gate Db Call Result) (code : Call → Program Db Key Id Event Result)
variable (refused : Request → Result) (aborted : Call → Result)
variable [DecidableEq Key] [DecidableEq Id]

/-- The server under a schedule of requests. -/
def requests (s : Server Db Key Id Event Result Request) (sched : List (Choice Id Request)) :
    Server Db Key Id Event Result Request :=
  s.run (fun q => (gate q).program code) refused sched

/-- Process `p` is in front of its gate, where the request has read no later time than `clock`. -/
inductive Waiting (clock : Nat) (pr : Process Db Key Id Event Result Request) : Prop
  | arrived {check : Nat → Db → Except Result Call} (hgate : gate pr.call = .guarded check)
      (hprog : pr.program = (gate pr.call).program code)
  | reading {check : Nat → Db → Except Result Call} {now : Nat} (hgate : gate pr.call = .guarded check)
      (hbegan : pr.began.clock ≤ now) (hnow : now ≤ clock)
      (hprog : pr.program = .query fun db => Gate.outcome code (check now db))

/-- Process `p` was refused at its gate, or still waits there, and has done nothing else. -/
structure Outside (clock : Nat) (pr : Process Db Key Id Event Result Request) : Prop where
  pending : pr.pending = id
  drawn : pr.drawn = []
  events : pr.events = []
  began : pr.began.clock ≤ clock
  stage : Waiting gate code clock pr ∨ ∃ r, pr.program = .ret r

/-- The request of process `p` became call `c`: if it has a gate, then at a moment of the run at which
the check let it pass, with a time read since it began, before the process had any entry in the log. -/
def Passed (s : Server Db Key Id Event Result Request) (sched : List (Choice Id Request)) (p : Nat)
    (q : Request) (c : Call) : Prop :=
  match gate q with
  | .free c' => c = c'
  | .guarded check => ∃ first rest now pr, sched = first ++ rest ∧
      (requests gate code refused s first).procs p = some pr ∧ pr.call = q ∧
      pr.began.clock ≤ now ∧ now ≤ (requests gate code refused s first).clock ∧
      check now (requests gate code refused s first).db = .ok c ∧
      ∀ e, (p, e) ∉ (requests gate code refused s first).log

/-- The calls of `t` are what the requests of the schedule became. -/
structure Tracks (s : Server Db Key Id Event Result Request) (sched : List (Choice Id Request))
    (t : Server Db Key Id Event Result Call) : Prop where
  alike : (requests gate code refused s sched).Alike t
  idle : ∀ p, (requests gate code refused s sched).procs p = none → t.procs p = none
  procs : ∀ p pr, (requests gate code refused s sched).procs p = some pr →
    Outside gate code t.clock pr ∧ t.procs p = none ∨
      ∃ c w, t.procs p = some (pr.recast c w) ∧ Passed gate code refused s sched p pr.call c

variable {gate code refused aborted}
variable {s : Server Db Key Id Event Result Request} {sched : List (Choice Id Request)}
variable {t : Server Db Key Id Event Result Call} {p : Nat}

theorem Passed.more {q : Request} {c : Call} (h : Passed gate code refused s sched p q c)
    (rest : List (Choice Id Request)) : Passed gate code refused s (sched ++ rest) p q c := by
  unfold Passed at h ⊢
  split
  · rename_i c' hgate
    rw [hgate] at h
    exact h
  · rename_i check hgate
    rw [hgate] at h
    obtain ⟨first, mid, now, pr, rfl, hpassed⟩ := h
    exact ⟨first, mid ++ rest, now, pr, List.append_assoc .., hpassed⟩

theorem Passed.opens {q : Request} {c : Call} (h : Passed gate code refused s sched p q c) :
    (gate q).Opens c := by
  cases hgate : gate q with
  | free c' =>
    simp only [Passed, hgate] at h
    exact h
  | guarded check =>
    simp only [Passed, hgate] at h
    obtain ⟨first, rest, now, pr, _, _, _, _, _, hok, _⟩ := h
    exact ⟨now, _, hok⟩

omit [DecidableEq Key] [DecidableEq Id] in
theorem Outside.later {clock clock' : Nat} {pr : Process Db Key Id Event Result Request}
    (h : Outside gate code clock pr) (hclock : clock ≤ clock') : Outside gate code clock' pr := by
  obtain ⟨hpending, hdrawn, hevents, hbegan, hstage⟩ := h
  refine ⟨hpending, hdrawn, hevents, hbegan.trans hclock, ?_⟩
  rcases hstage with hwait | hret
  · cases hwait with
    | arrived hgate hprog => exact .inl (.arrived hgate hprog)
    | reading hgate hbegan hnow hprog => exact .inl (.reading hgate hbegan (hnow.trans hclock) hprog)
  · exact .inr hret

variable (gate code refused) in
theorem requests_concat (s : Server Db Key Id Event Result Request) (sched : List (Choice Id Request))
    (ch : Choice Id Request) : requests gate code refused s (sched ++ [ch]) =
      (requests gate code refused s sched).step (fun q => (gate q).program code) refused ch :=
  run_concat s sched ch

/-- A decision about process `p` alone: the others stay as they were. -/
theorem Tracks.of_others (h : Tracks gate code refused s sched t) {ch : Choice Id Request}
    {t' : Server Db Key Id Event Result Call} (p : Nat)
    (halike : (requests gate code refused s (sched ++ [ch])).Alike t')
    (hothers : ∀ q, q ≠ p → (requests gate code refused s (sched ++ [ch])).procs q =
      (requests gate code refused s sched).procs q)
    (hothers' : ∀ q, q ≠ p → t'.procs q = t.procs q) (hclock : t.clock ≤ t'.clock)
    (hidle : (requests gate code refused s (sched ++ [ch])).procs p = none → t'.procs p = none)
    (hproc : ∀ pr, (requests gate code refused s (sched ++ [ch])).procs p = some pr →
      Outside gate code t'.clock pr ∧ t'.procs p = none ∨
        ∃ c w, t'.procs p = some (pr.recast c w) ∧
          Passed gate code refused s (sched ++ [ch]) p pr.call c) :
    Tracks gate code refused s (sched ++ [ch]) t' where
  alike := halike
  idle := by
    intro q hq
    by_cases hqp : q = p
    · exact hqp ▸ hidle (hqp ▸ hq)
    · rw [hothers' q hqp]
      exact h.idle q (hothers q hqp ▸ hq)
  procs := by
    intro q pr hq
    by_cases hqp : q = p
    · subst hqp
      exact hproc pr hq
    · rw [hothers q hqp] at hq
      rw [hothers' q hqp]
      obtain ⟨hout, hnone⟩ | ⟨c, w, hcall, hpassed⟩ := h.procs q pr hq
      · exact .inl ⟨hout.later hclock, hnone⟩
      · exact .inr ⟨c, w, hcall, hpassed.more [ch]⟩

/-- A decision that changes nothing. -/
theorem Tracks.unchanged (h : Tracks gate code refused s sched t) {ch : Choice Id Request}
    (hsame : requests gate code refused s (sched ++ [ch]) = requests gate code refused s sched) :
    Tracks gate code refused s (sched ++ [ch]) t where
  alike := hsame ▸ h.alike
  idle := hsame ▸ h.idle
  procs := by
    intro p pr hp
    rw [hsame] at hp
    obtain hout | ⟨c, w, hcall, hpassed⟩ := h.procs p pr hp
    · exact .inl hout
    · exact .inr ⟨c, w, hcall, hpassed.more [ch]⟩

theorem Tracks.tick (h : Tracks gate code refused s sched t) (n : Nat) :
    Tracks gate code refused s (sched ++ [.tick n]) { t with clock := t.clock + n } := by
  have hclock : t.clock ≤ t.clock + n := by omega
  have hstep := requests_concat gate code refused s sched (.tick n)
  constructor
  case alike =>
    rw [hstep]
    have hc := h.alike.clock
    exact ⟨h.alike.db, by simp only [Server.step, hc], h.alike.used, h.alike.owner, h.alike.log⟩
  case idle =>
    intro p hp
    rw [hstep] at hp
    exact h.idle p hp
  case procs =>
    intro p pr hp
    rw [hstep] at hp
    obtain ⟨hout, hnone⟩ | ⟨c, w, hcall, hpassed⟩ := h.procs p pr hp
    · exact .inl ⟨hout.later hclock, hnone⟩
    · exact .inr ⟨c, w, hcall, hpassed.more _⟩

theorem run_call (hnone : t.procs p = none) {c : Call} :
    t.run code aborted [.call p c] = t.setProc p (.start t.world c (code c)) := by
  simp only [Server.run, List.foldl_cons, List.foldl_nil, Server.step, hnone]

/-- A decision after which process `p` is, or still is, in front of its gate. -/
theorem Tracks.stays (h : Tracks gate code refused s sched t) {ch : Choice Id Request}
    {qr : Process Db Key Id Event Result Request} (hnone : t.procs p = none)
    (hstep : requests gate code refused s (sched ++ [ch]) = (requests gate code refused s sched).setProc p qr)
    (hout : Outside gate code t.clock qr) : Tracks gate code refused s (sched ++ [ch]) t := by
  refine h.of_others p ?_ ?_ (fun _ _ => rfl) (Nat.le_refl _) (fun _ => hnone) ?_
  · rw [hstep]
    exact ⟨h.alike.db, h.alike.clock, h.alike.used, h.alike.owner, h.alike.log⟩
  · intro q hq
    rw [hstep, setProc_ne _ _ hq]
  · intro pr hpr
    rw [hstep, setProc_self] at hpr
    obtain rfl := Option.some.inj hpr
    exact .inl ⟨hout, hnone⟩

/-- A decision by which the request of process `p` becomes call `c`. -/
theorem Tracks.becomes (h : Tracks gate code refused s sched t) {ch : Choice Id Request}
    {qr : Process Db Key Id Event Result Request} {c : Call} (hnone : t.procs p = none)
    (hstep : requests gate code refused s (sched ++ [ch]) = (requests gate code refused s sched).setProc p qr)
    (hstart : qr.recast c t.world = .start t.world c (code c))
    (hpassed : Passed gate code refused s (sched ++ [ch]) p qr.call c) :
    Tracks gate code refused s (sched ++ [ch]) (t.run code aborted [.call p c]) := by
  rw [run_call hnone]
  refine h.of_others p ?_ ?_ (fun q hq => setProc_ne _ _ hq) (Nat.le_refl _) ?_ ?_
  · rw [hstep]
    exact h.alike.setProc _ _
  · intro q hq
    rw [hstep, setProc_ne _ _ hq]
  · intro hidle
    rw [hstep, setProc_self] at hidle
    exact absurd hidle (by simp)
  · intro pr hpr
    rw [hstep, setProc_self] at hpr
    obtain rfl := Option.some.inj hpr
    refine .inr ⟨c, t.world, ?_, hpassed⟩
    rw [setProc_self, hstart]

/-- A decision about a process that follows its call, which the call's server takes too. -/
theorem Tracks.follows (h : Tracks gate code refused s sched t) {ch : Choice Id Request}
    {t' : Server Db Key Id Event Result Call} {pr qr : Process Db Key Id Event Result Request} {c : Call}
    {w : World Db} (hpassed : Passed gate code refused s sched p pr.call c)
    (halike : (requests gate code refused s (sched ++ [ch])).Alike t')
    (hothers : ∀ q, q ≠ p → (requests gate code refused s (sched ++ [ch])).procs q =
      (requests gate code refused s sched).procs q)
    (hothers' : ∀ q, q ≠ p → t'.procs q = t.procs q) (hclock : t.clock ≤ t'.clock)
    (hq : (requests gate code refused s (sched ++ [ch])).procs p = some qr) (hcall : qr.call = pr.call)
    (hq' : t'.procs p = some (qr.recast c w)) : Tracks gate code refused s (sched ++ [ch]) t' := by
  refine h.of_others p halike hothers hothers' hclock (fun hnone => ?_) fun qr' hqr' => ?_
  · rw [hq] at hnone
    exact absurd hnone (by simp)
  · obtain rfl := Option.some.inj (hq.symm.trans hqr')
    exact .inr ⟨c, w, hq', hcall ▸ hpassed.more [ch]⟩

/-- What the decisions of a schedule need to know of the two servers before them. -/
structure Companion (gate : Request → Gate Db Call Result) (code : Call → Program Db Key Id Event Result)
    (refused : Request → Result) (s : Server Db Key Id Event Result Request)
    (sched : List (Choice Id Request)) (t : Server Db Key Id Event Result Call) : Prop where
  tracks : Tracks gate code refused s sched t
  owners : ∀ key p, t.owner key = some p → ∃ pr, t.procs p = some pr
  logged : ∀ p e, (p, e) ∈ t.log → ∃ pr, t.procs p = some pr

theorem Companion.call (h : Companion gate code refused s sched t) (p : Nat) (q : Request) :
    ∃ more, Tracks gate code refused s (sched ++ [.call p q]) (t.run code aborted more) := by
  have hstep := requests_concat gate code refused s sched (.call p q)
  have ht := h.tracks
  cases hp : (requests gate code refused s sched).procs p with
  | some pr =>
    refine ⟨[], ht.unchanged ?_⟩
    rw [hstep]
    simp only [Server.step, hp]
  | none =>
    have hnone := ht.idle p hp
    simp only [Server.step, hp] at hstep
    cases hgate : gate q with
    | free c =>
      refine ⟨[.call p c], ht.becomes hnone hstep ?_ ?_⟩
      · simp only [Process.start, Process.recast, hgate, Gate.program]
      · simp only [Passed, Process.start, hgate]
    | guarded check =>
      have hclock : (requests gate code refused s sched).clock ≤ t.clock := Nat.le_of_eq ht.alike.clock.symm
      exact ⟨[], ht.stays hnone hstep ⟨rfl, rfl, rfl, hclock, .inl (.arrived hgate rfl)⟩⟩

/-- The request reads the clock, reads the database, or has been refused. -/
theorem Companion.exec_outside (h : Companion gate code refused s sched t) (ids : List Id)
    {pr : Process Db Key Id Event Result Request}
    (hp : (requests gate code refused s sched).procs p = some pr)
    (hout : Outside gate code t.clock pr) (hnone : t.procs p = none) :
    ∃ more, Tracks gate code refused s (sched ++ [.exec p ids]) (t.run code aborted more) := by
  have hstep := requests_concat gate code refused s sched (.exec p ids)
  have ht := h.tracks
  have hclock : (requests gate code refused s sched).clock = t.clock := ht.alike.clock.symm
  simp only [Server.step, hp] at hstep
  obtain ⟨hpending, hdrawn, hevents, hbegan, hwait | ⟨r, hret⟩⟩ := hout
  · cases hwait with
    | arrived hgate hprog =>
      rename_i check
      rw [hgate] at hprog
      simp only [Gate.program] at hprog
      simp only [Server.exec, hprog] at hstep
      have hread : pr.began.clock ≤ (requests gate code refused s sched).clock := hclock ▸ hbegan
      refine ⟨[], ht.stays hnone hstep ⟨hpending, hdrawn, hevents, hbegan, .inl ?_⟩⟩
      exact .reading hgate hread (Nat.le_of_eq hclock) rfl
    | reading hgate hread hnow hprog =>
      rename_i check now
      simp only [Server.exec, hprog, hpending, id] at hstep
      cases hcheck : check now (requests gate code refused s sched).db with
      | error r =>
        rw [hcheck] at hstep
        exact ⟨[], ht.stays hnone hstep ⟨rfl, hdrawn, hevents, hbegan, .inr ⟨r, rfl⟩⟩⟩
      | ok c =>
        rw [hcheck] at hstep
        refine ⟨[.call p c], ht.becomes hnone hstep ?_ ?_⟩
        · simp only [Process.start, Process.recast, Gate.outcome, hdrawn, hevents]
        · simp only [Passed, hgate]
          refine ⟨sched, [.exec p ids], now, pr, rfl, hp, rfl, hread, hclock ▸ hnow, hcheck, fun e he => ?_⟩
          obtain ⟨qr, hq⟩ := h.logged p e (ht.alike.log ▸ he)
          exact absurd (hnone.symm.trans hq) (by simp)
  · refine ⟨[], ht.unchanged ?_⟩
    rw [hstep]
    simp only [Server.exec, hret]

theorem Companion.exec (h : Companion gate code refused s sched t) (p : Nat) (ids : List Id) :
    ∃ more, Tracks gate code refused s (sched ++ [.exec p ids]) (t.run code aborted more) := by
  have hstep := requests_concat gate code refused s sched (.exec p ids)
  have ht := h.tracks
  cases hp : (requests gate code refused s sched).procs p with
  | none =>
    refine ⟨[], ht.unchanged ?_⟩
    rw [hstep]
    simp only [Server.step, hp]
  | some pr =>
    obtain ⟨hout, hnone⟩ | ⟨c, w, hcall, hpassed⟩ := ht.procs p pr hp
    · exact h.exec_outside ids hp hout hnone
    simp only [Server.step, hp] at hstep
    obtain ⟨halike, qr, hq, hsame, hq'⟩ := ht.alike.exec hp hcall ids
    have hrun : t.run code aborted [.exec p ids] = t.exec p ids (pr.recast c w) := by
      simp only [Server.run, List.foldl_cons, List.foldl_nil, Server.step, hcall]
    have hclock := run_clock_le code aborted t [.exec p ids]
    refine ⟨[.exec p ids], ?_⟩
    rw [hrun] at hclock ⊢
    rw [← hstep] at halike hq
    refine ht.follows hpassed halike (fun q hq => ?_) (fun q hq => exec_ne hcall ids hq) hclock hq hsame hq'
    rw [hstep, exec_ne hp ids hq]

/-- A fault in front of the gate: no lock is held there. -/
theorem Companion.fail_outside (h : Companion gate code refused s sched t)
    {pr : Process Db Key Id Event Result Request}
    (hp : (requests gate code refused s sched).procs p = some pr)
    (hout : Outside gate code t.clock pr) (hnone : t.procs p = none) :
    Tracks gate code refused s (sched ++ [.fail p]) t := by
  have hstep := requests_concat gate code refused s sched (.fail p)
  have ht := h.tracks
  have hunowned : release (requests gate code refused s sched).owner p =
      (requests gate code refused s sched).owner := by
    funext key
    by_cases hkey : (requests gate code refused s sched).owner key = some p
    · obtain ⟨qr, hq⟩ := h.owners key p (ht.alike.owner ▸ hkey)
      exact absurd (hnone.symm.trans hq) (by simp)
    · simp only [release, hkey, if_false]
  simp only [Server.step, hp] at hstep
  cases hprog : pr.program with
  | ret r =>
    refine ht.unchanged ?_
    rw [hstep]
    simp only [Server.abort, hprog]
  | _ =>
    simp only [Server.abort, hprog, hunowned] at hstep
    exact ht.stays hnone hstep ⟨rfl, hout.drawn, hout.events, hout.began, .inr ⟨_, rfl⟩⟩

theorem Companion.fail (h : Companion gate code refused s sched t)
    (hrefused : ∀ q c, (gate q).Opens c → refused q = aborted c) (p : Nat) :
    ∃ more, Tracks gate code refused s (sched ++ [.fail p]) (t.run code aborted more) := by
  have hstep := requests_concat gate code refused s sched (.fail p)
  have ht := h.tracks
  cases hp : (requests gate code refused s sched).procs p with
  | none =>
    refine ⟨[], ht.unchanged ?_⟩
    rw [hstep]
    simp only [Server.step, hp]
  | some pr =>
    obtain ⟨hout, hnone⟩ | ⟨c, w, hcall, hpassed⟩ := ht.procs p pr hp
    · exact ⟨[], h.fail_outside hp hout hnone⟩
    simp only [Server.step, hp] at hstep
    obtain ⟨halike, qr, hq, hsame, hq'⟩ := ht.alike.abort hp hcall (hrefused _ c hpassed.opens)
    have hrun : t.run code aborted [.fail p] = t.abort aborted p (pr.recast c w) := by
      simp only [Server.run, List.foldl_cons, List.foldl_nil, Server.step, hcall]
    have hclock := run_clock_le code aborted t [.fail p]
    refine ⟨[.fail p], ?_⟩
    rw [hrun] at hclock ⊢
    rw [← hstep] at halike hq
    refine ht.follows hpassed halike (fun q hq => ?_) (fun q hq => abort_ne hcall hq) hclock hq hsame hq'
    rw [hstep, abort_ne hp hq]

variable (gate code) in
/-- Every run of requests is a run of calls, each made when its request had passed the gate. -/
theorem requests_refine (hrefused : ∀ q c, (gate q).Opens c → refused q = aborted c) (db : Db) (clock : Nat)
    (used : List Id) (sched : List (Choice Id Request)) :
    ∃ calls, Tracks gate code refused (boot db clock used) sched
      ((boot db clock used).run code aborted calls) := by
  induction sched using List.reverseRecOn with
  | nil =>
    refine ⟨[], ⟨rfl, rfl, rfl, rfl, rfl⟩, fun _ _ => rfl, fun p pr hp => ?_⟩
    exact absurd hp (by simp [requests, run, boot])
  | append_singleton sched ch ih =>
    obtain ⟨calls, htracks⟩ := ih
    have hcompanion : Companion gate code refused (boot db clock used) sched
        ((boot db clock used).run code aborted calls) :=
      ⟨htracks, fun _ _ => owner_busy db clock used calls, fun _ _ => logged_busy db clock used calls⟩
    have hmore : ∃ more, Tracks gate code refused (boot db clock used) (sched ++ [ch])
        (((boot db clock used).run code aborted calls).run code aborted more) := by
      cases ch with
      | tick n => exact ⟨[.tick n], htracks.tick n⟩
      | call p q => exact hcompanion.call p q
      | exec p ids => exact hcompanion.exec p ids
      | fail p => exact hcompanion.fail hrefused p
    obtain ⟨more, hmore⟩ := hmore
    exact ⟨calls ++ more, by rw [run_append]; exact hmore⟩

/-- What all runs of calls say of the database and of the log, all runs of requests say. -/
theorem requests_hold {P : Db → List (Nat × Event) → Prop} {db : Db} {clock : Nat} {used : List Id}
    (h : ∀ calls, P ((boot db clock used).run code aborted calls).db
      ((boot db clock used).run code aborted calls).log)
    (hrefused : ∀ q c, (gate q).Opens c → refused q = aborted c) (sched : List (Choice Id Request)) :
    P (requests gate code refused (boot db clock used) sched).db
      (requests gate code refused (boot db clock used) sched).log := by
  obtain ⟨calls, htracks⟩ := requests_refine gate code hrefused db clock used sched
  have hrun := h calls
  rwa [htracks.alike.db, htracks.alike.log] at hrun

/-- The entry of a request in the log is one of the call it became, after it had passed its gate. -/
theorem request_of_log {E : Call → Event → Prop} {db : Db} {clock : Nat} {used : List Id}
    (hlog : ∀ calls p e, (p, e) ∈ ((boot db clock used).run code aborted calls).log →
      ∃ pr, ((boot db clock used).run code aborted calls).procs p = some pr ∧ E pr.call e)
    (hrefused : ∀ q c, (gate q).Opens c → refused q = aborted c) (sched : List (Choice Id Request))
    {e : Event} (he : (p, e) ∈ (requests gate code refused (boot db clock used) sched).log) :
    ∃ pr c, (requests gate code refused (boot db clock used) sched).procs p = some pr ∧ E c e ∧
      Passed gate code refused (boot db clock used) sched p pr.call c := by
  obtain ⟨calls, htracks⟩ := requests_refine gate code hrefused db clock used sched
  obtain ⟨pr', hp', hE⟩ := hlog calls p e (htracks.alike.log.symm ▸ he)
  cases hp : (requests gate code refused (boot db clock used) sched).procs p with
  | none => exact absurd ((htracks.idle p hp).symm.trans hp') (by simp)
  | some pr =>
    obtain ⟨_, hnone⟩ | ⟨c, w, hcall, hpassed⟩ := htracks.procs p pr hp
    · exact absurd (hnone.symm.trans hp') (by simp)
    · obtain rfl := Option.some.inj (hcall.symm.trans hp')
      exact ⟨pr, c, rfl, hE, hpassed⟩

end

end Server

end ReadCommitted
