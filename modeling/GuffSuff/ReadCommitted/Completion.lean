import GuffSuff.ReadCommitted.Runs
import Mathlib.Data.Set.Finite.Basic

/-! Runs that cannot get stuck: calls that compete for one lock only, and take
every other lock under an identifier they have drawn themselves. -/

namespace ReadCommitted

variable {Db Key Id Event Result Call Cell : Type}

section
variable (shared : Key) (ident : Key → Option Id)

def MayLock (D : List Id) (key : Key) : Prop := key = shared ∨ ∃ i ∈ D, ident key = some i

/-- The program can always be served, locks `shared` and rows under its own
identifiers only, and drops its locks before it answers. `held` is false while it holds none. -/
def Program.Orderly : List Id → Bool → Program Db Key Id Event Result → Prop
  | _, held, .ret _ => held = false
  | D, held, .now k => ∀ n, Orderly D held (k n)
  | D, held, .fresh k => ∀ x, Orderly (x :: D) held (k x)
  | D, held, .query k => ∀ db, Orderly D held (k db)
  | D, held, .select accept k =>
    (∀ db, ∃ ids, accept db ids = true) ∧ ∀ ids, Orderly D held (k ids)
  | D, _, .lock key k => MayLock shared ident D key ∧ ∀ db, Orderly D true (k db)
  | D, held, .write _ k => Orderly D held k
  | D, _, .commit _ k => Orderly D false k
  | D, held, .observe accept _ k =>
    (∀ db, ∃ ids, accept db ids = true) ∧ ∀ db ids, Orderly D held (k db ids)
  | D, _, .rollback k => Orderly D false k

namespace Server

structure Orderly (s : Server Db Key Id Event Result Call) : Prop where
  programs : ∀ p pr, s.procs p = some pr → ∃ held, pr.program.Orderly shared ident pr.drawn held ∧
    (held = false → ∀ key, s.owner key ≠ some p)
  owners : ∀ key p, s.owner key = some p →
    ∃ pr, s.procs p = some pr ∧ MayLock shared ident pr.drawn key

end Server

end

namespace Server

variable {shared : Key} {ident : Key → Option Id}
variable {s : Server Db Key Id Event Result Call}

theorem orderly_boot (db : Db) (clock : Nat) (used : List Id) :
    (boot db clock used : Server Db Key Id Event Result Call).Orderly shared ident where
  programs := by simp [boot]
  owners := by simp [boot]

theorem Orderly.move (h : s.Orderly shared ident) {p : Nat}
    {pr' : Process Db Key Id Event Result Call} {s' : Server Db Key Id Event Result Call}
    (hprocs : s'.procs = Function.update s.procs p (some pr'))
    (hothers : ∀ key q, q ≠ p → s'.owner key = some q → s.owner key = some q)
    (hown : ∀ key, s'.owner key = some p → MayLock shared ident pr'.drawn key) {held : Bool}
    (hprog : pr'.program.Orderly shared ident pr'.drawn held)
    (hheld : held = false → ∀ key, s'.owner key ≠ some p) : s'.Orderly shared ident where
  programs := by
    intro q qr hq
    rw [hprocs] at hq
    by_cases hqp : q = p
    · subst hqp
      rw [Function.update_self] at hq
      obtain rfl := Option.some.inj hq
      exact ⟨held, hprog, hheld⟩
    · rw [Function.update_of_ne hqp] at hq
      obtain ⟨held', hprog', hheld'⟩ := h.programs q qr hq
      exact ⟨held', hprog', fun hf key hkey => hheld' hf key (hothers key q hqp hkey)⟩
  owners := by
    intro key q hkey
    rw [hprocs]
    by_cases hqp : q = p
    · subst hqp
      exact ⟨pr', Function.update_self .., hown key hkey⟩
    · rw [Function.update_of_ne hqp]
      exact h.owners key q (hothers key q hqp hkey)

theorem release_ne_self (owner : Key → Option Nat) (p : Nat) (key : Key) : release owner p key ≠ some p := by
  by_cases h : owner key = some p <;> simp [release, h]

theorem of_release {owner : Key → Option Nat} {p q : Nat} {key : Key}
    (h : release owner p key = some q) : owner key = some q := by
  by_cases hp : owner key = some p
  · simp [release, hp] at h
  · simpa [release, hp] using h

theorem Orderly.abort (h : s.Orderly shared ident) {aborted : Call → Result} {p : Nat}
    {pr : Process Db Key Id Event Result Call} : (s.abort aborted p pr).Orderly shared ident := by
  cases hprog : pr.program with
  | ret r => simpa only [Server.abort, hprog] using h
  | _ =>
    simp only [Server.abort, hprog]
    have hdone : Program.Orderly shared ident pr.drawn false
        (.ret (aborted pr.call) : Program Db Key Id Event Result) := rfl
    exact h.move rfl (fun key q _ hk => of_release hk)
      (fun key hk => absurd hk (release_ne_self _ _ _)) hdone (fun _ key => release_ne_self _ _ _)

variable {S : Spec Db Key Id Event Cell}
variable {Post : Call → World Db → Spec.Contract Db Event Result} {w₀ : World Db}

structure Unhindered (S : Spec Db Key Id Event Cell)
    (Post : Call → World Db → Spec.Contract Db Event Result) (w₀ : World Db) (ident : Key → Option Id)
    (s : Server Db Key Id Event Result Call) (shared : Key) (p : Nat)
    (prog : Program Db Key Id Event Result) : Prop where
  sound : Sound S Post w₀ s
  orderly : s.Orderly shared ident
  proc : ∃ pr, s.procs p = some pr ∧ pr.program = prog
  shared : ∀ q, s.owner shared = some q → q = p

theorem Unhindered.lock_free {p : Nat} {prog : Program Db Key Id Event Result}
    (h : Unhindered S Post w₀ ident s shared p prog)
    {pr : Process Db Key Id Event Result Call} (hp : s.procs p = some pr) {key : Key}
    (hmay : MayLock shared ident pr.drawn key) : s.owner key = none ∨ s.owner key = some p := by
  cases hown : s.owner key with
  | none => exact .inl rfl
  | some q =>
    by_cases hqp : q = p
    · exact .inr (congrArg some hqp)
    · obtain ⟨qr, hq, hmay'⟩ := h.orderly.owners key q hown
      rcases hmay' with rfl | ⟨i, hi, hki⟩
      · exact absurd (h.shared q hown) hqp
      · rcases hmay with rfl | ⟨j, hj, hkj⟩
        · exact absurd (h.shared q hown) hqp
        · obtain rfl : i = j := Option.some.inj (hki.symm.trans hkj)
          exact absurd hj (h.sound.apart q p qr pr hqp hq hp i hi)

variable [DecidableEq Key] [DecidableEq Id]

theorem Orderly.exec (h : s.Orderly shared ident) {p : Nat}
    {pr : Process Db Key Id Event Result Call} (hp : s.procs p = some pr) (ids : List Id) :
    (s.exec p ids pr).Orderly shared ident := by
  obtain ⟨held, ho, hheld⟩ := h.programs p pr hp
  have hown : ∀ key, s.owner key = some p → MayLock shared ident pr.drawn key := by
    intro key hkey
    obtain ⟨pr', hp', hmay⟩ := h.owners key p hkey
    obtain rfl := Option.some.inj (hp'.symm.trans hp)
    exact hmay
  have hsame : ∀ key q, q ≠ p → s.owner key = some q → s.owner key = some q := fun _ _ _ hk => hk
  have hfree : ∀ key q, q ≠ p → release s.owner p key = some q → s.owner key = some q :=
    fun _ _ _ hk => of_release hk
  have hnone : ∀ {D : List Id} key, release s.owner p key = some p → MayLock shared ident D key :=
    fun key hk => absurd hk (release_ne_self _ _ _)
  cases hprog : pr.program with
  | ret r => simpa only [Server.exec, hprog] using h
  | now k =>
    rw [hprog] at ho
    simp only [Server.exec, hprog]
    exact h.move rfl hsame hown (ho s.clock) hheld
  | query k =>
    rw [hprog] at ho
    simp only [Server.exec, hprog]
    exact h.move rfl hsame hown (ho _) hheld
  | write f k =>
    rw [hprog] at ho
    simp only [Server.exec, hprog]
    exact h.move rfl hsame hown ho hheld
  | select accept k =>
    rw [hprog] at ho
    simp only [Server.exec, hprog]
    split
    · exact h.move rfl hsame hown (ho.2 ids) hheld
    · exact h
  | observe accept e k =>
    rw [hprog] at ho
    simp only [Server.exec, hprog]
    split
    · exact h.move rfl hsame hown (ho.2 _ ids) hheld
    · exact h
  | commit e k =>
    rw [hprog] at ho
    simp only [Server.exec, hprog]
    exact h.move rfl hfree hnone ho (fun _ key => release_ne_self _ _ _)
  | rollback k =>
    rw [hprog] at ho
    simp only [Server.exec, hprog]
    exact h.move rfl hfree hnone ho (fun _ key => release_ne_self _ _ _)
  | fresh k =>
    rw [hprog] at ho
    simp only [Server.exec, hprog]
    split
    · split
      · exact h
      · refine h.move rfl hsame ?_ (ho _) hheld
        intro key hkey
        rcases hown key hkey with hk | ⟨i, hi, hk⟩
        · exact .inl hk
        · exact .inr ⟨i, List.mem_cons_of_mem _ hi, hk⟩
    · exact h
  | lock key k =>
    rw [hprog] at ho
    simp only [Server.exec, hprog]
    split
    · refine h.move rfl ?_ ?_ (ho.2 _) (fun hf => absurd hf (by simp))
      · intro j q hqp hj
        have hj' : Function.update s.owner key (some p) j = some q := hj
        by_cases hjk : j = key
        · rw [hjk, Function.update_self] at hj'
          exact absurd (Option.some.inj hj').symm hqp
        · rwa [Function.update_of_ne hjk] at hj'
      · intro j hj
        have hj' : Function.update s.owner key (some p) j = some p := hj
        by_cases hjk : j = key
        · exact hjk ▸ ho.1
        · rw [Function.update_of_ne hjk] at hj'
          exact hown j hj'
    · exact h

variable {code : Call → Program Db Key Id Event Result} {aborted : Call → Result}

theorem Orderly.step (h : s.Orderly shared ident) {ch : Choice Id Call}
    (hcode : ∀ p c, ch = .call p c → (code c).Orderly shared ident [] false) :
    (s.step code aborted ch).Orderly shared ident := by
  cases ch with
  | tick n => exact ⟨h.programs, h.owners⟩
  | call p c =>
    simp only [Server.step]
    split
    · rename_i hp
      have hnone : ∀ key, s.owner key ≠ some p := by
        intro key hkey
        obtain ⟨pr, hp', _⟩ := h.owners key p hkey
        rw [hp] at hp'
        exact absurd hp' (by simp)
      exact h.move rfl (fun _ _ _ hk => hk) (fun key hk => absurd hk (hnone key)) (hcode p c rfl)
        (fun _ => hnone)
    · exact h
  | exec p ids =>
    simp only [Server.step]
    split
    · exact h
    · rename_i pr hp
      exact h.exec hp ids
  | fail p =>
    simp only [Server.step]
    split
    · exact h
    · exact h.abort

theorem Orderly.run (h : s.Orderly shared ident) {sched : List (Choice Id Call)}
    (hcode : ∀ p c, .call p c ∈ sched → (code c).Orderly shared ident [] false) :
    (s.run code aborted sched).Orderly shared ident := by
  induction sched generalizing s with
  | nil => exact h
  | cons ch sched ih =>
    have hs : (s.step code aborted ch).Orderly shared ident := h.step fun p c hch =>
      hcode p c (hch ▸ List.mem_cons_self)
    exact ih hs fun p c hch => hcode p c (List.mem_cons_of_mem _ hch)

theorem owner_of_exec {p : Nat} {pr : Process Db Key Id Event Result Call} {ids : List Id} {key : Key}
    {q : Nat} (hq : (s.exec p ids pr).owner key = some q) (hqp : q ≠ p) : s.owner key = some q := by
  cases hprog : pr.program with
  | ret r => simpa only [Server.exec, hprog] using hq
  | commit e k =>
    simp only [Server.exec, hprog] at hq
    exact of_release hq
  | rollback k =>
    simp only [Server.exec, hprog] at hq
    exact of_release hq
  | lock j k =>
    simp only [Server.exec, hprog] at hq
    split at hq
    · have hq' : Function.update s.owner j (some p) key = some q := hq
      by_cases hk : key = j
      · rw [hk, Function.update_self] at hq'
        exact absurd (Option.some.inj hq').symm hqp
      · rwa [Function.update_of_ne hk] at hq'
    · exact hq
  | fresh k =>
    simp only [Server.exec, hprog] at hq
    split at hq
    · split at hq <;> exact hq
    · exact hq
  | select accept k =>
    simp only [Server.exec, hprog] at hq
    split at hq <;> exact hq
  | observe accept e k =>
    simp only [Server.exec, hprog] at hq
    split at hq <;> exact hq
  | _ =>
    simp only [Server.exec, hprog] at hq
    exact hq

variable (code aborted) in
def CanFinish (s : Server Db Key Id Event Result Call) (shared : Key) (p : Nat) : Prop :=
  ∃ sched, (∀ ch ∈ sched, ∃ ids, ch = .exec p ids) ∧ (s.run code aborted sched).owner shared = none ∧
    ∃ pr r, (s.run code aborted sched).procs p = some pr ∧ pr.Finished r

theorem CanFinish.of_exec {p : Nat} {ids : List Id}
    (h : CanFinish code aborted (s.step code aborted (.exec p ids)) shared p) :
    CanFinish code aborted s shared p := by
  obtain ⟨sched, halone, hrest⟩ := h
  refine ⟨.exec p ids :: sched, ?_, hrest⟩
  intro ch hch
  rcases List.mem_cons.mp hch with rfl | hch
  · exact ⟨ids, rfl⟩
  · exact halone ch hch

namespace Unhindered
variable {p : Nat} {prog : Program Db Key Id Event Result}

theorem exec (h : Unhindered S Post w₀ ident s shared p prog)
    {pr : Process Db Key Id Event Result Call} (hp : s.procs p = some pr) {ids : List Id}
    {prog' : Program Db Key Id Event Result}
    (hnext : ∃ pr', (s.exec p ids pr).procs p = some pr' ∧ pr'.program = prog') :
    Unhindered S Post w₀ ident (s.step code aborted (.exec p ids)) shared p prog' := by
  have hstep : s.step code aborted (.exec p ids) = s.exec p ids pr := by simp only [Server.step, hp]
  rw [hstep]
  refine ⟨h.sound.exec hp ids, h.orderly.exec hp ids, hnext, fun q hq => ?_⟩
  by_contra hqp
  exact hqp (h.shared q (owner_of_exec hq hqp))

variable (code aborted) in
theorem canFinish [Infinite Id] (h : Unhindered S Post w₀ ident s shared p prog) :
    CanFinish code aborted s shared p := by
  induction prog generalizing s with
  | ret r =>
    obtain ⟨pr, hp, hprog⟩ := h.proc
    refine ⟨[], by simp, ?_, pr, r, hp, hprog⟩
    obtain ⟨held, hprog', hheld⟩ := h.orderly.programs p pr hp
    rw [hprog] at hprog'
    cases hown : s.owner shared with
    | none => exact hown
    | some q => exact absurd (h.shared q hown ▸ hown) (hheld hprog' shared)
  | now k ih =>
    obtain ⟨pr, hp, hprog⟩ := h.proc
    have hnext : ∃ pr', (s.exec p [] pr).procs p = some pr' ∧ pr'.program = k s.clock := by
      simp only [Server.exec, hprog]
      exact ⟨_, setProc_self .., rfl⟩
    exact .of_exec (ih _ (h.exec hp hnext))
  | query k ih =>
    obtain ⟨pr, hp, hprog⟩ := h.proc
    have hnext : ∃ pr', (s.exec p [] pr).procs p = some pr' ∧ pr'.program = k (pr.pending s.db) := by
      simp only [Server.exec, hprog]
      exact ⟨_, setProc_self .., rfl⟩
    exact .of_exec (ih _ (h.exec hp hnext))
  | write f k ih =>
    obtain ⟨pr, hp, hprog⟩ := h.proc
    have hnext : ∃ pr', (s.exec p [] pr).procs p = some pr' ∧ pr'.program = k := by
      simp only [Server.exec, hprog]
      exact ⟨_, setProc_self .., rfl⟩
    exact .of_exec (ih (h.exec hp hnext))
  | commit e k ih =>
    obtain ⟨pr, hp, hprog⟩ := h.proc
    have hnext : ∃ pr', (s.exec p [] pr).procs p = some pr' ∧ pr'.program = k := by
      simp only [Server.exec, hprog]
      exact ⟨_, setProc_self .., rfl⟩
    exact .of_exec (ih (h.exec hp hnext))
  | rollback k ih =>
    obtain ⟨pr, hp, hprog⟩ := h.proc
    have hnext : ∃ pr', (s.exec p [] pr).procs p = some pr' ∧ pr'.program = k := by
      simp only [Server.exec, hprog]
      exact ⟨_, setProc_self .., rfl⟩
    exact .of_exec (ih (h.exec hp hnext))
  | fresh k ih =>
    obtain ⟨pr, hp, hprog⟩ := h.proc
    obtain ⟨x, hx⟩ := Infinite.exists_notMem_finset s.used.toFinset
    rw [List.mem_toFinset] at hx
    have hnext : ∃ pr', (s.exec p [x] pr).procs p = some pr' ∧ pr'.program = k x := by
      simp only [Server.exec, hprog, hx, if_false]
      exact ⟨_, setProc_self .., rfl⟩
    exact .of_exec (ih _ (h.exec hp hnext))
  | select accept k ih =>
    obtain ⟨pr, hp, hprog⟩ := h.proc
    obtain ⟨_, hprog', _⟩ := h.orderly.programs p pr hp
    rw [hprog] at hprog'
    obtain ⟨ids, hids⟩ := hprog'.1 (pr.pending s.db)
    have hnext : ∃ pr', (s.exec p ids pr).procs p = some pr' ∧ pr'.program = k ids := by
      simp only [Server.exec, hprog, hids, if_true]
      exact ⟨_, setProc_self .., rfl⟩
    exact .of_exec (ih _ (h.exec hp hnext))
  | observe accept e k ih =>
    obtain ⟨pr, hp, hprog⟩ := h.proc
    obtain ⟨_, hprog', _⟩ := h.orderly.programs p pr hp
    rw [hprog] at hprog'
    obtain ⟨ids, hids⟩ := hprog'.1 (pr.pending s.db)
    have hnext : ∃ pr', (s.exec p ids pr).procs p = some pr' ∧
        pr'.program = k (pr.pending s.db) ids := by
      simp only [Server.exec, hprog, hids, if_true]
      exact ⟨_, setProc_self .., rfl⟩
    exact .of_exec (ih _ _ (h.exec hp hnext))
  | lock key k ih =>
    obtain ⟨pr, hp, hprog⟩ := h.proc
    obtain ⟨_, hprog', _⟩ := h.orderly.programs p pr hp
    rw [hprog] at hprog'
    have hfree := h.lock_free hp hprog'.1
    have hnext : ∃ pr', (s.exec p [] pr).procs p = some pr' ∧ pr'.program = k (pr.pending s.db) := by
      simp only [Server.exec, hprog, hfree, if_true]
      exact ⟨_, setProc_self .., rfl⟩
    exact .of_exec (ih _ (h.exec hp hnext))

end Unhindered

def OnlyExecs (sched : List (Choice Id Call)) : Prop := ∀ ch ∈ sched, ∃ p ids, ch = .exec p ids

theorem Sound.run_execs (hs : Sound S Post w₀ s) {sched : List (Choice Id Call)}
    (h : OnlyExecs sched) : Sound S Post w₀ (s.run code aborted sched) := by
  apply hs.run
  intro ch hch
  obtain ⟨p, ids, rfl⟩ := h ch hch
  trivial

theorem Orderly.run_execs (ho : s.Orderly shared ident) {sched : List (Choice Id Call)}
    (h : OnlyExecs sched) : (s.run code aborted sched).Orderly shared ident := by
  apply ho.run
  intro p c hc
  obtain ⟨_, _, heq⟩ := h _ hc
  exact absurd heq (by simp)

theorem procs_of_run_execs {sched : List (Choice Id Call)} (h : OnlyExecs sched) {p : Nat}
    {pr : Process Db Key Id Event Result Call} (hp : (s.run code aborted sched).procs p = some pr) :
    ∃ pr₀, s.procs p = some pr₀ := by
  rcases run_procs hp with ⟨pr₀, hp₀, _⟩ | ⟨c, hc, _⟩
  · exact ⟨pr₀, hp₀⟩
  · obtain ⟨_, _, heq⟩ := h _ hc
    exact absurd heq (by simp)

/-- With the shared lock free, the processes can finish one after the other. -/
theorem finish_list [Infinite Id] (hs : Sound S Post w₀ s) (ho : s.Orderly shared ident)
    (hfree : s.owner shared = none) (ps : List Nat) :
    ∃ more : List (Choice Id Call), OnlyExecs more ∧
      ∀ p ∈ ps, ∀ pr, (s.run code aborted more).procs p = some pr → ∃ r, pr.Finished r := by
  induction ps generalizing s with
  | nil => exact ⟨[], by simp [OnlyExecs], by simp⟩
  | cons p ps ih =>
    cases hp : s.procs p with
    | none =>
      obtain ⟨more, hexecs, hdone⟩ := ih hs ho hfree
      refine ⟨more, hexecs, fun q hq qr hqr => ?_⟩
      rcases List.mem_cons.mp hq with rfl | hq
      · obtain ⟨_, hq₀⟩ := procs_of_run_execs hexecs hqr
        rw [hp] at hq₀
        exact absurd hq₀ (by simp)
      · exact hdone q hq qr hqr
    | some pr =>
      have hun : Unhindered S Post w₀ ident s shared p pr.program :=
        ⟨hs, ho, ⟨pr, hp, rfl⟩, fun q hq => by rw [hfree] at hq; exact absurd hq (by simp)⟩
      obtain ⟨first, halone, hfree₁, pr₁, r, hp₁, hr⟩ := hun.canFinish code aborted
      have hexecs₁ : OnlyExecs first := fun ch hch => ⟨p, halone ch hch⟩
      obtain ⟨more, hexecs, hdone⟩ := ih (hs.run_execs hexecs₁) (ho.run_execs hexecs₁) hfree₁
      have hrun : s.run code aborted (first ++ more) = (s.run code aborted first).run code aborted more :=
        List.foldl_append ..
      refine ⟨first ++ more, ?_, fun q hq qr hqr => ?_⟩
      · intro ch hch
        rcases List.mem_append.mp hch with hch | hch
        · exact hexecs₁ ch hch
        · exact hexecs ch hch
      · rw [hrun] at hqr
        rcases List.mem_cons.mp hq with rfl | hq
        · obtain ⟨pr₂, hp₂, hc⟩ := run_continues code aborted more hp₁
          obtain rfl := Option.some.inj (hqr.symm.trans hp₂)
          exact ⟨r, hc.finished r hr ▸ hr⟩
        · exact hdone q hq qr hqr

/-- No state is stuck: statements alone can lead to the answers of all processes. -/
theorem finish_all [Infinite Id] (hs : Sound S Post w₀ s) (ho : s.Orderly shared ident)
    {ps : List Nat} (hps : ∀ p pr, s.procs p = some pr → p ∈ ps) :
    ∃ more : List (Choice Id Call), OnlyExecs more ∧
      ∀ p pr, (s.run code aborted more).procs p = some pr → ∃ r, pr.Finished r := by
  have hall : ∀ {first more : List (Choice Id Call)}, OnlyExecs (first ++ more) →
      (∀ p ∈ ps, ∀ pr, ((s.run code aborted first).run code aborted more).procs p = some pr →
        ∃ r, pr.Finished r) → ∀ p pr, (s.run code aborted (first ++ more)).procs p = some pr →
          ∃ r, pr.Finished r := by
    intro first more hexecs hdone p pr hp
    obtain ⟨pr₀, hp₀⟩ := procs_of_run_execs hexecs hp
    have hrun : s.run code aborted (first ++ more) = (s.run code aborted first).run code aborted more :=
      List.foldl_append ..
    rw [hrun] at hp
    exact hdone p (hps p pr₀ hp₀) pr hp
  cases hown : s.owner shared with
  | none =>
    obtain ⟨more, hexecs, hdone⟩ := finish_list hs ho hown ps
    exact ⟨more, hexecs, hall (show OnlyExecs ([] ++ more) from hexecs) hdone⟩
  | some q =>
    -- the one that has the shared lock goes first
    obtain ⟨qr, hq, _⟩ := ho.owners shared q hown
    have hun : Unhindered S Post w₀ ident s shared q qr.program :=
      ⟨hs, ho, ⟨qr, hq, rfl⟩, fun q' hq' => Option.some.inj (hq'.symm.trans hown)⟩
    obtain ⟨first, halone, hfree, _⟩ := hun.canFinish code aborted
    have hexecs₁ : OnlyExecs first := fun ch hch => ⟨q, halone ch hch⟩
    obtain ⟨more, hexecs, hdone⟩ :=
      finish_list (hs.run_execs hexecs₁) (ho.run_execs hexecs₁) hfree ps
    have hboth : OnlyExecs (first ++ more) := by
      intro ch hch
      rcases List.mem_append.mp hch with hch | hch
      · exact hexecs₁ ch hch
      · exact hexecs ch hch
    exact ⟨first ++ more, hboth, hall hboth hdone⟩

end Server

end ReadCommitted
