import GuffSuff.ReadCommitted.Answers
import GuffSuff.ReadCommitted.Commits
import GuffSuff.ReadCommitted.Completion
import GuffSuff.ReadCommitted.Embedding
import Mathlib.Data.Finset.Max

/-! Runs that cannot get stuck: calls that take their locks along a ranking of
the keys. The rows a call has inserted itself may share one rank. -/

namespace ReadCommitted

variable {Db Key Id Event Result Call : Type}

/-- One statement leads from the second program to the first. -/
def Program.Next (p' : Program Db Key Id Event Result) : Program Db Key Id Event Result → Prop
  | .ret _ => False
  | .now k => ∃ t, p' = k t
  | .fresh k => ∃ x, p' = k x
  | .query k => ∃ db, p' = k db
  | .select _ k => ∃ ids, p' = k ids
  | .lock _ k => ∃ db, p' = k db
  | .write _ k => p' = k
  | .commit _ k => p' = k
  | .observe _ _ k => ∃ db ids, p' = k db ids
  | .rollback k => p' = k

theorem Program.next_wellFounded :
    WellFounded (@Program.Next Db Key Id Event Result) := by
  refine ⟨fun p => ?_⟩
  induction p with
  | ret r => exact ⟨_, fun _ h => h.elim⟩
  | now k ih => exact ⟨_, fun _ ⟨t, h⟩ => h ▸ ih t⟩
  | fresh k ih => exact ⟨_, fun _ ⟨x, h⟩ => h ▸ ih x⟩
  | query k ih => exact ⟨_, fun _ ⟨db, h⟩ => h ▸ ih db⟩
  | select accept k ih => exact ⟨_, fun _ ⟨ids, h⟩ => h ▸ ih ids⟩
  | lock key k ih => exact ⟨_, fun _ ⟨db, h⟩ => h ▸ ih db⟩
  | write f k ih => exact ⟨_, fun _ h => (h : _ = k) ▸ ih⟩
  | commit e k ih => exact ⟨_, fun _ h => (h : _ = k) ▸ ih⟩
  | observe accept e k ih => exact ⟨_, fun _ ⟨db, ids, h⟩ => h ▸ ih db ids⟩
  | rollback k ih => exact ⟨_, fun _ h => (h : _ = k) ▸ ih⟩

section
variable (I : Db → Prop) (rank : Key → Nat) (ident : Key → Option Id)

def IsOwn (D : List Id) (key : Key) : Prop := ∃ i ∈ D, ident key = some i

/-- What a call at `level` may hold: own rows up to it, and what ranks below it. -/
def MayHold (D : List Id) (level : Nat) (key : Key) : Prop :=
  IsOwn ident D key ∧ 2 * rank key + 1 ≤ level ∨ 2 * rank key + 2 ≤ level

/-- The program takes its locks along the ranking, writes under a lock only and drops its locks
before it answers. Its level is `0` while it holds none, and odd after a row of its own; at
level `0` its statements are served wherever `I` holds. -/
def Program.Ranked : List Id → Nat → Program Db Key Id Event Result → Prop
  | _, level, .ret _ => level = 0
  | D, level, .now k => ∀ n, Ranked D level (k n)
  | D, level, .fresh k => ∀ x, Ranked (x :: D) level (k x)
  | D, level, .query k => ∀ db, Ranked D level (k db)
  | D, level, .select accept k =>
    (∀ db, (level = 0 → I db) → ∃ ids, accept db ids = true) ∧ ∀ ids, Ranked D level (k ids)
  | D, level, .lock key k =>
    IsOwn ident D key ∧ level ≤ 2 * rank key + 1 ∧ (∀ db, Ranked D (2 * rank key + 1) (k db)) ∨
      level ≤ 2 * rank key ∧ ∀ db, Ranked D (2 * rank key + 2) (k db)
  | D, level, .write _ k => 0 < level ∧ Ranked D level k
  | D, _, .commit _ k => Ranked D 0 k
  | D, level, .observe accept _ k =>
    (∀ db, (level = 0 → I db) → ∃ ids, accept db ids = true) ∧ ∀ db ids, Ranked D level (k db ids)
  | D, _, .rollback k => Ranked D 0 k

variable {I rank ident}

theorem MayHold.mono {D D' : List Id} {level level' : Nat} {key : Key} (hD : D ⊆ D')
    (hlevel : level ≤ level') (h : MayHold rank ident D level key) : MayHold rank ident D' level' key := by
  rcases h with ⟨⟨i, hi, hk⟩, h⟩ | h
  · exact .inl ⟨⟨i, hD hi, hk⟩, h.trans hlevel⟩
  · exact .inr (h.trans hlevel)

theorem Program.ranked_own {D : List Id} {level : Nat} {key : Key}
    {k : Db → Program Db Key Id Event Result} {i : Id} (hi : i ∈ D) (hkey : ident key = some i)
    (hlevel : level ≤ 2 * rank key + 1) (hk : ∀ db, (k db).Ranked I rank ident D (2 * rank key + 1)) :
    (Program.lock key k).Ranked I rank ident D level := .inl ⟨⟨i, hi, hkey⟩, hlevel, hk⟩

theorem Program.ranked_shared {D : List Id} {level : Nat} {key : Key}
    {k : Db → Program Db Key Id Event Result} (hlevel : level ≤ 2 * rank key)
    (hk : ∀ db, (k db).Ranked I rank ident D (2 * rank key + 2)) :
    (Program.lock key k).Ranked I rank ident D level := .inr ⟨hlevel, hk⟩

/-- A call made inside a larger system keeps its ranking there. -/
theorem Program.Ranked.embed {Db' Key' Event' Result' : Type} {I' : Db' → Prop} {rank : Key' → Nat}
    {ident : Key' → Option Id} {E : Embedding Db Key Event Db' Key' Event'}
    {k : Result → Program Db' Key' Id Event' Result'} (hI : ∀ db, I' db → I (E.view db))
    (hk : ∀ r D, (k r).Ranked I' rank ident D 0) {p : Program Db Key Id Event Result} {D : List Id}
    {level : Nat} (h : p.Ranked I (rank ∘ E.key) (ident ∘ E.key) D level) :
    (p.embed E k).Ranked I' rank ident D level := by
  induction p generalizing D level with
  | ret r =>
    have hlevel : level = 0 := h
    exact hlevel ▸ hk r D
  | now p ih => exact fun n => ih n (h n)
  | fresh p ih => exact fun x => ih x (h x)
  | query p ih => exact fun db => ih _ (h _)
  | select accept p ih =>
    exact ⟨fun db hdb => h.1 _ fun hlevel => hI db (hdb hlevel), fun ids => ih ids (h.2 ids)⟩
  | lock key p ih =>
    rcases h with ⟨hown, hlevel, h⟩ | ⟨hlevel, h⟩
    · exact .inl ⟨hown, hlevel, fun db => ih _ (h _)⟩
    · exact .inr ⟨hlevel, fun db => ih _ (h _)⟩
  | write f p ih => exact ⟨h.1, ih h.2⟩
  | commit e p ih => exact ih h
  | observe accept e p ih =>
    exact ⟨fun db hdb => h.1 _ fun hlevel => hI db (hdb hlevel), fun db ids => ih _ ids (h.2 _ ids)⟩
  | rollback p ih => exact ih h

end

namespace Server

variable (I : Db → Prop) (rank : Key → Nat) (ident : Key → Option Id)

structure Ranked (s : Server Db Key Id Event Result Call) (level : Nat → Nat) : Prop where
  programs : ∀ p pr, s.procs p = some pr → pr.program.Ranked I rank ident pr.drawn (level p)
  clean : ∀ p pr, s.procs p = some pr → level p = 0 → pr.pending = id
  owners : ∀ key p, s.owner key = some p →
    ∃ pr, s.procs p = some pr ∧ MayHold rank ident pr.drawn (level p) key
  drawn : ∀ p pr, s.procs p = some pr → ∀ i ∈ pr.drawn, i ∈ s.used
  apart : ∀ p q pr qr, p ≠ q → s.procs p = some pr → s.procs q = some qr → ∀ i ∈ pr.drawn, i ∉ qr.drawn

variable {I rank ident} {s : Server Db Key Id Event Result Call} {level : Nat → Nat}

theorem ranked_boot (db : Db) (clock : Nat) (used : List Id) :
    (boot db clock used : Server Db Key Id Event Result Call).Ranked I rank ident fun _ => 0 where
  programs := by simp [boot]
  clean := by simp [boot]
  owners := by simp [boot]
  drawn := by simp [boot]
  apart := by simp [boot]

theorem Ranked.move (h : s.Ranked I rank ident level) {p l : Nat}
    {pr' : Process Db Key Id Event Result Call} {s' : Server Db Key Id Event Result Call}
    (hprocs : s'.procs = Function.update s.procs p (some pr'))
    (hothers : ∀ key q, q ≠ p → s'.owner key = some q → s.owner key = some q)
    (hown : ∀ key, s'.owner key = some p → MayHold rank ident pr'.drawn l key)
    (hprog : pr'.program.Ranked I rank ident pr'.drawn l) (hclean : l = 0 → pr'.pending = id) (hused : ∀ i ∈ s.used, i ∈ s'.used)
    (hdrawn : ∀ i ∈ pr'.drawn, i ∈ s'.used)
    (hapart : ∀ q qr, q ≠ p → s.procs q = some qr → ∀ i ∈ pr'.drawn, i ∉ qr.drawn) :
    s'.Ranked I rank ident (Function.update level p l) where
  programs := by
    intro q qr hq
    rw [hprocs] at hq
    by_cases hqp : q = p
    · subst hqp
      rw [Function.update_self] at hq ⊢
      obtain rfl := Option.some.inj hq
      exact hprog
    · rw [Function.update_of_ne hqp] at hq ⊢
      exact h.programs q qr hq
  clean := by
    intro q qr hq
    rw [hprocs] at hq
    by_cases hqp : q = p
    · subst hqp
      rw [Function.update_self] at hq ⊢
      obtain rfl := Option.some.inj hq
      exact hclean
    · rw [Function.update_of_ne hqp] at hq ⊢
      exact h.clean q qr hq
  owners := by
    intro key q hkey
    rw [hprocs]
    by_cases hqp : q = p
    · subst hqp
      rw [Function.update_self, Function.update_self]
      exact ⟨pr', rfl, hown key hkey⟩
    · rw [Function.update_of_ne hqp, Function.update_of_ne hqp]
      exact h.owners key q (hothers key q hqp hkey)
  drawn := by
    intro q qr hq i hi
    rw [hprocs] at hq
    by_cases hqp : q = p
    · subst hqp
      rw [Function.update_self] at hq
      obtain rfl := Option.some.inj hq
      exact hdrawn i hi
    · rw [Function.update_of_ne hqp] at hq
      exact hused i (h.drawn q qr hq i hi)
  apart := by
    intro q q' qr qr' hne hq hq' i hi hi'
    rw [hprocs] at hq hq'
    by_cases hqp : q = p
    · subst hqp
      rw [Function.update_self] at hq
      obtain rfl := Option.some.inj hq
      rw [Function.update_of_ne hne.symm] at hq'
      exact hapart q' qr' hne.symm hq' i hi hi'
    · rw [Function.update_of_ne hqp] at hq
      by_cases hqp' : q' = p
      · subst hqp'
        rw [Function.update_self] at hq'
        obtain rfl := Option.some.inj hq'
        exact hapart q qr hqp hq i hi' hi
      · rw [Function.update_of_ne hqp'] at hq'
        exact h.apart q q' qr qr' hne hq hq' i hi hi'

/-- A process that keeps the identifiers it has drawn. -/
theorem Ranked.advance (h : s.Ranked I rank ident level) {p l : Nat}
    {pr pr' : Process Db Key Id Event Result Call} {s' : Server Db Key Id Event Result Call}
    (hp : s.procs p = some pr) (hprocs : s'.procs = Function.update s.procs p (some pr'))
    (hd : pr'.drawn = pr.drawn) (hu : s'.used = s.used)
    (hothers : ∀ key q, q ≠ p → s'.owner key = some q → s.owner key = some q)
    (hown : ∀ key, s'.owner key = some p → MayHold rank ident pr.drawn l key)
    (hprog : pr'.program.Ranked I rank ident pr.drawn l) (hclean : l = 0 → pr'.pending = id) :
    s'.Ranked I rank ident (Function.update level p l) :=
  h.move hprocs hothers (hd ▸ hown) (hd ▸ hprog) hclean (fun _ hi => hu ▸ hi)
    (fun i hi => hu ▸ h.drawn p pr hp i (hd ▸ hi))
    fun q qr hqp hq i hi => h.apart p q pr qr hqp.symm hp hq i (hd ▸ hi)

theorem Ranked.abort (h : s.Ranked I rank ident level) {aborted : Call → Result} {p : Nat}
    {pr : Process Db Key Id Event Result Call} (hp : s.procs p = some pr) :
    ∃ l, (s.abort aborted p pr).Ranked I rank ident (Function.update level p l) := by
  cases hprog : pr.program with
  | ret r =>
    refine ⟨level p, ?_⟩
    simpa only [Server.abort, hprog, Function.update_eq_self] using h
  | _ =>
    simp only [Server.abort, hprog]
    exact ⟨0, h.advance hp rfl rfl rfl (fun key q _ hk => of_release hk)
      (fun key hk => absurd hk (release_ne_self _ _ _)) rfl fun _ => rfl⟩

/-- No other process is at a higher level. -/
def Highest (s : Server Db Key Id Event Result Call) (level : Nat → Nat) (p : Nat) : Prop :=
  ∀ q qr, q ≠ p → s.procs q = some qr → level q ≤ level p

theorem Highest.update {p l : Nat} {pr' : Process Db Key Id Event Result Call}
    {s' : Server Db Key Id Event Result Call} (hhigh : s.Highest level p) (hl : level p ≤ l)
    (hprocs : s'.procs = Function.update s.procs p (some pr')) :
    s'.Highest (Function.update level p l) p := by
  intro q qr hqp hq
  rw [hprocs, Function.update_of_ne hqp] at hq
  rw [Function.update_of_ne hqp, Function.update_self]
  exact (hhigh q qr hqp hq).trans hl

/-- What a process at the highest level waits for is free: whoever holds a key is
above those that may ask for it. -/
theorem Ranked.lock_free (h : s.Ranked I rank ident level) {p : Nat}
    {pr : Process Db Key Id Event Result Call} (hp : s.procs p = some pr) (hhigh : s.Highest level p)
    {key : Key} {k : Db → Program Db Key Id Event Result} (hprog : pr.program = .lock key k) :
    s.owner key = none ∨ s.owner key = some p := by
  have ho := h.programs p pr hp
  rw [hprog] at ho
  cases hown : s.owner key with
  | none => exact .inl rfl
  | some q =>
    by_cases hqp : q = p
    · exact .inr (congrArg some hqp)
    · obtain ⟨qr, hq, hhold⟩ := h.owners key q hown
      have hle : level q ≤ level p := hhigh q qr hqp hq
      rcases hhold with ⟨⟨i, hi, hki⟩, hhold⟩ | hhold <;> rcases ho with ⟨⟨j, hj, hkj⟩, hlevel, _⟩ | ⟨hlevel, _⟩
      · obtain rfl : i = j := Option.some.inj (hki.symm.trans hkj)
        exact absurd hj (h.apart q p qr pr hqp hq hp i hi)
      all_goals omega

theorem onlyExecs_of_alone {sched : List (Choice Id Call)} {p : Nat}
    (h : ∀ ch ∈ sched, ∃ ids, ch = .exec p ids) : OnlyExecs sched := fun ch hch => ⟨p, h ch hch⟩

theorem OnlyExecs.append {first more : List (Choice Id Call)} (h : OnlyExecs first) (h' : OnlyExecs more) :
    OnlyExecs (first ++ more) := by
  intro ch hch
  rcases List.mem_append.mp hch with hch | hch
  · exact h ch hch
  · exact h' ch hch

variable [DecidableEq Key] [DecidableEq Id]

/-- The level of a process rises with its locks, until all are dropped. -/
theorem Ranked.exec (h : s.Ranked I rank ident level) {p : Nat}
    {pr : Process Db Key Id Event Result Call} (hp : s.procs p = some pr) (ids : List Id) :
    ∃ l, (s.exec p ids pr).Ranked I rank ident (Function.update level p l) ∧ (l = 0 ∨ level p ≤ l) := by
  have ho := h.programs p pr hp
  have hown : ∀ key, s.owner key = some p → MayHold rank ident pr.drawn (level p) key := by
    intro key hkey
    obtain ⟨pr', hp', hhold⟩ := h.owners key p hkey
    obtain rfl := Option.some.inj (hp'.symm.trans hp)
    exact hhold
  have hsame : ∀ key q, q ≠ p → s.owner key = some q → s.owner key = some q := fun _ _ _ hk => hk
  have hfree : ∀ key q, q ≠ p → release s.owner p key = some q → s.owner key = some q :=
    fun _ _ _ hk => of_release hk
  have hnone : ∀ {D : List Id} key, release s.owner p key = some p → MayHold rank ident D 0 key :=
    fun key hk => absurd hk (release_ne_self _ _ _)
  have hclean := h.clean p pr hp
  have hstay : ∃ l, s.Ranked I rank ident (Function.update level p l) ∧ (l = 0 ∨ level p ≤ l) :=
    ⟨level p, by rwa [Function.update_eq_self], .inr (Nat.le_refl _)⟩
  cases hprog : pr.program with
  | ret r => simpa only [Server.exec, hprog] using hstay
  | now k =>
    rw [hprog] at ho
    simp only [Server.exec, hprog]
    exact ⟨level p, h.advance hp rfl rfl rfl hsame hown (ho s.clock) hclean, .inr (Nat.le_refl _)⟩
  | query k =>
    rw [hprog] at ho
    simp only [Server.exec, hprog]
    exact ⟨level p, h.advance hp rfl rfl rfl hsame hown (ho _) hclean, .inr (Nat.le_refl _)⟩
  | write f k =>
    rw [hprog] at ho
    simp only [Server.exec, hprog]
    exact ⟨level p, h.advance hp rfl rfl rfl hsame hown ho.2
      fun hzero => absurd hzero (Nat.ne_of_gt ho.1), .inr (Nat.le_refl _)⟩
  | select accept k =>
    rw [hprog] at ho
    simp only [Server.exec, hprog]
    split
    · exact ⟨level p, h.advance hp rfl rfl rfl hsame hown (ho.2 ids) hclean, .inr (Nat.le_refl _)⟩
    · exact hstay
  | observe accept e k =>
    rw [hprog] at ho
    simp only [Server.exec, hprog]
    split
    · exact ⟨level p, h.advance hp rfl rfl rfl hsame hown (ho.2 _ ids) hclean, .inr (Nat.le_refl _)⟩
    · exact hstay
  | commit e k =>
    rw [hprog] at ho
    simp only [Server.exec, hprog]
    exact ⟨0, h.advance hp rfl rfl rfl hfree hnone ho fun _ => rfl, .inl rfl⟩
  | rollback k =>
    rw [hprog] at ho
    simp only [Server.exec, hprog]
    exact ⟨0, h.advance hp rfl rfl rfl hfree hnone ho fun _ => rfl, .inl rfl⟩
  | fresh k =>
    rw [hprog] at ho
    simp only [Server.exec, hprog]
    split
    · rename_i x
      split
      · exact hstay
      · rename_i hx
        refine ⟨level p, h.move rfl hsame ?_ (ho x) hclean ?_ ?_ ?_, .inr (Nat.le_refl _)⟩
        · exact fun key hkey => (hown key hkey).mono (List.subset_cons_self x _) (Nat.le_refl _)
        · exact fun i hi => List.mem_cons_of_mem x hi
        · intro i hi
          rcases List.mem_cons.mp hi with rfl | hi
          · exact List.mem_cons_self
          · exact List.mem_cons_of_mem x (h.drawn p pr hp i hi)
        · intro q qr hqp hq i hi
          rcases List.mem_cons.mp hi with rfl | hi
          · exact fun hiq => hx (h.drawn q qr hq i hiq)
          · exact h.apart p q pr qr hqp.symm hp hq i hi
    · exact hstay
  | lock key k =>
    rw [hprog] at ho
    simp only [Server.exec, hprog]
    split
    · have hupdate : ∀ j q, q ≠ p → Function.update s.owner key (some p) j = some q →
          s.owner j = some q := by
        intro j q hqp hj
        by_cases hjk : j = key
        · rw [hjk, Function.update_self] at hj
          exact absurd (Option.some.inj hj).symm hqp
        · rwa [Function.update_of_ne hjk] at hj
      have htaken : ∀ {l}, level p ≤ l → MayHold rank ident pr.drawn l key →
          ∀ j, Function.update s.owner key (some p) j = some p → MayHold rank ident pr.drawn l j := by
        intro l hl hkey j hj
        by_cases hjk : j = key
        · exact hjk ▸ hkey
        · rw [Function.update_of_ne hjk] at hj
          exact (hown j hj).mono (List.Subset.refl _) hl
      rcases ho with ⟨hmine, hlevel, ho⟩ | ⟨hlevel, ho⟩
      · exact ⟨2 * rank key + 1, h.advance hp rfl rfl rfl hupdate
          (htaken hlevel (.inl ⟨hmine, Nat.le_refl _⟩)) (ho _) (by simp), .inr hlevel⟩
      · have hle : level p ≤ 2 * rank key + 2 := by omega
        exact ⟨2 * rank key + 2, h.advance hp rfl rfl rfl hupdate
          (htaken hle (.inr (Nat.le_refl _))) (ho _) (by simp), .inr hle⟩
    · exact hstay

variable {code : Call → Program Db Key Id Event Result} {aborted : Call → Result}

theorem Ranked.step (h : s.Ranked I rank ident level) {ch : Choice Id Call}
    (hcode : ∀ p c, ch = .call p c → (code c).Ranked I rank ident [] 0) :
    ∃ level', (s.step code aborted ch).Ranked I rank ident level' := by
  cases ch with
  | tick n => exact ⟨level, h.programs, h.clean, h.owners, h.drawn, h.apart⟩
  | call p c =>
    simp only [Server.step]
    split
    · rename_i hp
      have hnone : ∀ key, s.owner key ≠ some p := by
        intro key hkey
        obtain ⟨pr, hp', _⟩ := h.owners key p hkey
        rw [hp] at hp'
        exact absurd hp' (by simp)
      exact ⟨_, h.move (l := 0) rfl (fun _ _ _ hk => hk) (fun key hk => absurd hk (hnone key))
        (hcode p c rfl) (fun _ => rfl) (fun _ hi => hi) (by simp [Process.start]) (by simp [Process.start])⟩
    · exact ⟨level, h⟩
  | exec p ids =>
    simp only [Server.step]
    split
    · exact ⟨level, h⟩
    · rename_i pr hp
      obtain ⟨l, hl, _⟩ := h.exec hp ids
      exact ⟨_, hl⟩
  | fail p =>
    simp only [Server.step]
    split
    · exact ⟨level, h⟩
    · rename_i pr hp
      obtain ⟨l, hl⟩ := h.abort hp
      exact ⟨_, hl⟩

theorem Ranked.run (h : s.Ranked I rank ident level) {sched : List (Choice Id Call)}
    (hcode : ∀ p c, .call p c ∈ sched → (code c).Ranked I rank ident [] 0) :
    ∃ level', (s.run code aborted sched).Ranked I rank ident level' := by
  induction sched generalizing s level with
  | nil => exact ⟨level, h⟩
  | cons ch sched ih =>
    obtain ⟨level', hs⟩ := h.step fun p c hch =>
      hcode p c (hch ▸ List.mem_cons_self)
    exact ih hs fun p c hch => hcode p c (List.mem_cons_of_mem _ hch)

theorem exec_next [Infinite Id] (h : s.Ranked I rank ident level) {p : Nat}
    {pr : Process Db Key Id Event Result Call} (hp : s.procs p = some pr) (hhigh : s.Highest level p)
    (hI : level p = 0 → I s.db) (hne : ∀ r, ¬ pr.Finished r) :
    ∃ ids pr', (s.exec p ids pr).procs = Function.update s.procs p (some pr') ∧
      pr'.program.Next pr.program := by
  have ho := h.programs p pr hp
  cases hprog : pr.program with
  | ret r => exact absurd hprog (hne r)
  | now k => exact ⟨[], _, by simp only [Server.exec, hprog]; rfl, _, rfl⟩
  | query k => exact ⟨[], _, by simp only [Server.exec, hprog]; rfl, _, rfl⟩
  | write f k => exact ⟨[], _, by simp only [Server.exec, hprog]; rfl, by exact (rfl : k = k)⟩
  | commit e k => exact ⟨[], _, by simp only [Server.exec, hprog]; rfl, by exact (rfl : k = k)⟩
  | rollback k => exact ⟨[], _, by simp only [Server.exec, hprog]; rfl, by exact (rfl : k = k)⟩
  | fresh k =>
    obtain ⟨x, hx⟩ := Infinite.exists_notMem_finset s.used.toFinset
    rw [List.mem_toFinset] at hx
    exact ⟨[x], _, by simp only [Server.exec, hprog, hx, if_false]; rfl, _, rfl⟩
  | select accept k =>
    rw [hprog] at ho
    obtain ⟨ids, hids⟩ := ho.1 (pr.pending s.db) fun hzero => by
      rw [h.clean p pr hp hzero]
      exact hI hzero
    exact ⟨ids, _, by simp only [Server.exec, hprog, hids, if_true]; rfl, _, rfl⟩
  | observe accept e k =>
    rw [hprog] at ho
    obtain ⟨ids, hids⟩ := ho.1 (pr.pending s.db) fun hzero => by
      rw [h.clean p pr hp hzero]
      exact hI hzero
    exact ⟨ids, _, by simp only [Server.exec, hprog, hids, if_true]; rfl, _, _, rfl⟩
  | lock key k =>
    have hfree := h.lock_free hp hhigh hprog
    exact ⟨[], _, by simp only [Server.exec, hprog, hfree, if_true]; rfl, _, rfl⟩

/-- The next statement of a process at the highest level is served. -/
theorem Ranked.advances [Infinite Id] (h : s.Ranked I rank ident level) {p : Nat}
    {pr : Process Db Key Id Event Result Call} (hp : s.procs p = some pr) (hhigh : s.Highest level p)
    (hI : level p = 0 → I s.db) (hne : ∀ r, ¬ pr.Finished r) (code : Call → Program Db Key Id Event Result)
    (aborted : Call → Result) :
    ∃ ids pr' l, (s.step code aborted (.exec p ids)).procs = Function.update s.procs p (some pr') ∧
      pr'.program.Next pr.program ∧ (l = 0 ∨ level p ≤ l) ∧
      (s.step code aborted (.exec p ids)).Ranked I rank ident (Function.update level p l) := by
  obtain ⟨ids, pr', hprocs, hnext⟩ := exec_next h hp hhigh hI hne
  obtain ⟨l, hranked, hl⟩ := h.exec hp ids
  have hstep : s.step code aborted (.exec p ids) = s.exec p ids pr := by simp only [Server.step, hp]
  exact ⟨ids, pr', l, hstep ▸ hprocs, hnext, hl, hstep ▸ hranked⟩

variable (code aborted) in
/-- What statements of `p` alone lead to. -/
def Leads (s : Server Db Key Id Event Result Call) (p : Nat)
    (goal : Server Db Key Id Event Result Call → Prop) : Prop :=
  ∃ sched, (∀ ch ∈ sched, ∃ ids, ch = .exec p ids) ∧ goal (s.run code aborted sched)

theorem Leads.of_exec {p : Nat} (ids : List Id) {goal : Server Db Key Id Event Result Call → Prop}
    (h : (s.step code aborted (.exec p ids)).Leads code aborted p goal) : s.Leads code aborted p goal := by
  obtain ⟨sched, halone, hgoal⟩ := h
  refine ⟨.exec p ids :: sched, ?_, hgoal⟩
  intro ch hch
  rcases List.mem_cons.mp hch with rfl | hch
  · exact ⟨ids, rfl⟩
  · exact halone ch hch

/-- A process at the highest level gets to where it drops its locks. -/
theorem Ranked.settles [Infinite Id] (code : Call → Program Db Key Id Event Result)
    (aborted : Call → Result) (h : s.Ranked I rank ident level) {p : Nat}
    {pr : Process Db Key Id Event Result Call} (hp : s.procs p = some pr) (hhigh : s.Highest level p) :
    s.Leads code aborted p fun s' => s'.Ranked I rank ident (Function.update level p 0) := by
  induction hprog : pr.program using Program.next_wellFounded.induction generalizing s level pr with
  | _ prog ih =>
    by_cases hzero : level p = 0
    · exact ⟨[], by simp, by rw [← hzero, Function.update_eq_self]; exact h⟩
    · have hne : ∀ r, ¬ pr.Finished r := by
        intro r hr
        have ho := h.programs p pr hp
        rw [hr] at ho
        exact hzero ho
      obtain ⟨ids, pr', l, hprocs, hnext, hl, hranked⟩ := h.advances hp hhigh
        (fun hlevel => absurd hlevel hzero) hne code aborted
      refine .of_exec ids ?_
      rcases hl with rfl | hl
      · exact ⟨[], by simp, hranked⟩
      · have hp' : (s.step code aborted (.exec p ids)).procs p = some pr' := by
          rw [hprocs, Function.update_self]
        have hmore := ih pr'.program (hprog ▸ hnext) hranked hp' (hhigh.update hl hprocs) rfl
        rwa [Function.update_idem] at hmore

/-- With all the others at level `0`, a process gets to its answer. -/
theorem Ranked.finishes [Infinite Id] (code : Call → Program Db Key Id Event Result)
    (aborted : Call → Result) (h : s.Ranked I rank ident level) {p : Nat}
    {pr : Process Db Key Id Event Result Call} (hp : s.procs p = some pr)
    (hothers : ∀ q qr, q ≠ p → s.procs q = some qr → level q = 0)
    (hI : ∀ more, OnlyExecs more → I (s.run code aborted more).db) :
    s.Leads code aborted p fun s' => s'.Ranked I rank ident (Function.update level p 0) ∧
      ∃ pr' r, s'.procs p = some pr' ∧ pr'.Finished r := by
  induction hprog : pr.program using Program.next_wellFounded.induction generalizing s level pr with
  | _ prog ih =>
    by_cases hret : ∃ r, pr.Finished r
    · obtain ⟨r, hr⟩ := hret
      have ho := h.programs p pr hp
      rw [hr] at ho
      have hzero : level p = 0 := ho
      exact ⟨[], by simp, by rw [← hzero, Function.update_eq_self]; exact h, pr, r, hp, hr⟩
    · have hhigh : s.Highest level p := fun q qr hqp hq => by rw [hothers q qr hqp hq]; exact Nat.zero_le _
      obtain ⟨ids, pr', l, hprocs, hnext, _, hranked⟩ :=
        h.advances hp hhigh (fun _ => hI [] (by simp [OnlyExecs])) (fun r hr => hret ⟨r, hr⟩) code aborted
      refine .of_exec ids ?_
      have hp' : (s.step code aborted (.exec p ids)).procs p = some pr' := by
        rw [hprocs, Function.update_self]
      have hmore := ih pr'.program (hprog ▸ hnext) hranked hp' (fun q qr hqp hq => by
        rw [hprocs, Function.update_of_ne hqp] at hq
        rw [Function.update_of_ne hqp]
        exact hothers q qr hqp hq) (fun more hmore => hI (.exec p ids :: more) fun ch hch => by
          rcases List.mem_cons.mp hch with rfl | hch
          · exact ⟨p, ids, rfl⟩
          · exact hmore ch hch) rfl
      rwa [Function.update_idem] at hmore

/-- All processes among `ps`, and all of them at level `0` in the end: the highest goes first. -/
theorem Ranked.quiesces [Infinite Id] (code : Call → Program Db Key Id Event Result)
    (aborted : Call → Result) (h : s.Ranked I rank ident level) (ps : Finset Nat)
    (hps : ∀ p pr, s.procs p = some pr → p ∈ ps) :
    ∃ more level', OnlyExecs more ∧ (s.run code aborted more).Ranked I rank ident level' ∧
      ∀ p pr, (s.run code aborted more).procs p = some pr → level' p = 0 := by
  induction hn : (ps.filter fun p => level p ≠ 0).card using Nat.strong_induction_on
    generalizing s level ps with
  | _ n ih =>
    by_cases hall : ∀ p pr, s.procs p = some pr → level p = 0
    · exact ⟨[], level, fun _ hch => absurd hch List.not_mem_nil, h, hall⟩
    · obtain ⟨q, qr, hq, hqlevel⟩ : ∃ q qr, s.procs q = some qr ∧ level q ≠ 0 := by
        simpa only [not_forall, exists_prop] using hall
      -- the processes there are, and the one of them at the highest level
      let busy := ps.filter fun p => (s.procs p).isSome
      have hbusy : ∀ p pr, s.procs p = some pr → p ∈ busy := fun p pr hp =>
        Finset.mem_filter.mpr ⟨hps p pr hp, by rw [hp]; rfl⟩
      obtain ⟨p, hpbusy, hmax⟩ := Finset.exists_max_image busy level ⟨q, hbusy q qr hq⟩
      obtain ⟨hpps, hsome⟩ := Finset.mem_filter.mp hpbusy
      obtain ⟨pr, hp⟩ := Option.isSome_iff_exists.mp hsome
      have hplevel : level p ≠ 0 := by
        have hle := hmax q (hbusy q qr hq)
        omega
      obtain ⟨first, halone, hfirst⟩ := h.settles code aborted hp fun r rr _ hr => hmax r (hbusy r rr hr)
      have hexecs := onlyExecs_of_alone halone
      have hps' : ∀ r rr, (s.run code aborted first).procs r = some rr → r ∈ ps := by
        intro r rr hr
        obtain ⟨rr₀, hr₀⟩ := procs_of_run_execs hexecs hr
        exact hps r rr₀ hr₀
      have hfewer : (ps.filter fun r => Function.update level p 0 r ≠ 0).card < n := by
        rw [← hn]
        refine Finset.card_lt_card (Finset.ssubset_iff_subset_ne.mpr ⟨fun r hr => ?_, fun heq => ?_⟩)
        · obtain ⟨hr, hne⟩ := Finset.mem_filter.mp hr
          by_cases hrp : r = p
          · exact absurd (hrp ▸ Function.update_self ..) hne
          · rw [Function.update_of_ne hrp] at hne
            exact Finset.mem_filter.mpr ⟨hr, hne⟩
        · have hmem : p ∈ ps.filter fun r => level r ≠ 0 := Finset.mem_filter.mpr ⟨hpps, hplevel⟩
          rw [← heq] at hmem
          exact (Finset.mem_filter.mp hmem).2 (Function.update_self ..)
      obtain ⟨more, level', hmore, hranked, hzero⟩ := ih _ hfewer hfirst ps hps' rfl
      refine ⟨first ++ more, level', hexecs.append hmore, ?_⟩
      rw [run_append]
      exact ⟨hranked, hzero⟩

/-- From level `0` on, the processes can finish one after the other. -/
theorem Ranked.finish_list [Infinite Id] (code : Call → Program Db Key Id Event Result)
    (aborted : Call → Result) (h : s.Ranked I rank ident level)
    (hzero : ∀ p pr, s.procs p = some pr → level p = 0)
    (hI : ∀ more, OnlyExecs more → I (s.run code aborted more).db) (ps : List Nat) :
    ∃ more : List (Choice Id Call), OnlyExecs more ∧
      ∀ p ∈ ps, ∀ pr, (s.run code aborted more).procs p = some pr → ∃ r, pr.Finished r := by
  induction ps generalizing s level with
  | nil => exact ⟨[], by simp [OnlyExecs], by simp⟩
  | cons p ps ih =>
    cases hp : s.procs p with
    | none =>
      obtain ⟨more, hexecs, hdone⟩ := ih h hzero hI
      refine ⟨more, hexecs, fun q hq qr hqr => ?_⟩
      rcases List.mem_cons.mp hq with rfl | hq
      · obtain ⟨_, hq₀⟩ := procs_of_run_execs hexecs hqr
        rw [hp] at hq₀
        exact absurd hq₀ (by simp)
      · exact hdone q hq qr hqr
    | some pr =>
      obtain ⟨first, halone, hranked, pr₁, r, hp₁, hr⟩ :=
        h.finishes code aborted hp (fun q qr _ hq => hzero q qr hq) hI
      have hexecs₁ := onlyExecs_of_alone halone
      have hzero₁ : ∀ q qr, (s.run code aborted first).procs q = some qr →
          Function.update level p 0 q = 0 := by
        intro q qr hq
        obtain ⟨qr₀, hq₀⟩ := procs_of_run_execs hexecs₁ hq
        by_cases hqp : q = p
        · rw [hqp, Function.update_self]
        · rw [Function.update_of_ne hqp]
          exact hzero q qr₀ hq₀
      obtain ⟨more, hexecs, hdone⟩ := ih hranked hzero₁ fun more hmore =>
        run_append s first more ▸ hI _ (hexecs₁.append hmore)
      refine ⟨first ++ more, hexecs₁.append hexecs, fun q hq qr hqr => ?_⟩
      rw [run_append] at hqr
      rcases List.mem_cons.mp hq with rfl | hq
      · obtain ⟨pr₂, hp₂, hc⟩ := run_continues code aborted more hp₁
        obtain rfl := Option.some.inj (hqr.symm.trans hp₂)
        exact ⟨r, hc.finished r hr ▸ hr⟩
      · exact hdone q hq qr hqr

/-- No reachable state is stuck: statements alone lead to the answers of all calls. `I` is
what the database keeps. -/
theorem finish_ranked [Infinite Id] {sched : List (Choice Id Call)}
    (hcode : ∀ p c, .call p c ∈ sched → (code c).Ranked I rank ident [] 0) {db : Db} {clock : Nat}
    {used : List Id} (hI : ∀ more, OnlyExecs more → I (((boot db clock used :
      Server Db Key Id Event Result Call).run code aborted sched).run code aborted more).db) :
    ∃ more : List (Choice Id Call), OnlyExecs more ∧
      ∀ p pr, (((boot db clock used : Server Db Key Id Event Result Call).run code aborted sched).run
        code aborted more).procs p = some pr → ∃ r, pr.Finished r := by
  obtain ⟨level, h⟩ := (ranked_boot db clock used).run hcode
  have hps : ∀ p pr, ((boot db clock used : Server Db Key Id Event Result Call).run code aborted
      sched).procs p = some pr → p ∈ sched.filterMap Choice.caller := by
    intro p pr hp
    rcases run_procs hp with ⟨qr, hq, _⟩ | ⟨c, hc, _⟩
    · simp [boot] at hq
    · exact List.mem_filterMap.mpr ⟨_, hc, rfl⟩
  obtain ⟨first, level', hexecs, hranked, hzero⟩ := h.quiesces code aborted
    (sched.filterMap Choice.caller).toFinset fun p pr hp => List.mem_toFinset.mpr (hps p pr hp)
  obtain ⟨more, hmore, hdone⟩ := hranked.finish_list code aborted hzero (fun rest hrest => by
    have hrun := hI _ (hexecs.append hrest)
    rwa [run_append] at hrun) (sched.filterMap Choice.caller)
  refine ⟨first ++ more, hexecs.append hmore, fun p pr hp => ?_⟩
  obtain ⟨pr₀, hp₀⟩ := procs_of_run_execs (hexecs.append hmore) hp
  rw [run_append] at hp
  exact hdone p (hps p pr₀ hp₀) pr hp

end Server

end ReadCommitted
