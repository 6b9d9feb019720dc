import Mathlib.Data.List.Induction
import GuffSuff.Migrations

/-! Runs of the migrations one after the other, each cut off where it may be:
what is recorded grows along the sorted files, and what was executed runs ahead
of it for good once a file was stranded. -/

namespace GuffSuff

namespace Migrations

section
variable {σ : Type}

def runs (attempts : List (Attempt σ)) (w : World σ) : World σ :=
  attempts.foldl (fun w a => ((runMigrations a).run w).2) w

def Completes (a : Attempt σ) (w : World σ) : Prop := ((runMigrations a).run w).1 = .ok ()

instance (a : Attempt σ) (w : World σ) : Decidable (Completes a w) := inferInstanceAs (Decidable (_ = _))

/-- The directory holds the `.sql` files `names`, in whatever order it lists them. -/
def Holds (a : Attempt σ) (names : List String) : Prop :=
  ∃ listing, a.listing = some listing ∧ (listing.filter isSql).Perm names

/-- Some run was cut off between the script of a file and its record. -/
def Stranded (files : List String) (attempts : List (Attempt σ)) (w : World σ) : Prop :=
  ∃ before b, before ++ [b] <+: attempts ∧
    b.Strands ((runs before w).db.pending files) (runs before w).db.schema

variable {a : Attempt σ} {attempts : List (Attempt σ)} {w : World σ} {names files : List String}
variable {r : Except Failure Unit × World σ}

theorem runs_snoc (attempts : List (Attempt σ)) (a : Attempt σ) (w : World σ) :
    runs (attempts ++ [a]) w = ((runMigrations a).run (runs attempts w)).2 := List.foldl_concat ..

theorem stranded_snoc : Stranded files (attempts ++ [a]) w ↔ Stranded files attempts w ∨
    a.Strands ((runs attempts w).db.pending files) (runs attempts w).db.schema := by
  constructor
  · rintro ⟨before, b, hbegin, hstrands⟩
    rcases List.prefix_concat_iff.mp hbegin with heq | hbegin
    · obtain ⟨rfl, hb⟩ := List.append_inj' heq rfl
      obtain rfl := List.singleton_inj.mp hb
      exact .inr hstrands
    · exact .inl ⟨before, b, hbegin, hstrands⟩
  · rintro (⟨before, b, hbegin, hstrands⟩ | hstrands)
    · exact ⟨before, b, hbegin.trans (List.prefix_append ..), hstrands⟩
    · exact ⟨attempts, a, List.prefix_refl _, hstrands⟩

theorem pending_of_append {db : Db σ} {rest : List String} (hnodup : files.Nodup)
    (h : db.versions ++ rest = files) : db.pending files = rest := by
  subst h
  have hdisjoint := List.disjoint_of_nodup_append hnodup
  have hnone : (db.versions.filter fun file => file ∉ db.versions) = [] := by
    simp [List.filter_eq_nil_iff]
  have hall : (rest.filter fun file => file ∉ db.versions) = rest := by
    refine List.filter_eq_self.mpr fun file hfile => ?_
    simpa using fun hversion => hdisjoint hversion hfile
  rw [Db.pending, List.filter_append, hnone, hall, List.nil_append]

/-- The records of `w` are the first of the files, and `stranded` says whether more was executed. -/
structure Kept (files : List String) (stranded : Prop) (w : World σ) : Prop where
  versions : w.db.versions <+: files
  same : ¬ stranded → w.executed = w.db.versions
  ahead : stranded → w.db.versions.length < w.executed.length

theorem Kept.ran {stranded : Prop} (h : Kept files stranded w) (hnodup : files.Nodup)
    (hran : Ran a (w.db.pending files) w r) :
    Kept files (stranded ∨ a.Strands (w.db.pending files) w.db.schema) r.2 ∧
      (r.1 = .ok () → r.2.db.schemaMigrations = some files ∧
        ¬ a.Strands (w.db.pending files) w.db.schema) := by
  obtain ⟨rest, hrest⟩ := h.versions
  have hpending : w.db.pending files = rest := pending_of_append hnodup hrest
  obtain ⟨applied, left, hdone, hpre, hok, hleft⟩ := hran
  rw [hpending] at hpre hok hleft ⊢
  have hexecuted := congrArg List.length hdone.executed
  have hversions := congrArg List.length hdone.versions
  simp only [List.length_append] at hexecuted hversions
  refine ⟨⟨?_, fun hclean => ?_, fun hstranded => ?_⟩, fun hr => ?_⟩
  · rw [hdone.versions, ← hrest]
    exact (List.prefix_append_right_inj _).mpr hpre
  · rw [not_or, ← hleft] at hclean
    have hnone : left = none := by simpa using hclean.2
    rw [hdone.executed, hdone.versions, h.same hclean.1, hnone, Option.toList_none, List.append_nil]
  · rcases hstranded with hstranded | hstrands
    · have hahead := h.ahead hstranded
      omega
    · obtain ⟨file, rfl⟩ := Option.isSome_iff_exists.mp (hleft.mpr hstrands)
      have hle : w.db.versions.length ≤ w.executed.length := by
        by_cases hstranded : stranded
        · exact Nat.le_of_lt (h.ahead hstranded)
        · rw [h.same hstranded]
      simp only [Option.toList_some, List.length_singleton] at hexecuted
      omega
  · obtain ⟨rfl, rfl, htable⟩ := hok hr
    obtain ⟨versions, hsome⟩ := Option.isSome_iff_exists.mp htable
    refine ⟨?_, fun hstrands => by simpa using hleft.mpr hstrands⟩
    rw [hsome, ← versions_eq hsome, hdone.versions, hrest]

theorem sort_nodup (hnames : names.Nodup) : (JavaScript.sort names).Nodup :=
  (JavaScript.sort_perm names).nodup_iff.mpr hnames

theorem run_ran (hnames : names.Nodup) (ha : Holds a names) (w : World σ) :
    Ran a (w.db.pending (JavaScript.sort names)) w ((runMigrations a).run w) := by
  obtain ⟨listing, hlisting, hperm⟩ := ha
  have hran := runMigrations_ran hlisting (w := w)
  rw [JavaScript.sort_eq_of_perm hperm] at hran
  exact hran (sort_nodup hnames)

theorem kept_runs (hnames : names.Nodup) (hdir : ∀ a ∈ attempts, Holds a names)
    (hw : w.db.versions = [] ∧ w.executed = []) :
    Kept (JavaScript.sort names) (Stranded (JavaScript.sort names) attempts w) (runs attempts w) := by
  induction attempts using List.reverseRecOn with
  | nil =>
    refine ⟨?_, fun _ => hw.2.trans hw.1.symm, ?_⟩
    · rw [runs, List.foldl_nil, hw.1]
      exact List.nil_prefix
    · rintro ⟨before, b, hbegin, _⟩
      exact absurd (List.prefix_nil.mp hbegin) (by simp)
  | append_singleton attempts a ih =>
    have hbefore := ih fun a' ha' => hdir a' (List.mem_append_left _ ha')
    have hran := run_ran hnames (hdir a (by simp)) (runs attempts w)
    rw [runs_snoc, stranded_snoc]
    exact (hbefore.ran (sort_nodup hnames) hran).1

/-- Every completed run finds each script executed exactly once, in order, in
exactly the sequences of runs in which none before it stranded a file. What is
recorded is right either way. -/
theorem applied_once_iff (hnames : names.Nodup) (hdir : ∀ a ∈ attempts, Holds a names) {db : Db σ}
    (hdb : db.versions = []) :
    let w : World σ := { db, executed := [] }
    (∀ before a, before ++ [a] <+: attempts → Completes a (runs before w) →
      (runs (before ++ [a]) w).executed = JavaScript.sort names ∧
        ∃ versions, (runs (before ++ [a]) w).db.schemaMigrations = some versions ∧ versions.Perm names) ↔
    ∀ before a, before ++ [a] <+: attempts → Completes a (runs before w) →
      ¬ Stranded (JavaScript.sort names) before w := by
  intro w
  refine forall_congr' fun before => forall_congr' fun a => ?_
  refine forall_congr' fun hbegin => forall_congr' fun hcompletes => ?_
  have hmem : ∀ a' ∈ before ++ [a], Holds a' names := fun a' ha' => hdir a' (hbegin.subset ha')
  have hbefore := kept_runs hnames (fun a' ha' => hmem a' (List.mem_append_left _ ha')) (w := w) ⟨hdb, rfl⟩
  have hran := run_ran hnames (hmem a (by simp)) (runs before w)
  obtain ⟨hafter, hok⟩ := hbefore.ran (sort_nodup hnames) hran
  obtain ⟨htable, hclean⟩ := hok hcompletes
  have hversions := versions_eq htable
  rw [or_iff_left hclean] at hafter
  rw [runs_snoc]
  constructor
  · rintro ⟨honce, _⟩ hstranded
    have hahead := hafter.ahead hstranded
    rw [honce, hversions] at hahead
    exact Nat.lt_irrefl _ hahead
  · intro hnone
    exact ⟨(hafter.same hnone).trans hversions, _, htable, JavaScript.sort_perm names⟩

end

def sampleNames : List String := ["002_create_message_transport_schema.sql", "001_create_identity_schema.sql"]

/-- Each script adds to the schema, and would add again. -/
def sampleAttempt (lost : Option PoolCall) : Attempt (List String) where
  listing := some ("README.md" :: sampleNames)
  script file schema := some (schema ++ [file])
  lost := lost

def sampleWorld : World (List String) := { db := { schema := [], schemaMigrations := none }, executed := [] }

theorem sampleAttempt_holds (lost : Option PoolCall) : Holds (sampleAttempt lost) sampleNames :=
  ⟨_, rfl, by decide⟩

/-- A crash between two files does no harm. -/
theorem sampleRuns_once :
    let stopped := sampleAttempt (some (.selectVersion "002_create_message_transport_schema.sql"))
    (runs [stopped, sampleAttempt none] sampleWorld).executed = JavaScript.sort sampleNames ∧
      ∃ versions, (runs [stopped, sampleAttempt none] sampleWorld).db.schemaMigrations = some versions ∧
        versions.Perm sampleNames := by
  intro stopped
  have hdir : ∀ a ∈ [stopped, sampleAttempt none], Holds a sampleNames := by
    intro a ha
    rcases List.mem_pair.mp ha with rfl | rfl <;> exact sampleAttempt_holds _
  have hclean : ∀ before, before <+: [stopped, sampleAttempt none] →
      ¬ Stranded (JavaScript.sort sampleNames) before sampleWorld := by
    rintro before hbegin ⟨pre, b, hb, hstrands⟩
    obtain ⟨file, _, hlost⟩ := hstrands.lost
    have hmem : b ∈ [stopped, sampleAttempt none] := hbegin.subset (hb.subset (by simp))
    rcases List.mem_pair.mp hmem with rfl | rfl <;> simp [stopped, sampleAttempt] at hlost
  refine (applied_once_iff (by decide) hdir rfl).mpr (fun before a hbegin _ => ?_) [stopped]
    (sampleAttempt none) (List.prefix_refl _) (by decide)
  exact hclean before ((List.prefix_append ..).trans hbegin)

/-- A crash right after the first script: the next run completes and has executed it again. -/
theorem stranded_script_repeated :
    let crashed := sampleAttempt (some (.insertVersion "001_create_identity_schema.sql"))
    Completes (sampleAttempt none) (runs [crashed] sampleWorld) ∧
      (runs [crashed, sampleAttempt none] sampleWorld).executed =
        ["001_create_identity_schema.sql", "001_create_identity_schema.sql",
          "002_create_message_transport_schema.sql"] := by
  decide

end Migrations

end GuffSuff
