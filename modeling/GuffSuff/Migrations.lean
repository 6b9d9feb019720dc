import Mathlib.Data.List.Infix
import GuffSuff.CodeUnits

/-! The migrations of the database package. Each call of the pool is a statement
of its own: the script of a file is executed by one, and recorded by the next. -/

namespace GuffSuff

namespace Migrations

/-- `schema` is what the scripts change. A file name has at most 255 bytes, so
every version fits into its column. -/
structure Db (σ : Type) where
  schema : σ
  schemaMigrations : Option (List String)

/-- `executed` is history only: the files whose scripts were executed, in order. -/
structure World (σ : Type) where
  db : Db σ
  executed : List String

inductive PoolCall where
  | createTable
  | selectVersion (file : String)
  | script (file : String)
  | insertVersion (file : String)
  | poolEnd
  deriving DecidableEq, Repr

inductive Failure where
  | connectionLost
  | undefinedTable
  | scriptFailed (file : String)
  | duplicateKey (file : String)
  deriving DecidableEq, Repr

/-- What a run meets: how the directory is listed, what the scripts do, and the call before
which it crashes or loses its connection. -/
structure Attempt (σ : Type) where
  listing : Option (List String)
  script : String → σ → Option σ
  lost : Option PoolCall

/-- A run that fails leaves the statements it has executed. -/
structure Migration (σ α : Type) where
  run : World σ → Except Failure α × World σ

instance (σ : Type) : Monad (Migration σ) where
  pure x := ⟨fun w => (.ok x, w)⟩
  bind x k := ⟨fun w =>
    match x.run w with
    | (.ok y, w) => (k y).run w
    | (.error e, w) => (.error e, w)⟩

section
variable {σ : Type} (a : Attempt σ)

/-- A call of the pool takes effect as a whole or not at all. -/
def Attempt.send {α : Type} (call : PoolCall) (effect : World σ → Except Failure (α × World σ)) :
    Migration σ α where
  run w :=
    if a.lost = some call then (.error .connectionLost, w)
    else
      match effect w with
      | .ok (x, w) => (.ok x, w)
      | .error e => (.error e, w)

/-- `CREATE TABLE IF NOT EXISTS schema_migrations`. -/
def createTable : Migration σ Unit := a.send .createTable fun w =>
  .ok ((), { w with db := { w.db with schemaMigrations := some (w.db.schemaMigrations.getD []) } })

def selectVersion (file : String) : Migration σ (List String) := a.send (.selectVersion file) fun w =>
  match w.db.schemaMigrations with
  | none => .error .undefinedTable
  | some versions => .ok (versions.filter fun version => version = file, w)

/-- `await pool.query(sql)`. -/
def querySql (file : String) : Migration σ Unit := a.send (.script file) fun w =>
  match a.script file w.db.schema with
  | none => .error (.scriptFailed file)
  | some schema => .ok ((), { db := { w.db with schema }, executed := w.executed ++ [file] })

def insertVersion (file : String) : Migration σ Unit := a.send (.insertVersion file) fun w =>
  match w.db.schemaMigrations with
  | none => .error .undefinedTable
  | some versions =>
    if file ∈ versions then .error (.duplicateKey file)
    else .ok ((), { w with db := { w.db with schemaMigrations := some (versions ++ [file]) } })

def poolEnd : Migration σ Unit := a.send .poolEnd fun w => .ok ((), w)

def applyMigrations : List String → Migration σ Unit
  | [] => pure ()
  | file :: files => do
    let rows ← selectVersion a file
    if rows.length = 0 then do
      querySql a file
      insertVersion a file
      applyMigrations files
    else applyMigrations files

def isSql (f : String) : Bool := ".sql".toList.isSuffixOf f.toList

/-- After a failure `pool.end()` changes nothing either. -/
def runMigrations : Migration σ Unit := do
  createTable a
  match a.listing with
  | none => poolEnd a
  | some names => do
    applyMigrations a (JavaScript.sort (names.filter isSql))
    poolEnd a

end

/-- The recorded versions; none before the table is there. -/
def Db.versions {σ : Type} (db : Db σ) : List String := db.schemaMigrations.getD []

def Db.pending {σ : Type} (db : Db σ) (files : List String) : List String :=
  files.filter fun file => file ∉ db.versions

/-- The run executes the script of a pending file and is cut off before it records the file. -/
def Attempt.Strands {σ : Type} (a : Attempt σ) (pending : List String) (schema : σ) : Prop :=
  ∃ applied file rest, pending = applied ++ file :: rest ∧ a.lost = some (.insertVersion file) ∧
    ((applied ++ [file]).foldlM (fun schema file => a.script file schema) schema).isSome = true

section
variable {σ α β : Type} {a : Attempt σ} {w w' : World σ} {file : String} {files pending : List String}

theorem bind_ok {x : Migration σ α} {y : α} (h : x.run w = (.ok y, w')) (k : α → Migration σ β) :
    (x >>= k).run w = (k y).run w' := by
  simp only [bind, h]

theorem bind_error {x : Migration σ α} {e : Failure} (h : x.run w = (.error e, w'))
    (k : α → Migration σ β) : (x >>= k).run w = (.error e, w') := by
  simp only [bind, h]

theorem send_lost {call : PoolCall} (h : a.lost = some call)
    (effect : World σ → Except Failure (α × World σ)) :
    (a.send call effect).run w = (.error .connectionLost, w) := if_pos h

theorem not_strands_nil (schema : σ) : ¬ a.Strands [] schema := by
  rintro ⟨applied, file, rest, heq, _⟩
  exact absurd heq (by simp)

theorem Attempt.Strands.lost {schema : σ} (h : a.Strands pending schema) :
    ∃ file ∈ pending, a.lost = some (.insertVersion file) := by
  obtain ⟨applied, file, rest, rfl, hlost, _⟩ := h
  exact ⟨file, by simp, hlost⟩

theorem not_strands_of_lost {call : PoolCall} {schema : σ} (h : a.lost = some call)
    (hcall : ∀ file, call ≠ .insertVersion file) : ¬ a.Strands pending schema := by
  intro hstrands
  obtain ⟨file, _, hlost⟩ := hstrands.lost
  exact hcall file (Option.some.inj (h.symm.trans hlost))

theorem strands_cons {schema : σ} : a.Strands (file :: pending) schema ↔
    ∃ schema', a.script file schema = some schema' ∧
      (a.lost = some (.insertVersion file) ∨ a.Strands pending schema') := by
  constructor
  · rintro ⟨applied, file', rest, heq, hlost, hscripts⟩
    cases applied with
    | nil =>
      obtain ⟨rfl, rfl⟩ := List.cons.inj heq
      obtain ⟨schema', hschema'⟩ := Option.isSome_iff_exists.mp hscripts
      refine ⟨schema', ?_, .inl hlost⟩
      simpa using hschema'
    | cons file'' applied =>
      obtain ⟨rfl, rfl⟩ := List.cons.inj heq
      rw [List.cons_append, List.foldlM_cons] at hscripts
      cases hscript : a.script file schema with
      | none => simp [hscript] at hscripts
      | some schema' =>
        rw [hscript] at hscripts
        exact ⟨schema', rfl, .inr ⟨applied, file', rest, rfl, hlost, hscripts⟩⟩
  · rintro ⟨schema', hscript, hlost | ⟨applied, file', rest, rfl, hlost, hscripts⟩⟩
    · exact ⟨[], file, pending, rfl, hlost, by simp [hscript]⟩
    · refine ⟨file :: applied, file', rest, rfl, hlost, ?_⟩
      rw [List.cons_append, List.foldlM_cons, hscript]
      exact hscripts

theorem createTable_ok (h : a.lost ≠ some .createTable) : (createTable a).run w =
    (.ok (), { w with db := { w.db with schemaMigrations := some w.db.versions } }) := if_neg h

theorem poolEnd_ok (h : a.lost ≠ some .poolEnd) : (poolEnd a).run w = (.ok (), w) := if_neg h

section
variable {versions : List String} (hw : w.db.schemaMigrations = some versions)
include hw

theorem versions_eq : w.db.versions = versions := by
  rw [Db.versions, hw, Option.getD_some]

theorem selectVersion_ok (h : a.lost ≠ some (.selectVersion file)) :
    (selectVersion a file).run w = (.ok (versions.filter fun version => version = file), w) := by
  simp only [selectVersion, Attempt.send, if_neg h, hw]

theorem querySql_ok (h : a.lost ≠ some (.script file)) {schema : σ}
    (hscript : a.script file w.db.schema = some schema) : (querySql a file).run w =
      (.ok (), { db := ⟨schema, some versions⟩, executed := w.executed ++ [file] }) := by
  simp only [querySql, Attempt.send, if_neg h, hscript, hw]

theorem insertVersion_ok (h : a.lost ≠ some (.insertVersion file)) (hnew : file ∉ versions) :
    (insertVersion a file).run w =
      (.ok (), { w with db := { w.db with schemaMigrations := some (versions ++ [file]) } }) := by
  simp only [insertVersion, Attempt.send, if_neg h, hw, if_neg hnew]

end

theorem querySql_failed (h : a.lost ≠ some (.script file)) (hscript : a.script file w.db.schema = none) :
    (querySql a file).run w = (.error (.scriptFailed file), w) := by
  simp only [querySql, Attempt.send, if_neg h, hscript]

/-- What a run did: the scripts it executed and recorded, and the one that it executed only. -/
structure Applied (w : World σ) (applied : List String) (stranded : Option String) (w' : World σ) : Prop where
  executed : w'.executed = w.executed ++ applied ++ stranded.toList
  versions : w'.db.versions = w.db.versions ++ applied

/-- A run with the files `pending` to apply started in `w` and ended in `r`. -/
def Ran (a : Attempt σ) (pending : List String) (w : World σ) (r : Except Failure Unit × World σ) : Prop :=
  ∃ applied stranded, Applied w applied stranded r.2 ∧ applied <+: pending ∧
    (r.1 = .ok () → applied = pending ∧ stranded = none ∧ r.2.db.schemaMigrations.isSome = true) ∧
    (stranded.isSome = true ↔ a.Strands pending w.db.schema)

theorem Ran.stopped (h : ¬ a.Strands pending w.db.schema) (e : Failure) : Ran a pending w (.error e, w) :=
  ⟨[], none, ⟨by simp, by simp⟩, List.nil_prefix, fun hok => absurd hok (by simp), by simp [h]⟩

/-- Cut off before any other call than an INSERT, a run leaves everything as it was. -/
theorem Ran.cut {call : PoolCall} (h : a.lost = some call) (hcall : ∀ file, call ≠ .insertVersion file)
    (effect : World σ → Except Failure (α × World σ)) (k : α → Migration σ Unit) :
    Ran a pending w ((a.send call effect >>= k).run w) := by
  rw [bind_error (send_lost h effect)]
  exact .stopped (not_strands_of_lost h hcall) _

theorem Ran.finished (h : w.db.schemaMigrations.isSome = true) : Ran a [] w (.ok (), w) :=
  ⟨[], none, ⟨by simp, by simp⟩, List.nil_prefix, fun _ => ⟨rfl, rfl, h⟩, by simp [not_strands_nil]⟩

section
variable {schema : σ} {versions : List String} (hw : w.db.schemaMigrations = some versions)
  (hscript : a.script file w.db.schema = some schema)
include hw hscript

theorem Ran.stranded (hlost : a.lost = some (.insertVersion file)) (e : Failure) :
    Ran a (file :: pending) w
      (.error e, { db := ⟨schema, some versions⟩, executed := w.executed ++ [file] }) := by
  have hstrands : a.Strands (file :: pending) w.db.schema := strands_cons.mpr ⟨schema, hscript, .inl hlost⟩
  refine ⟨[], some file, ⟨by simp, ?_⟩, List.nil_prefix, fun hok => absurd hok (by simp), by simp [hstrands]⟩
  rw [versions_eq hw, List.append_nil]
  rfl

theorem Ran.recorded (hlost : a.lost ≠ some (.insertVersion file)) {r : Except Failure Unit × World σ}
    (h : Ran a pending { db := ⟨schema, some (versions ++ [file])⟩, executed := w.executed ++ [file] } r) :
    Ran a (file :: pending) w r := by
  obtain ⟨applied, stranded, hdone, hpre, hok, hstranded⟩ := h
  refine ⟨file :: applied, stranded, ⟨?_, ?_⟩, List.cons_prefix_cons.mpr ⟨rfl, hpre⟩, fun hr => ?_, ?_⟩
  · rw [hdone.executed]
    simp
  · rw [hdone.versions, versions_eq hw]
    simp [Db.versions]
  · obtain ⟨rfl, hrest⟩ := hok hr
    exact ⟨rfl, hrest⟩
  · rw [hstranded, strands_cons]
    simp [hscript, hlost]

end

/-- One turn of the loop: the script, its record, and what comes after them. -/
theorem apply_ran {versions : List String} (hw : w.db.schemaMigrations = some versions)
    (hnew : file ∉ versions) {next : Migration σ Unit}
    (hnext : ∀ w' : World σ, w'.db.schemaMigrations = some (versions ++ [file]) →
      Ran a pending w' (next.run w')) :
    Ran a (file :: pending) w
      ((querySql a file >>= fun _ => insertVersion a file >>= fun _ => next).run w) := by
  by_cases hquery : a.lost = some (.script file)
  · exact .cut hquery (by simp) _ _
  · cases hscript : a.script file w.db.schema with
    | none =>
      rw [bind_error (querySql_failed hquery hscript)]
      refine .stopped (fun hstrands => ?_) _
      obtain ⟨schema, hschema, _⟩ := strands_cons.mp hstrands
      simp [hscript] at hschema
    | some schema =>
      rw [bind_ok (querySql_ok hw hquery hscript)]
      by_cases hinsert : a.lost = some (.insertVersion file)
      · let w' : World σ := { db := ⟨schema, some versions⟩, executed := w.executed ++ [file] }
        have hcut : (insertVersion a file).run w' = (.error .connectionLost, w') := send_lost hinsert _
        rw [bind_error hcut]
        exact .stranded hw hscript hinsert _
      · rw [bind_ok (insertVersion_ok rfl hinsert hnew)]
        exact .recorded hw hscript hinsert (hnext _ rfl)

/-- The loop lemma: files that are recorded are skipped, the others applied in order. -/
theorem applyMigrations_ran (hnodup : files.Nodup) {versions : List String}
    (hw : w.db.schemaMigrations = some versions) :
    Ran a (w.db.pending files) w ((applyMigrations a files).run w) := by
  induction files generalizing w versions with
  | nil => exact .finished (by rw [hw]; rfl)
  | cons file files ih =>
    obtain ⟨hfile, hrest⟩ := List.nodup_cons.mp hnodup
    unfold applyMigrations
    by_cases hselect : a.lost = some (.selectVersion file)
    · exact .cut hselect (by simp) _ _
    · rw [bind_ok (selectVersion_ok hw hselect)]
      by_cases hknown : file ∈ versions
      · have hskip : w.db.pending (file :: files) = w.db.pending files := by
          simp [Db.pending, versions_eq hw, hknown]
        have hrows : (versions.filter fun version => version = file).length ≠ 0 := by
          simp [List.filter_eq_nil_iff, hknown]
        rw [if_neg hrows, hskip]
        exact ih hrest hw
      · have hnext : w.db.pending (file :: files) = file :: w.db.pending files := by
          simp [Db.pending, versions_eq hw, hknown]
        have hrows : (versions.filter fun version => version = file).length = 0 := by
          rw [List.length_eq_zero_iff, List.filter_eq_nil_iff]
          intro version hversion
          simpa using ne_of_mem_of_not_mem hversion hknown
        rw [if_pos hrows, hnext]
        refine apply_ran hw hknown fun w' hw' => ?_
        have hsame : w'.db.pending files = w.db.pending files := by
          refine List.filter_congr fun f hf => ?_
          have hne : f ≠ file := ne_of_mem_of_not_mem hf hfile
          simp [versions_eq hw, versions_eq hw', hne]
        rw [← hsame]
        exact ih hrest hw'

theorem Ran.failed {r : Except Failure Unit × World σ} (h : Ran a pending w r) (e : Failure) :
    Ran a pending w (.error e, r.2) := by
  obtain ⟨applied, stranded, hdone, hpre, _, hstranded⟩ := h
  exact ⟨applied, stranded, hdone, hpre, fun hok => absurd hok (by simp), hstranded⟩

theorem Ran.poolEnd {x : Migration σ Unit} (h : Ran a pending w (x.run w)) :
    Ran a pending w ((x >>= fun _ => poolEnd a).run w) := by
  rcases hx : x.run w with ⟨e | _, w'⟩
  · rw [bind_error hx, ← hx]
    exact h
  · rw [bind_ok hx]
    rw [hx] at h
    by_cases hend : a.lost = some .poolEnd
    · have hcut : (Migrations.poolEnd a).run w' = (.error .connectionLost, w') := send_lost hend _
      rw [hcut]
      exact h.failed _
    · rw [poolEnd_ok hend]
      exact h

/-- What a run of the migrations did, whatever it met. -/
theorem runMigrations_ran {names : List String} (hlisting : a.listing = some names)
    (hnodup : (JavaScript.sort (names.filter isSql)).Nodup) (w : World σ) :
    Ran a (w.db.pending (JavaScript.sort (names.filter isSql))) w ((runMigrations a).run w) := by
  unfold runMigrations
  by_cases htable : a.lost = some .createTable
  · exact .cut htable (by simp) _ _
  · rw [bind_ok (createTable_ok htable), hlisting]
    -- the table that the run finds or creates holds the same versions
    obtain ⟨applied, stranded, hdone, hrest⟩ := (applyMigrations_ran (a := a) hnodup
      (w := { w with db := { w.db with schemaMigrations := some w.db.versions } }) rfl).poolEnd
    exact ⟨applied, stranded, ⟨hdone.executed, hdone.versions⟩, hrest⟩

end

end Migrations

end GuffSuff
