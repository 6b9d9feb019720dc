import Mathlib.Data.List.Perm.Subperm
import GuffSuff.ImportedRecords

/-! Handles created after an import of saved state: the counter is not part of
the state, so a create may hit a restored id. -/

namespace GuffSuff

namespace NativeBoundary

def recordIds (slice : List UInt8) : List UInt64 :=
  (List.range ((u32At slice 4).getD 0).toNat).map fun i => recordId slice (8 + 10 * i)

def Call.importedIds : Call → Option (List UInt64)
  | .importOpaqueTestState (some mem) inLen => some (recordIds (fromRawParts mem inLen))
  | _ => none

def importedIds (calls : List Call) : List UInt64 :=
  ((calls.filterMap Call.importedIds).getLast?).getD []

/-- The id that the counter stands at after the calls: 1000 and one for each handle issued. -/
def nextId (calls : List Call) : UInt64 := UInt64.ofNat (1000 + (issued (process calls).2).length)

def ImportsAccepted (calls : List Call) : Prop :=
  ∀ x ∈ (process calls).2, x.1.imports = true → x.2.code = .success

instance (calls : List Call) : Decidable (ImportsAccepted calls) :=
  inferInstanceAs (Decidable (∀ x ∈ (process calls).2, x.1.imports = true → x.2.code = .success))

structure FreshCreate (b : Boundary) (c : Call) (h : UInt64) : Prop where
  new : h ∉ b.handles
  kept : ∀ h' ∈ b.handles, (c.exec b).1.handles.lookup h' = b.handles.lookup h'

/-- Of each create that a run of calls reaches and that returns an id. -/
def EveryCreate (calls : List Call) (P : List Call → Call → UInt64 → Prop) : Prop :=
  ∀ before c after h, calls = before ++ c :: after →
    (c.exec (process before).1).2.outHandle = some h → P before c h

section
variable {b b' : Boundary} {c : Call} {calls : List Call} {slice : List UInt8}

theorem importedIds_snoc (calls : List Call) (c : Call) :
    importedIds (calls ++ [c]) = (c.importedIds).getD (importedIds calls) := by
  cases hc : c.importedIds <;> simp [importedIds, hc]

theorem import_ids {mem : Nat → UInt8} {inLen : Nat}
    (h : (importOpaqueTestState (some mem) inLen b).2.code = .success) :
    ∀ i, i ∈ (importOpaqueTestState (some mem) inLen b).1.handles ↔
      i ∈ recordIds (fromRawParts mem inLen) := by
  intro i
  rcases import_cases (some mem) inLen b with ⟨code, hcode, himport⟩ |
    ⟨mem', n, code, hmem, hlen, _, hsuccess, himport⟩
  · rw [himport] at h
    exact absurd h hcode
  · obtain rfl := Option.some.inj hmem
    have hreply : (importOpaqueTestState (some mem) inLen b).2.code = code := by rw [himport]; rfl
    have hn : n = stateCount (fromRawParts mem inLen) := hsuccess.mp (hreply.symm.trans h)
    have hroom : 4 + 4 ≤ (fromRawParts mem inLen).length := by
      rw [fromRawParts_length]
      exact hlen
    obtain ⟨count, hat, hcount⟩ := u32At_of_room hroom
    have hids : (parsedRecords (fromRawParts mem inLen) 8 n).map Prod.fst =
        recordIds (fromRawParts mem inLen) := by
      rw [parsedRecords, List.map_map, recordIds, hat, Option.getD_some, hcount, hn]
      rfl
    rw [himport, mem_restore, hids]
    simp

/-- The registry holds the last import and the handles issued since: `first`
is the number of those issued before it. -/
structure Restored (b : Boundary) (calls : List Call) (n : Nat) : Prop where
  counter : b.handleCounter = UInt64.ofNat (1000 + n)
  known : ∃ first ≤ n, n ≤ first + maxHandles ∧ ∀ h, h ∈ b.handles ↔
    h ∈ importedIds calls ∨ ∃ i, first ≤ i ∧ i < n ∧ h = UInt64.ofNat (1000 + i)

theorem ofNat_inj_of_near {i j : Nat} (hij : i < j) (hnear : j ≤ i + maxHandles) :
    UInt64.ofNat (1000 + i) ≠ UInt64.ofNat (1000 + j) := by
  intro heq
  have hnat := congrArg UInt64.toNat heq
  simp only [UInt64.toNat_ofNat'] at hnat
  simp only [maxHandles] at hnear
  omega

theorem issued_le {first n : Nat} (hn : n ≤ first + maxHandles)
    (hknown : ∀ i, first ≤ i → i < n → UInt64.ofNat (1000 + i) ∈ b.handles) :
    n - first ≤ b.handles.keys.length := by
  have hsub : (List.range' first (n - first)).map (fun i => UInt64.ofNat (1000 + i)) ⊆
      b.handles.keys := by
    intro h hh
    obtain ⟨i, hi, rfl⟩ := List.mem_map.mp hh
    rw [List.mem_range'_1] at hi
    exact AList.mem_keys.mp (hknown i hi.1 (by omega))
  have hnd : ((List.range' first (n - first)).map fun i => UInt64.ofNat (1000 + i)).Nodup := by
    rw [List.nodup_map_iff_inj_on List.nodup_range']
    intro i hi j hj heq
    rw [List.mem_range'_1] at hi hj
    by_contra hne
    rcases Nat.lt_or_gt_of_ne hne with hlt | hlt
    · exact ofNat_inj_of_near hlt (by omega) heq
    · exact ofNat_inj_of_near hlt (by omega) heq.symm
  simpa using (hnd.subperm hsub).length_le

namespace Restored
variable {n : Nat}

theorem create (hr : Restored b calls n) (hroom : b.handles.keys.length < maxHandles)
    (hc : c.importedIds = none) (t : HandleType) : Restored
      { b with
        handles := b.handles.insert b.handleCounter (newEntry t true)
        handleCounter := b.handleCounter + 1, lastErrorCode := .success } (calls ++ [c]) (n + 1) := by
  obtain ⟨first, hfirst, hn, hknown⟩ := hr.known
  have hlen := issued_le hn fun i hi hin => (hknown _).mpr (.inr ⟨i, hi, hin, rfl⟩)
  constructor
  case counter =>
    have hnext : b.handleCounter + 1 = UInt64.ofNat (1000 + n + 1) := by
      rw [hr.counter, UInt64.ofNat_add (1000 + n)]
      rfl
    exact hnext
  case known =>
    refine ⟨first, by omega, by omega, fun h => ?_⟩
    rw [AList.mem_insert, hknown, importedIds_snoc, hc, Option.getD_none, hr.counter]
    constructor
    · intro hx
      rcases hx with rfl | hold | ⟨i, hi, hin, rfl⟩
      · exact .inr ⟨n, hfirst, by omega, rfl⟩
      · exact .inl hold
      · exact .inr ⟨i, hi, by omega, rfl⟩
    · intro hx
      rcases hx with hold | ⟨i, hi, hin, rfl⟩
      · exact .inr (.inl hold)
      · by_cases heq : i = n
        · exact .inl (by rw [heq])
        · exact .inr (.inr ⟨i, hi, by omega, rfl⟩)

theorem same (hr : Restored b calls n) (hc : c.importedIds = none)
    (hn : b'.handleCounter = b.handleCounter) (hk : ∀ h, h ∈ b'.handles ↔ h ∈ b.handles) :
    Restored b' (calls ++ [c]) n := by
  obtain ⟨first, hfirst, hle, hknown⟩ := hr.known
  constructor
  case counter => exact hn.trans hr.counter
  case known =>
    refine ⟨first, hfirst, hle, fun h => ?_⟩
    rw [hk, hknown, importedIds_snoc, hc, Option.getD_none]

theorem counter_mem_iff (hr : Restored b calls n) :
    b.handleCounter ∈ b.handles ↔ UInt64.ofNat (1000 + n) ∈ importedIds calls := by
  obtain ⟨first, _, hle, hknown⟩ := hr.known
  rw [hknown, hr.counter]
  constructor
  · intro hx
    rcases hx with hold | ⟨i, hi, hin, heq⟩
    · exact hold
    · exact absurd heq.symm (ofNat_inj_of_near hin (by omega))
  · exact .inl

theorem imported (hr : Restored b calls n) (inBuf : ConstPtr) (inLen : Nat)
    (hcode : (importOpaqueTestState inBuf inLen b).2.code = .success) :
    Restored (importOpaqueTestState inBuf inLen b).1
      (calls ++ [.importOpaqueTestState inBuf inLen]) n := by
  cases inBuf with
  | none => exact absurd hcode (by simp [importOpaqueTestState, contained_done, Reply.of])
  | some mem =>
    obtain ⟨hn, _⟩ := importOpaqueTestState_moves (some mem) inLen b
    refine ⟨hn.trans hr.counter, n, Nat.le_refl n, by omega, fun h => ?_⟩
    rw [importedIds_snoc]
    refine (import_ids hcode h).trans ⟨.inl, fun hx => ?_⟩
    rcases hx with hx | ⟨i, hi, hin, _⟩
    · exact hx
    · omega

theorem importedIds_of_not_imports (hc : c.imports = false) : c.importedIds = none := by
  cases c with
  | importOpaqueTestState inBuf inLen => exact absurd hc (by simp [Call.imports])
  | _ => rfl

theorem step (hr : Restored b calls n)
    (hacc : c.imports = true → (c.exec b).2.code = .success) :
    Restored (c.exec b).1 (calls ++ [c]) (n + (issue (c, (c.exec b).2)).toList.length) := by
  by_cases himp : c.imports = true
  · cases c with
    | importOpaqueTestState inBuf inLen => exact hr.imported inBuf inLen (hacc himp)
    | _ => exact absurd himp Bool.false_ne_true
  · have hnone := importedIds_of_not_imports (eq_false_of_ne_true himp)
    have hmoves := c.moves b
    generalize (c.exec b).1 = b' at hmoves
    generalize (c.exec b).2 = r at hmoves
    cases hmoves with
    | created c t hc _ hroom hb =>
      rw [issue_of_creates hc, hb]
      exact hr.create hroom hnone t
    | disposed h e he _ hb =>
      subst hb
      have hmem : h ∈ b.handles := mem_of_lookup he
      refine hr.same hnone rfl fun h' => ?_
      rw [AList.mem_insert, or_iff_right_of_imp]
      intro heq
      exact heq ▸ hmem
    | replaced c r hc => exact absurd hc himp
    | idle c r code hb hout =>
      rw [issue_of_outHandle hout, hb]
      exact hr.same hnone rfl fun _ => Iff.rfl

end Restored

/-- The run lemma: one call at a time, with every import accepted. -/
theorem restored_process (calls : List Call) (hacc : ImportsAccepted calls) :
    Restored (process calls).1 calls (issued (process calls).2).length := by
  induction calls using List.reverseRecOn with
  | nil =>
    refine ⟨rfl, 0, Nat.le_refl 0, Nat.zero_le _, fun h => ?_⟩
    simp [process, Boundary.fresh, importedIds, issued]
  | append_singleton calls c ih =>
    have hr := ih fun x hx => hacc x (by rw [process_snoc]; exact List.mem_append_left _ hx)
    have hlast := hacc (c, (c.exec (process calls).1).2) (by rw [process_snoc]; simp)
    rw [process_snoc, issued_snoc, List.length_append]
    exact hr.step hlast

theorem created_of_outHandle {h : UInt64} (hout : (c.exec b).2.outHandle = some h) :
    h = b.handleCounter ∧ ∃ t, (c.exec b).1.handles = b.handles.insert h (newEntry t true) := by
  have hmoves := c.moves b
  generalize (c.exec b).1 = b' at hmoves
  generalize (c.exec b).2 = r at hmoves hout
  cases hmoves with
  | created c t _ _ _ hb =>
    obtain rfl := Option.some.inj hout
    exact ⟨rfl, t, by rw [hb]⟩
  | disposed => exact absurd hout (by simp [Reply.of])
  | replaced c r _ _ hr => exact absurd (hr.symm.trans hout) (by simp)
  | idle c r code _ hr => exact absurd (hr.symm.trans hout) (by simp)

theorem freshCreate_iff {h : UInt64} (hout : (c.exec b).2.outHandle = some h) :
    FreshCreate b c h ↔ h ∉ b.handles := by
  constructor
  · exact FreshCreate.new
  · intro hnew
    obtain ⟨_, t, hb⟩ := created_of_outHandle hout
    refine ⟨hnew, fun h' hh' => ?_⟩
    rw [hb, AList.lookup_insert_ne]
    intro heq
    exact hnew (heq ▸ hh')

theorem ImportsAccepted.earlier {more : List Call} (h : ImportsAccepted (calls ++ more)) :
    ImportsAccepted calls := by
  intro x hx
  obtain ⟨hist, hhist⟩ := process_append calls more
  apply h x
  rw [hhist]
  exact List.mem_append_left _ hx

/-- In every run, each create returns a fresh id exactly when the counter does
not stand at an id of the last import. -/
theorem creates_fresh_iff (calls : List Call) (hacc : ImportsAccepted calls) :
    EveryCreate calls fun before c h =>
      (FreshCreate (process before).1 c h ↔ nextId before ∉ importedIds before) := by
  intro before c after h hcalls hout
  rw [hcalls] at hacc
  have hr := restored_process before hacc.earlier
  obtain ⟨hid, _⟩ := created_of_outHandle hout
  rw [freshCreate_iff hout, hid, hr.counter_mem_iff, nextId]

end

/-- What a process saves that created identity handle 1000 and disposed it. -/
def sampleState : List UInt8 := stateBytes [(1000, newEntry .identity false)]

def sampleImport : Call := .importOpaqueTestState (some fun i => sampleState.getD i 0) 18

def laterState : List UInt8 := stateBytes [(1001, newEntry .identity false)]

def laterImport : Call := .importOpaqueTestState (some fun i => laterState.getD i 0) 18

/-- With 1001 restored, the first create is fresh and the second is not. -/
theorem laterImport_fresh_once :
    let calls := [laterImport, .createTestSessionHandle .valid, .createTestSessionHandle .valid]
    FreshCreate (process [laterImport]).1 (.createTestSessionHandle .valid) 1000 ∧
      ¬ FreshCreate (process (calls.take 2)).1 (.createTestSessionHandle .valid) 1001 := by
  intro calls
  have hevery := creates_fresh_iff calls (by decide)
  constructor
  · exact (hevery [laterImport] (.createTestSessionHandle .valid) [.createTestSessionHandle .valid]
      1000 rfl (by decide)).mpr (by decide)
  · intro hfresh
    exact (hevery (calls.take 2) (.createTestSessionHandle .valid) [] 1001 rfl (by decide)).mp hfresh
      (by decide)

/-- A disposed identity handle comes back to life as a session. -/
theorem restored_handle_overwritten :
    let exported := (process [.createTestIdentityHandle .valid, .disposeHandle 1000,
      .exportOpaqueTestState [1000] .valid 18 .valid]).2
    let b := (process [sampleImport]).1
    exported.getLast?.bind (fun x => x.2.outBuf) = some sampleState ∧
      ImportsAccepted [sampleImport] ∧ b.handles.lookup 1000 = some (newEntry .identity false) ∧
      (createTestSessionHandle .valid b).2 = .issued 1000 ∧
      (createTestSessionHandle .valid b).1.handles.lookup 1000 = some (newEntry .session true) := by
  decide

end NativeBoundary

end GuffSuff
