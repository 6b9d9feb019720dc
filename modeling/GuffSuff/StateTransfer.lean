import Mathlib.Data.Set.Basic
import GuffSuff.ImportedRecords

/-! The exported state of a registry and its import: reading the records of any
enumeration of the hash map restores the map. -/

namespace GuffSuff

namespace NativeBoundary

/-- The entries of the registry with what the state keeps of them. -/
def Boundary.registered (b : Boundary) : Set (UInt64 × HandleType × Bool) :=
  {x | ∃ e, b.handles.lookup x.1 = some e ∧ x.2 = (e.handleType, e.isActive)}

theorem recordBytes_length (id : UInt64) (entry : HandleEntry) : (recordBytes id entry).length = 10 := by
  simp [recordBytes, toLeBytes_length]

theorem records_length (entries : List (UInt64 × HandleEntry)) :
    (entries.flatMap fun p => recordBytes p.1 p.2).length = 10 * entries.length := by
  induction entries with
  | nil => rfl
  | cons p entries ih =>
    rw [List.flatMap_cons, List.length_append, ih, recordBytes_length, List.length_cons]
    omega

theorem stateBytes_length (entries : List (UInt64 × HandleEntry)) :
    (stateBytes entries).length = 8 + 10 * entries.length := by
  rw [stateBytes, List.length_append, List.length_append, records_length, toLeBytes_length,
    toLeBytes_length]

section
variable {order : List UInt64} {handles : Handles}

theorem ids_enumerated (order : List UInt64) (handles : Handles) :
    ((enumerated order handles).map Prod.fst).Perm handles.keys := by
  unfold enumerated
  split
  · rename_i hperm
    have horder := List.isPerm_iff.mp hperm
    have hids : (order.filterMap fun id => (handles.lookup id).map fun entry => (id, entry)).map
        Prod.fst = order := by
      rw [List.map_filterMap]
      have hsome : ∀ id ∈ order, ((handles.lookup id).map fun entry => (id, entry)).map Prod.fst =
          some id := by
        intro id hid
        have hmem : id ∈ handles := AList.mem_keys.mpr (horder.subset hid)
        obtain ⟨e, he⟩ := Option.isSome_iff_exists.mp (AList.lookup_isSome.mpr hmem)
        simp [he]
      rw [List.filterMap_congr hsome, List.filterMap_some]
    rw [hids]
    exact horder
  · rw [List.map_map]
    exact .refl _

theorem mem_enumerated {id : UInt64} {entry : HandleEntry} :
    (id, entry) ∈ enumerated order handles ↔ handles.lookup id = some entry := by
  unfold enumerated
  split
  · rename_i hperm
    have horder := List.isPerm_iff.mp hperm
    simp only [List.mem_filterMap, Option.map_eq_some_iff, Prod.mk.injEq]
    constructor
    · intro h
      obtain ⟨_, _, _, he, rfl, rfl⟩ := h
      exact he
    · intro he
      have hmem : id ∈ handles := mem_of_lookup he
      exact ⟨id, horder.symm.subset hmem, entry, he, rfl, rfl⟩
  · simp only [List.mem_map, Prod.mk.injEq, Sigma.exists]
    constructor
    · intro h
      obtain ⟨_, _, hmem, rfl, rfl⟩ := h
      exact AList.mem_lookup_iff.mpr hmem
    · intro he
      exact ⟨id, entry, AList.mem_lookup_iff.mp he, rfl, rfl⟩

theorem length_enumerated (order : List UInt64) (handles : Handles) :
    (enumerated order handles).length = handles.keys.length := by
  simpa using (ids_enumerated order handles).length_eq

end

section
variable {entries : List (UInt64 × HandleEntry)} {handles : Handles}

theorem restore_lookup_of_not_mem {h : UInt64} (hh : h ∉ entries.map Prod.fst) (handles : Handles) :
    (restore entries handles).lookup h = handles.lookup h := by
  induction entries generalizing handles with
  | nil => rfl
  | cons p entries ih =>
    rw [List.map_cons, List.mem_cons, not_or] at hh
    have hstep : (restore (p :: entries) handles).lookup h =
        (handles.insert p.1 (newEntry p.2.handleType p.2.isActive)).lookup h := ih hh.2 _
    rw [hstep, AList.lookup_insert_ne hh.1]

theorem restore_lookup_of_mem (hnd : (entries.map Prod.fst).Nodup) {h : UInt64} {e : HandleEntry}
    (hh : (h, e) ∈ entries) (handles : Handles) :
    (restore entries handles).lookup h = some (newEntry e.handleType e.isActive) := by
  induction entries generalizing handles with
  | nil => exact absurd hh List.not_mem_nil
  | cons p entries ih =>
    rw [List.map_cons, List.nodup_cons] at hnd
    rcases List.mem_cons.mp hh with rfl | hh
    · have hstep : (restore ((h, e) :: entries) handles).lookup h =
          (handles.insert h (newEntry e.handleType e.isActive)).lookup h :=
        restore_lookup_of_not_mem hnd.1 _
      rw [hstep, AList.lookup_insert]
    · exact ih hnd.2 hh _

end

section
variable {slice pre rest : List UInt8} {b : Boundary}

theorem parsedRecord_recordBytes {id : UInt64} {entry : HandleEntry}
    (hslice : slice = pre ++ (recordBytes id entry ++ rest)) :
    WellFormed slice pre.length ∧
      parsedRecord slice pre.length = (id, newEntry entry.handleType entry.isActive) := by
  have hlen : slice.length = pre.length + (10 + rest.length) := by
    rw [hslice, List.length_append, List.length_append, recordBytes_length]
  have hdrop : slice.drop pre.length = recordBytes id entry ++ rest := by
    rw [hslice, List.drop_left]
  have hid : recordId slice pre.length = id := by
    rw [recordId, hdrop, recordBytes, List.append_assoc, List.take_left' (toLeBytes_length 8 id.toNat),
      fromLeBytes_u64]
  have hat : ∀ i, slice.getD (pre.length + i) 0 = (recordBytes id entry ++ rest).getD i 0 := by
    intro i
    rw [List.getD_eq_getElem?_getD, List.getD_eq_getElem?_getD, ← List.getElem?_drop, hdrop]
  have htype : typeByte slice pre.length = entry.handleType.toByte := by
    rw [typeByte, hat]
    simp [recordBytes, toLeBytes]
  have hactive : activeByte slice pre.length = if entry.isActive then 1 else 0 := by
    rw [activeByte, hat]
    simp [recordBytes, toLeBytes]
  have hflag : decide ((if entry.isActive then (1 : UInt8) else 0) ≠ 0) = entry.isActive := by
    cases entry.isActive <;> rfl
  constructor
  · refine ⟨by omega, mem_types_iff.mpr ⟨entry.handleType, ?_⟩⟩
    rw [htype, HandleType.ofByte_toByte]
  · rw [parsedRecord, hid, htype, HandleType.ofByte_toByte, hactive, hflag, Option.getD_some]

theorem importRecords_records (entries : List (UInt64 × HandleEntry))
    (hslice : slice = pre ++ entries.flatMap fun p => recordBytes p.1 p.2)
    (hsize : slice.length ≤ usizeMax) :
    importRecords slice slice.length entries.length pre.length b =
      .ok ({ b with handles := restore entries b.handles }, .success) := by
  induction entries generalizing pre b with
  | nil => rfl
  | cons p entries ih =>
    have hnext : slice = (pre ++ recordBytes p.1 p.2) ++ entries.flatMap fun p => recordBytes p.1 p.2 := by
      rw [hslice, List.flatMap_cons, List.append_assoc]
    have hpos : (pre ++ recordBytes p.1 p.2).length = pre.length + 10 := by
      rw [List.length_append, recordBytes_length]
    have hrest := ih (b := { b with
      handles := b.handles.insert p.1 (newEntry p.2.handleType p.2.isActive) }) hnext
    rw [hpos] at hrest
    obtain ⟨hwf, hparsed⟩ := parsedRecord_recordBytes hslice
    have hroom := hwf.room
    rw [List.length_cons, importRecords_wellFormed hwf (Nat.le_trans hroom hsize), hparsed, hrest]
    rfl

end

theorem u32At_count (entries : List (UInt64 × HandleEntry)) :
    u32At (stateBytes entries) 4 = some (UInt32.ofNat entries.length) := by
  apply u32At_of_drop
  rw [stateBytes, List.append_assoc, List.drop_left' (toLeBytes_length 4 _)]

theorem import_stateBytes {entries : List (UInt64 × HandleEntry)} {mem : Nat → UInt8} {b : Boundary}
    (hmem : fromRawParts mem (stateBytes entries).length = stateBytes entries)
    (hcount : entries.length < 2 ^ 32) (hp : b.poisoned = false) :
    importOpaqueTestState (some mem) (stateBytes entries).length b =
      ({ b with handles := restore entries ∅, lastErrorCode := .success }, .of .success) := by
  have hlen := stateBytes_length entries
  have hversion : u32At (stateBytes entries) 0 = some boundaryApiVersion := by
    apply u32At_of_drop
    rw [List.drop_zero, stateBytes, List.append_assoc]
  have hn := u32At_count entries
  have hlength : (UInt32.ofNat entries.length).toNat = entries.length :=
    UInt32.toNat_ofNat_of_lt' hcount
  have hfits : (stateBytes entries).length ≤ usizeMax := by
    simp only [usizeMax]
    omega
  have hloop := importRecords_records (b := { b with handles := ∅ }) entries
    (rfl : stateBytes entries = (toLeBytes 4 boundaryApiVersion.toNat ++
      toLeBytes 4 (UInt32.ofNat entries.length).toNat) ++ _) hfits
  rw [List.length_append, toLeBytes_length, toLeBytes_length] at hloop
  have hshort : ¬ (stateBytes entries).length < 8 := by omega
  simp only [importOpaqueTestState, hshort, if_false, hmem, hversion, hn, unwrap, bind, Except.bind,
    ne_eq, not_true_eq_false, locked_unpoisoned hp, hlength, hloop]
  rfl

/-- No panic has poisoned the lock, and the number of entries fits into a `u32`. -/
structure Countable (b : Boundary) : Prop where
  unpoisoned : b.poisoned = false
  count : b.handles.keys.length < 2 ^ 32

theorem import_countable (inBuf : ConstPtr) (inLen : Nat) {b : Boundary} (hb : Countable b) :
    Countable (importOpaqueTestState inBuf inLen b).1 := by
  rcases import_cases inBuf inLen b with ⟨code, _, himport⟩ | ⟨mem, n, code, _, _, hle, _, himport⟩
  · rw [himport]
    exact ⟨hb.unpoisoned, hb.count⟩
  · rw [himport]
    refine ⟨hb.unpoisoned, ?_⟩
    have hkeys := keys_restore_le (parsedRecords (fromRawParts mem inLen) 8 n) ∅
    have hempty : (∅ : Handles).keys.length = 0 := rfl
    rw [hempty, parsedRecords_length] at hkeys
    exact Nat.lt_of_le_of_lt (hkeys.trans (by omega)) (stateCount_lt (fromRawParts mem inLen))

theorem Countable.step {b : Boundary} (hb : Countable b) (c : Call) : Countable (c.exec b).1 := by
  have hmoves := c.moves b
  generalize hb' : (c.exec b).1 = b' at hmoves
  generalize (c.exec b).2 = r at hmoves
  cases hmoves with
  | created _ t hc hp hroom heq =>
    subst heq
    refine ⟨hp, ?_⟩
    have hle := keys_insert_le b.handles b.handleCounter (newEntry t true)
    simp only [maxHandles] at hroom
    dsimp only
    omega
  | disposed h e he ha heq =>
    subst heq
    refine ⟨hb.unpoisoned, ?_⟩
    have hmem : h ∈ b.handles := mem_of_lookup he
    rw [keys_insert_of_mem hmem]
    exact hb.count
  | replaced _ _ hc hn hr =>
    cases c with
    | importOpaqueTestState inBuf inLen => exact hb' ▸ import_countable inBuf inLen hb
    | _ => exact absurd hc (by simp [Call.imports])
  | idle _ _ code heq hr hd =>
    subst heq
    exact ⟨hb.unpoisoned, hb.count⟩

theorem countable_process (calls : List Call) : Countable (process calls).1 := by
  induction calls using List.reverseRecOn with
  | nil => exact ⟨rfl, by decide⟩
  | append_singleton calls c ih =>
    rw [process_snoc]
    exact ih.step c

theorem registered_restore {order : List UInt64} {b b' : Boundary}
    (hb' : b'.handles = restore (enumerated order b.handles) ∅) : b'.registered = b.registered := by
  have hnd : ((enumerated order b.handles).map Prod.fst).Nodup :=
    (ids_enumerated order b.handles).nodup_iff.mpr b.handles.nodupKeys
  ext ⟨h, t, active⟩
  simp only [Boundary.registered, Set.mem_ofPred_eq, hb']
  cases hb : b.handles.lookup h with
  | none =>
    have hout : h ∉ (enumerated order b.handles).map Prod.fst := fun hmem =>
      AList.lookup_eq_none.mp hb ((ids_enumerated order b.handles).subset hmem)
    rw [restore_lookup_of_not_mem hout]
    simp
  | some e =>
    rw [restore_lookup_of_mem hnd (mem_enumerated.mpr hb)]
    simp [newEntry]

theorem export_state {order : List UInt64} {outMaxLen : Nat} {b : Boundary} (hp : b.poisoned = false)
    (hroom : (stateBytes (enumerated order b.handles)).length ≤ outMaxLen) :
    (exportOpaqueTestState order .valid outMaxLen .valid b).2 =
      { code := .success, outHandle := none, outBuf := some (stateBytes (enumerated order b.handles)),
        outLen := some (stateBytes (enumerated order b.handles)).length } := by
  have hlarge : ¬ outMaxLen < (stateBytes (enumerated order b.handles)).length := Nat.not_lt.mpr hroom
  simp only [exportOpaqueTestState, locked_unpoisoned hp, hlarge, if_false]
  rfl

/-- Export and import are inverse, for any enumeration of the registry. The
lock of a registry that a process reaches is never poisoned. -/
theorem export_import_inverse (calls : List Call) (order : List UInt64) (outMaxLen : Nat)
    (hroom : 8 + 10 * (process calls).1.handles.keys.length ≤ outMaxLen) :
    let b := (process calls).1
    let n := b.handles.keys.length
    (∃ bytes, (exportOpaqueTestState order .valid outMaxLen .valid b).2 =
        { code := .success, outHandle := none, outBuf := some bytes, outLen := some (8 + 10 * n) } ∧
      bytes.length = 8 + 10 * n ∧ (u32At bytes 4).map UInt32.toNat = some n ∧
      ∀ mem, fromRawParts mem (8 + 10 * n) = bytes → ∀ into : Boundary, into.poisoned = false →
        let imported := importOpaqueTestState (some mem) (8 + 10 * n) into
        imported.2.code = .success ∧ imported.1.registered = b.registered) ∧
    ∀ calls' : List Call, (process calls').1.poisoned = false := by
  intro b n
  have hb : Countable b := countable_process calls
  have hcount : (enumerated order b.handles).length = n := length_enumerated order b.handles
  have hlen : (stateBytes (enumerated order b.handles)).length = 8 + 10 * n := by
    rw [stateBytes_length, hcount]
  have hexport := export_state hb.unpoisoned (hlen.trans_le hroom)
  rw [hlen] at hexport
  refine ⟨⟨_, hexport, hlen, ?_, fun mem hmem into hinto => ?_⟩,
    fun calls' => (countable_process calls').unpoisoned⟩
  · have hn : (UInt32.ofNat n).toNat = n := UInt32.toNat_ofNat_of_lt' hb.count
    rw [u32At_count, hcount, Option.map_some, hn]
  · rw [← hlen] at hmem
    have himport := import_stateBytes hmem (hcount ▸ hb.count) hinto
    rw [← hlen, himport]
    exact ⟨rfl, registered_restore rfl⟩

def sampleTransfer : List Call :=
  [.createTestSessionHandle .valid, .createTestIdentityHandle .valid, .disposeHandle 1000]

def sampleExport : List UInt8 :=
  stateBytes [(1001, newEntry .identity true), (1000, newEntry .session false)]

/-- Two handles, one of them disposed, in the order in which they were not issued. -/
theorem sampleHandles_transferred :
    let b := (process sampleTransfer).1
    (importOpaqueTestState (some fun i => sampleExport.getD i 0) 28 .fresh).2.code = .success ∧
      (importOpaqueTestState (some fun i => sampleExport.getD i 0) 28 .fresh).1.registered =
        b.registered := by
  intro b
  obtain ⟨⟨bytes, hexport, _, _, himport⟩, hsound⟩ :=
    export_import_inverse sampleTransfer [1001, 1000] 28 (by decide)
  have hwritten : (exportOpaqueTestState [1001, 1000] .valid 28 .valid b).2.outBuf = some sampleExport := by
    decide
  obtain rfl := Option.some.inj (hwritten.symm.trans (congrArg Reply.outBuf hexport))
  exact himport _ (by decide) .fresh (hsound [])

end NativeBoundary

end GuffSuff
