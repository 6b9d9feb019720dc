import GuffSuff.ImportGrammar
import GuffSuff.MobileCryptoProvider

/-! The reader of exported states in the mobile application, next to the import
of the library: both walk the same records. -/

namespace GuffSuff

namespace MobileCrypto

structure RestoredOpaqueHandle where
  handleId : Int64
  handleType : Int64
  isActive : Bool
  deriving DecidableEq, Repr

namespace NativeAndroid

open NativeBoundary

/-- `byteData.getUint32(offset, Endian.little)`; `none` is a `RangeError`. -/
def getUint32 (byteData : List UInt8) (offset : Nat) : Option Nat :=
  (subslice byteData offset (offset + 4)).map fromLeBytes

/-- `byteData.getUint64(offset, Endian.little)`: from `2 ^ 63` on the `int` is negative. -/
def getUint64 (byteData : List UInt8) (offset : Nat) : Option Int64 :=
  (subslice byteData offset (offset + 8)).map fun bytes => (UInt64.ofNat (fromLeBytes bytes)).toInt64

def parseRecords (stateData : List UInt8) :
    Nat → Nat → List RestoredOpaqueHandle → Option (List RestoredOpaqueHandle)
  | 0, _, list => some list
  | count + 1, offset, list =>
    if stateData.length < offset + 10 then some list
    else do
      let handleId ← getUint64 stateData offset
      let handleType ← stateData[offset + 8]?
      let active ← stateData[offset + 9]?
      parseRecords stateData count (offset + 10)
        (list ++ [{ handleId, handleType := ofByte handleType, isActive := active ≠ 0 }])

/-- `none` is a `RangeError` of one of the reads. -/
def parseExportedState (stateData : List UInt8) : Option (List RestoredOpaqueHandle) :=
  if stateData.length < 8 then some []
  else do
    let count ← getUint32 stateData 4
    parseRecords stateData count 8 []

/-- The map that a caller folds the records into. -/
def handleMap (list : List RestoredOpaqueHandle) : AList (fun _ : UInt64 => Int64 × Bool) :=
  list.foldl (fun m r => m.insert r.handleId.toUInt64 (r.handleType, r.isActive)) ∅

def recorded (e : HandleEntry) : Int64 × Bool := (ofByte e.handleType.toByte, e.isActive)

def restoredRecord (stateData : List UInt8) (offset : Nat) : RestoredOpaqueHandle where
  handleId := (recordId stateData offset).toInt64
  handleType := ofByte (typeByte stateData offset)
  isActive := activeByte stateData offset ≠ 0

def restoredRecords (stateData : List UInt8) (offset n : Nat) : List RestoredOpaqueHandle :=
  (List.range n).map fun i => restoredRecord stateData (offset + 10 * i)

section
variable {stateData : List UInt8} {offset : Nat}

theorem getUint64_of_room (h : offset + 8 ≤ stateData.length) :
    getUint64 stateData offset = some (recordId stateData offset).toInt64 := by
  rw [getUint64, subslice, if_pos h, Option.map_some, Nat.add_sub_cancel_left, recordId]

theorem getUint32_of_room (h : offset + 4 ≤ stateData.length) :
    getUint32 stateData offset = some (fromLeBytes ((stateData.drop offset).take 4)) := by
  rw [getUint32, subslice, if_pos h, Option.map_some, Nat.add_sub_cancel_left]

theorem restoredRecords_succ (stateData : List UInt8) (offset n : Nat) :
    restoredRecords stateData offset (n + 1) =
      restoredRecord stateData offset :: restoredRecords stateData (offset + 10) n :=
  map_records_succ _ offset n

/-- The guard of the loop covers each of its reads. -/
theorem parseRecords_total (stateData : List UInt8) (count offset : Nat) (list : List RestoredOpaqueHandle) :
    parseRecords stateData count offset list =
      some (list ++ restoredRecords stateData offset (min count ((stateData.length - offset) / 10))) := by
  induction count generalizing offset list with
  | zero => simp [parseRecords, restoredRecords]
  | succ count ih =>
    unfold parseRecords
    split
    · rename_i hend
      have hnone : (stateData.length - offset) / 10 = 0 := by omega
      simp [hnone, restoredRecords]
    · rename_i hend
      have hroom : offset + 10 ≤ stateData.length := Nat.not_lt.mp hend
      have hid : getUint64 stateData offset = some (recordId stateData offset).toInt64 :=
        getUint64_of_room (by omega)
      have htype : stateData[offset + 8]? = some (typeByte stateData offset) := getElem?_of_lt (by omega)
      have hactive : stateData[offset + 9]? = some (activeByte stateData offset) := getElem?_of_lt (by omega)
      have hcount : min (count + 1) ((stateData.length - offset) / 10) =
          min count ((stateData.length - (offset + 10)) / 10) + 1 := by omega
      simp only [hid, htype, hactive, bind, Option.bind]
      rw [ih, hcount, restoredRecords_succ, List.append_assoc]
      rfl

theorem parseExportedState_short (h : stateData.length < 8) : parseExportedState stateData = some [] :=
  if_pos h

theorem parseExportedState_records (h : 8 ≤ stateData.length) : parseExportedState stateData =
    some (restoredRecords stateData 8 (min (stateCount stateData) ((stateData.length - 8) / 10))) := by
  have hcount : getUint32 stateData 4 = some (stateCount stateData) := getUint32_of_room (by omega)
  rw [parseExportedState, if_neg (Nat.not_lt.mpr h)]
  simp only [hcount, bind, Option.bind]
  exact parseRecords_total stateData _ 8 []

theorem restoredRecords_length (stateData : List UInt8) (offset n : Nat) :
    (restoredRecords stateData offset n).length = n := by
  simp [restoredRecords]

end

/-- A record and the pair that the import inserts for the same bytes. -/
structure Reads (r : RestoredOpaqueHandle) (p : UInt64 × HandleEntry) : Prop where
  id : r.handleId.toUInt64 = p.1
  entry : (r.handleType, r.isActive) = recorded p.2

section
variable {bytes : List UInt8} {offset n : Nat}

theorem reads_wellFormed (h : WellFormed bytes offset) :
    Reads (restoredRecord bytes offset) (parsedRecord bytes offset) := by
  obtain ⟨t, ht⟩ := mem_types_iff.mp h.type
  have htype : t.toByte = typeByte bytes offset := ofByte_eq_some_iff.mp ht
  refine ⟨UInt64.toUInt64_toInt64 _, ?_⟩
  rw [restoredRecord, parsedRecord, ht, Option.getD_some, ← htype]
  rfl

theorem reads_records (h : ∀ i < n, WellFormed bytes (offset + 10 * i)) :
    List.Forall₂ Reads (restoredRecords bytes offset n) (parsedRecords bytes offset n) := by
  rw [restoredRecords, parsedRecords, List.forall₂_map_left_iff, List.forall₂_map_right_iff,
    List.forall₂_same]
  exact fun i hi => reads_wellFormed (h i (List.mem_range.mp hi))

/-- Both maps are filled in the order of the records, so the same record wins in each. -/
theorem lookup_foldl_insert {list : List RestoredOpaqueHandle} {entries : List (UInt64 × HandleEntry)}
    (hreads : List.Forall₂ Reads list entries) (m : AList (fun _ : UInt64 => Int64 × Bool))
    (handles : Handles) (hm : ∀ id, m.lookup id = (handles.lookup id).map recorded) (id : UInt64) :
    (list.foldl (fun m r => m.insert r.handleId.toUInt64 (r.handleType, r.isActive)) m).lookup id =
      ((restore entries handles).lookup id).map recorded := by
  induction hreads generalizing m handles with
  | nil => exact hm id
  | @cons r p list entries hr _ ih =>
    refine ih _ (handles.insert p.1 (newEntry p.2.handleType p.2.isActive)) fun id' => ?_
    dsimp only
    rw [hr.id, hr.entry]
    by_cases hid : id' = p.1
    · subst hid
      rw [AList.lookup_insert, AList.lookup_insert]
      rfl
    · rw [AList.lookup_insert_ne hid, AList.lookup_insert_ne hid, hm]

theorem handleMap_records (h : ∀ i < n, WellFormed bytes (8 + 10 * i)) (id : UInt64) :
    (handleMap (restoredRecords bytes 8 n)).lookup id =
      ((restore (parsedRecords bytes 8 n) ∅).lookup id).map recorded :=
  lookup_foldl_insert (reads_records h) ∅ ∅ (fun _ => rfl) id

end

section
variable {mem : Nat → UInt8} {inLen : Nat} {b : Boundary}

theorem parse_of_accepted (hsuccess : (importOpaqueTestState (some mem) inLen b).2.code = .success) :
    let bytes := fromRawParts mem inLen
    parseExportedState bytes = some (restoredRecords bytes 8 (stateCount bytes)) ∧
      ∀ id, (handleMap (restoredRecords bytes 8 (stateCount bytes))).lookup id =
        ((importOpaqueTestState (some mem) inLen b).1.handles.lookup id).map recorded := by
  intro bytes
  have hlen : bytes.length = inLen := fromRawParts_length mem inLen
  cases hp : b.poisoned with
  | true =>
    obtain ⟨code, hcode, himport⟩ := import_poisoned hp (some mem) inLen
    rw [himport] at hsuccess
    exact absurd hsuccess hcode
  | false =>
    by_cases h : 8 ≤ inLen ∧ stateVersion bytes = boundaryApiVersion.toNat
    · obtain ⟨n, hle, code, hbefore, hhere, _, hcode, himport⟩ := import_records hp h
      rw [himport] at hsuccess
      obtain rfl : n = stateCount bytes := hcode.mp hsuccess
      have hheader : 8 ≤ bytes.length := h.1.trans_eq hlen.symm
      have hroom := ((stops_at_count_iff hheader hle hbefore hhere).mp rfl).1
      have hall : min (stateCount bytes) ((bytes.length - 8) / 10) = stateCount bytes := by omega
      have hparse := parseExportedState_records hheader
      rw [hall] at hparse
      refine ⟨hparse, fun id => ?_⟩
      rw [himport]
      exact handleMap_records hbefore id
    · obtain ⟨code, hcode, himport⟩ := import_header_rejected h b
      rw [himport] at hsuccess
      have hrejected : code = .success := hsuccess
      rcases hcode with rfl | rfl <;> exact absurd hrejected Code.noConfusion

end

section
variable {order : List UInt64} {b : Boundary}

theorem export_wrote {outBuf outLen : OutPtr} {outMaxLen : Nat} {bytes : List UInt8}
    (h : (exportOpaqueTestState order outBuf outMaxLen outLen b).2.outBuf = some bytes) :
    bytes = stateBytes (enumerated order b.handles) := by
  unfold exportOpaqueTestState at h
  split at h
  · exact absurd h (by simp [contained_done, Reply.of])
  · by_cases hp : b.poisoned = true
    · rw [locked_poisoned hp] at h
      exact absurd h (by simp [contained, Reply.of])
    · rw [locked_unpoisoned (eq_false_of_ne_true hp)] at h
      dsimp only at h
      split at h
      · exact absurd h (by simp [contained_done])
      · exact (Option.some.inj h).symm

theorem import_of_export (hb : Countable b) {into : Boundary} (hinto : into.poisoned = false)
    (hmem : fromRawParts mem (stateBytes (enumerated order b.handles)).length =
      stateBytes (enumerated order b.handles)) :
    importOpaqueTestState (some mem) (stateBytes (enumerated order b.handles)).length into =
      ({ into with handles := restore (enumerated order b.handles) ∅, lastErrorCode := .success },
        .of .success) := by
  have hcount : (enumerated order b.handles).length < 2 ^ 32 := by
    rw [length_enumerated]
    exact hb.count
  exact import_stateBytes hmem hcount hinto

end

/-- The two readers of a state agree on all that the library accepts, which is
all that it writes; and the application never reads past the end. -/
theorem parse_agrees_with_import :
    (∀ (mem : Nat → UInt8) (inLen : Nat) (b : Boundary),
      let bytes := fromRawParts mem inLen
      let imported := importOpaqueTestState (some mem) inLen b
      imported.2.code = .success →
      ∃ list, parseExportedState bytes = some list ∧ list.length = stateCount bytes ∧
        ∀ id, (handleMap list).lookup id = (imported.1.handles.lookup id).map recorded) ∧
    (∀ (calls into : List Call) (order : List UInt64) (outBuf outLen : OutPtr) (outMaxLen : Nat)
        (bytes : List UInt8),
      (exportOpaqueTestState order outBuf outMaxLen outLen (process calls).1).2.outBuf = some bytes →
      ∀ mem, fromRawParts mem bytes.length = bytes →
        (importOpaqueTestState (some mem) bytes.length (process into).1).2.code = .success) ∧
    ∀ stateData : List UInt8, ∃ list, parseExportedState stateData = some list ∧
      (stateData.length < 8 → list = []) ∧
      (8 ≤ stateData.length → list.length = min (stateCount stateData) ((stateData.length - 8) / 10)) := by
  refine ⟨fun mem inLen b => ?_, fun calls into order outBuf outLen outMaxLen bytes hwrote mem hmem => ?_,
    fun stateData => ?_⟩
  · intro bytes imported hsuccess
    obtain ⟨hparse, hmap⟩ := parse_of_accepted hsuccess
    exact ⟨_, hparse, restoredRecords_length .., hmap⟩
  · obtain rfl := export_wrote hwrote
    rw [import_of_export (countable_process calls) (countable_process into).unpoisoned hmem]
    rfl
  · by_cases h : stateData.length < 8
    · exact ⟨[], parseExportedState_short h, fun _ => rfl, fun hlong => absurd h (Nat.not_lt.mpr hlong)⟩
    · have hlong : 8 ≤ stateData.length := Nat.not_lt.mp h
      exact ⟨_, parseExportedState_records hlong, fun hshort => absurd hshort h,
        fun _ => restoredRecords_length ..⟩

/-- Two records for the id `2 ^ 63 + 5`, which is negative as an `int`. -/
def sampleWrapped : List UInt8 :=
  [1, 0, 0, 0, 2, 0, 0, 0, 5, 0, 0, 0, 0, 0, 0, 128, 3, 0, 5, 0, 0, 0, 0, 0, 0, 128, 1, 200, 9]

theorem sampleWrapped_agrees :
    ∃ list, parseExportedState sampleWrapped = some list ∧ list.length = 2 ∧
      (handleMap list).lookup 9223372036854775813 = some (1, true) := by
  let mem : Nat → UInt8 := fun i => sampleWrapped.getD i 0
  have hsuccess : (importOpaqueTestState (some mem) 29 .fresh).2.code = .success := by decide
  have hregistry : (importOpaqueTestState (some mem) 29 .fresh).1.handles.lookup 9223372036854775813 =
      some (newEntry .identity true) := by decide
  have hbytes : fromRawParts mem 29 = sampleWrapped := by decide
  obtain ⟨list, hparse, hlength, hmap⟩ := parse_agrees_with_import.1 mem 29 .fresh hsuccess
  rw [hbytes] at hparse hlength
  refine ⟨list, hparse, hlength, ?_⟩
  rw [hmap, hregistry]
  decide

end NativeAndroid

end MobileCrypto

end GuffSuff
