import Mathlib.Algebra.Ring.Nat
import GuffSuff.BoundaryMoves

/-! The records of an imported state: the loop reads them up to the first
malformed one, into a registry that is already cleared. -/

namespace GuffSuff

namespace NativeBoundary

def recordId (slice : List UInt8) (offset : Nat) : UInt64 :=
  UInt64.ofNat (fromLeBytes ((slice.drop offset).take 8))

def stateVersion (bytes : List UInt8) : Nat := fromLeBytes (bytes.take 4)

def stateCount (bytes : List UInt8) : Nat := fromLeBytes ((bytes.drop 4).take 4)

def typeByte (bytes : List UInt8) (offset : Nat) : UInt8 := bytes.getD (offset + 8) 0

def activeByte (bytes : List UInt8) (offset : Nat) : UInt8 := bytes.getD (offset + 9) 0

structure WellFormed (bytes : List UInt8) (offset : Nat) : Prop where
  room : offset + 10 ≤ bytes.length
  type : typeByte bytes offset ∈ [1, 2, 3]

instance (bytes : List UInt8) (offset : Nat) : Decidable (WellFormed bytes offset) :=
  decidable_of_iff (offset + 10 ≤ bytes.length ∧ typeByte bytes offset ∈ [1, 2, 3])
    ⟨fun h => ⟨h.1, h.2⟩, fun h => ⟨h.room, h.type⟩⟩

def parsedRecord (bytes : List UInt8) (offset : Nat) : UInt64 × HandleEntry :=
  (recordId bytes offset, newEntry ((HandleType.ofByte (typeByte bytes offset)).getD .group)
    (activeByte bytes offset ≠ 0))

def parsedRecords (bytes : List UInt8) (offset n : Nat) : List (UInt64 × HandleEntry) :=
  (List.range n).map fun i => parsedRecord bytes (offset + 10 * i)

/-- Repeated insertion, as the loop of the import does it. -/
def restore (entries : List (UInt64 × HandleEntry)) (handles : Handles) : Handles :=
  entries.foldl (fun hs p => hs.insert p.1 (newEntry p.2.handleType p.2.isActive)) handles

theorem mem_restore {entries : List (UInt64 × HandleEntry)} {handles : Handles} {id : UInt64} :
    id ∈ restore entries handles ↔ id ∈ entries.map Prod.fst ∨ id ∈ handles := by
  induction entries generalizing handles with
  | nil => simp [restore]
  | cons p entries ih =>
    refine ih.trans ?_
    rw [AList.mem_insert, List.map_cons, List.mem_cons, or_assoc, or_left_comm]

theorem keys_restore_le (entries : List (UInt64 × HandleEntry)) (handles : Handles) :
    (restore entries handles).keys.length ≤ handles.keys.length + entries.length := by
  induction entries generalizing handles with
  | nil => exact Nat.le_refl _
  | cons p entries ih =>
    have hrest := ih (handles.insert p.1 (newEntry p.2.handleType p.2.isActive))
    have hone := keys_insert_le handles p.1 (newEntry p.2.handleType p.2.isActive)
    rw [List.length_cons]
    exact Nat.le_trans hrest (by omega)

theorem toLeBytes_length (n v : Nat) : (toLeBytes n v).length = n := by
  induction n generalizing v with
  | zero => rfl
  | succ n ih => simp [toLeBytes, ih]

theorem fromLeBytes_toLeBytes (n v : Nat) : fromLeBytes (toLeBytes n v) = v % 256 ^ n := by
  induction n generalizing v with
  | zero => simp [toLeBytes, fromLeBytes, Nat.mod_one]
  | succ n ih =>
    have hbyte : (UInt8.ofNat v).toNat = v % 256 := by simp
    have hrest : fromLeBytes (toLeBytes n (v / 256)) = v / 256 % 256 ^ n := ih (v / 256)
    calc
      fromLeBytes (toLeBytes (n + 1) v) = v % 256 + 256 * fromLeBytes (toLeBytes n (v / 256)) := by
        rw [← hbyte]
        rfl
      _ = v % 256 ^ (n + 1) := by rw [hrest, Nat.pow_succ', Nat.mod_mul]

theorem fromLeBytes_u64 (v : UInt64) : UInt64.ofNat (fromLeBytes (toLeBytes 8 v.toNat)) = v := by
  have hv : v.toNat % 256 ^ 8 = v.toNat := Nat.mod_eq_of_lt v.toNat_lt
  rw [fromLeBytes_toLeBytes, hv, UInt64.ofNat_toNat]

theorem fromLeBytes_u32 (v : UInt32) : UInt32.ofNat (fromLeBytes (toLeBytes 4 v.toNat)) = v := by
  have hv : v.toNat % 256 ^ 4 = v.toNat := Nat.mod_eq_of_lt v.toNat_lt
  rw [fromLeBytes_toLeBytes, hv, UInt32.ofNat_toNat]

theorem HandleType.ofByte_toByte (t : HandleType) : HandleType.ofByte t.toByte = some t := by
  cases t <;> rfl

theorem u32At_of_drop {slice rest : List UInt8} {i : Nat} {v : UInt32}
    (h : slice.drop i = toLeBytes 4 v.toNat ++ rest) : u32At slice i = some v := by
  have hat : ∀ j, slice[i + j]? = (toLeBytes 4 v.toNat ++ rest)[j]? := by
    intro j
    rw [← List.getElem?_drop, h]
  have hv := fromLeBytes_u32 v
  simp only [toLeBytes] at hat hv
  have h0 : slice[i]? = some (UInt8.ofNat v.toNat) := hat 0
  have h1 := hat 1
  have h2 := hat 2
  have h3 := hat 3
  simp only [List.cons_append, List.getElem?_cons_succ, List.getElem?_cons_zero] at h1 h2 h3
  simp only [u32At, h0, h1, h2, h3, bind, Option.bind, hv]
  rfl

section
variable {bytes : List UInt8} {offset n : Nat} {b : Boundary}

theorem toLeBytes_fromLeBytes (bytes : List UInt8) :
    toLeBytes bytes.length (fromLeBytes bytes) = bytes := by
  induction bytes with
  | nil => rfl
  | cons x bytes ih =>
    have hv : fromLeBytes (x :: bytes) = x.toNat + 256 * fromLeBytes bytes := rfl
    have hx : x.toNat < 256 := x.toNat_lt
    have hbyte : UInt8.ofNat (x.toNat + 256 * fromLeBytes bytes) = x := by
      apply UInt8.toNat_inj.mp
      rw [UInt8.toNat_ofNat']
      omega
    have hrest : (x.toNat + 256 * fromLeBytes bytes) / 256 = fromLeBytes bytes := by omega
    rw [List.length_cons, toLeBytes, hv, hbyte, hrest, ih]

theorem fromLeBytes_lt (bytes : List UInt8) : fromLeBytes bytes < 256 ^ bytes.length := by
  have hpos : 0 < 256 ^ bytes.length := Nat.pow_pos (by decide)
  have hlt := Nat.mod_lt (fromLeBytes bytes) hpos
  rwa [← fromLeBytes_toLeBytes, toLeBytes_fromLeBytes] at hlt

theorem stateCount_lt (bytes : List UInt8) : stateCount bytes < 2 ^ 32 := by
  have hlt := fromLeBytes_lt ((bytes.drop 4).take 4)
  have hpow : 256 ^ ((bytes.drop 4).take 4).length ≤ 256 ^ 4 :=
    Nat.pow_le_pow_right (by decide) (List.length_take_le ..)
  exact Nat.lt_of_lt_of_le hlt hpow

theorem u32At_of_room (h : offset + 4 ≤ bytes.length) :
    ∃ v, u32At bytes offset = some v ∧ v.toNat = fromLeBytes ((bytes.drop offset).take 4) := by
  have hlen : ((bytes.drop offset).take 4).length = 4 := by
    rw [List.length_take, List.length_drop]
    omega
  have hlt := fromLeBytes_lt ((bytes.drop offset).take 4)
  rw [hlen] at hlt
  have hv : (UInt32.ofNat (fromLeBytes ((bytes.drop offset).take 4))).toNat =
      fromLeBytes ((bytes.drop offset).take 4) := UInt32.toNat_ofNat_of_lt' hlt
  have hbytes := toLeBytes_fromLeBytes ((bytes.drop offset).take 4)
  rw [hlen] at hbytes
  have hdrop : bytes.drop offset =
      toLeBytes 4 (UInt32.ofNat (fromLeBytes ((bytes.drop offset).take 4))).toNat ++
        (bytes.drop offset).drop 4 := by
    rw [hv, hbytes, List.take_append_drop]
  exact ⟨_, u32At_of_drop hdrop, hv⟩

theorem ofByte_eq_some_iff {x : UInt8} {t : HandleType} :
    HandleType.ofByte x = some t ↔ t.toByte = x := by
  constructor
  · intro h
    unfold HandleType.ofByte at h
    split_ifs at h with h1 h2 h3
    · rw [← Option.some.inj h, h1]
      rfl
    · rw [← Option.some.inj h, h2]
      rfl
    · rw [← Option.some.inj h, h3]
      rfl
  · rintro rfl
    exact HandleType.ofByte_toByte t

theorem mem_types_iff {x : UInt8} : x ∈ [1, 2, 3] ↔ ∃ t, HandleType.ofByte x = some t := by
  simp only [ofByte_eq_some_iff, List.mem_cons, List.not_mem_nil, or_false]
  constructor
  · rintro (rfl | rfl | rfl)
    · exact ⟨.identity, rfl⟩
    · exact ⟨.session, rfl⟩
    · exact ⟨.group, rfl⟩
  · rintro ⟨t, rfl⟩
    cases t <;> simp [HandleType.toByte]

theorem getElem?_of_lt {i : Nat} (h : i < bytes.length) : bytes[i]? = some (bytes.getD i 0) := by
  rw [List.getD_eq_getElem?_getD, List.getElem?_eq_getElem h, Option.getD_some]

theorem importRecords_wellFormed (h : WellFormed bytes offset) (hsize : offset + 10 ≤ usizeMax) :
    importRecords bytes bytes.length (n + 1) offset b =
      importRecords bytes bytes.length n (offset + 10)
        { b with handles := b.handles.insert (parsedRecord bytes offset).1 (parsedRecord bytes offset).2 } := by
  obtain ⟨t, ht⟩ := mem_types_iff.mp h.type
  have hroom := h.room
  have hadd : checkedAdd offset 10 = some (offset + 10) := if_pos hsize
  have hstop : ¬ bytes.length < offset + 10 := Nat.not_lt.mpr hroom
  have hid : subslice bytes offset (offset + 8) = some ((bytes.drop offset).take 8) := by
    rw [subslice, if_pos (by omega), Nat.add_sub_cancel_left]
  have htype : bytes[offset + 8]? = some (typeByte bytes offset) := getElem?_of_lt (by omega)
  have hactive : bytes[offset + 9]? = some (activeByte bytes offset) := getElem?_of_lt (by omega)
  conv_lhs => unfold importRecords
  simp only [hadd, hid, htype, hactive, unwrap, hstop, ht, if_false, bind, Except.bind, parsedRecord,
    recordId, Option.getD_some]

theorem importRecords_malformed (h : ¬ WellFormed bytes offset) (hsize : offset + 10 ≤ usizeMax) :
    importRecords bytes bytes.length (n + 1) offset b = .ok (b, .invalidState) := by
  have hadd : checkedAdd offset 10 = some (offset + 10) := if_pos hsize
  unfold importRecords
  simp only [hadd, unwrap, bind, Except.bind]
  split
  · rfl
  · rename_i hroom
    have hid : subslice bytes offset (offset + 8) = some ((bytes.drop offset).take 8) := by
      rw [subslice, if_pos (by omega), Nat.add_sub_cancel_left]
    have htype : bytes[offset + 8]? = some (typeByte bytes offset) := getElem?_of_lt (by omega)
    simp only [hid, htype]
    cases ht : HandleType.ofByte (typeByte bytes offset) with
    | none => rfl
    | some t => exact absurd ⟨Nat.not_lt.mp hroom, mem_types_iff.mpr ⟨t, ht⟩⟩ h

theorem map_records_succ {α : Type} (f : Nat → α) (offset n : Nat) :
    ((List.range (n + 1)).map fun i => f (offset + 10 * i)) =
      f offset :: (List.range n).map fun i => f (offset + 10 + 10 * i) := by
  rw [List.range_succ_eq_map, List.map_cons, List.map_map]
  simp only [Function.comp_def, Nat.succ_eq_add_one, Nat.mul_add, Nat.mul_zero, Nat.add_zero, Nat.mul_one,
    Nat.add_assoc, Nat.add_comm 10]

theorem parsedRecords_succ (bytes : List UInt8) (offset n : Nat) : parsedRecords bytes offset (n + 1) =
    parsedRecord bytes offset :: parsedRecords bytes (offset + 10) n := map_records_succ _ offset n

theorem parsedRecords_length (bytes : List UInt8) (offset n : Nat) :
    (parsedRecords bytes offset n).length = n := by
  simp [parsedRecords]

/-- The loop never panics: it stops at the first malformed record. -/
theorem importRecords_stops (bytes : List UInt8) (count offset : Nat) (b : Boundary)
    (hsize : offset + 10 * count ≤ usizeMax) :
    ∃ n ≤ count, (∀ i < n, WellFormed bytes (offset + 10 * i)) ∧
      (n < count → ¬ WellFormed bytes (offset + 10 * n)) ∧
      importRecords bytes bytes.length count offset b =
        .ok ({ b with handles := restore (parsedRecords bytes offset n) b.handles },
          if n = count then .success else .invalidState) := by
  induction count generalizing offset b with
  | zero => exact ⟨0, Nat.le_refl 0, by simp, by simp, rfl⟩
  | succ count ih =>
    by_cases h : WellFormed bytes offset
    · obtain ⟨n, hle, hbefore, hhere, heq⟩ := ih (offset + 10)
        { b with handles := b.handles.insert (parsedRecord bytes offset).1 (parsedRecord bytes offset).2 }
        (by omega)
      have hshift : ∀ i, offset + 10 * (i + 1) = offset + 10 + 10 * i := fun i => by omega
      refine ⟨n + 1, Nat.succ_le_succ hle, ?_, ?_, ?_⟩
      · intro i hi
        cases i with
        | zero => exact h
        | succ i =>
          rw [hshift]
          exact hbefore i (Nat.lt_of_succ_lt_succ hi)
      · intro hlt
        rw [hshift]
        exact hhere (Nat.lt_of_succ_lt_succ hlt)
      · rw [importRecords_wellFormed h (by omega), heq, parsedRecords_succ]
        simp only [Nat.succ_inj]
        rfl
    · refine ⟨0, Nat.zero_le _, by simp, fun _ => h, ?_⟩
      rw [importRecords_malformed h (by omega)]
      rfl

end

section
variable {mem : Nat → UInt8} {inLen : Nat} {b : Boundary}

theorem fromRawParts_length (mem : Nat → UInt8) (inLen : Nat) : (fromRawParts mem inLen).length = inLen := by
  simp [fromRawParts]

theorem fromRawParts_getD (bytes : List UInt8) :
    fromRawParts (fun i => bytes.getD i 0) bytes.length = bytes := by
  apply List.ext_getElem (fromRawParts_length _ _)
  intro i _ hi
  simp [fromRawParts, hi]

theorem import_header_rejected
    (h : ¬ (8 ≤ inLen ∧ stateVersion (fromRawParts mem inLen) = boundaryApiVersion.toNat)) (b : Boundary) :
    ∃ code, (code = .invalidState ∨ code = .versionMismatch) ∧
      importOpaqueTestState (some mem) inLen b = ({ b with lastErrorCode := code }, .of code) := by
  by_cases hshort : inLen < 8
  · refine ⟨.invalidState, .inl rfl, ?_⟩
    simp only [importOpaqueTestState, hshort, if_true]
    rfl
  · have hlen := fromRawParts_length mem inLen
    have hroom : 0 + 4 ≤ (fromRawParts mem inLen).length := by omega
    obtain ⟨version, hat, hversion⟩ := u32At_of_room hroom
    have hne : version ≠ boundaryApiVersion := by
      rintro rfl
      exact h ⟨Nat.not_lt.mp hshort, hversion.symm⟩
    refine ⟨.versionMismatch, .inr rfl, ?_⟩
    simp only [importOpaqueTestState, hshort, if_false, hat, unwrap, bind, Except.bind, ne_eq, hne,
      not_false_iff, if_true]
    rfl

theorem import_locked
    (h : 8 ≤ inLen ∧ stateVersion (fromRawParts mem inLen) = boundaryApiVersion.toNat) (b : Boundary) :
    ∃ count : UInt32, count.toNat = stateCount (fromRawParts mem inLen) ∧
      importOpaqueTestState (some mem) inLen b = contained (do
        let (b, code) ← locked b
          (importRecords (fromRawParts mem inLen) inLen count.toNat 8 { b with handles := ∅ })
        done b (.of code)) := by
  have hlen := fromRawParts_length mem inLen
  have hroom0 : 0 + 4 ≤ (fromRawParts mem inLen).length := by omega
  have hroom4 : 4 + 4 ≤ (fromRawParts mem inLen).length := by omega
  obtain ⟨version, hat0, hversion⟩ := u32At_of_room hroom0
  obtain ⟨count, hat4, hcount⟩ := u32At_of_room hroom4
  have hone : version = boundaryApiVersion := UInt32.toNat_inj.mp (hversion.trans h.2)
  have hshort : ¬ inLen < 8 := Nat.not_lt.mpr h.1
  refine ⟨count, hcount, ?_⟩
  simp only [importOpaqueTestState, hshort, if_false, hat0, hat4, hone, unwrap, bind, Except.bind, ne_eq,
    not_true_eq_false]

theorem stopped_code (n count : Nat) :
    (if n = count then Code.success else .invalidState) ≠ .panicContained ∧
      ((if n = count then Code.success else .invalidState) = .success ↔ n = count) := by
  split <;> simp [*]

theorem import_records (hp : b.poisoned = false)
    (h : 8 ≤ inLen ∧ stateVersion (fromRawParts mem inLen) = boundaryApiVersion.toNat) :
    ∃ n ≤ stateCount (fromRawParts mem inLen), ∃ code : Code,
      (∀ i < n, WellFormed (fromRawParts mem inLen) (8 + 10 * i)) ∧
      (n < stateCount (fromRawParts mem inLen) → ¬ WellFormed (fromRawParts mem inLen) (8 + 10 * n)) ∧
      code ≠ .panicContained ∧ (code = .success ↔ n = stateCount (fromRawParts mem inLen)) ∧
      importOpaqueTestState (some mem) inLen b =
        ({ b with handles := restore (parsedRecords (fromRawParts mem inLen) 8 n) ∅,
                  lastErrorCode := code }, .of code) := by
  obtain ⟨count, hcount, himport⟩ := import_locked h b
  have hlt := count.toNat_lt
  have hsize : 8 + 10 * count.toNat ≤ usizeMax := by
    simp only [usizeMax]
    omega
  obtain ⟨n, hle, hbefore, hhere, hloop⟩ :=
    importRecords_stops (fromRawParts mem inLen) count.toNat 8 { b with handles := ∅ } hsize
  rw [fromRawParts_length] at hloop
  rw [locked_unpoisoned hp, hloop] at himport
  obtain ⟨hcontained, hsuccess⟩ := stopped_code n count.toNat
  rw [← hcount]
  exact ⟨n, hle, _, hbefore, hhere, hcontained, hsuccess, himport⟩

theorem import_poisoned (hp : b.poisoned = true) (inBuf : ConstPtr) (inLen : Nat) :
    ∃ code, code ≠ .success ∧
      importOpaqueTestState inBuf inLen b = ({ b with lastErrorCode := code }, .of code) := by
  cases inBuf with
  | none => exact ⟨.nullPointer, Code.noConfusion, rfl⟩
  | some mem =>
    by_cases h : 8 ≤ inLen ∧ stateVersion (fromRawParts mem inLen) = boundaryApiVersion.toNat
    · obtain ⟨count, _, himport⟩ := import_locked h b
      rw [locked_poisoned hp] at himport
      exact ⟨.panicContained, Code.noConfusion, himport⟩
    · obtain ⟨code, hcode, himport⟩ := import_header_rejected h b
      refine ⟨code, ?_, himport⟩
      rcases hcode with rfl | rfl <;> exact Code.noConfusion

/-- What an import can do, said once. -/
theorem import_cases (inBuf : ConstPtr) (inLen : Nat) (b : Boundary) :
    (∃ code, code ≠ .success ∧
      importOpaqueTestState inBuf inLen b = ({ b with lastErrorCode := code }, .of code)) ∨
    ∃ mem n code, inBuf = some mem ∧ 8 ≤ inLen ∧ n ≤ stateCount (fromRawParts mem inLen) ∧
      (code = .success ↔ n = stateCount (fromRawParts mem inLen)) ∧
      importOpaqueTestState inBuf inLen b =
        ({ b with handles := restore (parsedRecords (fromRawParts mem inLen) 8 n) ∅,
                  lastErrorCode := code }, .of code) := by
  by_cases hp : b.poisoned = true
  · exact .inl (import_poisoned hp inBuf inLen)
  · cases inBuf with
    | none => exact .inl ⟨.nullPointer, Code.noConfusion, rfl⟩
    | some mem =>
      by_cases h : 8 ≤ inLen ∧ stateVersion (fromRawParts mem inLen) = boundaryApiVersion.toNat
      · obtain ⟨n, hle, code, _, _, _, hsuccess, himport⟩ := import_records (eq_false_of_ne_true hp) h
        exact .inr ⟨mem, n, code, rfl, h.1, hle, hsuccess, himport⟩
      · obtain ⟨code, hcode, himport⟩ := import_header_rejected h b
        refine .inl ⟨code, ?_, himport⟩
        rcases hcode with rfl | rfl <;> exact Code.noConfusion

end

end NativeBoundary

end GuffSuff
