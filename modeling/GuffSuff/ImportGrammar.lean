import GuffSuff.HandleFreshness
import GuffSuff.StateTransfer

/-! What an import accepts, and what a rejected one leaves: the loop reads the
records up to the first malformed one into a registry that is already cleared. -/

namespace GuffSuff

namespace NativeBoundary

/-- Record `i` is the last of the first `n` records with its id. -/
structure LastRecord (bytes : List UInt8) (n : Nat) (id : UInt64) (i : Nat) : Prop where
  lt : i < n
  id_eq : recordId bytes (8 + 10 * i) = id
  last : ∀ j < n, i < j → recordId bytes (8 + 10 * j) ≠ id

/-- The map obtained from the first `n` records in order. -/
def Listed (bytes : List UInt8) (n : Nat) : Set (UInt64 × HandleType × Bool) :=
  {x | ∃ i, LastRecord bytes n x.1 i ∧ x.2.1.toByte = typeByte bytes (8 + 10 * i) ∧
    x.2.2 = decide (activeByte bytes (8 + 10 * i) ≠ 0)}

structure FirstMalformed (bytes : List UInt8) (n : Nat) : Prop where
  before : ∀ i < n, WellFormed bytes (8 + 10 * i)
  here : ¬ WellFormed bytes (8 + 10 * n)

section
variable {bytes : List UInt8} {offset n : Nat} {b : Boundary}

theorem lastRecord_succ_iff {id : UInt64} {i : Nat} : LastRecord bytes (n + 1) id i ↔
    (i = n ∧ recordId bytes (8 + 10 * n) = id) ∨
      (recordId bytes (8 + 10 * n) ≠ id ∧ LastRecord bytes n id i) := by
  constructor
  · intro h
    by_cases hi : i = n
    · exact .inl ⟨hi, hi ▸ h.id_eq⟩
    · have hlt : i < n := Nat.lt_of_le_of_ne (Nat.le_of_lt_succ h.lt) hi
      exact .inr ⟨h.last n (Nat.lt_succ_self n) hlt, hlt, h.id_eq, fun j hj => h.last j (Nat.lt_succ_of_lt hj)⟩
  · rintro (⟨rfl, hid⟩ | ⟨hne, h⟩)
    · exact ⟨Nat.lt_succ_self i, hid, fun j hj hij => absurd hj (Nat.not_lt.mpr hij)⟩
    · refine ⟨Nat.lt_succ_of_lt h.lt, h.id_eq, fun j hj hij => ?_⟩
      rcases Nat.lt_succ_iff_lt_or_eq.mp hj with hj | rfl
      · exact h.last j hj hij
      · exact hne

/-- A later record for the same id wins. -/
theorem restore_parsedRecords {id : UInt64} {e : HandleEntry} :
    (restore (parsedRecords bytes 8 n) ∅).lookup id = some e ↔
      ∃ i, LastRecord bytes n id i ∧ (parsedRecord bytes (8 + 10 * i)).2 = e := by
  induction n with
  | zero =>
    constructor
    · intro h
      exact absurd h (by simp [parsedRecords, restore])
    · rintro ⟨i, h, _⟩
      exact absurd h.lt (Nat.not_lt_zero i)
  | succ n ih =>
    have hsnoc : restore (parsedRecords bytes 8 (n + 1)) ∅ =
        (restore (parsedRecords bytes 8 n) ∅).insert (recordId bytes (8 + 10 * n))
          (parsedRecord bytes (8 + 10 * n)).2 := by
      rw [parsedRecords, List.range_succ, List.map_append, restore, List.foldl_append]
      rfl
    rw [hsnoc]
    simp only [lastRecord_succ_iff]
    by_cases hid : recordId bytes (8 + 10 * n) = id
    · subst hid
      rw [AList.lookup_insert]
      simp
    · rw [AList.lookup_insert_ne (Ne.symm hid), ih]
      simp [hid]

theorem parsedRecord_eq_iff (h : WellFormed bytes offset) {e : HandleEntry} :
    (parsedRecord bytes offset).2 = e ↔ e.handleType.toByte = typeByte bytes offset ∧
      e.isActive = decide (activeByte bytes offset ≠ 0) ∧ e = newEntry e.handleType e.isActive := by
  obtain ⟨t, ht⟩ := mem_types_iff.mp h.type
  have hparsed : (parsedRecord bytes offset).2 = newEntry t (activeByte bytes offset ≠ 0) := by
    rw [parsedRecord, ht, Option.getD_some]
  rw [hparsed]
  constructor
  · rintro rfl
    exact ⟨ofByte_eq_some_iff.mp ht, rfl, rfl⟩
  · rintro ⟨htype, hactive, he⟩
    have ht' : e.handleType = t := Option.some.inj ((ofByte_eq_some_iff.mpr htype).symm.trans ht)
    rw [he, ht', hactive]

theorem restored_lookup (hwf : ∀ i < n, WellFormed bytes (8 + 10 * i)) {id : UInt64} {e : HandleEntry} :
    (restore (parsedRecords bytes 8 n) ∅).lookup id = some e ↔
      (id, e.handleType, e.isActive) ∈ Listed bytes n ∧ e = newEntry e.handleType e.isActive := by
  rw [restore_parsedRecords]
  constructor
  · rintro ⟨i, hlast, he⟩
    obtain ⟨htype, hactive, hnew⟩ := (parsedRecord_eq_iff (hwf i hlast.lt)).mp he
    exact ⟨⟨i, hlast, htype, hactive⟩, hnew⟩
  · rintro ⟨⟨i, hlast, htype, hactive⟩, hnew⟩
    exact ⟨i, hlast, (parsedRecord_eq_iff (hwf i hlast.lt)).mpr ⟨htype, hactive, hnew⟩⟩

theorem registered_restored (hwf : ∀ i < n, WellFormed bytes (8 + 10 * i))
    (hb : b.handles = restore (parsedRecords bytes 8 n) ∅) : b.registered = Listed bytes n := by
  ext ⟨id, t, active⟩
  simp only [Boundary.registered, hb, Set.mem_ofPred_eq, restored_lookup hwf]
  constructor
  · rintro ⟨e, ⟨hmem, _⟩, heq⟩
    rwa [heq]
  · intro hmem
    exact ⟨newEntry t active, ⟨hmem, rfl⟩, rfl⟩

theorem stops_at_count_iff {count : Nat} (hheader : 8 ≤ bytes.length) (hle : n ≤ count)
    (hbefore : ∀ i < n, WellFormed bytes (8 + 10 * i)) (hhere : n < count → ¬ WellFormed bytes (8 + 10 * n)) :
    n = count ↔ 8 + 10 * count ≤ bytes.length ∧
      ∀ i < count, typeByte bytes (8 + 10 * i) ∈ [1, 2, 3] := by
  constructor
  · rintro rfl
    refine ⟨?_, fun i hi => (hbefore i hi).type⟩
    cases n with
    | zero => exact hheader
    | succ n =>
      have hroom := (hbefore n (Nat.lt_succ_self n)).room
      omega
  · rintro ⟨hroom, htypes⟩
    by_contra hne
    have hlt : n < count := Nat.lt_of_le_of_ne hle hne
    exact hhere hlt ⟨by omega, htypes n hlt⟩

theorem FirstMalformed.unique {m : Nat} (hn : FirstMalformed bytes n) (hm : FirstMalformed bytes m) :
    n = m := by
  rcases Nat.lt_trichotomy n m with h | h | h
  · exact absurd (hm.before n h) hn.here
  · exact h
  · exact absurd (hn.before m h) hm.here

end

section
variable {mem : Nat → UInt8} {inLen : Nat} {b : Boundary}

/-- The import accepts exactly its grammar and never panics. The lock of a
registry that a process reaches is never poisoned. -/
theorem import_accepts_grammar :
    (∀ (mem : Nat → UInt8) (inLen : Nat) (b : Boundary), b.poisoned = false →
      let bytes := fromRawParts mem inLen
      let imported := importOpaqueTestState (some mem) inLen b
      imported.2.code ≠ .panicContained ∧
      (imported.2.code = .success ↔
        8 ≤ inLen ∧ stateVersion bytes = boundaryApiVersion.toNat ∧ 8 + 10 * stateCount bytes ≤ inLen ∧
          ∀ i < stateCount bytes, typeByte bytes (8 + 10 * i) ∈ [1, 2, 3]) ∧
      (imported.2.code = .success → ∀ id e, imported.1.handles.lookup id = some e ↔
        (id, e.handleType, e.isActive) ∈ Listed bytes (stateCount bytes) ∧
          e = newEntry e.handleType e.isActive)) ∧
    ∀ calls : List Call, (process calls).1.poisoned = false := by
  refine ⟨fun mem inLen b hp => ?_, fun calls => (countable_process calls).unpoisoned⟩
  intro bytes imported
  have hlen : bytes.length = inLen := fromRawParts_length mem inLen
  by_cases h : 8 ≤ inLen ∧ stateVersion bytes = boundaryApiVersion.toNat
  · obtain ⟨n, hle, code, hbefore, hhere, hcontained, hsuccess, himport⟩ := import_records hp h
    have hgrammar := stops_at_count_iff (h.1.trans_eq hlen.symm) hle hbefore hhere
    rw [hlen] at hgrammar
    have hreply : imported = _ := himport
    rw [hreply]
    refine ⟨hcontained, ?_, fun hs id e => ?_⟩
    · show code = .success ↔ _
      rw [hsuccess, hgrammar, ← and_assoc]
      exact ⟨fun hg => ⟨h, hg⟩, And.right⟩
    · rw [← hsuccess.mp hs]
      exact restored_lookup hbefore
  · obtain ⟨code, hcode, himport⟩ := import_header_rejected h b
    have hreply : imported.2.code = code := congrArg (fun r => r.2.code) himport
    rcases hcode with rfl | rfl
    all_goals
      have hno : imported.2.code ≠ .success := by
        rw [hreply]
        exact Code.noConfusion
      refine ⟨?_, ⟨fun hs => absurd hs hno, fun hg => absurd ⟨hg.1, hg.2.1⟩ h⟩, fun hs => absurd hs hno⟩
      rw [hreply]
      exact Code.noConfusion

/-- Two records for one id, an odd activity byte in the later one, and a byte too many. -/
def sampleOdd : List UInt8 :=
  [1, 0, 0, 0, 2, 0, 0, 0, 7, 0, 0, 0, 0, 0, 0, 0, 3, 0, 7, 0, 0, 0, 0, 0, 0, 0, 1, 200, 9]

theorem sampleOdd_accepted :
    let imported := importOpaqueTestState (some fun i => sampleOdd.getD i 0) 29 .fresh
    imported.2.code = .success ∧ imported.1.handles.lookup 7 = some (newEntry .identity true) := by
  intro imported
  obtain ⟨_, haccepted, hlookup⟩ :=
    import_accepts_grammar.1 (fun i => sampleOdd.getD i 0) 29 .fresh rfl
  have hsuccess := haccepted.mpr ⟨by decide, by decide, by decide, by decide⟩
  have hlast : LastRecord (fromRawParts (fun i => sampleOdd.getD i 0) 29) 2 7 1 :=
    ⟨by decide, by decide, fun j hj hlt => absurd hj (Nat.not_lt.mpr hlt)⟩
  exact ⟨hsuccess, (hlookup hsuccess 7 _).mpr ⟨⟨1, hlast, by decide, by decide⟩, rfl⟩⟩

/-- Past the header, the condition is about the records before the first malformed one. -/
theorem records_unchanged_iff (hp : b.poisoned = false)
    (h : 8 ≤ inLen ∧ stateVersion (fromRawParts mem inLen) = boundaryApiVersion.toNat) :
    ((importOpaqueTestState (some mem) inLen b).2.code ≠ .success →
        (importOpaqueTestState (some mem) inLen b).1.registered = b.registered) ↔
      ∀ n < stateCount (fromRawParts mem inLen), FirstMalformed (fromRawParts mem inLen) n →
        b.registered = Listed (fromRawParts mem inLen) n := by
  obtain ⟨n, hle, code, hbefore, hhere, _, hsuccess, himport⟩ := import_records hp h
  rw [himport, registered_restored hbefore rfl]
  show (¬ code = .success → _) ↔ _
  rw [hsuccess]
  constructor
  · intro hkept m hm hfirst
    have hlt : n < stateCount (fromRawParts mem inLen) := by
      refine Nat.lt_of_le_of_ne hle fun hn => ?_
      exact hfirst.here (hbefore m (hn ▸ hm))
    have hmn : m = n := hfirst.unique ⟨hbefore, hhere hlt⟩
    rw [hmn]
    exact (hkept (Nat.ne_of_lt hlt)).symm
  · intro hall hne
    have hlt : n < stateCount (fromRawParts mem inLen) := Nat.lt_of_le_of_ne hle hne
    exact (hall n hlt ⟨hbefore, hhere hlt⟩).symm

/-- A rejected import changes nothing exactly when the header was rejected, no
record is malformed, or the registry was what the records before the first
malformed one list. -/
theorem rejected_import_unchanged_iff (inBuf : ConstPtr) (inLen : Nat) (b : Boundary) :
    let imported := importOpaqueTestState inBuf inLen b
    (imported.2.code ≠ .success → imported.1.registered = b.registered) ↔
      b.poisoned = true ∨ inLen < 8 ∨ ∀ mem, inBuf = some mem →
        let bytes := fromRawParts mem inLen
        stateVersion bytes ≠ boundaryApiVersion.toNat ∨
          ∀ n < stateCount bytes, FirstMalformed bytes n → b.registered = Listed bytes n := by
  intro imported
  have hsame : imported.1.handles = b.handles → imported.1.registered = b.registered := by
    intro heq
    rw [Boundary.registered, Boundary.registered, heq]
  cases hp : b.poisoned with
  | true =>
    obtain ⟨code, _, himport⟩ := import_poisoned hp inBuf inLen
    have hkept : imported.1.handles = b.handles := congrArg (fun r => r.1.handles) himport
    exact ⟨fun _ => .inl rfl, fun _ _ => hsame hkept⟩
  | false =>
    cases inBuf with
    | none => exact ⟨fun _ => .inr (.inr fun _ h => absurd h (by simp)), fun _ _ => hsame rfl⟩
    | some mem =>
      by_cases h : 8 ≤ inLen ∧ stateVersion (fromRawParts mem inLen) = boundaryApiVersion.toNat
      · rw [records_unchanged_iff hp h]
        constructor
        · intro hall
          refine .inr (.inr fun mem' hmem' => .inr ?_)
          obtain rfl := Option.some.inj hmem'
          exact hall
        · rintro (hpanic | hshort | hall)
          · exact absurd hpanic Bool.noConfusion
          · exact absurd h.1 (Nat.not_le.mpr hshort)
          · exact (hall mem rfl).resolve_left (not_not_intro h.2)
      · obtain ⟨code, _, himport⟩ := import_header_rejected h b
        have hkept : imported.1.handles = b.handles := congrArg (fun r => r.1.handles) himport
        refine ⟨fun _ => ?_, fun _ _ => hsame hkept⟩
        by_cases hshort : inLen < 8
        · exact .inr (.inl hshort)
        · refine .inr (.inr fun mem' hmem' => .inl fun hversion => ?_)
          obtain rfl := Option.some.inj hmem'
          exact h ⟨Nat.not_lt.mp hshort, hversion⟩

end

def sampleTruncated : List UInt8 := stateBytes [(1000, newEntry .session true)]

/-- Its own saved state without the last byte leaves a process without its handle. -/
theorem sampleTruncated_clears :
    let b := (process [.createTestSessionHandle .valid]).1
    let imported := importOpaqueTestState (some fun i => sampleTruncated.getD i 0) 17 b
    (exportOpaqueTestState [1000] .valid 18 .valid b).2.outBuf = some sampleTruncated ∧
      imported.2.code = .invalidState ∧ (1000, .session, true) ∈ b.registered ∧
      (1000, .session, true) ∉ imported.1.registered := by
  intro b imported
  have hbefore : b.handles.lookup 1000 = some (newEntry .session true) := by decide
  have hafter : imported.1.handles.lookup 1000 = none := by decide
  refine ⟨by decide, by decide, ⟨_, hbefore, rfl⟩, ?_⟩
  rintro ⟨e, he, _⟩
  rw [hafter] at he
  exact absurd he (by simp)

end NativeBoundary

end GuffSuff
