import Mathlib.Data.Finset.Card
import GuffSuff.HandleLifecycle
import GuffSuff.StateTransfer

/-! The limit on the entries of the registry. A handle is registered below it
only; an import does not look at it, and a disposed handle keeps its entry. -/

namespace GuffSuff

namespace NativeBoundary

/-- The ids of the records before the first malformed one. -/
def readIds (bytes : List UInt8) : Finset UInt64 :=
  ((Finset.range (stateCount bytes)).filter fun i => ∀ j ≤ i, WellFormed bytes (8 + 10 * j)).image
    fun i => recordId bytes (8 + 10 * i)

theorem keys_restore (entries : List (UInt64 × HandleEntry)) :
    (restore entries ∅).keys.length = (entries.map Prod.fst).toFinset.card := by
  have hkeys : (restore entries ∅).keys.toFinset = (entries.map Prod.fst).toFinset := by
    ext id
    rw [List.mem_toFinset, List.mem_toFinset, ← AList.mem_keys, mem_restore]
    simp
  rw [← hkeys]
  exact (List.toFinset_card_of_nodup (restore entries ∅).nodupKeys).symm

section
variable {bytes : List UInt8} {n : Nat}

theorem readIds_of_stops (hle : n ≤ stateCount bytes) (hbefore : ∀ i < n, WellFormed bytes (8 + 10 * i))
    (hhere : n < stateCount bytes → ¬ WellFormed bytes (8 + 10 * n)) :
    readIds bytes = ((parsedRecords bytes 8 n).map Prod.fst).toFinset := by
  have hread : ∀ i, (i < stateCount bytes ∧ ∀ j ≤ i, WellFormed bytes (8 + 10 * j)) ↔ i < n := by
    intro i
    constructor
    · rintro ⟨hi, hall⟩
      by_contra hni
      have hn : n ≤ i := Nat.not_lt.mp hni
      exact hhere (Nat.lt_of_le_of_lt hn hi) (hall n hn)
    · intro hi
      exact ⟨Nat.lt_of_lt_of_le hi hle, fun j hj => hbefore j (Nat.lt_of_le_of_lt hj hi)⟩
  ext id
  simp only [readIds, Finset.mem_image, Finset.mem_filter, Finset.mem_range, hread, parsedRecords,
    List.mem_toFinset, List.mem_map, List.mem_range, parsedRecord, exists_exists_and_eq_and]

end

section
variable {mem : Nat → UInt8} {inLen : Nat} {b : Boundary} {c : Call}

theorem import_keys (hp : b.poisoned = false)
    (h : 8 ≤ inLen ∧ stateVersion (fromRawParts mem inLen) = boundaryApiVersion.toNat) :
    (importOpaqueTestState (some mem) inLen b).1.handles.keys.length =
      (readIds (fromRawParts mem inLen)).card := by
  obtain ⟨n, hle, code, hbefore, hhere, _, _, himport⟩ := import_records hp h
  rw [himport, readIds_of_stops hle hbefore hhere, ← keys_restore]

theorem keys_exec_le (hc : c.imports = false) (hb : b.handles.keys.length ≤ maxHandles) :
    (c.exec b).1.handles.keys.length ≤ maxHandles := by
  have hmoves := c.moves b
  generalize (c.exec b).1 = b' at hmoves
  generalize (c.exec b).2 = r at hmoves
  cases hmoves with
  | created _ t _ _ hroom heq =>
    rw [heq]
    exact Nat.le_trans (keys_insert_le b.handles b.handleCounter (newEntry t true)) hroom
  | disposed h e he ha heq =>
    have hmem : h ∈ b.handles := mem_of_lookup he
    rw [heq, keys_insert_of_mem hmem]
    exact hb
  | replaced _ _ himp =>
    rw [himp] at hc
    exact absurd hc (by decide)
  | idle _ _ code heq =>
    rw [heq]
    exact hb

/-- An import that accepts the header of its buffer finds no more ids than the limit. -/
def Fits : Call → Prop
  | .importOpaqueTestState (some mem) inLen =>
    8 ≤ inLen → stateVersion (fromRawParts mem inLen) = boundaryApiVersion.toNat →
      (readIds (fromRawParts mem inLen)).card ≤ maxHandles
  | _ => True

theorem exec_within_limit_iff (hp : b.poisoned = false) (hb : b.handles.keys.length ≤ maxHandles) (c : Call) :
    (c.exec b).1.handles.keys.length ≤ maxHandles ↔ Fits c := by
  cases c with
  | importOpaqueTestState inBuf inLen =>
    cases inBuf with
    | none => exact iff_of_true hb trivial
    | some mem =>
      by_cases h : 8 ≤ inLen ∧ stateVersion (fromRawParts mem inLen) = boundaryApiVersion.toNat
      · have hkeys := import_keys hp h
        exact ⟨fun hle _ _ => hkeys ▸ hle, fun hfits => hkeys.trans_le (hfits h.1 h.2)⟩
      · obtain ⟨code, _, himport⟩ := import_header_rejected h b
        have hkept : (importOpaqueTestState (some mem) inLen b).1.handles = b.handles :=
          congrArg (fun r => r.1.handles) himport
        refine iff_of_true (hkept ▸ hb) fun hlong hversion => absurd ⟨hlong, hversion⟩ h
  | _ => exact iff_of_true (keys_exec_le rfl hb) trivial

/-- The registry stays within its limit in exactly the runs whose imports fit. -/
theorem within_limit_iff (calls : List Call) :
    (∀ done, done <+: calls → (process done).1.handles.keys.length ≤ maxHandles) ↔ ∀ c ∈ calls, Fits c := by
  induction calls using List.reverseRecOn with
  | nil =>
    refine iff_of_true (fun done hdone => ?_) (by simp)
    rw [List.prefix_nil.mp hdone]
    exact Nat.zero_le _
  | append_singleton calls c ih =>
    simp only [List.prefix_concat_iff, List.mem_append, List.mem_singleton, or_imp, forall_and,
      forall_eq, ih]
    rw [and_comm]
    refine and_congr_right fun hfits => ?_
    have hbefore := ih.mpr hfits calls (List.prefix_refl _)
    rw [process_snoc]
    exact exec_within_limit_iff (countable_process calls).unpoisoned hbefore c

end

def sampleEntries (n : Nat) : List (UInt64 × HandleEntry) :=
  (List.range n).map fun i => (UInt64.ofNat i, newEntry .session true)

theorem keys_restore_sample {n : Nat} (hn : n ≤ 2 ^ 32) : (restore (sampleEntries n) ∅).keys.length = n := by
  have hids : (sampleEntries n).map Prod.fst = (List.range n).map UInt64.ofNat := by simp [sampleEntries]
  have hnodup : ((List.range n).map UInt64.ofNat).Nodup := by
    refine List.Nodup.map_on (fun i hi j hj heq => ?_) List.nodup_range
    have hi' : i < 2 ^ 64 := by
      have := List.mem_range.mp hi
      omega
    have hj' : j < 2 ^ 64 := by
      have := List.mem_range.mp hj
      omega
    rw [← UInt64.toNat_ofNat_of_lt' hi', heq, UInt64.toNat_ofNat_of_lt' hj']
  rw [keys_restore, hids, List.toFinset_card_of_nodup hnodup, List.length_map, List.length_range]

theorem process_import_stateBytes {entries : List (UInt64 × HandleEntry)} (h : entries.length < 2 ^ 32) :
    (process [.importOpaqueTestState (some fun i => (stateBytes entries).getD i 0)
      (stateBytes entries).length]).1.handles = restore entries ∅ := by
  have hfresh : Boundary.fresh.poisoned = false := rfl
  have himport := import_stateBytes (fromRawParts_getD (stateBytes entries)) h hfresh
  exact congrArg (fun r => r.1.handles) himport

/-- One import with one record too many. -/
theorem import_exceeds_limit :
    let bytes := stateBytes (sampleEntries (maxHandles + 1))
    maxHandles < (process
      [.importOpaqueTestState (some fun i => bytes.getD i 0) bytes.length]).1.handles.keys.length := by
  intro bytes
  have hlen : (sampleEntries (maxHandles + 1)).length < 2 ^ 32 := by
    rw [sampleEntries, List.length_map, List.length_range, maxHandles]
    decide
  rw [process_import_stateBytes hlen, keys_restore_sample (by decide)]
  exact Nat.lt_succ_self maxHandles

/-- A `create_test_*_handle` call with a pointer that is not null. -/
def Call.requests : Call → Bool
  | .createTestIdentityHandle outHandle | .createTestSessionHandle outHandle
  | .createTestGroupHandle outHandle => outHandle ≠ .null
  | _ => false

def active (hist : History) : List UInt64 := (issuedIds hist).filter fun h => h ∉ disposals hist

/-- The ids count up from 1000, for as long as the registry has room. -/
def Issues (calls : List Call) (h : UInt64) : Prop :=
  1000 ≤ h.toNat ∧ h.toNat < 1000 + min (calls.countP Call.requests) maxHandles

/-- Some call disposes a handle that earlier calls created. -/
def Disposes (calls : List Call) : Prop :=
  ∃ before h, before ++ [.disposeHandle h] <+: calls ∧ Issues before h

/-- A request that finds the registry full finds it full of active handles. -/
def ReturnsCapacity (calls : List Call) : Prop :=
  ∀ before c, before ++ [c] <+: calls → c.requests = true →
    (c.exec (process before).1).2.code = .registryExhausted → maxHandles ≤ (active (process before).2).length

section
variable {b : Boundary} {c : Call} {hist : History} {calls : List Call} {h : UInt64}

theorem creates_of_requests (hc : c.requests = true) : ∃ t, c.creates = some t ∧
    ∀ b, c.exec b = createTestHandle t .valid b := by
  cases c with
  | createTestIdentityHandle p =>
    cases p with
    | null => exact absurd hc (by decide)
    | valid => exact ⟨.identity, rfl, fun _ => rfl⟩
  | createTestSessionHandle p =>
    cases p with
    | null => exact absurd hc (by decide)
    | valid => exact ⟨.session, rfl, fun _ => rfl⟩
  | createTestGroupHandle p =>
    cases p with
    | null => exact absurd hc (by decide)
    | valid => exact ⟨.group, rfl, fun _ => rfl⟩
  | _ => exact absurd hc (by simp [Call.requests])

/-- A request looks at the number of entries, active or not. -/
theorem request_reply (hp : b.poisoned = false) (hc : c.requests = true) : (c.exec b).2 =
    if maxHandles ≤ b.handles.keys.length then .of .registryExhausted else .issued b.handleCounter := by
  obtain ⟨t, _, hexec⟩ := creates_of_requests hc
  rw [hexec, createTestHandle, if_neg (by decide), registerHandle, locked_unpoisoned hp]
  by_cases hfull : maxHandles ≤ b.handles.keys.length
  · rw [if_pos hfull, if_pos hfull]
    rfl
  · rw [if_neg hfull, if_neg hfull]
    rfl

theorem request_exhausted_iff (hp : b.poisoned = false) (hc : c.requests = true) :
    (c.exec b).2.code = .registryExhausted ↔ maxHandles ≤ b.handles.keys.length := by
  rw [request_reply hp hc]
  split <;> simp [*, Reply.of, Reply.issued]

theorem issue_request (hp : b.poisoned = false) (hc : c.requests = true) :
    (issue (c, (c.exec b).2)).toList.length = if maxHandles ≤ b.handles.keys.length then 0 else 1 := by
  obtain ⟨t, ht, _⟩ := creates_of_requests hc
  rw [request_reply hp hc]
  split
  · rw [issue_of_outHandle rfl]
    rfl
  · rw [issue_of_creates ht]
    rfl

theorem issue_of_not_requests (hc : c.requests = false) (b : Boundary) : issue (c, (c.exec b).2) = none := by
  have hnull : ∀ t p, decide (p ≠ .null) = false → (createTestHandle t p b).2.outHandle = none := by
    intro t p hp
    obtain rfl : p = .null := by simpa using hp
    rfl
  cases c with
  | createTestIdentityHandle p => exact issue_of_outHandle (hnull .identity p hc)
  | createTestSessionHandle p => exact issue_of_outHandle (hnull .session p hc)
  | createTestGroupHandle p => exact issue_of_outHandle (hnull .group p hc)
  | _ => rfl

theorem issued_length (calls : List Call) (hcalls : ∀ c ∈ calls, c.imports = false) :
    (issued (process calls).2).length = min (calls.countP Call.requests) maxHandles := by
  induction calls using List.reverseRecOn with
  | nil => rfl
  | append_singleton calls c ih =>
    have hbefore : ∀ c' ∈ calls, c'.imports = false := fun c' hc' => hcalls c' (List.mem_append_left _ hc')
    have ht := tracked_process calls hbefore
    rw [process_snoc, issued_snoc, List.length_append, ih hbefore, List.countP_append,
      List.countP_singleton]
    cases hc : c.requests with
    | false =>
      rw [issue_of_not_requests hc]
      simp
    | true =>
      rw [issue_request ht.unpoisoned hc, ht.length, ih hbefore]
      split <;> simp <;> omega

theorem mem_issuedIds_iff (hcalls : ∀ c ∈ calls, c.imports = false) :
    h ∈ issuedIds (process calls).2 ↔ Issues calls h := by
  have hinj : Function.Injective UInt64.toNat := fun _ _ => UInt64.toNat_inj.mp
  rw [← List.mem_map_of_injective hinj, (tracked_process calls hcalls).ids, List.mem_range'_1,
    issued_length calls hcalls]
  rfl

theorem disposes_snoc : Disposes (calls ++ [c]) ↔
    Disposes calls ∨ ∃ h, c = .disposeHandle h ∧ Issues calls h := by
  constructor
  · rintro ⟨before, h, hbegin, hissues⟩
    rcases List.prefix_concat_iff.mp hbegin with heq | hbegin
    · obtain ⟨rfl, hc⟩ := List.append_inj' heq rfl
      exact .inr ⟨h, (List.singleton_inj.mp hc).symm, hissues⟩
    · exact .inl ⟨before, h, hbegin, hissues⟩
  · rintro (⟨before, h, hbegin, hissues⟩ | ⟨h, rfl, hissues⟩)
    · exact ⟨before, h, hbegin.trans (List.prefix_append ..), hissues⟩
    · exact ⟨calls, h, List.prefix_refl _, hissues⟩

theorem disposal_eq_none_iff {r : Reply} :
    disposal (c, r) = none ↔ ∀ h, c = .disposeHandle h → r.code ≠ .success := by
  cases c <;> simp [disposal]

theorem disposals_eq_nil_iff (calls : List Call) (hcalls : ∀ c ∈ calls, c.imports = false) :
    disposals (process calls).2 = [] ↔ ¬ Disposes calls := by
  induction calls using List.reverseRecOn with
  | nil => simp [process, disposals, Disposes]
  | append_singleton calls c ih =>
    have hbefore : ∀ c' ∈ calls, c'.imports = false := fun c' hc' => hcalls c' (List.mem_append_left _ hc')
    have ht := tracked_process calls hbefore
    rw [process_snoc, disposals_snoc, List.append_eq_nil_iff, Option.toList_eq_nil_iff,
      disposal_eq_none_iff, disposes_snoc, not_or, ← ih hbefore]
    refine and_congr_right fun hnone => ?_
    rw [not_exists]
    refine forall_congr' fun h => ?_
    rw [not_and]
    refine forall_congr' fun hc => not_congr ?_
    subst hc
    have hcode := (ht.dispose_code h).1
    rw [hnone, mem_issuedIds_iff hbefore, and_iff_left List.not_mem_nil] at hcode
    exact hcode

theorem Tracked.disposals_issued (ht : Tracked b hist) (hh : h ∈ disposals hist) : h ∈ issuedIds hist := by
  obtain ⟨e, he, _⟩ := (ht.dead h).mpr hh
  exact (ht.known h).mp (mem_of_lookup he)

theorem Tracked.full_iff (ht : Tracked b hist) (hfull : maxHandles ≤ (issued hist).length) :
    maxHandles ≤ (active hist).length ↔ disposals hist = [] := by
  have hids : (issuedIds hist).length = maxHandles := by
    rw [issuedIds, List.length_map]
    exact Nat.le_antisymm ht.room hfull
  have hle : (active hist).length ≤ (issuedIds hist).length := List.length_filter_le ..
  constructor
  · intro hroom
    have hall : ∀ h ∈ issuedIds hist, h ∉ disposals hist := by
      have heq : (active hist).length = (issuedIds hist).length := by omega
      simpa using List.length_filter_eq_length_iff.mp heq
    exact List.eq_nil_iff_forall_not_mem.mpr fun h hh => hall h (ht.disposals_issued hh) hh
  · intro hnone
    simp [active, hnone, hids]

/-- A full registry has as many active handles as its limit in exactly the runs
in which no handle was disposed before a request that finds it full. -/
theorem capacity_returned_iff (calls : List Call) (hcalls : ∀ c ∈ calls, c.imports = false) :
    ReturnsCapacity calls ↔ ∀ before c, before ++ [c] <+: calls → c.requests = true →
      maxHandles ≤ before.countP Call.requests → ¬ Disposes before := by
  refine forall_congr' fun before => forall_congr' fun c => ?_
  refine forall_congr' fun hbegin => forall_congr' fun hc => ?_
  have hbefore : ∀ c' ∈ before, c'.imports = false := by
    intro c' hc'
    exact hcalls c' (hbegin.subset (List.mem_append_left _ hc'))
  have ht := tracked_process before hbefore
  have hexhausted : (c.exec (process before).1).2.code = .registryExhausted ↔
      maxHandles ≤ before.countP Call.requests := by
    rw [request_exhausted_iff ht.unpoisoned hc, ht.length, issued_length before hbefore, le_min_iff,
      and_iff_left le_rfl]
  rw [hexhausted]
  refine forall_congr' fun hfull => ?_
  have hissued : maxHandles ≤ (issued (process before).2).length := by
    rw [issued_length before hbefore]
    exact le_min hfull le_rfl
  rw [ht.full_iff hissued, disposals_eq_nil_iff before hbefore]

end

/-- Far below the limit a disposed handle does no harm. -/
theorem sampleHandles_capacity : ReturnsCapacity sampleHandles := by
  refine (capacity_returned_iff sampleHandles (by decide)).mpr fun before c hbegin _ hfull => ?_
  have hlen : before.length + 1 ≤ 5 := by
    have hle := hbegin.length_le
    rwa [List.length_append] at hle
  have hcount : before.countP Call.requests ≤ before.length := List.countP_le_length
  simp only [maxHandles] at hfull
  omega

def fullRun : List Call := List.replicate maxHandles (.createTestSessionHandle .valid)

/-- The slot of a disposed handle stays taken. -/
theorem disposed_capacity_lost :
    let calls := fullRun ++ [.disposeHandle 1000]
    (∀ c ∈ calls, c.requests = true ∨ c = .disposeHandle 1000) ∧
      ((Call.createTestSessionHandle .valid).exec (process calls).1).2.code = .registryExhausted ∧
      (active (process calls).2).length < maxHandles := by
  intro calls
  have hkinds : ∀ c ∈ calls, c.requests = true ∨ c = .disposeHandle 1000 := by
    intro c hc
    rcases List.mem_append.mp hc with hc | hc
    · rw [(List.mem_replicate.mp hc).2]
      exact .inl rfl
    · exact .inr (List.mem_singleton.mp hc)
  have hcalls : ∀ c ∈ calls, c.imports = false := by
    intro c hc
    rcases hkinds c hc with hrequest | rfl
    · cases c <;> simp [Call.requests, Call.imports] at hrequest ⊢
    · rfl
  have hcount : fullRun.countP Call.requests = maxHandles := by
    rw [fullRun, List.countP_replicate]
    rfl
  have ht := tracked_process calls hcalls
  have hissued : maxHandles ≤ (issued (process calls).2).length := by
    rw [issued_length calls hcalls, List.countP_append, hcount]
    exact le_min (Nat.le_add_right ..) le_rfl
  have hdisposes : Disposes calls := by
    refine ⟨fullRun, 1000, List.prefix_refl _, ?_⟩
    rw [Issues, hcount, min_self]
    decide
  refine ⟨hkinds, ?_, ?_⟩
  · have hrequest : (Call.createTestSessionHandle .valid).requests = true := rfl
    exact (request_exhausted_iff ht.unpoisoned hrequest).mpr (hissued.trans_eq ht.length.symm)
  · by_contra hroom
    have hnone := (ht.full_iff hissued).mp (Nat.not_lt.mp hroom)
    exact (disposals_eq_nil_iff calls hcalls).mp hnone hdisposes

end NativeBoundary

end GuffSuff
