import GuffSuff.BoundaryMoves
import GuffSuff.MobileCryptoProvider

/-! A client cannot tell the test provider from the native one by what its
calls return: their handles correspond one to one, whatever their ids. -/

namespace GuffSuff

namespace MobileCrypto

open NativeBoundary (Boundary Code HandleType Reply newEntry maxBufferSize maxHandles contained_done
  locked_unpoisoned)

/-- Failures are not compared further: the two providers throw exceptions of their own. -/
def Outcome.Corresponds (f : Int64 → Int64) : Outcome → Outcome → Prop
  | .notMade, .notMade => True
  | .threw _, .threw _ => True
  | .handle h, .handle h' => h' = h.renamed f
  | .payload bytes, .payload bytes' => bytes' = bytes
  | .disposed, .disposed => True
  | _, _ => False

/-- The `k`-th handle is 101 + k for the test provider and 1000 + k for the native one. -/
def nativeId (x : Int64) : Int64 := x + 899

def testId (k : Nat) : Int64 := Int64.ofNat (101 + k)

structure Related (known : List OpaqueHandle) (t : TestBoundary.State) (b : Boundary) : Prop where
  ids : ∀ k h, known[k]? = some h → h.handleId = testId k
  counter : t.counter = Int64.ofNat (100 + known.length)
  nativeCounter : b.handleCounter = UInt64.ofNat (1000 + known.length)
  room : known.length ≤ maxHandles
  unpoisoned : b.poisoned = false
  length : b.handles.keys.length = known.length
  below : ∀ x ∈ b.handles, x.toNat < 1000 + known.length
  entry : ∀ h ∈ known, ∃ e, b.handles.lookup (nativeId h.handleId).toUInt64 = some e ∧
    e.handleType = h.handleType ∧ (e.isActive = true ↔ h.handleId ∈ t.activeHandles)

theorem nativeId_injective : Function.Injective nativeId := by
  intro x y h
  have hx : x + 899 - 899 = y + 899 - 899 := congrArg (· - 899) h
  simpa using hx

theorem toUInt64_testId (k : Nat) : (testId k).toUInt64 = UInt64.ofNat (101 + k) := rfl

theorem toUInt64_nativeId_testId (k : Nat) : (nativeId (testId k)).toUInt64 = UInt64.ofNat (1000 + k) := by
  rw [nativeId, Int64.toUInt64_add, toUInt64_testId, show (899 : Int64).toUInt64 = UInt64.ofNat 899 from rfl,
    ← UInt64.ofNat_add]
  congr 1
  omega

theorem toNat_ofNat_of_room {k : Nat} (hk : k ≤ maxHandles) : (UInt64.ofNat (1000 + k)).toNat = 1000 + k := by
  have hsmall : 1000 + k ≤ 11000 := by
    simp only [maxHandles] at hk
    omega
  rw [UInt64.toNat_ofNat']
  omega

theorem testId_injective {j k : Nat} (hj : j ≤ maxHandles) (hk : k ≤ maxHandles) (h : testId j = testId k) :
    j = k := by
  have hnat := congrArg (fun x => (nativeId x).toUInt64.toNat) h
  simp only [toUInt64_nativeId_testId, toNat_ofNat_of_room hj, toNat_ofNat_of_room hk] at hnat
  omega

theorem related_initial : Related [] .initial .fresh := by
  constructor <;> simp [TestBoundary.State.initial, Boundary.fresh]

namespace Related

variable {known : List OpaqueHandle} {t : TestBoundary.State} {b : Boundary} {h h' : OpaqueHandle}

theorem index (hr : Related known t b) (hh : h ∈ known) :
    ∃ k, known[k]? = some h ∧ k < known.length ∧ h.handleId = testId k := by
  obtain ⟨k, hk⟩ := List.mem_iff_getElem?.mp hh
  exact ⟨k, hk, (List.getElem?_eq_some_iff.mp hk).1, hr.ids k h hk⟩

theorem eq_of_handleId (hr : Related known t b) (hh : h ∈ known) (hh' : h' ∈ known)
    (hid : h.handleId = h'.handleId) : h = h' := by
  obtain ⟨j, hj, hjl, hjid⟩ := hr.index hh
  obtain ⟨k, hk, hkl, hkid⟩ := hr.index hh'
  have hroom := hr.room
  have hjk : j = k := testId_injective (by omega) (by omega) (by rw [← hjid, ← hkid, hid])
  rw [hjk, hk] at hj
  exact (Option.some.inj hj).symm

theorem next_fresh (hr : Related known t b) (hh : h ∈ known) :
    h.handleId ≠ testId known.length ∧ (nativeId h.handleId).toUInt64 ≠ b.handleCounter := by
  obtain ⟨k, _, hkl, hid⟩ := hr.index hh
  have hroom := hr.room
  refine ⟨fun heq => ?_, fun heq => ?_⟩
  · have hk := testId_injective (by omega) hr.room (hid.symm.trans heq)
    omega
  · rw [hid, toUInt64_nativeId_testId, hr.nativeCounter] at heq
    have hnat := congrArg UInt64.toNat heq
    rw [toNat_ofNat_of_room (by omega), toNat_ofNat_of_room hr.room] at hnat
    omega

theorem counter_notMem (hr : Related known t b) : b.handleCounter ∉ b.handles := by
  intro hmem
  have hlt := hr.below _ hmem
  rw [hr.nativeCounter, toNat_ofNat_of_room hr.room] at hlt
  omega

theorem created (hr : Related known t b) (hroom : known.length < maxHandles)
    (hid : h.handleId = testId known.length) : Related (known ++ [h])
      { counter := testId known.length, activeHandles := insert (testId known.length) t.activeHandles }
      { b with
        handles := b.handles.insert b.handleCounter (newEntry h.handleType true)
        handleCounter := b.handleCounter + 1, lastErrorCode := .success } := by
  have hlen : (known ++ [h]).length = known.length + 1 := by simp
  constructor
  case ids =>
    intro k h' hk
    by_cases hkl : k < known.length
    · rw [List.getElem?_append_left hkl] at hk
      exact hr.ids k h' hk
    · rw [List.getElem?_append_right (Nat.not_lt.mp hkl)] at hk
      have hlt := (List.getElem?_eq_some_iff.mp hk).1
      have hk' : k = known.length := by
        simp only [List.length_singleton] at hlt
        omega
      subst hk'
      rw [Nat.sub_self, List.getElem?_cons_zero, Option.some.injEq] at hk
      rw [← hk, hid]
  case counter =>
    rw [hlen]
    exact congrArg Int64.ofNat (by omega)
  case nativeCounter =>
    rw [hlen, hr.nativeCounter, ← Nat.add_assoc, UInt64.ofNat_add (1000 + known.length) 1]
    rfl
  case room =>
    rw [hlen]
    omega
  case unpoisoned => exact hr.unpoisoned
  case length =>
    rw [AList.keys_insert, List.length_cons,
      List.erase_of_not_mem (AList.mem_keys.not.mp hr.counter_notMem), hr.length, hlen]
  case below =>
    intro x hx
    rcases AList.mem_insert _ |>.mp hx with rfl | hx
    · rw [hr.nativeCounter, toNat_ofNat_of_room hr.room]
      omega
    · have hlt := hr.below x hx
      omega
  case entry =>
    intro h' hh'
    rcases List.mem_append.mp hh' with hh' | hh'
    · obtain ⟨e, he, htype, hactive⟩ := hr.entry h' hh'
      obtain ⟨hne, hne'⟩ := hr.next_fresh hh'
      refine ⟨e, ?_, htype, ?_⟩
      · rw [AList.lookup_insert_ne hne', he]
      · rw [Finset.mem_insert, hactive]
        exact (or_iff_right hne).symm
    · obtain rfl := List.mem_singleton.mp hh'
      refine ⟨newEntry h'.handleType true, ?_, rfl, ?_⟩
      · rw [hid, toUInt64_nativeId_testId, ← hr.nativeCounter, AList.lookup_insert]
      · simp [newEntry, hid]

theorem disposed (hr : Related known t b) (hh : h ∈ known) {e : NativeBoundary.HandleEntry}
    (he : b.handles.lookup (nativeId h.handleId).toUInt64 = some e) :
    Related known { t with activeHandles := t.activeHandles.erase h.handleId }
      { b with
        handles := b.handles.insert (nativeId h.handleId).toUInt64 { e with isActive := false }
        lastErrorCode := .success } := by
  have hmem : (nativeId h.handleId).toUInt64 ∈ b.handles := NativeBoundary.mem_of_lookup he
  constructor
  case ids => exact hr.ids
  case counter => exact hr.counter
  case nativeCounter => exact hr.nativeCounter
  case room => exact hr.room
  case unpoisoned => exact hr.unpoisoned
  case length =>
    rw [AList.keys_insert, List.length_cons, List.length_erase_of_mem (AList.mem_keys.mp hmem), ← hr.length]
    have hpos := List.length_pos_of_mem (AList.mem_keys.mp hmem)
    omega
  case below =>
    intro x hx
    rcases AList.mem_insert _ |>.mp hx with rfl | hx
    · exact hr.below _ hmem
    · exact hr.below x hx
  case entry =>
    intro h' hh'
    obtain ⟨e', he', htype, hactive⟩ := hr.entry h' hh'
    by_cases heq : h'.handleId = h.handleId
    · obtain rfl := hr.eq_of_handleId hh' hh heq
      obtain rfl := Option.some.inj (he.symm.trans he')
      exact ⟨_, AList.lookup_insert _, htype, by simp⟩
    · have hne : (nativeId h'.handleId).toUInt64 ≠ (nativeId h.handleId).toUInt64 := fun hx =>
        heq (nativeId_injective (congrArg UInt64.toInt64 hx))
      refine ⟨e', ?_, htype, ?_⟩
      · rw [AList.lookup_insert_ne hne, he']
      · rw [Finset.mem_erase, hactive]
        exact (and_iff_right heq).symm

theorem idle (hr : Related known t b) (code : Code) : Related known t { b with lastErrorCode := code } :=
  ⟨hr.ids, hr.counter, hr.nativeCounter, hr.room, hr.unpoisoned, hr.length, hr.below, hr.entry⟩

end Related

theorem ofByte_toByte {x : Int64} (hx : 0 ≤ x ∧ x ≤ 255) : NativeAndroid.ofByte (NativeAndroid.toByte x) = x := by
  have hle : x.toUInt64.toNat ≤ 255 := UInt64.le_iff_toNat_le.mp (Int64.toUInt64_le hx.1 hx.2)
  have hmod : x.toUInt64 % 256 = x.toUInt64 := by
    apply UInt64.toNat_inj.mp
    rw [UInt64.toNat_mod]
    exact Nat.mod_eq_of_lt (Nat.lt_succ_of_le hle)
  rw [NativeAndroid.ofByte, NativeAndroid.toByte, UInt64.toUInt64_toUInt8, hmod, Int64.toInt64_toUInt64]

theorem copied_payload {input : List Int64} (hbytes : ∀ x ∈ input, 0 ≤ x ∧ x ≤ 255) (r : Reply)
    (hr : r.outBuf = some (NativeBoundary.fromRawParts (NativeAndroid.filled input) input.length)) :
    (NativeAndroid.outBytes r input.length).map NativeAndroid.ofByte = input := by
  apply List.ext_getElem
  · simp [NativeAndroid.outBytes]
  · intro i hi hi'
    simp only [NativeAndroid.outBytes, hr, NativeBoundary.fromRawParts, NativeAndroid.filled, Option.getD_some,
      List.getElem_map, List.getElem_range, List.getElem?_map, List.getElem?_range hi', Option.map_some,
      List.getElem?_eq_getElem hi']
    exact ofByte_toByte (hbytes _ (List.getElem_mem hi'))

section
variable {known : List OpaqueHandle} {t : TestBoundary.State} {b : Boundary}

/-- What one step leaves: outcomes that correspond, and handles and states that do. -/
def Agree (known : List OpaqueHandle) (x : Outcome × TestBoundary.State) (y : Outcome × Boundary) : Prop :=
  x.1.Corresponds nativeId y.1 ∧ y.1.handles = x.1.handles.map (.renamed nativeId) ∧
    Related (known ++ x.1.handles) x.2 y.2

theorem agree_notMade (hr : Related known t b) : Agree known (.notMade, t) (.notMade, b) :=
  ⟨trivial, rfl, by simpa [Outcome.handles] using hr⟩

theorem agree_threw (hr : Related known t b) (e e' : DartException) (code : Code) :
    Agree known (.threw e, t) (.threw e', { b with lastErrorCode := code }) :=
  ⟨trivial, rfl, by simpa [Outcome.handles] using hr.idle code⟩

theorem createHandle_eq {α : Type} (hp : b.poisoned = false) (hroom : b.handles.keys.length < maxHandles)
    (type : HandleType) (name : String) (f : Int64 → α) :
    NativeAndroid.createHandle (NativeBoundary.createTestHandle type) name f b =
      (.ok (f b.handleCounter.toInt64), { b with
        handles := b.handles.insert b.handleCounter (newEntry type true)
        handleCounter := b.handleCounter + 1, lastErrorCode := .success }) := by
  simp [NativeAndroid.createHandle, NativeBoundary.createTestHandle, NativeBoundary.registerHandle,
    locked_unpoisoned hp, Nat.not_le.mpr hroom, contained_done, Reply.issued, Code.value,
    NativeAndroid.outHandleValue]

/-- `h` is the object for the new id on the one side, `f` makes the one on the other. -/
theorem agree_created (hr : Related known t b) (hroom : known.length < maxHandles) (type : HandleType)
    (name : String) {α : Type} (mk : Int64 → α) (f : α → OpaqueHandle)
    (hf : ∀ x, (f (mk x)).handleId = x ∧ (f (mk x)).handleType = type ∧
      (f (mk x)).renamed nativeId = f (mk (nativeId x))) :
    Agree known
      (.of (fun a => .handle (f a)) ((TestBoundary.nextId t).1.map mk), (TestBoundary.nextId t).2)
      (.of (fun a => .handle (f a))
        (NativeAndroid.createHandle (NativeBoundary.createTestHandle type) name mk b).1,
        (NativeAndroid.createHandle (NativeBoundary.createTestHandle type) name mk b).2) := by
  have hnext : t.counter + 1 = testId known.length := by
    rw [hr.counter, testId, show (1 : Int64) = Int64.ofNat 1 from rfl, ← Int64.ofNat_add]
    congr 1
    omega
  have hnative : b.handleCounter.toInt64 = nativeId (testId known.length) := by
    rw [hr.nativeCounter, ← toUInt64_nativeId_testId, Int64.toInt64_toUInt64]
  obtain ⟨hid, htype, hrenamed⟩ := hf (testId known.length)
  have hcreated := hr.created hroom hid
  rw [htype] at hcreated
  rw [createHandle_eq hr.unpoisoned (hr.length ▸ hroom), hnative]
  simp only [TestBoundary.nextId, hnext, Except.map, Outcome.of]
  refine ⟨hrenamed.symm, ?_, hcreated⟩
  simp [Outcome.handles, hrenamed]

/-- The registry and the set of active ids give the same answer for a session handle. -/
theorem agree_payload (hr : Related known t b) {s : OpaqueSessionHandle} (hs : .session s ∈ known)
    {bytes : List Int64} (hbytes : ∀ x ∈ bytes, 0 ≤ x ∧ x ≤ 255) (hsize : bytes.length ≤ maxBufferSize) :
    Agree known
      (.of .payload (TestBoundary.transferPayload s bytes t).1, (TestBoundary.transferPayload s bytes t).2)
      (.of .payload (NativeAndroid.transformPayloadInternal (nativeId s.handleId) bytes b).1,
        (NativeAndroid.transformPayloadInternal (nativeId s.handleId) bytes b).2) := by
  obtain ⟨e, he, htype, hactive⟩ := hr.entry _ hs
  have hfits : ¬ 10 * 1024 * 1024 < bytes.length := Nat.not_lt.mpr hsize
  have hroom : ¬ bytes.length + 1024 < bytes.length := by omega
  change b.handles.lookup (nativeId s.handleId).toUInt64 = some e at he
  simp only [NativeAndroid.transformPayloadInternal, if_neg hfits, NativeBoundary.transformTestPayload,
    reduceCtorEq, or_self, if_false, Nat.not_lt.mpr hsize, locked_unpoisoned hr.unpoisoned, he]
  by_cases ha : s.handleId ∈ t.activeHandles
  · have hlive : e.isActive = true := hactive.mpr ha
    have hsession : e.handleType = .session := htype
    simp only [hlive, Bool.not_true, Bool.false_eq_true, if_false, hsession, ne_eq, not_true_eq_false,
      hroom, contained_done, Code.value, TestBoundary.transferPayload, ha, Option.getD_some, Outcome.of]
    refine ⟨copied_payload hbytes _ rfl, rfl, ?_⟩
    simpa [Outcome.handles] using hr.idle .success
  · have hdead : e.isActive = false := eq_false_of_ne_true fun hx => ha (hactive.mp hx)
    simp only [hdead, Bool.not_false, if_true, contained_done, Reply.of, Code.value,
      TestBoundary.transferPayload, ha, not_false_eq_true, Outcome.of]
    exact agree_threw hr _ _ _

theorem rawHandleOf_renamed (h : OpaqueHandle) :
    NativeAndroid.rawHandleOf (h.renamed nativeId).toDynamic = nativeId h.handleId := by
  cases h <;> rfl

theorem handleIdOf_toDynamic (h : OpaqueHandle) :
    TestBoundary.handleIdOf h.toDynamic = some h.handleId := by
  cases h <;> rfl

theorem agree_disposed (hr : Related known t b) {h : OpaqueHandle} (hh : h ∈ known) :
    Agree known
      (.of (fun _ => .disposed) (TestBoundary.disposeHandle h.toDynamic t).1,
        (TestBoundary.disposeHandle h.toDynamic t).2)
      (.of (fun _ => .disposed) (NativeAndroid.disposeHandle (h.renamed nativeId).toDynamic b).1,
        (NativeAndroid.disposeHandle (h.renamed nativeId).toDynamic b).2) := by
  obtain ⟨e, he, _, hactive⟩ := hr.entry h hh
  simp only [NativeAndroid.disposeHandle, rawHandleOf_renamed, TestBoundary.disposeHandle,
    handleIdOf_toDynamic]
  simp only [NativeBoundary.disposeHandle, locked_unpoisoned hr.unpoisoned, he]
  by_cases ha : h.handleId ∈ t.activeHandles
  · have hlive : e.isActive = true := hactive.mpr ha
    simp only [hlive, Bool.not_true, Bool.false_eq_true, if_false, contained_done, Reply.of, Code.value,
      ne_eq, not_true_eq_false, ha, Outcome.of]
    refine ⟨trivial, rfl, ?_⟩
    simpa [Outcome.handles] using hr.disposed hh he
  · have hdead : e.isActive = false := eq_false_of_ne_true fun hx => ha (hactive.mp hx)
    simp only [hdead, Bool.not_false, if_true, contained_done, Reply.of, Code.value, ha,
      not_false_eq_true, Outcome.of]
    exact agree_threw hr _ _ _

theorem getElem?_renamed (known : List OpaqueHandle) (k : Nat) :
    (known.map (OpaqueHandle.renamed nativeId))[k]? = known[k]?.map (OpaqueHandle.renamed nativeId) :=
  List.getElem?_map

theorem agree_perform (hr : Related known t b) (op : Operation)
    (hbytes : ∀ x ∈ op.payload, 0 ≤ x ∧ x ≤ 255) (hsize : op.payload.length ≤ maxBufferSize)
    (hroom : op.creates = true → known.length < maxHandles) :
    Agree known (op.perform TestBoundary.provider known t)
      (op.perform NativeAndroid.provider (known.map (.renamed nativeId)) b) := by
  cases op with
  | initializeDeviceIdentity =>
    exact agree_created hr (hroom rfl) .identity "createIdentityHandle" OpaqueIdentityHandle.mk .identity
      fun _ => ⟨rfl, rfl, rfl⟩
  | establishOutboundSession bundle =>
    exact agree_created hr (hroom rfl) .session "createSessionHandle" OpaqueSessionHandle.mk .session
      fun _ => ⟨rfl, rfl, rfl⟩
  | createGroupState groupId members =>
    exact agree_created hr (hroom rfl) .group "createGroupHandle" OpaqueGroupHandle.mk .group
      fun _ => ⟨rfl, rfl, rfl⟩
  | encryptPayload k payload | decryptPayload k payload =>
    simp only [Operation.perform, getElem?_renamed]
    cases hk : known[k]? with
    | none => exact agree_notMade hr
    | some h =>
      cases h with
      | session s => exact agree_payload hr (List.mem_of_getElem? hk) hbytes hsize
      | identity _ => exact agree_notMade hr
      | group _ => exact agree_notMade hr
  | disposeHandle k =>
    simp only [Operation.perform, getElem?_renamed]
    cases hk : known[k]? with
    | none => exact agree_notMade hr
    | some h => exact agree_disposed hr (List.mem_of_getElem? hk)

theorem handles_of_perform {σ : Type} (P : MobileCryptoProvider σ) (s : σ) (op : Operation) :
    (op.perform P known s).1.handles.length ≤ if op.creates = true then 1 else 0 := by
  have hof : ∀ {α : Type} (f : α → OpaqueHandle) (r : Except DartException α),
      (Outcome.of (fun a => .handle (f a)) r).handles.length ≤ 1 := by
    intro α f r
    cases r <;> simp [Outcome.of, Outcome.handles]
  have hnone : ∀ {α : Type} (f : α → Outcome) (r : Except DartException α),
      (∀ a, (f a).handles = []) → (Outcome.of f r).handles.length ≤ 0 := by
    intro α f r hf
    cases r with
    | error e => exact Nat.le_refl 0
    | ok a => simp [Outcome.of, hf a]
  cases op with
  | initializeDeviceIdentity => exact hof _ _
  | establishOutboundSession _ => exact hof _ _
  | createGroupState _ _ => exact hof _ _
  | encryptPayload k _ =>
    simp only [Operation.perform]
    split
    · exact hnone _ _ fun _ => rfl
    · exact Nat.le_refl 0
  | decryptPayload k _ =>
    simp only [Operation.perform]
    split
    · exact hnone _ _ fun _ => rfl
    · exact Nat.le_refl 0
  | disposeHandle k =>
    simp only [Operation.perform]
    split
    · exact hnone _ _ fun _ => rfl
    · exact Nat.le_refl 0

end

theorem outcomes_correspond {known : List OpaqueHandle} {t : TestBoundary.State} {b : Boundary}
    (hr : Related known t b) (ops : List Operation)
    (hbytes : ∀ op ∈ ops, ∀ x ∈ op.payload, 0 ≤ x ∧ x ≤ 255)
    (hsize : ∀ op ∈ ops, op.payload.length ≤ maxBufferSize)
    (hroom : known.length + ops.countP Operation.creates ≤ maxHandles) :
    List.Forall₂ (Outcome.Corresponds nativeId) (outcomes TestBoundary.provider known t ops)
      (outcomes NativeAndroid.provider (known.map (.renamed nativeId)) b ops) := by
  induction ops generalizing known t b with
  | nil => exact .nil
  | cons op ops ih =>
    rw [List.countP_cons] at hroom
    have hfree : op.creates = true → known.length < maxHandles := by
      intro hc
      rw [if_pos hc] at hroom
      omega
    obtain ⟨hcor, hhandles, hrel⟩ := agree_perform hr op (hbytes op List.mem_cons_self)
      (hsize op List.mem_cons_self) hfree
    have hlen : (op.perform TestBoundary.provider known t).1.handles.length ≤
        if op.creates = true then 1 else 0 := handles_of_perform TestBoundary.provider t op
    simp only [outcomes]
    refine .cons hcor ?_
    rw [hhandles, ← List.map_append]
    refine ih hrel (fun op' h => hbytes op' (List.mem_cons_of_mem _ h))
      (fun op' h => hsize op' (List.mem_cons_of_mem _ h)) ?_
    rw [List.length_append]
    omega

/-- Whatever a client does with the handles it was given, the two providers
succeed and fail alike and return the same bytes. -/
theorem test_provider_simulates_native (ops : List Operation)
    (hbytes : ∀ op ∈ ops, ∀ x ∈ op.payload, 0 ≤ x ∧ x ≤ 255)
    (hsize : ∀ op ∈ ops, op.payload.length ≤ 10 * 1024 * 1024)
    (hcreated : ops.countP Operation.creates ≤ 10000) :
    ∃ f : Int64 → Int64, Function.Injective f ∧
      List.Forall₂ (Outcome.Corresponds f) (outcomes TestBoundary.provider [] .initial ops)
        (outcomes NativeAndroid.provider [] .fresh ops) := by
  refine ⟨nativeId, nativeId_injective, ?_⟩
  exact outcomes_correspond related_initial ops hbytes hsize (by simpa [maxHandles] using hcreated)

def sampleScript : List Operation :=
  [.initializeDeviceIdentity, .establishOutboundSession "prekey", .encryptPayload 1 [71, 117],
    .encryptPayload 0 [1], .disposeHandle 1, .decryptPayload 1 [71], .disposeHandle 1]

theorem sampleScript_bytes : ∀ op ∈ sampleScript, ∀ x ∈ op.payload, 0 ≤ x ∧ x ≤ 255 := by
  simp [sampleScript, Operation.payload]

/-- The payload comes back, and the disposed handle is refused twice. -/
theorem sampleScript_simulated :
    outcomes TestBoundary.provider [] .initial sampleScript =
      [.handle (.identity ⟨101⟩), .handle (.session ⟨102⟩), .payload [71, 117], .notMade, .disposed,
        .threw (.providerUnavailable "INVALID_HANDLE"),
        .threw (.providerUnavailable "STALE_OR_DOUBLE_FREE_HANDLE")] ∧
    ∃ f : Int64 → Int64, Function.Injective f ∧
      List.Forall₂ (Outcome.Corresponds f) (outcomes TestBoundary.provider [] .initial sampleScript)
        (outcomes NativeAndroid.provider [] .fresh sampleScript) :=
  ⟨by decide, test_provider_simulates_native sampleScript sampleScript_bytes (by decide) (by decide)⟩

end MobileCrypto

end GuffSuff
