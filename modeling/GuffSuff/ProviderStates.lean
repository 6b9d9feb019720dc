import GuffSuff.OpaqueStates
import GuffSuff.RegistryLimits

/-! The saved state of the native provider. The application passes a buffer of
64 KiB to the export and does not ask for a larger one. -/

namespace GuffSuff

namespace MobileCrypto

namespace NativeAndroid

open NativeBoundary

/-- `order` is the order in which the hash map of the library yields its entries. -/
def exportOpaqueState (order : List UInt64) : Method Boundary (List UInt8) := fun b =>
  let maxLen := 64 * 1024
  let (b, r) := exportOpaqueTestState order .valid maxLen .valid b
  let res := r.code.value
  if res ≠ 0 then (.error (.exception ("Native exportOpaqueState failed: " ++ toString res)), b)
  else (.ok (outBytes r (r.outLen.getD 0)), b)

def importFailure (res : Int) : DartException :=
  if res = -7 then .exception "VERSION_MISMATCH"
  else if res = -8 then .exception "INVALID_STATE"
  else .exception ("Native importOpaqueState failed: " ++ toString res)

def importOpaqueState (stateData : List UInt8) : Method Boundary Unit := fun b =>
  let (b, r) := importOpaqueTestState (some fun i => stateData.getD i 0) stateData.length b
  let res := r.code.value
  if res ≠ 0 then (.error (importFailure res), b) else (.ok (), b)

def triggerControlledPanic : Method Boundary Int := fun b =>
  let (b, r) := triggerControlledTestPanic b
  (.ok r.code.value, b)

end NativeAndroid

/-- A call of a client that may pass what it likes. -/
inductive ProviderCall where
  | initializeDeviceIdentity
  | establishOutboundSession (recipientPrekeyBundle : String)
  | createGroupState (groupId : String) (memberDeviceIds : List String)
  | encryptPayload (sessionHandle : OpaqueSessionHandle) (plaintext : List Int64)
  | decryptPayload (sessionHandle : OpaqueSessionHandle) (ciphertext : List Int64)
  | disposeHandle (handle : Dynamic)
  | exportOpaqueState (order : List UInt64)
  | importOpaqueState (stateData : List UInt8)
  | triggerControlledPanic

namespace NativeAndroid

open NativeBoundary

/-- The registry after the call, whether it returned or threw. -/
def exec : ProviderCall → Boundary → Boundary
  | .initializeDeviceIdentity, b => (initializeDeviceIdentity b).2
  | .establishOutboundSession recipientPrekeyBundle, b =>
    (establishOutboundSession recipientPrekeyBundle b).2
  | .createGroupState groupId memberDeviceIds, b => (createGroupState groupId memberDeviceIds b).2
  | .encryptPayload sessionHandle plaintext, b => (encryptPayload sessionHandle plaintext b).2
  | .decryptPayload sessionHandle ciphertext, b => (decryptPayload sessionHandle ciphertext b).2
  | .disposeHandle handle, b => (disposeHandle handle b).2
  | .exportOpaqueState order, b => (exportOpaqueState order b).2
  | .importOpaqueState stateData, b => (importOpaqueState stateData b).2
  | .triggerControlledPanic, b => (triggerControlledPanic b).2

def providerRun (calls : List ProviderCall) : Boundary := calls.foldl (fun b c => exec c b) .fresh

/-- The call of the library behind a call of the provider, unless that fails before. -/
def nativeCall : ProviderCall → Option Call
  | .initializeDeviceIdentity => some (.createTestIdentityHandle .valid)
  | .establishOutboundSession _ => some (.createTestSessionHandle .valid)
  | .createGroupState _ _ => some (.createTestGroupHandle .valid)
  | .encryptPayload sessionHandle input | .decryptPayload sessionHandle input =>
    if 10 * 1024 * 1024 < input.length then none
    else some (.transformTestPayload sessionHandle.handleId.toUInt64 (some (filled input)) input.length
      .valid (input.length + 1024) .valid)
  | .disposeHandle handle => some (.disposeHandle (rawHandleOf handle).toUInt64)
  | .exportOpaqueState order => some (.exportOpaqueTestState order .valid (64 * 1024) .valid)
  | .importOpaqueState stateData =>
    some (.importOpaqueTestState (some fun i => stateData.getD i 0) stateData.length)
  | .triggerControlledPanic => some .triggerControlledTestPanic

section
variable {b : Boundary}

theorem snd_ite {α : Type} (p : Prop) [Decidable p] (x y : Except DartException α) (b : Boundary) :
    (if p then (x, b) else (y, b)).2 = b := by
  split <;> rfl

theorem transformPayloadInternal_exec (sessionHandle : OpaqueSessionHandle) (input : List Int64)
    (b : Boundary) : (transformPayloadInternal sessionHandle.handleId input b).2 =
      ((nativeCall (.encryptPayload sessionHandle input)).map fun c => (c.exec b).1).getD b := by
  by_cases hbig : 10 * 1024 * 1024 < input.length
  · rw [transformPayloadInternal, nativeCall, if_pos hbig, if_pos hbig]
    rfl
  · rw [transformPayloadInternal, nativeCall, if_neg hbig, if_neg hbig]
    exact snd_ite ..

theorem exec_native (c : ProviderCall) (b : Boundary) :
    exec c b = ((nativeCall c).map fun c => (c.exec b).1).getD b := by
  cases c with
  | encryptPayload sessionHandle input => exact transformPayloadInternal_exec sessionHandle input b
  | decryptPayload sessionHandle input => exact transformPayloadInternal_exec sessionHandle input b
  | triggerControlledPanic => rfl
  | _ => exact snd_ite ..

theorem providerRun_native (calls : List ProviderCall) :
    providerRun calls = (process (calls.filterMap nativeCall)).1 := by
  induction calls using List.reverseRecOn with
  | nil => rfl
  | append_singleton calls c ih =>
    have hrun : providerRun (calls ++ [c]) = exec c (providerRun calls) := List.foldl_concat ..
    rw [hrun, exec_native, ih, List.filterMap_append]
    cases hc : nativeCall c with
    | none => simp [hc]
    | some c' => simp [hc, process_snoc]

theorem providerRun_countable (calls : List ProviderCall) : Countable (providerRun calls) := by
  rw [providerRun_native]
  exact countable_process _

theorem outBytes_all {r : Reply} {bytes : List UInt8} (h : r.outBuf = some bytes) :
    outBytes r bytes.length = bytes := by
  have hbytes := fromRawParts_getD bytes
  simp only [fromRawParts, List.getD_eq_getElem?_getD] at hbytes
  rw [outBytes, h, Option.getD_some, hbytes]

/-- The buffer holds the header and 6552 records. -/
theorem state_fits_iff (order : List UInt64) (b : Boundary) :
    (stateBytes (enumerated order b.handles)).length ≤ 64 * 1024 ↔ b.handles.keys.length ≤ 6552 := by
  rw [stateBytes_length, length_enumerated]
  omega

theorem exportOpaqueState_ok (hp : b.poisoned = false) (order : List UInt64)
    (hroom : b.handles.keys.length ≤ 6552) :
    (exportOpaqueState order b).1 = .ok (stateBytes (enumerated order b.handles)) := by
  have hexport := export_state hp ((state_fits_iff order b).mpr hroom)
  simp only [exportOpaqueState, hexport, Code.value, ne_eq, not_true_eq_false, if_false, Option.getD_some]
  rw [outBytes_all rfl]

theorem exportOpaqueState_throws (hp : b.poisoned = false) (order : List UInt64)
    (hfull : 6552 < b.handles.keys.length) :
    (exportOpaqueState order b).1 = .error (.exception "Native exportOpaqueState failed: -5") := by
  have hlarge : 64 * 1024 < (stateBytes (enumerated order b.handles)).length :=
    Nat.not_le.mp fun hle => Nat.not_le.mpr hfull ((state_fits_iff order b).mp hle)
  have hexport : (exportOpaqueTestState order .valid (64 * 1024) .valid b).2.code = .bufferTooSmall := by
    simp only [exportOpaqueTestState, locked_unpoisoned hp, hlarge, if_true]
    rfl
  simp only [exportOpaqueState, hexport, Code.value]
  rfl

theorem importOpaqueState_restores (hb : Countable b) (order : List UInt64) {into : Boundary}
    (hinto : into.poisoned = false) :
    let imported := importOpaqueState (stateBytes (enumerated order b.handles)) into
    imported.1 = .ok () ∧ imported.2.registered = b.registered := by
  intro imported
  have himport := import_of_export hb hinto (fromRawParts_getD (stateBytes (enumerated order b.handles)))
  have hstate : imported = (.ok (), { into with
      handles := restore (enumerated order b.handles) ∅, lastErrorCode := .success }) := by
    simp only [imported, importOpaqueState, himport, Reply.of, Code.value, ne_eq, not_true_eq_false,
      if_false]
  rw [hstate]
  exact ⟨rfl, registered_restore rfl⟩

/-- The provider can save and restore exactly the registries that fit into its buffer. -/
theorem export_succeeds_iff (calls : List ProviderCall) (order : List UInt64) :
    let b := providerRun calls
    (∃ bytes, (exportOpaqueState order b).1 = .ok bytes ∧
      bytes = stateBytes (enumerated order b.handles) ∧
      ∀ into : List ProviderCall,
        let imported := importOpaqueState bytes (providerRun into)
        imported.1 = .ok () ∧ imported.2.registered = b.registered) ↔
    b.handles.keys.length ≤ 6552 := by
  intro b
  have hb : Countable b := providerRun_countable calls
  constructor
  · rintro ⟨bytes, hok, _⟩
    by_contra hfull
    rw [exportOpaqueState_throws hb.unpoisoned order (Nat.not_le.mp hfull)] at hok
    exact absurd hok (by simp)
  · intro hroom
    refine ⟨_, exportOpaqueState_ok hb.unpoisoned order hroom, rfl, fun into => ?_⟩
    exact importOpaqueState_restores hb order (providerRun_countable into).unpoisoned

theorem keys_providerRun_identities {n : Nat} (hn : n ≤ maxHandles) :
    (providerRun (List.replicate n .initializeDeviceIdentity)).handles.keys.length = n := by
  let calls : List Call := List.replicate n (.createTestIdentityHandle .valid)
  have hnative : providerRun (List.replicate n .initializeDeviceIdentity) = (process calls).1 := by
    have hcall : nativeCall .initializeDeviceIdentity = some (.createTestIdentityHandle .valid) := rfl
    rw [providerRun_native, List.filterMap_replicate_of_some hcall]
  have hcalls : ∀ c ∈ calls, c.imports = false := by
    intro c hc
    rw [(List.mem_replicate.mp hc).2]
    rfl
  have hcount : calls.countP Call.requests = n := by
    rw [List.countP_replicate]
    rfl
  rw [hnative, (tracked_process calls hcalls).length, issued_length calls hcalls, hcount, min_eq_left hn]

end

def manyIdentities : List ProviderCall := List.replicate 6553 .initializeDeviceIdentity

/-- One identity more than the buffer has room for, far below the limit of the library. -/
theorem export_throws_below_limit :
    (providerRun manyIdentities).handles.keys.length ≤ maxHandles ∧
      (exportOpaqueState [] (providerRun manyIdentities)).1 =
        .error (.exception "Native exportOpaqueState failed: -5") := by
  have hsmall : 6553 ≤ maxHandles := by decide
  have hkeys : (providerRun manyIdentities).handles.keys.length = 6553 := keys_providerRun_identities hsmall
  have hfull : 6552 < (providerRun manyIdentities).handles.keys.length :=
    Nat.lt_of_lt_of_eq (Nat.lt_succ_self 6552) hkeys.symm
  have hp := (providerRun_countable manyIdentities).unpoisoned
  exact ⟨hkeys.trans_le hsmall, exportOpaqueState_throws hp [] hfull⟩

end NativeAndroid

end MobileCrypto

end GuffSuff
