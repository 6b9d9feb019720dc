import Mathlib.Data.Finset.Basic
import GuffSuff.NativeBoundary

/-! The two providers behind `MobileCryptoProvider` that a client of the mobile
application can hold: the in-memory test provider, and the one that calls the
native boundary. An `int` of Dart is a word of 64 bits. -/

namespace GuffSuff

namespace MobileCrypto

open NativeBoundary (Boundary Code HandleType Reply maxBufferSize)

structure OpaqueIdentityHandle where
  handleId : Int64
  deriving DecidableEq, Repr

structure OpaqueSessionHandle where
  handleId : Int64
  deriving DecidableEq, Repr

structure OpaqueGroupHandle where
  handleId : Int64
  deriving DecidableEq, Repr

/-- What `disposeHandle(dynamic handle)` tells apart. -/
inductive Dynamic where
  | identity (handle : OpaqueIdentityHandle)
  | session (handle : OpaqueSessionHandle)
  | group (handle : OpaqueGroupHandle)
  | int (value : Int64)
  | other
  deriving DecidableEq, Repr

inductive DartException where
  | providerUnavailable (message : String)
  | exception (message : String)
  | argumentError (message : String)
  deriving DecidableEq, Repr

/-- A method of an object with state `σ` returns or throws; either way the state may have changed. -/
abbrev Method (σ α : Type) := σ → Except DartException α × σ

structure MobileCryptoProvider (σ : Type) where
  initializeDeviceIdentity : Method σ OpaqueIdentityHandle
  establishOutboundSession (recipientPrekeyBundle : String) : Method σ OpaqueSessionHandle
  createGroupState (groupId : String) (memberDeviceIds : List String) : Method σ OpaqueGroupHandle
  encryptPayload (sessionHandle : OpaqueSessionHandle) (plaintext : List Int64) : Method σ (List Int64)
  decryptPayload (sessionHandle : OpaqueSessionHandle) (ciphertext : List Int64) : Method σ (List Int64)
  disposeHandle (handle : Dynamic) : Method σ Unit

namespace TestBoundary

structure State where
  counter : Int64
  activeHandles : Finset Int64

def State.initial : State := { counter := 100, activeHandles := ∅ }

/-- `final id = ++_counter; _activeHandles.add(id)`. -/
def nextId : Method State Int64 := fun s =>
  let id := s.counter + 1
  (.ok id, { counter := id, activeHandles := insert id s.activeHandles })

def initializeDeviceIdentity : Method State OpaqueIdentityHandle := fun s =>
  ((nextId s).1.map OpaqueIdentityHandle.mk, (nextId s).2)

def establishOutboundSession (_recipientPrekeyBundle : String) : Method State OpaqueSessionHandle :=
  fun s => ((nextId s).1.map OpaqueSessionHandle.mk, (nextId s).2)

def createGroupState (_groupId : String) (_memberDeviceIds : List String) :
    Method State OpaqueGroupHandle := fun s =>
  ((nextId s).1.map OpaqueGroupHandle.mk, (nextId s).2)

def transferPayload (sessionHandle : OpaqueSessionHandle) (bytes : List Int64) :
    Method State (List Int64) := fun s =>
  if sessionHandle.handleId ∉ s.activeHandles then (.error (.providerUnavailable "INVALID_HANDLE"), s)
  else (.ok bytes, s)

def handleIdOf : Dynamic → Option Int64
  | .identity handle => some handle.handleId
  | .session handle => some handle.handleId
  | .group handle => some handle.handleId
  | _ => none

def disposeHandle (handle : Dynamic) : Method State Unit := fun s =>
  match handleIdOf handle with
  | none => (.ok (), s)
  | some handleId =>
    if handleId ∉ s.activeHandles then
      (.error (.providerUnavailable "STALE_OR_DOUBLE_FREE_HANDLE"), s)
    else (.ok (), { s with activeHandles := s.activeHandles.erase handleId })

def provider : MobileCryptoProvider State where
  initializeDeviceIdentity := initializeDeviceIdentity
  establishOutboundSession := establishOutboundSession
  createGroupState := createGroupState
  encryptPayload := transferPayload
  decryptPayload := transferPayload
  disposeHandle := disposeHandle

end TestBoundary

namespace NativeAndroid

/-- `ptr.value` of a `calloc<Uint64>()`: zero until the library has written it. -/
def outHandleValue (r : Reply) : Int64 := (r.outHandle.getD 0).toInt64

/-- `setAll` on a `Uint8` buffer keeps the low byte of each element. -/
def toByte (x : Int64) : UInt8 := x.toUInt64.toUInt8

def ofByte (b : UInt8) : Int64 := b.toUInt64.toInt64

/-- The input buffer, zeroed by `calloc` and then filled. -/
def filled (input : List Int64) (i : Nat) : UInt8 := ((input.map toByte)[i]?).getD 0

/-- `outPtr.asTypedList(len)`. -/
def outBytes (r : Reply) (len : Nat) : List UInt8 :=
  (List.range len).map fun i => ((r.outBuf.getD [])[i]?).getD 0

/-- The body that the three `create` methods share: `create` is the function of the library
and `name` what the message calls it. -/
def createHandle {α : Type} (create : NativeBoundary.OutPtr → Boundary → Boundary × Reply) (name : String)
    (handle : Int64 → α) : Method Boundary α := fun b =>
  let (b, r) := create .valid b
  let res := r.code.value
  if res ≠ 0 then (.error (.exception ("Native " ++ name ++ " failed: " ++ toString res)), b)
  else (.ok (handle (outHandleValue r)), b)

def initializeDeviceIdentity : Method Boundary OpaqueIdentityHandle :=
  createHandle NativeBoundary.createTestIdentityHandle "createIdentityHandle" OpaqueIdentityHandle.mk

def establishOutboundSession (_recipientPrekeyBundle : String) : Method Boundary OpaqueSessionHandle :=
  createHandle NativeBoundary.createTestSessionHandle "createSessionHandle" OpaqueSessionHandle.mk

def createGroupState (_groupId : String) (_memberDeviceIds : List String) :
    Method Boundary OpaqueGroupHandle :=
  createHandle NativeBoundary.createTestGroupHandle "createGroupHandle" OpaqueGroupHandle.mk

def transformFailure (res : Int) : DartException :=
  if res = -2 then .exception "INVALID_HANDLE"
  else if res = -3 then .exception "STALE_OR_DOUBLE_FREE"
  else if res = -5 then .exception "BUFFER_TOO_SMALL"
  else if res = -6 then .argumentError "OVERSIZED_BUFFER"
  else if res = -9 then .exception "ERR_HANDLE_TYPE_MISMATCH"
  else .exception ("Native transformPayload failed: " ++ toString res)

/-- `calloc` returns a pointer that is not null, so the library gets three valid ones. -/
def transformPayloadInternal (handleId : Int64) (input : List Int64) : Method Boundary (List Int64) :=
  fun b =>
  if 10 * 1024 * 1024 < input.length then (.error (.argumentError "OVERSIZED_BUFFER"), b)
  else
    let outMaxLen := input.length + 1024
    let (b, r) := NativeBoundary.transformTestPayload handleId.toUInt64 (some (filled input))
      input.length .valid outMaxLen .valid b
    let res := r.code.value
    if res ≠ 0 then (.error (transformFailure res), b)
    else (.ok ((outBytes r (r.outLen.getD 0)).map ofByte), b)

def encryptPayload (sessionHandle : OpaqueSessionHandle) (plaintext : List Int64) :
    Method Boundary (List Int64) := transformPayloadInternal sessionHandle.handleId plaintext

def decryptPayload (sessionHandle : OpaqueSessionHandle) (ciphertext : List Int64) :
    Method Boundary (List Int64) := transformPayloadInternal sessionHandle.handleId ciphertext

def rawHandleOf : Dynamic → Int64
  | .identity handle => handle.handleId
  | .session handle => handle.handleId
  | .group handle => handle.handleId
  | .int value => value
  | .other => 0

def disposeFailure (res : Int) : DartException :=
  if res = -3 then .exception "STALE_OR_DOUBLE_FREE"
  else if res = -2 then .exception "INVALID_HANDLE"
  else .exception ("Native disposeHandle failed: " ++ toString res)

def disposeHandle (handle : Dynamic) : Method Boundary Unit := fun b =>
  let (b, r) := NativeBoundary.disposeHandle (rawHandleOf handle).toUInt64 b
  let res := r.code.value
  if res ≠ 0 then (.error (disposeFailure res), b) else (.ok (), b)

def provider : MobileCryptoProvider Boundary where
  initializeDeviceIdentity := initializeDeviceIdentity
  establishOutboundSession := establishOutboundSession
  createGroupState := createGroupState
  encryptPayload := encryptPayload
  decryptPayload := decryptPayload
  disposeHandle := disposeHandle

end NativeAndroid

inductive OpaqueHandle where
  | identity (handle : OpaqueIdentityHandle)
  | session (handle : OpaqueSessionHandle)
  | group (handle : OpaqueGroupHandle)
  deriving DecidableEq, Repr

namespace OpaqueHandle

def toDynamic : OpaqueHandle → Dynamic
  | identity handle => .identity handle
  | session handle => .session handle
  | group handle => .group handle

def handleId : OpaqueHandle → Int64
  | identity handle => handle.handleId
  | session handle => handle.handleId
  | group handle => handle.handleId

def handleType : OpaqueHandle → HandleType
  | identity _ => .identity
  | session _ => .session
  | group _ => .group

def renamed (f : Int64 → Int64) : OpaqueHandle → OpaqueHandle
  | identity handle => .identity ⟨f handle.handleId⟩
  | session handle => .session ⟨f handle.handleId⟩
  | group handle => .group ⟨f handle.handleId⟩

end OpaqueHandle

/-- A call of a client; a handle is given by its position among those returned so far. -/
inductive Operation where
  | initializeDeviceIdentity
  | establishOutboundSession (recipientPrekeyBundle : String)
  | createGroupState (groupId : String) (memberDeviceIds : List String)
  | encryptPayload (handle : Nat) (plaintext : List Int64)
  | decryptPayload (handle : Nat) (ciphertext : List Int64)
  | disposeHandle (handle : Nat)
  deriving DecidableEq, Repr

inductive Outcome where
  | notMade
  | threw (e : DartException)
  | handle (h : OpaqueHandle)
  | payload (bytes : List Int64)
  | disposed
  deriving DecidableEq, Repr

def Outcome.of {α : Type} (f : α → Outcome) : Except DartException α → Outcome
  | .error e => .threw e
  | .ok a => f a

namespace Operation

def creates : Operation → Bool
  | initializeDeviceIdentity | establishOutboundSession _ | createGroupState _ _ => true
  | _ => false

def payload : Operation → List Int64
  | encryptPayload _ plaintext => plaintext
  | decryptPayload _ ciphertext => ciphertext
  | _ => []

section
variable {σ : Type} (P : MobileCryptoProvider σ)

/-- One call by a client that holds the handles `known`. It has nothing else to
pass, and only a session handle fits the parameter of the payload methods. -/
def perform (known : List OpaqueHandle) (s : σ) : Operation → Outcome × σ
  | initializeDeviceIdentity =>
    let (res, s) := P.initializeDeviceIdentity s
    (.of (fun h => .handle (.identity h)) res, s)
  | establishOutboundSession recipientPrekeyBundle =>
    let (res, s) := P.establishOutboundSession recipientPrekeyBundle s
    (.of (fun h => .handle (.session h)) res, s)
  | createGroupState groupId memberDeviceIds =>
    let (res, s) := P.createGroupState groupId memberDeviceIds s
    (.of (fun h => .handle (.group h)) res, s)
  | encryptPayload handle plaintext =>
    match known[handle]? with
    | some (.session h) =>
      let (res, s) := P.encryptPayload h plaintext s
      (.of .payload res, s)
    | _ => (.notMade, s)
  | decryptPayload handle ciphertext =>
    match known[handle]? with
    | some (.session h) =>
      let (res, s) := P.decryptPayload h ciphertext s
      (.of .payload res, s)
    | _ => (.notMade, s)
  | disposeHandle handle =>
    match known[handle]? with
    | some h =>
      let (res, s) := P.disposeHandle h.toDynamic s
      (.of (fun _ => .disposed) res, s)
    | none => (.notMade, s)

end

end Operation

def Outcome.handles : Outcome → List OpaqueHandle
  | .handle h => [h]
  | _ => []

def outcomes {σ : Type} (P : MobileCryptoProvider σ) :
    List OpaqueHandle → σ → List Operation → List Outcome
  | _, _, [] => []
  | known, s, op :: ops =>
    let (o, s) := op.perform P known s
    o :: outcomes P (known ++ o.handles) s ops

end MobileCrypto

end GuffSuff
