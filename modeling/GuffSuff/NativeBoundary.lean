import Mathlib.Data.List.AList

/-! The native boundary of the mobile client with its `test-provider` feature.
Calls do not overlap: each holds the lock of the registry while it looks at it. -/

namespace GuffSuff

namespace NativeBoundary

def boundaryApiVersion : UInt32 := 1
def maxBufferSize : Nat := 10 * 1024 * 1024
def maxHandles : Nat := 10000
def usizeMax : Nat := 18446744073709551615

inductive Code where
  | success | nullPointer | invalidHandle | staleOrDoubleFree | panicContained | bufferTooSmall
  | oversizedBuffer | versionMismatch | invalidState | handleTypeMismatch | registryExhausted
  deriving DecidableEq, Repr

/-- The constants `ERR_SUCCESS` to `ERR_REGISTRY_EXHAUSTED`. -/
def Code.value : Code → Int
  | .success => 0
  | .nullPointer => -1
  | .invalidHandle => -2
  | .staleOrDoubleFree => -3
  | .panicContained => -4
  | .bufferTooSmall => -5
  | .oversizedBuffer => -6
  | .versionMismatch => -7
  | .invalidState => -8
  | .handleTypeMismatch => -9
  | .registryExhausted => -10

inductive HandleType where
  | identity | session | group
  deriving DecidableEq, Repr

def HandleType.toByte : HandleType → UInt8
  | .identity => 1
  | .session => 2
  | .group => 3

def HandleType.ofByte (b : UInt8) : Option HandleType :=
  if b = 1 then some .identity else if b = 2 then some .session else if b = 3 then some .group
  else none

structure HandleEntry where
  handleType : HandleType
  createdAtMs : UInt64
  isActive : Bool
  deriving DecidableEq, Repr

def newEntry (handleType : HandleType) (isActive : Bool) : HandleEntry :=
  { handleType, createdAtMs := 1722900000000, isActive }

abbrev Handles := AList (fun _ : UInt64 => HandleEntry)

/-- The statics of the library: the registry behind its lock, the counter and the last error. -/
structure Boundary where
  handles : Handles
  poisoned : Bool
  handleCounter : UInt64
  lastErrorCode : Code

def Boundary.fresh : Boundary :=
  { handles := ∅, poisoned := false, handleCounter := 1000, lastErrorCode := .success }

/-- A pointer to read from: null, or the bytes from its address on. -/
abbrev ConstPtr := Option (Nat → UInt8)

inductive OutPtr where
  | null | valid
  deriving DecidableEq, Repr

def fromRawParts (mem : Nat → UInt8) (len : Nat) : List UInt8 := (List.range len).map mem

/-- What a call returns and what it writes through its out pointers. -/
structure Reply where
  code : Code
  outHandle : Option UInt64
  outBuf : Option (List UInt8)
  outLen : Option Nat
  deriving DecidableEq, Repr

def Reply.of (code : Code) : Reply := { code, outHandle := none, outBuf := none, outLen := none }

def Reply.issued (handle : UInt64) : Reply :=
  { code := .success, outHandle := some handle, outBuf := none, outLen := none }

/-- The body of a call; a panic leaves the state it happened in. -/
abbrev Body := Except Boundary

/-- `catch_unwind` around the body. -/
def contained : Body (Boundary × Reply) → Boundary × Reply
  | .ok res => res
  | .error b => ({ b with lastErrorCode := .panicContained }, .of .panicContained)

/-- `set_last_error(code)` and `return`. -/
def done (b : Boundary) (r : Reply) : Body (Boundary × Reply) := .ok ({ b with lastErrorCode := r.code }, r)

/-- `read().unwrap()` or `write().unwrap()` on the lock of the registry. -/
def locked {α : Type} (b : Boundary) (k : Body α) : Body α := if b.poisoned then .error b else k

/-- Unwrapping a value the library indexes or converts; `b` is what a panic leaves. -/
def unwrap {α : Type} (b : Boundary) : Option α → Body α
  | some a => .ok a
  | none => .error b

def disposeHandle (handle : UInt64) (b : Boundary) : Boundary × Reply :=
  contained <| locked b <|
  match b.handles.lookup handle with
  | some entry =>
    if !entry.isActive then done b (.of .staleOrDoubleFree)
    else done { b with handles := b.handles.insert handle { entry with isActive := false } } (.of .success)
  | none => done b (.of .invalidHandle)

def registerHandle (handleType : HandleType) (b : Boundary) : Body (Boundary × Except Code UInt64) :=
  locked b <|
  if maxHandles ≤ b.handles.keys.length then .ok (b, .error .registryExhausted)
  else .ok
    ({ b with
        handles := b.handles.insert b.handleCounter (newEntry handleType true)
        handleCounter := b.handleCounter + 1 }, .ok b.handleCounter)

/-- The body that the three `create_test_*_handle` functions share. -/
def createTestHandle (handleType : HandleType) (outHandle : OutPtr) (b : Boundary) :
    Boundary × Reply :=
  contained <|
  if outHandle = .null then done b (.of .nullPointer)
  else
    match registerHandle handleType b with
    | .error b => .error b
    | .ok (b, .ok handleId) => done b (.issued handleId)
    | .ok (b, .error code) => done b (.of code)

def createTestIdentityHandle := createTestHandle .identity
def createTestSessionHandle := createTestHandle .session
def createTestGroupHandle := createTestHandle .group

def transformTestPayload (handle : UInt64) (inBuf : ConstPtr) (inLen : Nat) (outBuf : OutPtr)
    (outMaxLen : Nat) (outLen : OutPtr) (b : Boundary) : Boundary × Reply :=
  contained <|
  match inBuf with
  | none => done b (.of .nullPointer)
  | some mem =>
    if outBuf = .null ∨ outLen = .null then done b (.of .nullPointer)
    else if maxBufferSize < inLen then done b (.of .oversizedBuffer)
    else locked b <|
      match b.handles.lookup handle with
      | none => done b (.of .invalidHandle)
      | some entry =>
        if !entry.isActive then done b (.of .staleOrDoubleFree)
        else if entry.handleType ≠ .session then done b (.of .handleTypeMismatch)
        else if outMaxLen < inLen then done b (.of .bufferTooSmall)
        else done b
          { code := .success, outHandle := none, outBuf := some (fromRawParts mem inLen),
            outLen := some inLen }

/-- `to_le_bytes` of an integer of `n` bytes. -/
def toLeBytes : Nat → Nat → List UInt8
  | 0, _ => []
  | n + 1, v => UInt8.ofNat v :: toLeBytes n (v / 256)

/-- `from_le_bytes`. -/
def fromLeBytes (bytes : List UInt8) : Nat := bytes.foldr (fun b v => b.toNat + 256 * v) 0

/-- The entries in the order in which the hash map yields them; an order that
does not fit the map stands for the order of the model. -/
def enumerated (order : List UInt64) (handles : Handles) : List (UInt64 × HandleEntry) :=
  if order.isPerm handles.keys then
    order.filterMap fun id => (handles.lookup id).map fun entry => (id, entry)
  else handles.entries.map fun p => (p.1, p.2)

def recordBytes (id : UInt64) (entry : HandleEntry) : List UInt8 :=
  toLeBytes 8 id.toNat ++ [entry.handleType.toByte, if entry.isActive then 1 else 0]

def stateBytes (entries : List (UInt64 × HandleEntry)) : List UInt8 :=
  toLeBytes 4 boundaryApiVersion.toNat ++ toLeBytes 4 (UInt32.ofNat entries.length).toNat ++
    entries.flatMap fun p => recordBytes p.1 p.2

def exportOpaqueTestState (order : List UInt64) (outBuf : OutPtr) (outMaxLen : Nat)
    (outLen : OutPtr) (b : Boundary) : Boundary × Reply :=
  contained <|
  if outBuf = .null ∨ outLen = .null then done b (.of .nullPointer)
  else locked b <|
    let bytes := stateBytes (enumerated order b.handles)
    if outMaxLen < bytes.length then
      done b { code := .bufferTooSmall, outHandle := none, outBuf := none, outLen := some bytes.length }
    else
      done b { code := .success, outHandle := none, outBuf := some bytes, outLen := some bytes.length }

/-- `slice[from..to]`. -/
def subslice (slice : List UInt8) (lo hi : Nat) : Option (List UInt8) :=
  if hi ≤ slice.length then some ((slice.drop lo).take (hi - lo)) else none

def u32At (slice : List UInt8) (i : Nat) : Option UInt32 := do
  let b₀ ← slice[i]?
  let b₁ ← slice[i + 1]?
  let b₂ ← slice[i + 2]?
  let b₃ ← slice[i + 3]?
  return UInt32.ofNat (fromLeBytes [b₀, b₁, b₂, b₃])

def checkedAdd (m n : Nat) : Option Nat := if m + n ≤ usizeMax then some (m + n) else none

/-- The loop over the records. A panic in it happens under the write lock. -/
def importRecords (slice : List UInt8) (inLen : Nat) : Nat → Nat → Boundary → Body (Boundary × Code)
  | 0, _, b => .ok (b, .success)
  | count + 1, offset, b => do
    let last ← unwrap { b with poisoned := true } (checkedAdd offset 10)
    if inLen < last then .ok (b, .invalidState)
    else
      let idBytes ← unwrap { b with poisoned := true } (subslice slice offset (offset + 8))
      let type ← unwrap { b with poisoned := true } slice[offset + 8]?
      match HandleType.ofByte type with
      | none => .ok (b, .invalidState)
      | some handleType =>
        let active ← unwrap { b with poisoned := true } slice[offset + 9]?
        importRecords slice inLen count (offset + 10)
          { b with handles := b.handles.insert (UInt64.ofNat (fromLeBytes idBytes))
                      (newEntry handleType (active ≠ 0)) }

def importOpaqueTestState (inBuf : ConstPtr) (inLen : Nat) (b : Boundary) : Boundary × Reply :=
  contained <|
  match inBuf with
  | none => done b (.of .nullPointer)
  | some mem =>
    if inLen < 8 then done b (.of .invalidState)
    else do
      let slice := fromRawParts mem inLen
      let version ← unwrap b (u32At slice 0)
      if version ≠ boundaryApiVersion then done b (.of .versionMismatch)
      else
        let count ← unwrap b (u32At slice 4)
        let (b, code) ← locked b (importRecords slice inLen count.toNat 8 { b with handles := ∅ })
        done b (.of code)

def triggerControlledTestPanic (b : Boundary) : Boundary × Reply := contained (.error b)

def boundaryLastErrorCode (b : Boundary) : Code := b.lastErrorCode

inductive Call where
  | disposeHandle (handle : UInt64)
  | createTestIdentityHandle (outHandle : OutPtr)
  | createTestSessionHandle (outHandle : OutPtr)
  | createTestGroupHandle (outHandle : OutPtr)
  | transformTestPayload (handle : UInt64) (inBuf : ConstPtr) (inLen : Nat) (outBuf : OutPtr)
      (outMaxLen : Nat) (outLen : OutPtr)
  | exportOpaqueTestState (order : List UInt64) (outBuf : OutPtr) (outMaxLen : Nat) (outLen : OutPtr)
  | importOpaqueTestState (inBuf : ConstPtr) (inLen : Nat)
  | triggerControlledTestPanic

def Call.exec : Call → Boundary → Boundary × Reply
  | .disposeHandle handle => NativeBoundary.disposeHandle handle
  | .createTestIdentityHandle outHandle => NativeBoundary.createTestIdentityHandle outHandle
  | .createTestSessionHandle outHandle => NativeBoundary.createTestSessionHandle outHandle
  | .createTestGroupHandle outHandle => NativeBoundary.createTestGroupHandle outHandle
  | .transformTestPayload handle inBuf inLen outBuf outMaxLen outLen =>
    NativeBoundary.transformTestPayload handle inBuf inLen outBuf outMaxLen outLen
  | .exportOpaqueTestState order outBuf outMaxLen outLen =>
    NativeBoundary.exportOpaqueTestState order outBuf outMaxLen outLen
  | .importOpaqueTestState inBuf inLen => NativeBoundary.importOpaqueTestState inBuf inLen
  | .triggerControlledTestPanic => NativeBoundary.triggerControlledTestPanic

end NativeBoundary

end GuffSuff
