import Mathlib.Data.List.Induction
import GuffSuff.NativeBoundary

/-! What each call of the native boundary can do to the registry, and runs of
calls from a fresh process. -/

namespace GuffSuff

namespace NativeBoundary

def Call.creates : Call → Option HandleType
  | .createTestIdentityHandle _ => some .identity
  | .createTestSessionHandle _ => some .session
  | .createTestGroupHandle _ => some .group
  | _ => none

def Call.imports : Call → Bool
  | .importOpaqueTestState .. => true
  | _ => false

/-- What a call may have done to the registry. -/
inductive Moves (b b' : Boundary) : Call → Reply → Prop
  | created (c : Call) (t : HandleType) (hc : c.creates = some t) (hp : b.poisoned = false)
      (hroom : b.handles.keys.length < maxHandles)
      (hb : b' = { b with
        handles := b.handles.insert b.handleCounter (newEntry t true)
        handleCounter := b.handleCounter + 1, lastErrorCode := .success }) :
      Moves b b' c (.issued b.handleCounter)
  | disposed (h : UInt64) (e : HandleEntry) (he : b.handles.lookup h = some e) (ha : e.isActive = true)
      (hb : b' = { b with
        handles := b.handles.insert h { e with isActive := false }, lastErrorCode := .success }) :
      Moves b b' (.disposeHandle h) (.of .success)
  | replaced (c : Call) (r : Reply) (hc : c.imports = true) (hn : b'.handleCounter = b.handleCounter)
      (hr : r.outHandle = none) : Moves b b' c r
  | idle (c : Call) (r : Reply) (code : Code) (hb : b' = { b with lastErrorCode := code })
      (hr : r.outHandle = none) (hd : ∀ h, c = .disposeHandle h → r.code ≠ .success) : Moves b b' c r

section
variable {handles : Handles} {h : UInt64} {e : HandleEntry}

theorem mem_of_lookup (he : handles.lookup h = some e) : h ∈ handles := AList.lookup_isSome.mp (by simp [he])

theorem keys_insert_le (handles : Handles) (h : UInt64) (e : HandleEntry) :
    (handles.insert h e).keys.length ≤ handles.keys.length + 1 := by
  rw [AList.keys_insert, List.length_cons]
  exact Nat.succ_le_succ (List.length_erase_le ..)

theorem keys_insert_of_mem (hmem : h ∈ handles) (e : HandleEntry) :
    (handles.insert h e).keys.length = handles.keys.length := by
  have hpos : 0 < handles.keys.length := List.length_pos_of_mem (AList.mem_keys.mp hmem)
  rw [AList.keys_insert, List.length_cons, List.length_erase_of_mem (AList.mem_keys.mp hmem)]
  omega

end

section
variable {b : Boundary}

theorem contained_done (b : Boundary) (r : Reply) :
    contained (done b r) = ({ b with lastErrorCode := r.code }, r) := rfl

theorem locked_unpoisoned {α : Type} (hp : b.poisoned = false) (k : Body α) : locked b k = k := by
  simp [locked, hp]

theorem locked_poisoned {α : Type} (hp : b.poisoned = true) (k : Body α) : locked b k = .error b := by
  simp [locked, hp]

theorem disposeHandle_moves (h : UInt64) (b : Boundary) :
    Moves b (disposeHandle h b).1 (.disposeHandle h) (disposeHandle h b).2 := by
  unfold disposeHandle
  by_cases hp : b.poisoned = true
  · rw [locked_poisoned hp]
    exact .idle _ _ _ rfl rfl (by simp [contained, Reply.of])
  · rw [locked_unpoisoned (eq_false_of_ne_true hp)]
    cases he : b.handles.lookup h with
    | none => exact .idle _ _ _ rfl rfl (by simp [contained_done, Reply.of])
    | some e =>
      cases ha : e.isActive with
      | false => simpa [ha, contained_done] using .idle _ _ _ rfl rfl (by simp [Reply.of])
      | true => simpa [ha, contained_done] using .disposed h e he ha rfl

theorem createTestHandle_moves {c : Call} {t : HandleType} (hc : c.creates = some t) (p : OutPtr)
    (b : Boundary) : Moves b (createTestHandle t p b).1 c (createTestHandle t p b).2 := by
  have hd : ∀ h, c ≠ .disposeHandle h := by
    intro h heq
    rw [heq] at hc
    simp [Call.creates] at hc
  have hidle : ∀ b' r code, b' = { b with lastErrorCode := code } → r.outHandle = none →
      Moves b b' c r := fun b' r code hb hr => .idle c r code hb hr fun h heq => absurd heq (hd h)
  unfold createTestHandle
  by_cases hnull : p = .null
  · rw [if_pos hnull]
    exact hidle _ _ _ rfl rfl
  · rw [if_neg hnull]
    unfold registerHandle
    by_cases hp : b.poisoned = true
    · rw [locked_poisoned hp]
      exact hidle _ _ _ rfl rfl
    · have hlive := eq_false_of_ne_true hp
      rw [locked_unpoisoned hlive]
      by_cases hfull : maxHandles ≤ b.handles.keys.length
      · rw [if_pos hfull]
        exact hidle _ _ _ rfl rfl
      · rw [if_neg hfull]
        exact .created c t hc hlive (Nat.not_le.mp hfull) rfl

theorem transformTestPayload_moves (h : UInt64) (inBuf : ConstPtr) (inLen : Nat) (outBuf : OutPtr)
    (outMaxLen : Nat) (outLen : OutPtr) (b : Boundary) :
    ∃ code, (transformTestPayload h inBuf inLen outBuf outMaxLen outLen b).1 =
        { b with lastErrorCode := code } ∧
      (transformTestPayload h inBuf inLen outBuf outMaxLen outLen b).2.outHandle = none := by
  have hdone : ∀ r : Reply, r.outHandle = none → ∃ code,
      (contained (done b r)).1 = { b with lastErrorCode := code } ∧
        (contained (done b r)).2.outHandle = none := fun r hr => ⟨r.code, rfl, hr⟩
  unfold transformTestPayload
  cases inBuf with
  | none => exact hdone _ rfl
  | some mem =>
    dsimp only
    split
    · exact hdone _ rfl
    · split
      · exact hdone _ rfl
      · by_cases hp : b.poisoned = true
        · rw [locked_poisoned hp]
          exact ⟨_, rfl, rfl⟩
        · rw [locked_unpoisoned (eq_false_of_ne_true hp)]
          split
          · exact hdone _ rfl
          · split
            · exact hdone _ rfl
            · split
              · exact hdone _ rfl
              · split <;> exact hdone _ rfl

theorem exportOpaqueTestState_moves (order : List UInt64) (outBuf : OutPtr) (outMaxLen : Nat)
    (outLen : OutPtr) (b : Boundary) :
    ∃ code, (exportOpaqueTestState order outBuf outMaxLen outLen b).1 = { b with lastErrorCode := code } ∧
      (exportOpaqueTestState order outBuf outMaxLen outLen b).2.outHandle = none := by
  unfold exportOpaqueTestState
  split
  · exact ⟨_, rfl, rfl⟩
  · by_cases hp : b.poisoned = true
    · rw [locked_poisoned hp]
      exact ⟨_, rfl, rfl⟩
    · rw [locked_unpoisoned (eq_false_of_ne_true hp)]
      dsimp only
      split <;> exact ⟨_, rfl, rfl⟩

/-- However the body ends, by returning or in a panic, `P` holds then. -/
def Ends {α : Type} (P : Boundary → Option α → Prop) : Body (Boundary × α) → Prop
  | .ok res => P res.1 (some res.2)
  | .error b => P b none

theorem Ends.unwrap {α β : Type} {P : Boundary → Option β → Prop} (hb : P b none) {o : Option α}
    {k : α → Body (Boundary × β)} (hk : ∀ a, o = some a → Ends P (k a)) : Ends P (unwrap b o >>= k) := by
  cases o with
  | none => exact hb
  | some a => exact hk a rfl

theorem Ends.locked {α : Type} {P : Boundary → Option α → Prop} (hb : P b none)
    {k : Body (Boundary × α)} (hk : Ends P k) : Ends P (locked b k) := by
  by_cases hp : b.poisoned = true
  · rw [locked_poisoned hp]
    exact hb
  · rw [locked_unpoisoned (eq_false_of_ne_true hp)]
    exact hk

theorem Ends.bind {α β : Type} {P : Boundary → Option α → Prop} {Q : Boundary → Option β → Prop}
    {x : Body (Boundary × α)} (hx : Ends P x) {k : Boundary × α → Body (Boundary × β)}
    (herr : ∀ b, P b none → Q b none) (hk : ∀ b a, P b (some a) → Ends Q (k (b, a))) :
    Ends Q (x >>= k) := by
  cases x with
  | error b => exact herr b hx
  | ok res => exact hk res.1 res.2 hx

theorem importRecords_counter (slice : List UInt8) (inLen count offset : Nat) (b : Boundary) :
    Ends (fun b' _ => b'.handleCounter = b.handleCounter)
      (importRecords slice inLen count offset b) := by
  induction count generalizing offset b with
  | zero => rfl
  | succ count ih =>
    unfold importRecords
    apply Ends.unwrap rfl
    intro last _
    split
    · rfl
    · apply Ends.unwrap rfl
      intro idBytes _
      apply Ends.unwrap rfl
      intro type _
      cases HandleType.ofByte type with
      | none => rfl
      | some handleType =>
        apply Ends.unwrap rfl
        intro active _
        exact ih _ _

theorem importOpaqueTestState_moves (inBuf : ConstPtr) (inLen : Nat) (b : Boundary) :
    (importOpaqueTestState inBuf inLen b).1.handleCounter = b.handleCounter ∧
      (importOpaqueTestState inBuf inLen b).2.outHandle = none := by
  let P : Boundary → Option Reply → Prop := fun b' r =>
    b'.handleCounter = b.handleCounter ∧ r.all (fun r => r.outHandle.isNone) = true
  have hend : ∀ x : Body (Boundary × Reply), Ends P x →
      (contained x).1.handleCounter = b.handleCounter ∧ (contained x).2.outHandle = none := by
    intro x hx
    cases x with
    | ok y => exact ⟨hx.1, Option.isNone_iff_eq_none.mp hx.2⟩
    | error b' => exact ⟨hx.1, rfl⟩
  apply hend
  cases inBuf with
  | none => exact ⟨rfl, rfl⟩
  | some mem =>
    dsimp only
    split
    · exact ⟨rfl, rfl⟩
    · apply Ends.unwrap ⟨rfl, rfl⟩
      intro version _
      split
      · exact ⟨rfl, rfl⟩
      · apply Ends.unwrap ⟨rfl, rfl⟩
        intro count _
        have hloop : Ends (fun b' _ => b'.handleCounter = b.handleCounter)
            (locked b (importRecords (fromRawParts mem inLen) inLen count.toNat 8
              { b with handles := ∅ })) := .locked rfl (importRecords_counter ..)
        apply hloop.bind
        · exact fun b' hb' => ⟨hb', rfl⟩
        · exact fun b' code hb' => ⟨hb', rfl⟩

/-- What a call can do, said once. -/
theorem Call.moves (c : Call) (b : Boundary) : Moves b (c.exec b).1 c (c.exec b).2 := by
  cases c with
  | disposeHandle h => exact disposeHandle_moves h b
  | createTestIdentityHandle p => exact createTestHandle_moves rfl p b
  | createTestSessionHandle p => exact createTestHandle_moves rfl p b
  | createTestGroupHandle p => exact createTestHandle_moves rfl p b
  | transformTestPayload h inBuf inLen outBuf outMaxLen outLen =>
    obtain ⟨code, hb, hr⟩ := transformTestPayload_moves h inBuf inLen outBuf outMaxLen outLen b
    exact .idle _ _ code hb hr fun _ heq => Call.noConfusion heq
  | exportOpaqueTestState order outBuf outMaxLen outLen =>
    obtain ⟨code, hb, hr⟩ := exportOpaqueTestState_moves order outBuf outMaxLen outLen b
    exact .idle _ _ code hb hr fun _ heq => Call.noConfusion heq
  | importOpaqueTestState inBuf inLen =>
    obtain ⟨hn, hr⟩ := importOpaqueTestState_moves inBuf inLen b
    exact .replaced _ _ rfl hn hr
  | triggerControlledTestPanic =>
    exact .idle _ _ .panicContained rfl rfl fun _ heq => Call.noConfusion heq

end

abbrev History := List (Call × Reply)

/-- The calls of a process one after the other, and what they returned. -/
def process (calls : List Call) : Boundary × History :=
  calls.foldl (fun st c => ((c.exec st.1).1, st.2 ++ [(c, (c.exec st.1).2)])) (.fresh, [])

theorem process_snoc (calls : List Call) (c : Call) : process (calls ++ [c]) =
    ((c.exec (process calls).1).1, (process calls).2 ++ [(c, (c.exec (process calls).1).2)]) := by
  simp [process]

theorem process_append (calls more : List Call) :
    ∃ hist, (process (calls ++ more)).2 = (process calls).2 ++ hist := by
  induction more using List.reverseRecOn with
  | nil => exact ⟨[], by simp⟩
  | append_singleton more c ih =>
    obtain ⟨hist, hhist⟩ := ih
    rw [← List.append_assoc, process_snoc, hhist, List.append_assoc]
    exact ⟨_, rfl⟩

/-- The handle that a call issued, with its type. -/
def issue (x : Call × Reply) : Option (UInt64 × HandleType) :=
  match x.1.creates, x.2.outHandle with
  | some t, some h => some (h, t)
  | _, _ => none

/-- The handle that a call disposed. -/
def disposal (x : Call × Reply) : Option UInt64 :=
  match x.1 with
  | .disposeHandle h => if x.2.code = .success then some h else none
  | _ => none

def issued (hist : History) : List (UInt64 × HandleType) := hist.filterMap issue

def issuedIds (hist : History) : List UInt64 := (issued hist).map Prod.fst

def disposals (hist : History) : List UInt64 := hist.filterMap disposal

section
variable {b b' : Boundary} {c : Call} {r : Reply} {hist : History}

theorem issued_snoc (hist : History) (x : Call × Reply) :
    issued (hist ++ [x]) = issued hist ++ (issue x).toList := by
  cases hx : issue x <;> simp [issued, hx]

theorem disposals_snoc (hist : History) (x : Call × Reply) :
    disposals (hist ++ [x]) = disposals hist ++ (disposal x).toList := by
  cases hx : disposal x <;> simp [disposals, hx]

theorem issue_of_outHandle (hr : r.outHandle = none) : issue (c, r) = none := by
  cases hc : c.creates <;> simp [issue, hc, hr]

theorem issue_of_creates {t : HandleType} (hc : c.creates = some t) (h : UInt64) :
    issue (c, .issued h) = some (h, t) := by
  simp [issue, hc, Reply.issued]

theorem disposal_of_creates {t : HandleType} (hc : c.creates = some t) : disposal (c, r) = none := by
  cases c <;> first | rfl | simp [Call.creates] at hc

theorem disposal_of_failed (hd : ∀ h, c = .disposeHandle h → r.code ≠ .success) :
    disposal (c, r) = none := by
  cases c with
  | disposeHandle h => simp [disposal, hd h rfl]
  | _ => rfl

end

end NativeBoundary

end GuffSuff
