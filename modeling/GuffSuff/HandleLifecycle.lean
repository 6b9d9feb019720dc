import GuffSuff.BoundaryMoves

/-! The life of a handle: what the boundary answers for it depends on the calls
that issued and disposed it, whatever the calls in between. -/

namespace GuffSuff

namespace NativeBoundary

/-- The handle was issued with type `t`, and no call has disposed it since. -/
def Live (t : HandleType) (h : UInt64) (hist : History) : Prop :=
  ∃ before x after, hist = before ++ x :: after ∧ issue x = some (h, t) ∧ h ∉ disposals after

section
variable {b b' : Boundary} {c : Call} {r : Reply} {hist : History} {h : UInt64} {t : HandleType}

theorem live_snoc {x : Call × Reply} : Live t h (hist ++ [x]) ↔
    issue x = some (h, t) ∨ (Live t h hist ∧ disposal x ≠ some h) := by
  constructor
  · intro hlive
    obtain ⟨before, y, after, heq, hy, hd⟩ := hlive
    rcases List.eq_nil_or_concat after with rfl | ⟨after, z, rfl⟩
    · obtain ⟨_, hxy⟩ := List.append_inj' heq rfl
      exact .inl (List.singleton_inj.mp hxy ▸ hy)
    · rw [List.concat_eq_append, ← List.cons_append, ← List.append_assoc] at heq
      obtain ⟨hhist, hxz⟩ := List.append_inj' heq rfl
      rw [List.concat_eq_append, disposals_snoc, List.mem_append, not_or] at hd
      refine .inr ⟨⟨before, y, after, hhist, hy, hd.1⟩, fun hx => hd.2 ?_⟩
      rw [← List.singleton_inj.mp hxz, hx]
      exact List.mem_singleton_self h
  · intro hx
    rcases hx with hx | ⟨⟨before, y, after, rfl, hy, hd⟩, hx⟩
    · exact ⟨hist, x, [], rfl, hx, List.not_mem_nil⟩
    · refine ⟨before, y, after ++ [x], by simp, hy, ?_⟩
      rw [disposals_snoc]
      simp [hd, hx]

/-- The registry agrees with the history of the process. -/
structure Tracked (b : Boundary) (hist : History) : Prop where
  unpoisoned : b.poisoned = false
  counter : b.handleCounter.toNat = 1000 + (issued hist).length
  ids : (issuedIds hist).map UInt64.toNat = List.range' 1000 (issued hist).length
  length : b.handles.keys.length = (issued hist).length
  room : (issued hist).length ≤ maxHandles
  known : ∀ h, h ∈ b.handles ↔ h ∈ issuedIds hist
  live : ∀ h t, (∃ e, b.handles.lookup h = some e ∧ e.handleType = t ∧ e.isActive = true) ↔
    Live t h hist
  dead : ∀ h, (∃ e, b.handles.lookup h = some e ∧ e.isActive = false) ↔ h ∈ disposals hist
  once : (disposals hist).Nodup

theorem tracked_fresh : Tracked .fresh [] := by
  constructor <;> simp [Boundary.fresh, issued, issuedIds, disposals, Live]

namespace Tracked

theorem counter_fresh (ht : Tracked b hist) : b.handleCounter ∉ b.handles := by
  intro hmem
  have hid : b.handleCounter.toNat ∈ (issuedIds hist).map UInt64.toNat :=
    List.mem_map_of_mem ((ht.known _).mp hmem)
  rw [ht.ids, List.mem_range'_1, ht.counter] at hid
  omega

theorem ids_nodup (ht : Tracked b hist) : (issuedIds hist).Nodup := by
  apply List.Nodup.of_map UInt64.toNat
  rw [ht.ids]
  exact List.nodup_range'

theorem created (ht : Tracked b hist) {x : Call × Reply} (hi : issue x = some (b.handleCounter, t))
    (hd : disposal x = none) (hroom : b.handles.keys.length < maxHandles)
    (hb : b' = { b with
      handles := b.handles.insert b.handleCounter (newEntry t true)
      handleCounter := b.handleCounter + 1, lastErrorCode := .success }) :
    Tracked b' (hist ++ [x]) := by
  have hfresh := ht.counter_fresh
  have hnone : b.handles.lookup b.handleCounter = none := AList.lookup_eq_none.mpr hfresh
  have hlen : (issued (hist ++ [x])).length = (issued hist).length + 1 := by
    rw [issued_snoc, hi]
    simp
  have hids : issuedIds (hist ++ [x]) = issuedIds hist ++ [b.handleCounter] := by
    simp [issuedIds, issued_snoc, hi]
  have hsmall : (issued hist).length < maxHandles := ht.length ▸ hroom
  subst hb
  constructor
  case unpoisoned => exact ht.unpoisoned
  case counter =>
    have hcount := ht.counter
    simp only [maxHandles] at hsmall
    rw [hlen, UInt64.toNat_add, hcount]
    simp
    omega
  case ids =>
    rw [hids, hlen, List.map_append, ht.ids, List.range'_concat]
    simp [ht.counter]
  case length =>
    rw [AList.keys_insert, List.length_cons, List.erase_of_not_mem (AList.mem_keys.not.mp hfresh),
      ht.length, hlen]
  case room => omega
  case known =>
    intro h
    rw [AList.mem_insert, ht.known, hids, List.mem_append, List.mem_singleton, or_comm]
  case live =>
    intro h t'
    rw [live_snoc, hi, hd, ← ht.live]
    by_cases heq : h = b.handleCounter
    · subst heq
      simp [AList.lookup_insert, hnone, newEntry]
    · have hne : some (b.handleCounter, t) ≠ some (h, t') := fun hx =>
        heq (Prod.mk.inj (Option.some.inj hx)).1.symm
      simp [AList.lookup_insert_ne heq, hne]
  case dead =>
    intro h
    rw [disposals_snoc, hd, Option.toList_none, List.append_nil, ← ht.dead]
    by_cases heq : h = b.handleCounter
    · subst heq
      simp [AList.lookup_insert, hnone, newEntry]
    · simp [AList.lookup_insert_ne heq]
  case once =>
    rw [disposals_snoc, hd, Option.toList_none, List.append_nil]
    exact ht.once

theorem disposed (ht : Tracked b hist) {x : Call × Reply} {e : HandleEntry} (hi : issue x = none)
    (hd : disposal x = some h) (he : b.handles.lookup h = some e) (ha : e.isActive = true)
    (hb : b' = { b with
      handles := b.handles.insert h { e with isActive := false }, lastErrorCode := .success }) :
    Tracked b' (hist ++ [x]) := by
  have hmem : h ∈ b.handles := mem_of_lookup he
  have hissued : issued (hist ++ [x]) = issued hist := by simp [issued_snoc, hi]
  have hids : issuedIds (hist ++ [x]) = issuedIds hist := by rw [issuedIds, hissued, issuedIds]
  have hnew : h ∉ disposals hist := by
    rw [← ht.dead]
    intro hx
    obtain ⟨e', he', ha'⟩ := hx
    rw [he] at he'
    rw [Option.some.inj he', ha'] at ha
    exact absurd ha (by decide)
  subst hb
  constructor
  case unpoisoned => exact ht.unpoisoned
  case counter => rw [hissued]; exact ht.counter
  case ids => rw [hids, hissued]; exact ht.ids
  case length => rw [keys_insert_of_mem hmem, hissued, ht.length]
  case room => rw [hissued]; exact ht.room
  case known =>
    intro h'
    rw [AList.mem_insert, hids, ← ht.known]
    constructor
    · intro hx
      rcases hx with rfl | hx
      · exact hmem
      · exact hx
    · exact .inr
  case live =>
    intro h' t
    rw [live_snoc, hi, hd, ← ht.live]
    by_cases heq : h' = h
    · subst heq
      simp [AList.lookup_insert]
    · have hne : some h ≠ some h' := fun hx => heq (Option.some.inj hx).symm
      simp [AList.lookup_insert_ne heq, hne]
  case dead =>
    intro h'
    rw [disposals_snoc, hd, Option.toList_some, List.mem_append, List.mem_singleton, ← ht.dead]
    by_cases heq : h' = h
    · subst heq
      simp [AList.lookup_insert]
    · simp [AList.lookup_insert_ne heq, heq]
  case once =>
    rw [disposals_snoc, hd, Option.toList_some]
    exact ht.once.append (List.nodup_singleton h) (by simpa using hnew)

theorem idle (ht : Tracked b hist) {x : Call × Reply} {code : Code} (hi : issue x = none)
    (hd : disposal x = none) (hb : b' = { b with lastErrorCode := code }) :
    Tracked b' (hist ++ [x]) := by
  have hissued : issued (hist ++ [x]) = issued hist := by simp [issued_snoc, hi]
  have hdis : disposals (hist ++ [x]) = disposals hist := by simp [disposals_snoc, hd]
  have hlive : ∀ h t, Live t h (hist ++ [x]) ↔ Live t h hist := by
    intro h t
    simp [live_snoc, hi, hd]
  subst hb
  constructor <;> simp only [hissued, hdis, hlive, issuedIds]
  case unpoisoned => exact ht.unpoisoned
  case counter => exact ht.counter
  case ids => exact ht.ids
  case length => exact ht.length
  case room => exact ht.room
  case known => exact ht.known
  case live => exact ht.live
  case dead => exact ht.dead
  case once => exact ht.once

theorem step (ht : Tracked b hist) (hc : c.imports = false) :
    Tracked (c.exec b).1 (hist ++ [(c, (c.exec b).2)]) := by
  have hmoves := c.moves b
  generalize (c.exec b).1 = b' at hmoves
  generalize (c.exec b).2 = r at hmoves
  cases hmoves with
  | created c t hcreates _ hroom hb =>
    exact ht.created (issue_of_creates hcreates _) (disposal_of_creates hcreates) hroom hb
  | disposed h e he ha hb => exact ht.disposed (issue_of_outHandle rfl) rfl he ha hb
  | replaced c r himp =>
    rw [himp] at hc
    exact absurd hc (by decide)
  | idle c r code hb hr hd => exact ht.idle (issue_of_outHandle hr) (disposal_of_failed hd) hb

/-- What a dispose of any handle answers, by what the registry knows of it. -/
theorem dispose_code (ht : Tracked b hist) (h : UInt64) :
    ((disposeHandle h b).2.code = .success ↔ h ∈ issuedIds hist ∧ h ∉ disposals hist) ∧
      (h ∈ disposals hist → (disposeHandle h b).2.code = .staleOrDoubleFree) ∧
      (h ∉ issuedIds hist → (disposeHandle h b).2.code = .invalidHandle) := by
  rw [← ht.known, ← ht.dead, ← AList.lookup_isSome]
  unfold disposeHandle
  rw [locked_unpoisoned ht.unpoisoned]
  cases he : b.handles.lookup h with
  | none => simp [contained_done, Reply.of]
  | some e => cases ha : e.isActive <;> simp [ha, contained_done, Reply.of]

theorem transform_code (ht : Tracked b hist) (h : UInt64) (mem : Nat → UInt8) {inLen : Nat}
    (hin : inLen ≤ maxBufferSize) (outMaxLen : Nat) :
    let code := (transformTestPayload h (some mem) inLen .valid outMaxLen .valid b).2.code
    (inLen ≤ outMaxLen → (code = .success ↔ Live .session h hist)) ∧
      (h ∈ disposals hist → code = .staleOrDoubleFree) ∧
      (h ∉ issuedIds hist → code = .invalidHandle) := by
  intro code
  have hcode : code = (transformTestPayload h (some mem) inLen .valid outMaxLen .valid b).2.code := rfl
  rw [← ht.known, ← ht.dead, ← ht.live, ← AList.lookup_isSome]
  unfold transformTestPayload at hcode
  simp only [reduceCtorEq, or_self, if_false, Nat.not_lt.mpr hin,
    locked_unpoisoned ht.unpoisoned] at hcode
  cases he : b.handles.lookup h with
  | none => simp [hcode, he, contained_done, Reply.of]
  | some e =>
    cases ha : e.isActive with
    | false => simp [hcode, he, ha, contained_done, Reply.of]
    | true =>
      by_cases hsession : e.handleType = .session
      · by_cases hout : outMaxLen < inLen
        · simp [hcode, he, ha, hsession, hout, Nat.not_le.mpr hout]
        · simp [hcode, he, ha, hsession, hout, contained_done]
      · simp [hcode, he, ha, hsession, contained_done, Reply.of]

end Tracked

/-- The run lemma: after any calls but imports the registry agrees with them. -/
theorem tracked_process (calls : List Call) (hcalls : ∀ c ∈ calls, c.imports = false) :
    Tracked (process calls).1 (process calls).2 := by
  induction calls using List.reverseRecOn with
  | nil => exact tracked_fresh
  | append_singleton calls c ih =>
    rw [process_snoc]
    have hbefore := ih fun c' hc' => hcalls c' (List.mem_append_left _ hc')
    exact hbefore.step (hcalls c (by simp))

/-- The life of every handle: issued once, good for its type until it is
disposed, disposed once, and stale ever after. -/
theorem handle_lifecycle (calls : List Call) (hcalls : ∀ c ∈ calls, c.imports = false) :
    let b := (process calls).1
    let hist := (process calls).2
    (issuedIds hist).Nodup ∧
    b.handleCounter.toNat = 1000 + (issuedIds hist).length ∧
    (disposals hist).Nodup ∧
    ∀ h : UInt64,
      (((disposeHandle h b).2.code = .success ↔ h ∈ issuedIds hist ∧ h ∉ disposals hist) ∧
        (h ∈ disposals hist → (disposeHandle h b).2.code = .staleOrDoubleFree) ∧
        (h ∉ issuedIds hist → (disposeHandle h b).2.code = .invalidHandle)) ∧
      ∀ mem inLen outMaxLen, inLen ≤ maxBufferSize →
        let code := (transformTestPayload h (some mem) inLen .valid outMaxLen .valid b).2.code
        (inLen ≤ outMaxLen → (code = .success ↔ Live .session h hist)) ∧
          (h ∈ disposals hist → code = .staleOrDoubleFree) ∧
          (h ∉ issuedIds hist → code = .invalidHandle) := by
  intro b hist
  have ht := tracked_process calls hcalls
  refine ⟨ht.ids_nodup, ?_, ht.once, fun h => ⟨ht.dispose_code h, ?_⟩⟩
  · rw [ht.counter, issuedIds, List.length_map]
  · intro mem inLen outMaxLen hin
    exact ht.transform_code h mem hin outMaxLen

end

def sampleHandles : List Call :=
  [.createTestSessionHandle .valid, .createTestIdentityHandle .valid, .createTestGroupHandle .null,
    .disposeHandle 1000, .disposeHandle 1000]

/-- Handle 1000 is disposed once and stale, 1001 can be disposed, 1002 was never issued. -/
theorem sampleHandles_lifecycle :
    let b := (process sampleHandles).1
    (disposals (process sampleHandles).2).Nodup ∧ (disposeHandle 1000 b).2.code = .staleOrDoubleFree ∧
      (disposeHandle 1001 b).2.code = .success ∧ (disposeHandle 1002 b).2.code = .invalidHandle := by
  intro b
  obtain ⟨_, _, honce, hcode⟩ := handle_lifecycle sampleHandles (by decide)
  refine ⟨honce, (hcode 1000).1.2.1 (by decide), ?_, (hcode 1002).1.2.2 (by decide)⟩
  exact (hcode 1001).1.1.mpr ⟨by decide, by decide⟩

end NativeBoundary

end GuffSuff
