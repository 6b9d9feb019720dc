import GuffSuff.ConcurrentSubmissions
import GuffSuff.ReadCommitted.LockOrder

/-! Calls of the services that take their locks in one order: new sessions,
submissions, acknowledgements and the worker's retries. -/

namespace GuffSuff

open ReadCommitted MessageEnvelopeService TransportProcessor

/-- The order in which the rows of a session, or of an envelope, are inserted and locked. -/
def Key.rank : Key → Nat
  | .family _ | .idempotencyRow _ => 1
  | .token _ | .idempotency _ _ => 2
  | .tokenHash _ | .recipient _ | .recipientPair _ _ => 3
  | .acknowledgement _ => 4
  | _ => 0

/-- What a batch of retries can be chosen from: each record has an identifier of its own. -/
def Db.DistinctRecipients (db : Db) : Prop := (keys db.messageRecipientDevices).Nodup

section
variable {rank : Key → Nat} {ident : Key → Option Uuid} {I : Db → Prop}
variable {D : List Uuid} {level : Nat} {k : Program}

theorem ranked_throw {e : Failure} : (throw e).Ranked I rank ident D level := by
  exact (rfl : (0 : Nat) = 0)

theorem ranked_check {c : Prop} [Decidable c] {e : Failure} (h : k.Ranked I rank ident D level) :
    (if c then throw e else k).Ranked I rank ident D level := by
  by_cases hc : c
  · rw [if_pos hc]
    exact ranked_throw
  · rw [if_neg hc]
    exact h

end

section
variable {rank : Key → Nat} {I : Db → Prop} {D : List Uuid} {level : Nat} {k : Program}

theorem ranked_insertRecipient {r : MessageRecipientDevice} (hr : r.id ∈ D) (he : r.envelopeId ∈ D)
    (hlevel : level ≤ 7) (hk : k.Ranked I Key.rank Key.ident D 7) :
    (insertRecipient r k).Ranked I Key.rank Key.ident D level := by
  refine Program.ranked_own hr rfl hlevel fun _ => ?_
  refine Program.ranked_own he rfl (by simp [Key.rank]) fun db => ?_
  iterate 4 apply ranked_check
  exact ⟨by simp [Key.rank], hk⟩

theorem ranked_fanOut {envelope : Uuid} {now : Nat} {done : List MessageRecipientDevice}
    {devices : List Uuid} {k : List MessageRecipientDevice → Program} (he : envelope ∈ D)
    (hlevel : level ≤ 7) (hk : ∀ D level recipients, (k recipients).Ranked I Key.rank Key.ident D level) :
    (fanOut envelope now done devices k).Ranked I Key.rank Key.ident D level := by
  induction devices generalizing D done level with
  | nil => exact hk D level done
  | cons device devices ih =>
    intro rdId
    have he' : envelope ∈ rdId :: D := List.mem_cons_of_mem _ he
    exact ranked_insertRecipient List.mem_cons_self he' hlevel (ih he' (Nat.le_refl _))

theorem ranked_createSession (pf : Platform) (user device : Uuid) :
    (SessionService.createSession pf user device).Ranked I Key.rank Key.ident D 0 := by
  intro sessionId familyId now
  refine Program.ranked_own (i := sessionId) (by simp) rfl (Nat.zero_le _) fun db => ?_
  iterate 3 apply ranked_check
  refine ⟨by simp, Program.ranked_own (i := familyId) (by simp) rfl (by simp [Key.rank]) fun db => ?_⟩
  iterate 3 apply ranked_check
  refine ⟨by simp, fun rawRefreshToken tokenInstanceId => ?_⟩
  refine Program.ranked_own (i := tokenInstanceId) (by simp) rfl (by simp [Key.rank]) fun _ => ?_
  refine Program.ranked_shared (by simp [Key.rank]) fun db => ?_
  iterate 4 apply ranked_check
  exact ⟨by simp, fun _ => rfl⟩

theorem ranked_submitEnvelope (pf : Platform) (user device : Uuid) (dto : SubmitMessageEnvelope) :
    (submitEnvelope pf user device dto).Ranked I Key.rank Key.ident [] 0 := by
  intro db
  dsimp only
  split
  · rfl
  intro db
  dsimp only
  split
  · rfl
  split
  · rfl
  split
  · rfl
  refine ⟨fun _ _ => ⟨[], rfl⟩, fun db _ => ?_⟩
  dsimp only
  split
  · unfold answerCached
    split
    · rfl
    · exact fun _ => rfl
  refine ⟨fun db _ => ⟨db.unrevokedDevicesOf dto.recipientUserId, ?_⟩, fun _ devices => ?_⟩
  · exact List.isPerm_iff.mpr (List.Perm.refl _)
  intro envelopeId idempRecordId now
  unfold readTimes
  iterate 2 apply ranked_check
  refine Program.ranked_own (i := envelopeId) (by simp) rfl (Nat.zero_le _) fun db => ?_
  iterate 8 apply ranked_check
  refine ⟨by simp, Program.ranked_own (i := idempRecordId) (by simp) rfl (by simp [Key.rank]) fun _ => ?_⟩
  refine Program.ranked_shared (by simp [Key.rank]) fun db => ?_
  iterate 5 apply ranked_check
  refine ⟨by simp, ranked_fanOut (by simp) (by simp [Key.rank]) fun _ _ _ => rfl⟩

theorem ranked_acknowledgeDelivery (user device envelope : Uuid) :
    (acknowledgeDelivery user device envelope).Ranked I Key.rank Key.ident [] 0 := by
  intro db
  dsimp only
  split
  · rfl
  split
  · rfl
  intro ackId now
  refine Program.ranked_shared (Nat.zero_le _) fun _ => ⟨by simp, ?_⟩
  refine Program.ranked_own (i := ackId) (by simp) rfl (by simp [Key.rank]) fun db => ?_
  iterate 3 apply ranked_check
  exact ⟨by simp, rfl⟩

theorem ranked_retryEach (ids : List Uuid) :
    (retryEach ids (.ret (.ok .unit))).Ranked I Key.rank Key.ident D 0 := by
  induction ids with
  | nil => rfl
  | cons id ids ih => exact fun now => Program.ranked_shared (Nat.zero_le _) fun _ => ⟨by simp, ih⟩

theorem exists_retryBatch {db : Db} (hdb : db.DistinctRecipients) (now : Nat) :
    ∃ ids, selectsBatch now db ids = true := by
  refine ⟨(retryable now db).take batchLimit, ?_⟩
  have hnodup : (retryable now db).Nodup :=
    List.Nodup.sublist (List.filter_sublist.map MessageRecipientDevice.id) hdb
  simp only [selectsBatch, Bool.and_eq_true, decide_eq_true_eq, List.all_eq_true, beq_iff_eq,
    List.length_take, and_true]
  exact ⟨hnodup.sublist (List.take_sublist _ _), fun _ hid => List.mem_of_mem_take hid⟩

theorem ranked_retries (hI : ∀ db, I db → db.DistinctRecipients) :
    processOfflineMessageRetries.Ranked I Key.rank Key.ident [] 0 :=
  fun now => ⟨fun db hdb => exists_retryBatch (hI db (hdb rfl)) now, fun _ ids => ranked_retryEach ids⟩

end

/-- The calls that never lock several rows that others may lock in another order. -/
def Call.inOrder : Call → Bool
  | .createSession .. | .submitEnvelope .. | .acknowledgeDelivery .. | .processOfflineMessageRetries => true
  | _ => false

theorem Call.ranked_program {c : Call} (h : c.inOrder = true) (pf : Platform) (fk : FkCheck) {I : Db → Prop}
    (hI : ∀ db, I db → db.DistinctRecipients) :
    (c.program pf fk).Ranked I Key.rank Key.ident [] 0 := by
  cases c with
  | createSession user device => exact ranked_createSession pf user device
  | submitEnvelope user device dto => exact ranked_submitEnvelope pf user device dto
  | acknowledgeDelivery user device envelope => exact ranked_acknowledgeDelivery user device envelope
  | processOfflineMessageRetries => exact ranked_retries hI
  | _ => exact absurd h Bool.false_ne_true

end GuffSuff
