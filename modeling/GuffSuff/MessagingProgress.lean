import GuffSuff.MessagingRuns
import GuffSuff.TransportProgress

/-! The calls on conversations, messages and read states take their locks in one
order, and so do the worker's retries beside them. -/

namespace GuffSuff

open ReadCommitted

namespace Messaging

def Key.ident : Key → Option Uuid
  | .conversation i | .member i | .memberPair i _ | .readState i => some i
  | .conversationPair _ _ | .readStatePair _ _ => none
  | .backend k => k.ident

def Key.rank : Key → Nat
  | .conversation _ | .readState _ => 0
  | .conversationPair _ _ | .readStatePair _ _ => 1
  | .member _ | .memberPair _ _ => 2
  | .backend k => k.rank

/-- The calls that never lock several rows that others may lock in another order. -/
def Call.inOrder : Call → Bool
  | .backend call => call.inOrder
  | _ => true

section
variable {I : Db → Prop} {D : List Uuid} {level : Nat} {k : Program}

theorem ranked_throw {e : Failure} : (throw e).Ranked I Key.rank Key.ident D level := rfl

theorem ranked_check {c : Prop} [Decidable c] {e : Failure}
    (h : k.Ranked I Key.rank Key.ident D level) :
    (if c then throw e else k).Ranked I Key.rank Key.ident D level := by
  by_cases hc : c
  · rw [if_pos hc]
    exact ranked_throw
  · rw [if_neg hc]
    exact h

theorem ranked_uuidParameter {pf : Platform} {value : Option String} {k : Option Uuid → Program}
    (hk : ∀ id, (k id).Ranked I Key.rank Key.ident D level) :
    (uuidParameter pf value k).Ranked I Key.rank Key.ident D level := by
  unfold uuidParameter
  split
  · exact hk none
  · split
    · exact ranked_throw
    · exact hk _

theorem ranked_ofBackend {p : GuffSuff.Program} {J : GuffSuff.Db → Prop} (hI : ∀ db, I db → J db.core)
    (hp : p.Ranked J GuffSuff.Key.rank GuffSuff.Key.ident D 0) :
    (ofBackend p).Ranked I Key.rank Key.ident D 0 := by
  have hret : ∀ (r : GuffSuff.Answer) (D : List Uuid),
      (Program.ret (ofAnswer r) : Program).Ranked I Key.rank Key.ident D 0 := fun _ _ => rfl
  exact Program.Ranked.embed hI hret hp

theorem ranked_createConversation (p1 p2 : Option Uuid) :
    (ConversationService.createConversation p1 p2).Ranked I Key.rank Key.ident D 0 := by
  intro convId now
  unfold ConversationService.insertConversation
  split
  · refine Program.ranked_own (i := convId) (by simp) rfl (Nat.zero_le _) fun _ => ?_
    refine Program.ranked_shared (by simp [Key.rank]) fun db => ?_
    iterate 5 apply ranked_check
    exact ⟨by simp, fun mem1Id mem2Id => ranked_throw⟩
  · exact ranked_throw
  · exact ranked_throw

theorem ranked_getOrCreate (pf : Platform) (userId : Option String) (recipientUserId : String) :
    (ConversationService.getOrCreateDirectConversation pf userId recipientUserId).Ranked I Key.rank
      Key.ident [] 0 := by
  unfold ConversationService.getOrCreateDirectConversation
  split
  · rfl
  refine ranked_uuidParameter fun recipient db => ?_
  dsimp only
  split
  · rfl
  refine ranked_uuidParameter fun p1 => ranked_uuidParameter fun p2 db => ?_
  dsimp only
  split
  · rfl
  · exact ranked_createConversation p1 p2

theorem ranked_acknowledgeRead (pf : Platform) (userId : Option Uuid)
    (conversationId lastReadEnvelopeId : String) :
    (MessageEnvelopeService.acknowledgeRead pf userId conversationId lastReadEnvelopeId).Ranked I
      Key.rank Key.ident [] 0 := by
  refine ranked_uuidParameter fun conversation db => ?_
  dsimp only
  split
  · rfl
  intro readStateId
  refine ranked_uuidParameter fun lastRead now => ?_
  refine Program.ranked_own (i := readStateId) (by simp) rfl (Nat.zero_le _) fun _ => ?_
  refine Program.ranked_shared (by simp [Key.rank]) fun db => ?_
  iterate 4 apply ranked_check
  exact ⟨by simp, rfl⟩

theorem ranked_getEnvelopeStatus (pf : Platform) (userId : Option Uuid) (envelopeId : String) :
    (MessageEnvelopeService.getEnvelopeStatus pf userId envelopeId).Ranked I Key.rank Key.ident [] 0 := by
  refine ranked_uuidParameter fun envelope db => ?_
  dsimp only
  split
  · rfl
  split
  · rfl
  · exact fun _ => rfl

theorem Call.ranked_program {c : Call} (h : c.inOrder = true) (pf : Platform) (fk : FkCheck)
    (hI : ∀ db, I db → db.core.DistinctRecipients) :
    (c.program pf fk).Ranked I Key.rank Key.ident [] 0 := by
  cases c with
  | backend call =>
    exact ranked_ofBackend hI (GuffSuff.Call.ranked_program h pf.services fk fun _ hdb => hdb)
  | getOrCreateDirectConversation userId recipientUserId =>
    exact ranked_getOrCreate pf userId recipientUserId
  | listConversations userId => exact fun _ => rfl
  | getConversationById userId conversationId =>
    show (ConversationService.getConversationById pf userId conversationId).Ranked I Key.rank
      Key.ident [] 0
    refine ranked_uuidParameter fun conversation db => ?_
    dsimp only
    split
    · rfl
    · rfl
  | submitEnvelope senderUserId senderDeviceId dto =>
    show (MessageEnvelopeService.submitEnvelope pf senderUserId senderDeviceId dto).Ranked I Key.rank
      Key.ident [] 0
    unfold MessageEnvelopeService.submitEnvelope
    split
    · exact ranked_ofBackend (J := fun _ => True) (fun _ _ => trivial)
        (ranked_submitEnvelope pf.services _ _ dto)
    · exact fun _ => rfl
  | getPendingEnvelopes userId deviceId =>
    intro now db
    dsimp only
    split
    · rfl
    · rfl
  | acknowledgeDelivery userId deviceId envelopeId =>
    show (MessageEnvelopeService.acknowledgeDelivery pf userId deviceId envelopeId).Ranked I Key.rank
      Key.ident [] 0
    refine ranked_uuidParameter fun envelope => ?_
    split
    · exact ranked_ofBackend (J := fun _ => True) (fun _ _ => trivial)
        (ranked_acknowledgeDelivery _ _ _)
    · exact fun _ => rfl
  | acknowledgeRead userId conversationId lastReadEnvelopeId =>
    exact ranked_acknowledgeRead pf userId conversationId lastReadEnvelopeId
  | getEnvelopeStatus userId envelopeId => exact ranked_getEnvelopeStatus pf userId envelopeId

end

/-- The calls on messages, and retries of the worker beside them, never wait for each other in
a circle: from wherever a run has got to, statements alone lead to the answers of all its calls. -/
theorem messages_never_stuck (pf : Platform) (fk : FkCheck) {db : Db} {clock : Nat} {used : List Uuid}
    (hdb : db.Initial) (hused : ∀ x ∈ db.core.ids, x ∈ used) {sched : List Choice}
    (hsched : ∀ p c, .call p c ∈ sched → c.inOrder = true) :
    ∃ more : List Choice, ReadCommitted.Server.OnlyExecs more ∧ ∀ p pr,
      (serve pf fk (serve pf fk (.boot db clock used) sched) more).procs p = some pr →
        ∃ r, pr.Finished r := by
  refine ReadCommitted.Server.finish_ranked (I := fun db => db.core.DistinctRecipients)
    (fun p c hc => Call.ranked_program (hsched p c hc) pf fk fun _ h => h) fun more _ => ?_
  have hboot : SoundRun pf ⟨clock, db⟩ (ReadCommitted.Server.boot db clock used) :=
    ReadCommitted.Server.sound_boot hdb.core.holds hused
  exact ((hboot.run sched).run more).holds.transport.recipients

/-- A conversation, a read position and a retry pass, each stopped after its first statements. -/
def sampleCrossing : List Choice :=
  [.call 0 (.getOrCreateDirectConversation (some (sampleText 1)) (sampleText 9)),
    .call 1 (.acknowledgeRead (some 1) (sampleText 6) (sampleText 8)),
    .call 2 (.backend .processOfflineMessageRetries), .exec 0 [], .exec 1 [], .exec 2 [], .exec 0 []]

theorem sampleCrossing_never_stuck :
    ∃ more : List Choice, ReadCommitted.Server.OnlyExecs more ∧ ∀ p pr,
      (serve samplePlatform .atCommit (serve samplePlatform .atCommit sampleStart sampleCrossing) more).procs
        p = some pr → ∃ r, pr.Finished r := by
  refine messages_never_stuck samplePlatform .atCommit sampleDb_initial (by decide) fun p c hc => ?_
  simp only [sampleCrossing, List.mem_cons, ReadCommitted.Choice.call.injEq, reduceCtorEq,
    List.not_mem_nil, or_false] at hc
  obtain ⟨-, rfl⟩ | ⟨-, rfl⟩ | ⟨-, rfl⟩ := hc <;> rfl

end Messaging

end GuffSuff
