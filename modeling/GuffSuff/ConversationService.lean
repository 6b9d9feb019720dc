import Mathlib.Data.List.Sort
import GuffSuff.MessagingSchema

/-! `ConversationService`, and the functions of `MessageEnvelopeService` that go
with it. An argument that may be `undefined` is an `Option`. -/

namespace GuffSuff

open ReadCommitted

namespace Messaging

namespace Db

def conversationOf (db : Db) (p1 p2 : Option Uuid) : Option DirectConversation :=
  db.core.directConversations.find? fun c =>
    some c.participant1UserId = p1 && some c.participant2UserId = p2

/-- `direct_conversations c JOIN conversation_members m`, where `m.user_id = $1`. -/
def conversationsOf (db : Db) (userId : Option Uuid) : List ConversationRow :=
  ((db.core.directConversations.product db.core.conversationMembers).filter fun (c, m) =>
    c.id = m.conversationId && some m.userId = userId).map fun (c, _) =>
      { columns := c, times := db.conversationTimes c.id }

def membership (db : Db) (conversation userId : Option Uuid) : Option ConversationMember :=
  db.core.conversationMembers.find? fun m =>
    some m.conversationId = conversation && some m.userId = userId

end Db

namespace ConversationService

def insertConversation (id : Uuid) (p1 p2 : Option Uuid) (now : Nat)
    (k : DirectConversation → Program) : Program :=
  match p1, p2 with
  | some user1, some user2 =>
    .lock (.conversation id) fun _ =>
    .lock (.conversationPair (min user1 user2) (max user1 user2)) fun db =>
    if user1 = user2 then throw (.backend (.checkViolation "chk_different_participants"))
    else if id ∈ keys db.core.directConversations then
      throw (.backend (.uniqueViolation "direct_conversations_pkey"))
    else if db.pairTaken (min user1 user2) (max user1 user2) then
      throw (.backend (.uniqueViolation "idx_direct_conversations_pair"))
    else if user1 ∉ keys db.core.users then
      throw (.backend (.foreignKeyViolation "direct_conversations_participant1_user_id_fkey"))
    else if user2 ∉ keys db.core.users then
      throw (.backend (.foreignKeyViolation "direct_conversations_participant2_user_id_fkey"))
    else
      .write (Db.insertConversation ⟨id, user1, user2⟩ now) (k ⟨id, user1, user2⟩)
  | none, _ => throw (.notNullViolation "participant1_user_id")
  | _, none => throw (.notNullViolation "participant2_user_id")

def insertMember (m : ConversationMember) (k : Program) : Program :=
  .lock (.member m.id) fun _ =>
  .lock (.memberPair m.conversationId m.userId) fun db =>
  if m.id ∈ db.core.conversationMembers.map ConversationMember.id then
    throw (.backend (.uniqueViolation "conversation_members_pkey"))
  else if db.memberPairTaken m.conversationId m.userId then
    throw (.backend (.uniqueViolation "unq_conversation_member"))
  else if m.conversationId ∉ keys db.core.directConversations then
    throw (.backend (.foreignKeyViolation "conversation_members_conversation_id_fkey"))
  else if m.userId ∉ keys db.core.users then
    throw (.backend (.foreignKeyViolation "conversation_members_user_id_fkey"))
  else .write (Db.insertMember m) k

/-- `INSERT INTO conversation_members .. VALUES ($1, $2, $3), ($4, $2, $5)`. The
statement has five parameters, and PostgreSQL binds it to five values only. -/
def insertMembers (values : List Uuid) (k : List ConversationMember → Program) : Program :=
  match values with
  | [id1, conversation, user1, id2, user2] =>
    insertMember ⟨id1, conversation, user1⟩ <|
    insertMember ⟨id2, conversation, user2⟩ <|
    k [⟨id1, conversation, user1⟩, ⟨id2, conversation, user2⟩]
  | _ => throw (.protocolViolation ("bind message supplies " ++ toString values.length ++
      " parameters, but prepared statement \"\" requires 5"))

/-- The participants in the order of their texts; `undefined < text` is false. -/
def orderedPair (userId : Option String) (recipientUserId : String) : Option String × Option String :=
  match userId with
  | none => (some recipientUserId, none)
  | some user =>
    if user < recipientUserId then (some user, some recipientUserId)
    else (some recipientUserId, some user)

/-- The transaction passes six values to `insertMembers`. -/
def createConversation (p1 p2 : Option Uuid) : Program :=
  .fresh fun convId =>
  .now fun now =>
  insertConversation convId p1 p2 now fun c =>
  .fresh fun mem1Id =>
  .fresh fun mem2Id =>
  insertMembers [mem1Id, c.id, c.participant1UserId, mem2Id, c.id, c.participant2UserId] fun members =>
  .commit (.conversationCreated c members now) <|
  .ret (.ok (.conversation c now))

section
variable (pf : Platform)

def getOrCreateDirectConversation (userId : Option String) (recipientUserId : String) : Program :=
  if userId = some recipientUserId then
    .ret (.error (.backend (.badRequest "Cannot create a direct conversation with yourself")))
  else
    uuidParameter pf (some recipientUserId) fun recipient =>
    .query fun db =>
    if (recipient.bind (lookup db.core.users)).all fun u => u.accountState = .deleted then
      .ret (.error (.notFound "Recipient user not found"))
    else
      uuidParameter pf (orderedPair userId recipientUserId).1 fun p1 =>
      uuidParameter pf (orderedPair userId recipientUserId).2 fun p2 =>
      .query fun db =>
      match db.conversationOf p1 p2 with
      | some c => .ret (.ok (.conversation c (db.conversationTimes c.id).createdAt))
      | none => createConversation p1 p2

def listConversations (userId : Option Uuid) : Program :=
  .query fun db =>
  .ret (.ok (.conversations ((db.conversationsOf userId).insertionSort
    (fun a b => b.times.updatedAt ≤ a.times.updatedAt))))

def getConversationById (userId : Option Uuid) (conversationId : String) : Program :=
  uuidParameter pf (some conversationId) fun conversation =>
  .query fun db =>
  match (db.conversationsOf userId).find? fun row => some row.columns.id = conversation with
  | none => .ret (.error (.backend (.forbidden "Conversation not found or access denied")))
  | some row => .ret (.ok (.conversationDetails row))

end

end ConversationService

namespace MessageEnvelopeService

/-- With an argument missing, the first `SELECT` has no rows. -/
def submitEnvelope (pf : Platform) (senderUserId senderDeviceId : Option Uuid)
    (dto : SubmitMessageEnvelope) : Program :=
  match senderUserId, senderDeviceId with
  | some user, some device =>
    ofBackend (GuffSuff.MessageEnvelopeService.submitEnvelope pf.services user device dto)
  | _, _ =>
    .query fun _ => .ret (.error (.backend (.forbidden "Sender device is invalid or revoked")))

def getPendingEnvelopes (pf : Platform) (userId deviceId : Option Uuid) : Program :=
  .now fun now =>
  .query fun db =>
  match userId, deviceId with
  | some user, some device =>
    .ret (.ok (.pending
      (GuffSuff.MessageEnvelopeService.getPendingEnvelopes pf.services db.core now user device)))
  | _, _ => .ret (.ok (.pending []))

def acknowledgeDelivery (pf : Platform) (userId deviceId : Option Uuid) (envelopeId : String) :
    Program :=
  uuidParameter pf (some envelopeId) fun envelope =>
  match userId, deviceId, envelope with
  | some user, some device, some envelope =>
    ofBackend (GuffSuff.MessageEnvelopeService.acknowledgeDelivery user device envelope)
  | _, _, _ =>
    .query fun _ => .ret (.error (.backend
      (.forbidden "Delivery acknowledgement unauthorized for envelope")))

def upsertReadState (r : MessageReadState) (k : Program) : Program :=
  .lock (.readState r.id) fun _ =>
  .lock (.readStatePair r.conversationId r.userId) fun db =>
  if !db.readStatePairTaken r.conversationId r.userId && r.id ∈ keys db.messageReadStates then
    throw (.backend (.uniqueViolation "message_read_states_pkey"))
  else if r.conversationId ∉ keys db.core.directConversations then
    throw (.backend (.foreignKeyViolation "message_read_states_conversation_id_fkey"))
  else if r.userId ∉ keys db.core.users then
    throw (.backend (.foreignKeyViolation "message_read_states_user_id_fkey"))
  else if r.lastReadEnvelopeId.any fun e => e ∉ keys db.core.messageEnvelopes then
    throw (.backend (.foreignKeyViolation "message_read_states_last_read_envelope_id_fkey"))
  else .write (Db.upsertReadState r) (.commit (.readAcknowledged r) k)

def acknowledgeRead (pf : Platform) (userId : Option Uuid)
    (conversationId lastReadEnvelopeId : String) : Program :=
  uuidParameter pf (some conversationId) fun conversation =>
  .query fun db =>
  match db.membership conversation userId with
  | none => .ret (.error (.backend (.forbidden "Access denied to conversation")))
  | some m =>
    .fresh fun readStateId =>
    uuidParameter pf (some lastReadEnvelopeId) fun lastRead =>
    .now fun now =>
    upsertReadState
      { id := readStateId, conversationId := m.conversationId, userId := m.userId,
        lastReadEnvelopeId := lastRead, lastReadAt := now } <|
    .ret (.ok (.read conversationId lastReadEnvelopeId))

def recipientStatuses (db : Db) (envelope : Uuid) : List RecipientDeviceStatus :=
  (db.core.messageRecipientDevices.filter fun rd => rd.envelopeId = envelope).map fun rd =>
    { recipientDeviceId := rd.recipientDeviceId, deliveryStatus := rd.deliveryStatus,
      deliveredAt := rd.deliveredAt, readAt := none }

def getEnvelopeStatus (pf : Platform) (userId : Option Uuid) (envelopeId : String) : Program :=
  uuidParameter pf (some envelopeId) fun envelope =>
  .query fun db =>
  match envelope.bind (lookup db.core.messageEnvelopes) with
  | none => .ret (.error (.notFound "Envelope not found"))
  | some env =>
    if some env.senderUserId ≠ userId ∧ some env.recipientUserId ≠ userId then
      .ret (.error (.backend (.forbidden "Access denied to envelope status")))
    else
      .query fun db =>
      .ret (.ok (.status
        { envelopeId := env.id, conversationId := env.conversationId,
          serverAcceptedAt := env.serverAcceptedAt, expiresAt := env.expiresAt,
          recipientDevices := recipientStatuses db env.id }))

end MessageEnvelopeService

/-- The calls of the services. `backend` are those with all their arguments
given, of the worker's jobs too. -/
inductive Call where
  | backend (call : GuffSuff.Call)
  | getOrCreateDirectConversation (userId : Option String) (recipientUserId : String)
  | listConversations (userId : Option Uuid)
  | getConversationById (userId : Option Uuid) (conversationId : String)
  | submitEnvelope (senderUserId senderDeviceId : Option Uuid) (dto : SubmitMessageEnvelope)
  | getPendingEnvelopes (userId deviceId : Option Uuid)
  | acknowledgeDelivery (userId deviceId : Option Uuid) (envelopeId : String)
  | acknowledgeRead (userId : Option Uuid) (conversationId lastReadEnvelopeId : String)
  | getEnvelopeStatus (userId : Option Uuid) (envelopeId : String)
  deriving DecidableEq

namespace Call

def program (pf : Platform) (fk : FkCheck) : Call → Program
  | backend call => ofBackend (call.program pf.services fk)
  | getOrCreateDirectConversation userId recipientUserId =>
    ConversationService.getOrCreateDirectConversation pf userId recipientUserId
  | listConversations userId => ConversationService.listConversations userId
  | getConversationById userId conversationId =>
    ConversationService.getConversationById pf userId conversationId
  | submitEnvelope senderUserId senderDeviceId dto =>
    MessageEnvelopeService.submitEnvelope pf senderUserId senderDeviceId dto
  | getPendingEnvelopes userId deviceId =>
    MessageEnvelopeService.getPendingEnvelopes pf userId deviceId
  | acknowledgeDelivery userId deviceId envelopeId =>
    MessageEnvelopeService.acknowledgeDelivery pf userId deviceId envelopeId
  | acknowledgeRead userId conversationId lastReadEnvelopeId =>
    MessageEnvelopeService.acknowledgeRead pf userId conversationId lastReadEnvelopeId
  | getEnvelopeStatus userId envelopeId =>
    MessageEnvelopeService.getEnvelopeStatus pf userId envelopeId

def aborted : Call → Answer
  | backend call => ofAnswer call.aborted
  | _ => .error (.backend .database)

end Call

end Messaging

end GuffSuff
