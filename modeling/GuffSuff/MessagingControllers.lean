import GuffSuff.AccountService
import GuffSuff.MessagingRuns

/-! `ConversationsController` and `EnvelopesController`: the call that each
handler makes of its request and of the user that the guard has attached. -/

namespace GuffSuff

open ReadCommitted JwtAuthGuard

open Registration.AuthController (isUuid lengthIn)

/-- `request.user`, as `canActivate` attaches it. -/
def JwtAuthGuard.RequestUser.attached (user : RequestUser) : JsonObject :=
  [("userId", .uuid user.userId), ("deviceId", .uuid user.deviceId),
    ("sessionId", .uuid user.sessionId)]

namespace Messaging

/-- A property of the object that holds an id, `undefined` when it has none of that name. -/
def property (object : JsonObject) (name : String) : Option Uuid :=
  match object.lookup name with
  | some (.uuid id) => some id
  | _ => none

/-- The body of a submission; the conversation is in the path. -/
structure SubmitBody where
  idempotencyKey : String
  recipientUserId : String
  protocolVersion : Option Int
  opaquePayloadBase64 : String
  clientCreatedAt : String
  expiresAt : String
  deriving DecidableEq, Repr

def defaultProtocolVersion : Int := 1
def maxPayloadText : Nat := 87382

/-- `SubmitMessageEnvelopeSchema.parse({ ...body, conversationId })`. -/
def submitMessageEnvelopeSchema (pf : Platform) (conversationId : String) (body : SubmitBody) :
    Option SubmitMessageEnvelope :=
  let protocolVersion := body.protocolVersion.getD defaultProtocolVersion
  if !lengthIn 1 64 body.idempotencyKey || !isUuid conversationId || !isUuid body.recipientUserId ||
      protocolVersion ≤ 0 || !lengthIn 1 maxPayloadText body.opaquePayloadBase64 ||
      !pf.datetime body.clientCreatedAt || !pf.datetime body.expiresAt then none
  else do
    let conversationId ← pf.uuid conversationId
    let recipientUserId ← pf.uuid body.recipientUserId
    some
      { idempotencyKey := body.idempotencyKey, conversationId, recipientUserId,
        protocolVersion := protocolVersion.toNat
        opaquePayloadBase64 := body.opaquePayloadBase64.toList
        clientCreatedAt := pf.timestamptz body.clientCreatedAt
        expiresAt := pf.timestamptz body.expiresAt }

def acknowledgeReadSchema (lastReadEnvelopeId : String) : Bool := isUuid lastReadEnvelopeId
def createDirectConversationSchema (recipientUserId : String) : Bool := isUuid recipientUserId

section
variable (pf : Platform) (user : JsonObject)

namespace EnvelopesController

def submitEnvelope (conversationId : String) (body : SubmitBody) : Option Call :=
  (submitMessageEnvelopeSchema pf conversationId body).map fun validated =>
    .submitEnvelope (property user "sub") (property user "deviceId") validated

def getPendingEnvelopes : Call :=
  .getPendingEnvelopes (property user "sub") (property user "deviceId")

def acknowledgeDelivery (envelopeId : String) : Call :=
  .acknowledgeDelivery (property user "sub") (property user "deviceId") envelopeId

/-- The service takes the conversation before the envelope read last. -/
def acknowledgeRead (envelopeId lastReadEnvelopeId : String) : Option Call :=
  if !acknowledgeReadSchema lastReadEnvelopeId then none
  else some (.acknowledgeRead (property user "sub") lastReadEnvelopeId envelopeId)

def getEnvelopeStatus (envelopeId : String) : Call :=
  .getEnvelopeStatus (property user "sub") envelopeId

end EnvelopesController

namespace ConversationsController

def createDirectConversation (recipientUserId : String) : Option Call :=
  if !createDirectConversationSchema recipientUserId then none
  else some (.getOrCreateDirectConversation ((property user "sub").map pf.uuidText) recipientUserId)

def listConversations : Call := .listConversations (property user "sub")

def getConversation (conversationId : String) : Call :=
  .getConversationById (property user "sub") conversationId

end ConversationsController

end

inductive Request where
  | submitEnvelope (conversationId : String) (body : SubmitBody)
  | getPendingEnvelopes (conversationId : String)
  | acknowledgeDelivery (envelopeId : String)
  | acknowledgeRead (envelopeId lastReadEnvelopeId : String)
  | getEnvelopeStatus (envelopeId : String)
  | createDirectConversation (recipientUserId : String)
  | listConversations
  | getConversation (conversationId : String)
  deriving DecidableEq

namespace Request

def call (pf : Platform) (user : JsonObject) : Request → Option Call
  | submitEnvelope conversationId body =>
    EnvelopesController.submitEnvelope pf user conversationId body
  | getPendingEnvelopes _ => some (EnvelopesController.getPendingEnvelopes user)
  | acknowledgeDelivery envelopeId => some (EnvelopesController.acknowledgeDelivery user envelopeId)
  | acknowledgeRead envelopeId lastReadEnvelopeId =>
    EnvelopesController.acknowledgeRead user envelopeId lastReadEnvelopeId
  | getEnvelopeStatus envelopeId => some (EnvelopesController.getEnvelopeStatus user envelopeId)
  | createDirectConversation recipientUserId =>
    ConversationsController.createDirectConversation pf user recipientUserId
  | listConversations => some (ConversationsController.listConversations user)
  | getConversation conversationId =>
    some (ConversationsController.getConversation user conversationId)

def served (pf : Platform) (db : Db) (now : Nat) (authHeader : Option (List Char))
    (request : Request) : Option Call :=
  match canActivate pf.services db.core now authHeader with
  | .ok user => request.call pf user.attached
  | .error _ => none

end Request

end Messaging

end GuffSuff
