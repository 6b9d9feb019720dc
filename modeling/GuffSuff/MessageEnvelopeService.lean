import GuffSuff.Calls
import Mathlib.Data.List.Sort

/-! `MessageEnvelopeService`: submission with fan-out, pending envelopes and
delivery acknowledgements. -/

namespace GuffSuff

open ReadCommitted

/-- A request that passed `SubmitMessageEnvelopeSchema`; of each of its times, what PostgreSQL
reads of the text, if it can. -/
structure SubmitMessageEnvelope where
  idempotencyKey : String
  conversationId : Uuid
  recipientUserId : Uuid
  protocolVersion : Nat
  opaquePayloadBase64 : List Char
  clientCreatedAt : Option Nat
  expiresAt : Option Nat
  deriving DecidableEq, Repr

def MessageEnvelope.columns (e : MessageEnvelope) : EnvelopeColumns :=
  { id := e.id, conversationId := e.conversationId, senderUserId := e.senderUserId,
    senderDeviceId := e.senderDeviceId, recipientUserId := e.recipientUserId,
    protocolVersion := e.protocolVersion, payloadByteLength := e.payloadByteLength,
    serverAcceptedAt := e.serverAcceptedAt, expiresAt := e.expiresAt }

/-- `delivery_status IN ('accepted', 'queued', 'routed')`. -/
def DeliveryStatus.isPending : DeliveryStatus → Bool
  | .accepted | .queued | .routed => true
  | _ => false

namespace Db

def deviceOfUser (db : Db) (device user : Uuid) : Option Device :=
  db.devices.find? (fun d => d.id == device && d.userId == user)

def isMember (db : Db) (conversation user : Uuid) : Bool :=
  db.conversationMembers.any (fun m => m.conversationId == conversation && m.userId == user)

def unrevokedDevicesOf (user : Uuid) (db : Db) : List Uuid :=
  (db.devices.filter (fun d => d.userId = user && !d.isRevoked)).map Device.id

end Db

namespace MessageEnvelopeService

def maxPayloadBytes : Nat := 65536
def maxInt : Nat := 2147483647
def maxKeyLength : Nat := 64

def newRecipient (id envelope device : Uuid) (now : Nat) : MessageRecipientDevice :=
  { id, envelopeId := envelope, recipientDeviceId := device, deliveryStatus := .accepted,
    deliveryAttemptsCount := 0, lastAttemptedAt := none, deliveredAt := none, createdAt := now,
    updatedAt := now }

/-- The texts among the parameters of the `INSERT`, which are read before it runs. -/
def readTimes (dto : SubmitMessageEnvelope) (k : Program) : Program :=
  if dto.clientCreatedAt = none then throw (.dataException "client_created_at")
  else if dto.expiresAt = none then throw (.dataException "expires_at")
  else k

def insertEnvelope (e : MessageEnvelope) (k : Program) : Program :=
  .lock (.envelope e.id) fun db =>
  if maxKeyLength < e.clientIdempotencyKey.length then
    throw (.dataException "client_idempotency_key")
  else if maxInt < e.protocolVersion then throw (.dataException "protocol_version")
  else if maxPayloadBytes < e.payloadByteLength then
    throw (.checkViolation "message_envelopes_payload_byte_length_check")
  else if e.id ∈ keys db.messageEnvelopes then throw (.uniqueViolation "message_envelopes_pkey")
  else if e.conversationId ∉ keys db.directConversations then
    throw (.foreignKeyViolation "message_envelopes_conversation_id_fkey")
  else if e.senderUserId ∉ keys db.users then
    throw (.foreignKeyViolation "message_envelopes_sender_user_id_fkey")
  else if e.senderDeviceId ∉ keys db.devices then
    throw (.foreignKeyViolation "message_envelopes_sender_device_id_fkey")
  else if e.recipientUserId ∉ keys db.users then
    throw (.foreignKeyViolation "message_envelopes_recipient_user_id_fkey")
  else .write (Write.insertMessageEnvelope e).apply k

/-- The entry of `unq_device_idempotency` makes the insert wait for another
transaction that has inserted the same key. -/
def insertIdempotencyKey (r : MessageIdempotencyKey) (k : Program) : Program :=
  .lock (.idempotencyRow r.id) fun _ =>
  .lock (.idempotency r.senderDeviceId r.idempotencyKey) fun db =>
  if maxKeyLength < r.idempotencyKey.length then throw (.dataException "idempotency_key")
  else if r.id ∈ keys db.messageIdempotencyKeys then
    throw (.uniqueViolation "message_idempotency_keys_pkey")
  else if (db.idempotencyRecord r.senderDeviceId r.idempotencyKey).isSome then
    throw (.uniqueViolation "unq_device_idempotency")
  else if r.senderDeviceId ∉ keys db.devices then
    throw (.foreignKeyViolation "message_idempotency_keys_sender_device_id_fkey")
  else if r.envelopeId ∉ keys db.messageEnvelopes then
    throw (.foreignKeyViolation "message_idempotency_keys_envelope_id_fkey")
  else .write (Write.insertMessageIdempotencyKey r).apply k

def insertRecipient (r : MessageRecipientDevice) (k : Program) : Program :=
  .lock (.recipient r.id) fun _ =>
  .lock (.recipientPair r.envelopeId r.recipientDeviceId) fun db =>
  if r.id ∈ keys db.messageRecipientDevices then
    throw (.uniqueViolation "message_recipient_devices_pkey")
  else if db.recipientPairTaken r.envelopeId r.recipientDeviceId then
    throw (.uniqueViolation "unq_envelope_recipient_device")
  else if r.envelopeId ∉ keys db.messageEnvelopes then
    throw (.foreignKeyViolation "message_recipient_devices_envelope_id_fkey")
  else if r.recipientDeviceId ∉ keys db.devices then
    throw (.foreignKeyViolation "message_recipient_devices_recipient_device_id_fkey")
  else .write (Write.insertMessageRecipientDevice r).apply k

def insertAcknowledgement (a : MessageAcknowledgement) (k : Program) : Program :=
  .lock (.acknowledgement a.id) fun db =>
  if a.id ∈ keys db.messageAcknowledgements then
    throw (.uniqueViolation "message_acknowledgements_pkey")
  else if a.envelopeId ∉ keys db.messageEnvelopes then
    throw (.foreignKeyViolation "message_acknowledgements_envelope_id_fkey")
  else if a.recipientDeviceId ∉ keys db.devices then
    throw (.foreignKeyViolation "message_acknowledgements_recipient_device_id_fkey")
  else .write (Write.insertMessageAcknowledgement a).apply k

/-- The loop over `recipientDevicesRes.rows`. -/
def fanOut (envelope : Uuid) (now : Nat) (done : List MessageRecipientDevice)
    (devices : List Uuid) (k : List MessageRecipientDevice → Program) : Program :=
  match devices with
  | [] => k done
  | device :: devices =>
    .fresh fun rdId =>
    insertRecipient (newRecipient rdId envelope device now) <|
    fanOut envelope now (done ++ [newRecipient rdId envelope device now]) devices k

section
variable (pf : Platform)

/-- The row of a submission whose times have been read. -/
def envelopeOf (senderUserId senderDeviceId : Uuid) (dto : SubmitMessageEnvelope)
    (envelopeId : Uuid) (now : Nat) : MessageEnvelope :=
  { id := envelopeId, clientIdempotencyKey := dto.idempotencyKey,
    conversationId := dto.conversationId, senderUserId, senderDeviceId,
    recipientUserId := dto.recipientUserId, protocolVersion := dto.protocolVersion,
    payloadByteLength := (pf.decodeBase64 dto.opaquePayloadBase64).length,
    opaquePayload := pf.decodeBase64 dto.opaquePayloadBase64,
    clientCreatedAt := dto.clientCreatedAt.getD 0, serverAcceptedAt := now
    expiresAt := dto.expiresAt.getD 0 }

def payloadDigest (dto : SubmitMessageEnvelope) : Digest :=
  pf.sha256 (pf.decodeBase64 dto.opaquePayloadBase64)

def keyOf (senderDeviceId : Uuid) (dto : SubmitMessageEnvelope) (idempRecordId envelopeId : Uuid)
    (now : Nat) : MessageIdempotencyKey :=
  { id := idempRecordId, senderDeviceId, idempotencyKey := dto.idempotencyKey, envelopeId,
    payloadDigestSha256 := payloadDigest pf dto, createdAt := now }

/-- The transaction of an accepted submission. -/
def storeEnvelope (senderUserId senderDeviceId : Uuid) (dto : SubmitMessageEnvelope)
    (recipients : List Uuid) : Program :=
  .fresh fun envelopeId =>
  .fresh fun idempRecordId =>
  .now fun now =>
  readTimes dto <|
  insertEnvelope (envelopeOf pf senderUserId senderDeviceId dto envelopeId now) <|
  insertIdempotencyKey (keyOf pf senderDeviceId dto idempRecordId envelopeId now) <|
  fanOut envelopeId now [] recipients fun records =>
  .commit (.envelopeSubmitted (envelopeOf pf senderUserId senderDeviceId dto envelopeId now)
    (keyOf pf senderDeviceId dto idempRecordId envelopeId now) records) <|
  .ret <| .ok <| .receipt
    { envelope := some (envelopeOf pf senderUserId senderDeviceId dto envelopeId now).columns
      recipientDeviceCount := some recipients.length
      idempotentRetry := false }

/-- The answer to a key that is already stored. -/
def answerCached (dto : SubmitMessageEnvelope) (existing : MessageIdempotencyKey) : Program :=
  if existing.payloadDigestSha256 ≠ payloadDigest pf dto then
    .ret (.error (.badRequest "Idempotency key reused with different payload digest"))
  else
    .query fun db =>
    .ret <| .ok <| .receipt
      { envelope := (lookup db.messageEnvelopes existing.envelopeId).map MessageEnvelope.columns
        recipientDeviceCount := none
        idempotentRetry := true }

def submitEnvelope (senderUserId senderDeviceId : Uuid) (dto : SubmitMessageEnvelope) : Program :=
  .query fun db =>
  if (db.deviceOfUser senderDeviceId senderUserId).all Device.isRevoked then
    .ret (.error (.forbidden "Sender device is invalid or revoked"))
  else
    .query fun db =>
    if !db.isMember dto.conversationId senderUserId then
      .ret (.error (.forbidden "Access denied to conversation"))
    else if maxPayloadBytes < (pf.decodeBase64 dto.opaquePayloadBase64).length then
      .ret (.error (.badRequest "Opaque payload exceeds maximum allowed size of 64KB"))
    else if hasNul dto.idempotencyKey then .ret (.error (.dataException "idempotency_key"))
    else
      .observe (fun _ _ => true)
        (fun db _ => .idempotencyKeyRead senderDeviceId dto.idempotencyKey
          ((db.idempotencyRecord senderDeviceId dto.idempotencyKey).map (·.envelopeId)))
        fun db _ =>
      match db.idempotencyRecord senderDeviceId dto.idempotencyKey with
      | some existing => answerCached pf dto existing
      | none =>
        .observe (exactly (Db.unrevokedDevicesOf dto.recipientUserId))
          (fun _ devices => .recipientDevicesRead dto.recipientUserId devices)
          fun _ devices => storeEnvelope pf senderUserId senderDeviceId dto devices

/-- A row of `getPendingEnvelopes`. -/
structure PendingEnvelope where
  id : Uuid
  conversationId : Uuid
  senderUserId : Uuid
  senderDeviceId : Uuid
  recipientUserId : Uuid
  protocolVersion : Nat
  payloadByteLength : Nat
  opaquePayloadBase64 : List Char
  clientCreatedAt : Nat
  serverAcceptedAt : Nat
  expiresAt : Nat
  deliveryStatus : DeliveryStatus
  deriving DecidableEq, Repr

def pendingRow (e : MessageEnvelope) (rd : MessageRecipientDevice) : PendingEnvelope :=
  { id := e.id, conversationId := e.conversationId, senderUserId := e.senderUserId,
    senderDeviceId := e.senderDeviceId, recipientUserId := e.recipientUserId,
    protocolVersion := e.protocolVersion, payloadByteLength := e.payloadByteLength,
    opaquePayloadBase64 := pf.encodeBase64 e.opaquePayload, clientCreatedAt := e.clientCreatedAt,
    serverAcceptedAt := e.serverAcceptedAt, expiresAt := e.expiresAt,
    deliveryStatus := rd.deliveryStatus }

/-- The `JOIN` and the `WHERE` clause of `getPendingEnvelopes`. -/
def pendingJoin (db : Db) (now : Nat) (userId deviceId : Uuid) :
    List (MessageEnvelope × MessageRecipientDevice) :=
  (db.messageEnvelopes.product db.messageRecipientDevices).filter fun (e, rd) =>
    e.id = rd.envelopeId && rd.recipientDeviceId = deviceId && e.recipientUserId = userId &&
      rd.deliveryStatus.isPending && now < e.expiresAt

def getPendingEnvelopes (db : Db) (now : Nat) (userId deviceId : Uuid) : List PendingEnvelope :=
  ((pendingJoin db now userId deviceId).map fun (e, rd) => pendingRow pf e rd).insertionSort
    (fun a b => a.serverAcceptedAt ≤ b.serverAcceptedAt)

end

/-- The record and the recipient that `acknowledgeDelivery` reads. -/
def acknowledgedRow (db : Db) (envelopeId deviceId : Uuid) : Option (MessageRecipientDevice × Uuid) :=
  (db.messageRecipientDevices.filter (fun rd =>
    rd.envelopeId = envelopeId && rd.recipientDeviceId = deviceId)).findSome? fun rd =>
      (lookup db.messageEnvelopes rd.envelopeId).map fun e => (rd, e.recipientUserId)

def acknowledgeDelivery (userId deviceId envelopeId : Uuid) : Program :=
  .query fun db =>
  match acknowledgedRow db envelopeId deviceId with
  | none => .ret (.error (.forbidden "Delivery acknowledgement unauthorized for envelope"))
  | some (rdRecord, recipientUserId) =>
    if recipientUserId ≠ userId then
      .ret (.error (.forbidden "Delivery acknowledgement unauthorized for envelope"))
    else
      .fresh fun ackId =>
      .now fun now =>
      .lock (.recipient rdRecord.id) fun _ =>
      .write (Write.deliverRecipient rdRecord.id now).apply <|
      insertAcknowledgement
        { id := ackId, envelopeId, recipientDeviceId := deviceId, ackType := .delivery,
          acknowledgedAt := now } <|
      .commit (.deliveryAcknowledged rdRecord.id envelopeId deviceId ackId now) <|
      .ret (.ok (.delivered envelopeId deviceId))

end MessageEnvelopeService

end GuffSuff
