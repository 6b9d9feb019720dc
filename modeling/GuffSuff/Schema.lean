import GuffSuff.ReadCommitted.Table

/-! The tables of migrations 001 and 002 that the modelled services read or
write. Identifiers, tokens and digests are texts the code only compares, so
they are numbers here; timestamps are milliseconds. -/

namespace GuffSuff

open ReadCommitted

abbrev Uuid := Nat
abbrev RawToken := Nat
abbrev Digest := Nat
abbrev Bytes := List UInt8

/-- A text in a column of type `varchar(max)`: spaces beyond its length are
dropped, anything else there is an error. -/
def varchar (max : Nat) (text : String) : Option String :=
  if text.length ≤ max then some text
  else if (text.toList.drop max).all (· = ' ') then some (.ofList (text.toList.take max))
  else none

/-- PostgreSQL takes no text that contains the character zero. -/
def hasNul (text : String) : Bool := text.toList.contains (Char.ofNat 0)

inductive JsonValue where
  | uuid (id : Uuid)
  | text (s : String)
  deriving DecidableEq, Repr

abbrev JsonObject := List (String × JsonValue)

inductive AccountState where
  | pendingProfile | active | restricted | suspended | deletionPending | deleted
  deriving DecidableEq, Repr

structure User where
  id : Uuid
  accountState : AccountState
  deriving DecidableEq, Repr

structure Device where
  id : Uuid
  userId : Uuid
  deviceName : String
  isRevoked : Bool
  revokedAt : Option Nat
  revokedReason : Option String
  deriving DecidableEq, Repr

structure Session where
  id : Uuid
  userId : Uuid
  deviceId : Uuid
  sessionVersion : Nat
  createdAt : Nat
  expiresAt : Nat
  revokedAt : Option Nat
  deriving DecidableEq, Repr

structure RefreshTokenFamily where
  id : Uuid
  userId : Uuid
  deviceId : Uuid
  isCompromised : Bool
  createdAt : Nat
  updatedAt : Nat
  deriving DecidableEq, Repr

structure RefreshToken where
  id : Uuid
  familyId : Uuid
  tokenVerifierHash : Digest
  parentTokenId : Option Uuid
  replacementTokenId : Option Uuid
  expiresAt : Nat
  isRotated : Bool
  rotatedAt : Option Nat
  isRevoked : Bool
  revokedAt : Option Nat
  createdAt : Nat
  deriving DecidableEq, Repr

inductive SecurityEventType where
  | refreshTokenReuseDetected | deviceRevoked | registrationLockEnabled | registrationLockDisabled
  | accountRegistered
  deriving DecidableEq, Repr

inductive Severity where
  | low | medium | high | critical
  deriving DecidableEq, Repr

structure SecurityEvent where
  id : Uuid
  userId : Uuid
  deviceId : Option Uuid
  eventType : SecurityEventType
  severity : Severity
  userDescriptionKey : String
  deviceContextJson : JsonObject
  internalMetadataJson : JsonObject
  createdAt : Nat
  deriving DecidableEq, Repr

structure AuditEvent where
  id : Uuid
  actorType : String
  actorId : Uuid
  action : String
  targetType : String
  targetId : Uuid
  reason : Option String
  correlationId : Uuid
  requestId : Uuid
  outcome : String
  beforeStateJson : Option JsonObject
  afterStateJson : Option JsonObject
  createdAt : Nat
  deriving DecidableEq, Repr

structure DirectConversation where
  id : Uuid
  participant1UserId : Uuid
  participant2UserId : Uuid
  deriving DecidableEq, Repr

structure ConversationMember where
  id : Uuid
  conversationId : Uuid
  userId : Uuid
  deriving DecidableEq, Repr

structure MessageEnvelope where
  id : Uuid
  clientIdempotencyKey : String
  conversationId : Uuid
  senderUserId : Uuid
  senderDeviceId : Uuid
  recipientUserId : Uuid
  protocolVersion : Nat
  payloadByteLength : Nat
  opaquePayload : Bytes
  clientCreatedAt : Nat
  serverAcceptedAt : Nat
  expiresAt : Nat
  deriving DecidableEq, Repr

inductive DeliveryStatus where
  | accepted | queued | routed | delivered | read | expired | revokedRecipient | permanentlyFailed
  deriving DecidableEq, Repr

structure MessageRecipientDevice where
  id : Uuid
  envelopeId : Uuid
  recipientDeviceId : Uuid
  deliveryStatus : DeliveryStatus
  deliveryAttemptsCount : Nat
  lastAttemptedAt : Option Nat
  deliveredAt : Option Nat
  createdAt : Nat
  updatedAt : Nat
  deriving DecidableEq, Repr

inductive AckType where
  | delivery | read
  deriving DecidableEq, Repr

structure MessageAcknowledgement where
  id : Uuid
  envelopeId : Uuid
  recipientDeviceId : Uuid
  ackType : AckType
  acknowledgedAt : Nat
  deriving DecidableEq, Repr

structure MessageIdempotencyKey where
  id : Uuid
  senderDeviceId : Uuid
  idempotencyKey : String
  envelopeId : Uuid
  payloadDigestSha256 : Digest
  createdAt : Nat
  deriving DecidableEq, Repr

instance : Keyed User Uuid := ⟨User.id⟩
instance : Keyed Device Uuid := ⟨Device.id⟩
instance : Keyed Session Uuid := ⟨Session.id⟩
instance : Keyed RefreshTokenFamily Uuid := ⟨RefreshTokenFamily.id⟩
instance : Keyed RefreshToken Uuid := ⟨RefreshToken.id⟩
instance : Keyed SecurityEvent Uuid := ⟨SecurityEvent.id⟩
instance : Keyed AuditEvent Uuid := ⟨AuditEvent.id⟩
instance : Keyed DirectConversation Uuid := ⟨DirectConversation.id⟩
instance : Keyed MessageEnvelope Uuid := ⟨MessageEnvelope.id⟩
instance : Keyed MessageRecipientDevice Uuid := ⟨MessageRecipientDevice.id⟩
instance : Keyed MessageAcknowledgement Uuid := ⟨MessageAcknowledgement.id⟩
instance : Keyed MessageIdempotencyKey Uuid := ⟨MessageIdempotencyKey.id⟩

@[simp] theorem User.key_eq (r : User) : (Keyed.key r : Uuid) = r.id := rfl
@[simp] theorem Device.key_eq (r : Device) : (Keyed.key r : Uuid) = r.id := rfl
@[simp] theorem Session.key_eq (r : Session) : (Keyed.key r : Uuid) = r.id := rfl
@[simp] theorem RefreshTokenFamily.key_eq (r : RefreshTokenFamily) : (Keyed.key r : Uuid) = r.id := rfl
@[simp] theorem RefreshToken.key_eq (r : RefreshToken) : (Keyed.key r : Uuid) = r.id := rfl
@[simp] theorem SecurityEvent.key_eq (r : SecurityEvent) : (Keyed.key r : Uuid) = r.id := rfl
@[simp] theorem AuditEvent.key_eq (r : AuditEvent) : (Keyed.key r : Uuid) = r.id := rfl
@[simp] theorem DirectConversation.key_eq (r : DirectConversation) : (Keyed.key r : Uuid) = r.id := rfl
@[simp] theorem MessageEnvelope.key_eq (r : MessageEnvelope) : (Keyed.key r : Uuid) = r.id := rfl
@[simp] theorem MessageRecipientDevice.key_eq (r : MessageRecipientDevice) : (Keyed.key r : Uuid) = r.id := rfl
@[simp] theorem MessageAcknowledgement.key_eq (r : MessageAcknowledgement) : (Keyed.key r : Uuid) = r.id := rfl
@[simp] theorem MessageIdempotencyKey.key_eq (r : MessageIdempotencyKey) : (Keyed.key r : Uuid) = r.id := rfl

structure Db where
  users : List User
  devices : List Device
  sessions : List Session
  refreshTokenFamilies : List RefreshTokenFamily
  refreshTokens : List RefreshToken
  securityEvents : List SecurityEvent
  auditEvents : List AuditEvent
  directConversations : List DirectConversation
  conversationMembers : List ConversationMember
  messageEnvelopes : List MessageEnvelope
  messageRecipientDevices : List MessageRecipientDevice
  messageAcknowledgements : List MessageAcknowledgement
  messageIdempotencyKeys : List MessageIdempotencyKey

namespace Db

def empty : Db :=
  { users := [], devices := [], sessions := [], refreshTokenFamilies := [], refreshTokens := [],
    securityEvents := [], auditEvents := [], directConversations := [], conversationMembers := [],
    messageEnvelopes := [], messageRecipientDevices := [], messageAcknowledgements := [],
    messageIdempotencyKeys := [] }

end Db

end GuffSuff
