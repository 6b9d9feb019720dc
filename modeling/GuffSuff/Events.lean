import GuffSuff.DeviceService
import GuffSuff.TransportProcessor

/-! What each committed transaction writes, and what its code has made sure of
by the time it commits. -/

namespace GuffSuff

open ReadCommitted SessionService DeviceService

section
variable (pf : Platform)

def Event.writes : Event → List Write
  | sessionCreated raw user device session family token now =>
    [.insertSession (newSession session user device now),
      .insertRefreshTokenFamily (newFamily family user device now),
      .insertRefreshToken (firstToken token family (pf.hashRefreshToken raw) now)]
  | tokenRotated _ newRaw old replacement _ now =>
    [.rotateRefreshToken old.id replacement now,
      .insertRefreshToken (childToken old replacement (pf.hashRefreshToken newRaw) now)]
  | graceAnswered .. => []
  | reuseDetected _ old family tokens sessions eventId _ _ startedAt =>
    [.compromiseFamilies [family.id] startedAt, .revokeRefreshTokens tokens startedAt,
      .revokeSessions sessions startedAt,
      .insertSecurityEvent (reuseEvent eventId old family startedAt)]
  | sessionRevoked _ ids now => [.revokeSessions ids now]
  | userSessionsRevoked _ ids now => [.revokeSessions ids now]
  | userFamiliesCompromised _ ids now => [.compromiseFamilies ids now]
  | userTokensRevoked _ ids now => [.revokeRefreshTokens ids now]
  | deviceRevoked user device reason deviceName sessions families tokens eventId auditId
      correlationId now =>
    [.revokeDevices [device] reason now, .revokeSessions sessions now,
      .compromiseFamilies families now, .revokeRefreshTokens tokens now,
      .insertSecurityEvent (revokedEvent eventId user device deviceName reason now),
      .insertAuditEvent (revokedAudit auditId correlationId user device reason now)]
  | envelopeSubmitted envelope record recipients =>
    .insertMessageEnvelope envelope :: .insertMessageIdempotencyKey record ::
      recipients.map .insertMessageRecipientDevice
  | deliveryAcknowledged record envelope device ackId now =>
    [.deliverRecipient record now,
      .insertMessageAcknowledgement
        { id := ackId, envelopeId := envelope, recipientDeviceId := device, ackType := .delivery,
          acknowledgedAt := now }]
  | deliveryRetried record now => [.retryRecipient record now]
  | deliveriesExpired ids now => [.expireRecipients ids now]
  | retriesSelected _ => []
  | idempotencyKeyRead .. => []
  | recipientDevicesRead .. => []

/-- The token a successful refresh was asked for, and the refresh token it answered. -/
def Event.refreshed : Event → Option (RefreshToken × RawToken)
  | tokenRotated _ newRaw old _ _ _ => some (old, newRaw)
  | graceAnswered raw old _ _ => some (old, raw)
  | _ => none

/-- The row that a call of `rotateRefreshToken` found for the token it was asked for. -/
def Event.presented : Event → Option RefreshToken
  | tokenRotated _ _ old _ _ _ => some old
  | graceAnswered _ old _ _ => some old
  | reuseDetected _ old _ _ _ _ _ _ _ => some old
  | _ => none

def Event.isReuse : Event → Bool
  | reuseDetected .. => true
  | _ => false

/-- The row a presented refresh token selects, with the checks of step 2 passed. -/
structure Db.Presents (db : Db) (raw : RawToken) (old : RefreshToken)
    (rf : RefreshTokenFamily) (checkedAt : Nat) : Prop where
  token : lookup db.refreshTokens old.id = some old
  family : lookup db.refreshTokenFamilies old.familyId = some rf
  hash : old.tokenVerifierHash = pf.hashRefreshToken raw
  uncompromised : rf.isCompromised = false
  unrevoked : old.isRevoked = false
  unexpired : checkedAt ≤ old.expiresAt

/-- With a token, its parent is in the list. -/
def Db.ParentClosed (db : Db) (ids : List Uuid) : Prop :=
  ∀ t ∈ db.refreshTokens, t.id ∈ ids → ∀ p, t.parentTokenId = some p → p ∈ ids

/-- What the code has made sure of when it commits the event. -/
def Event.Allowed (clock : Nat) (db : Db) : Event → Prop
  | sessionCreated raw user device session family token _ =>
    user ∈ keys db.users ∧ device ∈ keys db.devices ∧ session ∉ keys db.sessions ∧
      family ∉ keys db.refreshTokenFamilies ∧ token ∉ keys db.refreshTokens ∧
      db.hashTaken (pf.hashRefreshToken raw) = false
  | tokenRotated raw newRaw old replacement checkedAt _ =>
    (∃ family, db.Presents pf raw old family checkedAt) ∧ old.isRotated = false ∧
      replacement ∉ keys db.refreshTokens ∧ db.hashTaken (pf.hashRefreshToken newRaw) = false
  | graceAnswered raw old checkedAt now =>
    (∃ family, db.Presents pf raw old family checkedAt) ∧ old.isRotated = true ∧
      now ≤ old.rotatedAt.getD 0 + concurrentGraceMs
  | reuseDetected raw old family tokens _ _ checkedAt now _ =>
    db.Presents pf raw old family checkedAt ∧ old.isRotated = true ∧
      old.rotatedAt.getD 0 + concurrentGraceMs < now ∧ db.ParentClosed tokens
  | sessionRevoked session ids _ => ∀ i ∈ ids, i = session
  | userSessionsRevoked .. => True
  | userFamiliesCompromised .. => True
  | userTokensRevoked _ ids _ => db.ParentClosed ids
  | deviceRevoked user device _ _ _ _ tokens _ _ _ _ =>
    (∃ d, lookup db.devices device = some d ∧ d.userId = user ∧ d.isRevoked = false) ∧
      db.ParentClosed tokens
  | envelopeSubmitted envelope record recipients =>
    envelope.id ∉ keys db.messageEnvelopes ∧ record.id ∉ keys db.messageIdempotencyKeys ∧
      db.idempotencyRecord envelope.senderDeviceId envelope.clientIdempotencyKey = none ∧
      record.envelopeId = envelope.id ∧ record.senderDeviceId = envelope.senderDeviceId ∧
      record.idempotencyKey = envelope.clientIdempotencyKey ∧
      (keys db.messageRecipientDevices ++ keys recipients).Nodup ∧
      (recipients.map MessageRecipientDevice.recipientDeviceId).Nodup ∧
      (∀ r ∈ recipients, r.envelopeId = envelope.id ∧ r.deliveryStatus = .accepted)
  | deliveryAcknowledged record envelope device _ _ =>
    ∃ r, lookup db.messageRecipientDevices record = some r ∧ r.envelopeId = envelope ∧
      r.recipientDeviceId = device
  | deliveryRetried .. => True
  | deliveriesExpired ids now =>
    now ≤ clock ∧ ∀ i ∈ ids, ∃ r e, lookup db.messageRecipientDevices i = some r ∧
      lookup db.messageEnvelopes r.envelopeId = some e ∧ e.expiresAt ≤ now
  | retriesSelected ids =>
    ∀ i ∈ ids, ∃ r, lookup db.messageRecipientDevices i = some r ∧ r.deliveryStatus.isPending = true
  | idempotencyKeyRead device key found =>
    found = (db.idempotencyRecord device key).map (·.envelopeId)
  | recipientDevicesRead user devices => devices.Perm (db.unrevokedDevicesOf user)

end

end GuffSuff
