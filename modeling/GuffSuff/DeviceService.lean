import GuffSuff.SessionService

/-! `DeviceService.revokeDevice`. -/

namespace GuffSuff

open ReadCommitted

namespace DeviceService

open SessionService (insertSecurityEvent updateWhere)

def revokedEvent (eventId userId device : Uuid) (deviceName reason : String) (now : Nat) :
    SecurityEvent :=
  { id := eventId, userId, deviceId := some device, eventType := .deviceRevoked,
    severity := .medium, userDescriptionKey := "sec_event.device_revoked",
    deviceContextJson := [("deviceName", .text deviceName), ("reason", .text reason)],
    internalMetadataJson := [], createdAt := now }

def revokedAudit (auditId correlationId userId device : Uuid) (reason : String) (now : Nat) :
    AuditEvent :=
  { id := auditId, actorType := "user", actorId := userId, action := "device_revoked",
    targetType := "device", targetId := device, reason := some reason, correlationId,
    requestId := correlationId, outcome := "success", beforeStateJson := none,
    afterStateJson := some [("deviceId", .uuid device), ("reason", .text reason)],
    createdAt := now }

def insertAuditEvent (e : AuditEvent) (k : Program) : Program :=
  .lock (.auditEvent e.id) fun db =>
  if e.id ∈ keys db.auditEvents then throw (.uniqueViolation "audit_events_pkey")
  else .write (Write.insertAuditEvent e).apply k

def isRevocable (userId device : Uuid) (d : Device) : Bool :=
  d.id = device && d.userId = userId && !d.isRevoked

def revocableDevices (userId device : Uuid) (db : Db) : List Uuid :=
  (db.devices.filter (isRevocable userId device)).map Device.id

def stillRevocable (userId device : Uuid) (id : Uuid) (db : Db) : Bool :=
  (lookup db.devices id).any (isRevocable userId device)

def revokeDevice (userId deviceIdToRevoke : Uuid) (reason : String) : Program :=
  .now fun now =>
  .select (exactly (revocableDevices userId deviceIdToRevoke)) fun found =>
  Program.lockEach Key.device (stillRevocable userId deviceIdToRevoke) [] found fun updated =>
  .write (Write.revokeDevices updated reason now).apply <|
  .query fun db =>
  match updated.head? >>= lookup db.devices with
  | none => throw (.error "Device not found or already revoked")
  | some device =>
    updateWhere (Db.sessionsWhere fun s => s.deviceId = deviceIdToRevoke) .session
      (.revokeSessions · now) fun sessions =>
    updateWhere (Db.familiesWhere fun f => f.deviceId = deviceIdToRevoke) .family
      (.compromiseFamilies · now) fun families =>
    updateWhere (Db.tokensOfFamilies fun f => f.deviceId = deviceIdToRevoke) .token
      (.revokeRefreshTokens · now) fun tokens =>
    .fresh fun eventId =>
    insertSecurityEvent
      (revokedEvent eventId userId deviceIdToRevoke device.deviceName reason now) <|
    .fresh fun auditId =>
    .fresh fun correlationId =>
    insertAuditEvent (revokedAudit auditId correlationId userId deviceIdToRevoke reason now) <|
    .commit (.deviceRevoked userId deviceIdToRevoke reason device.deviceName sessions families
      tokens eventId auditId correlationId now) <|
    .ret (.ok (.deviceRevoked deviceIdToRevoke))

end DeviceService

end GuffSuff
