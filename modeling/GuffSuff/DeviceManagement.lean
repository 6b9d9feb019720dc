import GuffSuff.ReadCommitted.Embedding
import GuffSuff.Services

/-! `DeviceService.listDevices` and `DeviceService.renameDevice`, around the
tables of the backend and the columns of `devices` that only they read. -/

namespace GuffSuff

open ReadCommitted

namespace Devices

structure Platform where
  services : GuffSuff.Platform
  uuid : String → Option Uuid

structure DeviceDetails where
  installationId : String
  platform : String
  appVersion : String
  osVersion : String
  notificationTokenStatus : String
  createdAt : Nat
  lastSeenAt : Nat
  deriving DecidableEq, Repr

structure Db where
  core : GuffSuff.Db
  details : Uuid → DeviceDetails

/-- The columns of `listDevices`. -/
structure DeviceRow where
  id : Uuid
  installationId : String
  deviceName : String
  platform : String
  appVersion : String
  osVersion : String
  notificationTokenStatus : String
  isRevoked : Bool
  revokedAt : Option Nat
  revokedReason : Option String
  createdAt : Nat
  lastSeenAt : Nat
  deriving DecidableEq, Repr

structure ListedDevice where
  columns : DeviceRow
  isCurrentDevice : Bool
  deriving DecidableEq, Repr

inductive Failure where
  | backend (failure : GuffSuff.Failure)
  | notNullViolation (column : String)
  deriving DecidableEq, Repr

inductive Value where
  | backend (value : GuffSuff.Value)
  | devices (rows : List ListedDevice)
  | renamed (id : Uuid) (deviceName : String)
  deriving DecidableEq, Repr

abbrev Answer := Except Failure Value

inductive Event where
  | backend (event : GuffSuff.Event)
  | deviceRenamed (user device : Uuid) (deviceName : String) (now : Nat)
  | renameAudited (row : AuditEvent)
  | devicesListed (user : Uuid) (rows : List DeviceRow)
  deriving DecidableEq

abbrev Program := ReadCommitted.Program Db Key Uuid Event Answer

def throw (e : Failure) : Program := .rollback (.ret (.error e))

/-- The tables of the backend among those of this system. -/
def backendTables : Embedding GuffSuff.Db Key GuffSuff.Event Db Key Event where
  view := Db.core
  put core db := { db with core }
  key := id
  event := .backend

def ofAnswer : GuffSuff.Answer → Answer
  | .ok value => .ok (.backend value)
  | .error failure => .error (.backend failure)

def ofBackend (p : GuffSuff.Program) : Program := p.embed backendTables fun r => .ret (ofAnswer r)

def rowOf (details : DeviceDetails) (d : Device) : DeviceRow :=
  { id := d.id, installationId := details.installationId, deviceName := d.deviceName,
    platform := details.platform, appVersion := details.appVersion, osVersion := details.osVersion,
    notificationTokenStatus := details.notificationTokenStatus, isRevoked := d.isRevoked,
    revokedAt := d.revokedAt, revokedReason := d.revokedReason, createdAt := details.createdAt,
    lastSeenAt := details.lastSeenAt }

def setName (name : String) (d : Device) : Device := { d with deviceName := name }

@[simp] theorem id_setName (name : String) (d : Device) : (setName name d).id = d.id := rfl

namespace Db

def row (db : Db) (id : Uuid) : Option DeviceRow := (lookup db.core.devices id).map (rowOf (db.details id))

def renameDevices (ids : List Uuid) (name : String) (now : Nat) (db : Db) : Db where
  core := { db.core with devices := updateRows db.core.devices ids (setName name) }
  details id := if id ∈ ids then { db.details id with lastSeenAt := now } else db.details id

def insertAuditEvent (row : AuditEvent) (db : Db) : Db :=
  { db with core := { db.core with auditEvents := db.core.auditEvents ++ [row] } }

end Db

namespace DeviceService

open GuffSuff.DeviceService (revocableDevices stillRevocable)

def maxNameLength : Nat := 100

def notFound : Failure := .backend (.error "Device not found or already revoked")

def activeDevices (userId : Uuid) (db : Db) : List Uuid :=
  (db.core.devices.filter fun d => d.userId = userId && !d.isRevoked).map Device.id

/-- `ORDER BY last_seen_at DESC`; rows seen at the same time come in any order. -/
def newestFirst (db : Db) (ids : List Uuid) : Bool :=
  decide (ids.Pairwise fun i j => (db.details j).lastSeenAt ≤ (db.details i).lastSeenAt)

def isCurrent (currentDeviceId : Option Uuid) (row : DeviceRow) : ListedDevice :=
  { columns := row, isCurrentDevice := currentDeviceId.any (row.id = ·) }

def listDevices (userId : Uuid) (currentDeviceId : Option Uuid) : Program :=
  .observe (fun db ids => ids.isPerm (activeDevices userId db) && newestFirst db ids)
    (fun db ids => .devicesListed userId (ids.filterMap db.row)) fun db ids =>
  .ret (.ok (.devices ((ids.filterMap db.row).map (isCurrent currentDeviceId))))

def renamedAudit (auditId correlationId userId device : Uuid) (deviceId newDeviceName : String)
    (now : Nat) : AuditEvent :=
  { id := auditId, actorType := "user", actorId := userId, action := "device_renamed",
    targetType := "device", targetId := device, reason := some "Device renamed", correlationId,
    requestId := correlationId, outcome := "success", beforeStateJson := none,
    afterStateJson := some [("deviceId", .text deviceId), ("newDeviceName", .text newDeviceName)],
    createdAt := now }

def insertAuditEvent (row : AuditEvent) (k : Program) : Program :=
  .lock (.auditEvent row.id) fun db =>
  if row.id ∈ keys db.core.auditEvents then
    throw (.backend (.uniqueViolation "audit_events_pkey"))
  else .write (Db.insertAuditEvent row) k

/-- The `INSERT` after the `UPDATE`, in a transaction of its own. -/
def auditRename (userId device : Uuid) (deviceId newDeviceName : String) (k : Program) : Program :=
  .fresh fun auditId =>
  .fresh fun correlationId =>
  .now fun now =>
  insertAuditEvent (renamedAudit auditId correlationId userId device deviceId newDeviceName now) <|
  .commit (.renameAudited
    (renamedAudit auditId correlationId userId device deviceId newDeviceName now)) k

/-- The parameter for `device_name`, if it fits; `undefined` is sent as `NULL`. -/
def nameColumn : Option String → Option (Option String)
  | none => some none
  | some text => (varchar maxNameLength text).map some

/-- `UPDATE devices .. RETURNING id, device_name`: the row is looked for again
once its lock is held. A missing name is refused only where a row is found. -/
def updateName (userId device : Uuid) (deviceName : Option String) (k : Uuid → String → Program) :
    Program :=
  .now fun now =>
  .select (fun db => exactly (revocableDevices userId device) db.core) fun found =>
  Program.lockEach Key.device (fun id db => stillRevocable userId device id db.core) [] found fun updated =>
  match updated.head?, deviceName with
  | none, _ => throw notFound
  | some _, none => throw (.notNullViolation "device_name")
  | some id, some name =>
    .write (Db.renameDevices updated name now) <|
    .commit (.deviceRenamed userId device name now) <|
    k id name

/-- PostgreSQL reads the parameters before it plans the statement, and fits the
name to its column before it looks for a row. -/
def renameDevice (pf : Platform) (userId : Uuid) (deviceId : String) (newDeviceName : Option String) :
    Program :=
  if newDeviceName.any hasNul then throw (.backend (.dataException "device_name"))
  else
    match pf.uuid deviceId, nameColumn newDeviceName with
    | none, _ => throw (.backend (.dataException "uuid"))
    | some _, none => throw (.backend (.dataException "device_name"))
    | some device, some deviceName =>
      updateName userId device deviceName fun id name =>
      auditRename userId device deviceId (newDeviceName.getD "") <|
      .ret (.ok (.renamed id name))

end DeviceService

inductive Call where
  | backend (call : GuffSuff.Call)
  | listDevices (user : Uuid) (currentDeviceId : Option Uuid)
  | renameDevice (user : Uuid) (deviceId : String) (newDeviceName : Option String)
  deriving DecidableEq

namespace Call

def program (pf : Platform) (fk : FkCheck) : Call → Program
  | backend call => ofBackend (call.program pf.services fk)
  | listDevices user currentDeviceId => DeviceService.listDevices user currentDeviceId
  | renameDevice user deviceId newDeviceName => DeviceService.renameDevice pf user deviceId newDeviceName

def aborted : Call → Answer
  | backend call => ofAnswer call.aborted
  | listDevices .. | renameDevice .. => .error (.backend .database)

end Call

abbrev Server := ReadCommitted.Server Db Key Uuid Event Answer Call
abbrev Choice := ReadCommitted.Choice Uuid Call

def serve (pf : Platform) (fk : FkCheck) (s : Server) (sched : List Choice) : Server :=
  ReadCommitted.Server.run (Call.program pf fk) Call.aborted s sched

end Devices

end GuffSuff
