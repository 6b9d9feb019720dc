import GuffSuff.JavaScript
import GuffSuff.Rooms

/-! `RealtimeGateway`: the sockets of the devices, the rooms they join and the
events they get. -/

namespace GuffSuff

open JavaScript Rooms

namespace RealtimeGateway

abbrev SocketId := String

structure Socket (N : Type) where
  id : SocketId
  handshakeAuth : JsValue N
  connectedAt : Nat

/-- Whom an event is for: the room it is sent to, or the one client that it answers. -/
inductive Address where
  | user (userId : String)
  | device (deviceId : String)
  | client
  deriving DecidableEq

structure Emission (N : Type) where
  name : String
  body : List (String × JsValue N)

structure Receipt (N : Type) where
  socket : Socket N
  address : Address
  event : Emission N

/-- `receipts` is history only. -/
structure Gateway (N : Type) where
  clock : Nat
  server : Hub SocketId String (Socket N)
  receipts : List (Receipt N)

inductive IdentityEvent where
  | deviceRevoked | sessionRevoked | securityAlert

def IdentityEvent.text : IdentityEvent → String
  | deviceRevoked => "device_revoked"
  | sessionRevoked => "session_revoked"
  | securityAlert => "security_alert"

inductive ClientEvent where
  | messageSubmit | messageDelivered | messageRead
  deriving DecidableEq

structure RealtimeEventEnvelope (N : Type) where
  eventId : String
  eventType : String
  correlationId : String
  timestamp : N
  payload : JsValue N

section
variable {N : Type}

def isHex (c : Char) : Bool :=
  ('0' ≤ c && c ≤ '9') || ('a' ≤ c && c ≤ 'f') || ('A' ≤ c && c ≤ 'F')

/-- `z.string().uuid()`. -/
def isUuid (s : String) : Bool :=
  (s.toList.splitOn '-').map List.length == [8, 4, 4, 4, 12] && s.toList.all fun c => c == '-' || isHex c

variable (js : Numbers N)

def uuidField : JsValue N → Option String
  | .string s => if isUuid s then some s else none
  | _ => none

def stringField : JsValue N → Option String
  | .string s => some s
  | _ => none

def timestampField : JsValue N → Option N
  | .number n => if js.isInteger n && js.isPositive n then some n else none
  | _ => none

/-- `z.record(z.unknown())`. -/
def recordField : JsValue N → Option (JsValue N)
  | .object fields => some (.object fields)
  | .buffer text => some (.buffer text)
  | _ => none

/-- `RealtimeEventEnvelopeSchema.safeParse`. -/
def safeParse (data : JsValue N) : Option (RealtimeEventEnvelope N) :=
  match data with
  | .object _ => do
    let eventId ← uuidField (data.field "eventId")
    let eventType ← stringField (data.field "eventType")
    let correlationId ← uuidField (data.field "correlationId")
    let timestamp ← timestampField js (data.field "timestamp")
    let payload ← recordField (data.field "payload")
    return { eventId, eventType, correlationId, timestamp, payload }
  | _ => none

def Address.room : Address → Option String
  | user userId => some ("user_" ++ userId)
  | device deviceId => some ("device_" ++ deviceId)
  | client => none

namespace Gateway
variable (g : Gateway N)

def join (client : Socket N) (room : String) : Gateway N := { g with server := g.server.join client.id room }

def disconnect (id : SocketId) : Gateway N := { g with server := g.server.disconnect id }

/-- `client.emit`. -/
def reply (client : Socket N) (event : Emission N) : Gateway N :=
  { g with receipts := g.receipts ++ [⟨client, .client, event⟩] }

/-- `server.to(room).emit`. -/
def emit (address : Address) (event : Emission N) : Gateway N :=
  match address.room with
  | none => g
  | some room =>
    { g with receipts := g.receipts ++ (g.server.receivers room).map fun client => ⟨client, address, event⟩ }

/-- An exception in a template literal ends the handler with the rooms joined so far. -/
def handleConnection (client : Socket N) : Gateway N :=
  let token := client.handshakeAuth.field "token"
  let deviceId := client.handshakeAuth.field "deviceId"
  let userId := client.handshakeAuth.field "userId"
  if !token.truthy js || !deviceId.truthy js || !userId.truthy js then g.disconnect client.id
  else
    match userId.text js with
    | none => g
    | some userId =>
      match deviceId.text js with
      | none => g.join client ("user_" ++ userId)
      | some deviceId => (g.join client ("user_" ++ userId)).join client ("device_" ++ deviceId)

def sendIdentityNotification (userId : String) (eventType : IdentityEvent) (payload : JsValue N) : Gateway N :=
  g.emit (.user userId)
    ⟨"identity_event", [("eventType", .string eventType.text), ("payload", payload),
      ("timestamp", .number (js.ofNat g.clock))]⟩

def sendDeviceEvent (name deviceId : String) (payload : JsValue N) : Gateway N :=
  g.emit (.device deviceId)
    ⟨name, [("eventType", .string name), ("payload", payload), ("timestamp", .number (js.ofNat g.clock))]⟩

def sendDeliveryEvent (recipientDeviceId : String) (payload : JsValue N) : Gateway N :=
  g.sendDeviceEvent js "server.message.delivery" recipientDeviceId payload

def sendAcceptedEvent (senderDeviceId : String) (payload : JsValue N) : Gateway N :=
  g.sendDeviceEvent js "server.message.accepted" senderDeviceId payload

def protocolError : Emission N :=
  ⟨"server.protocol.error", [("errorCode", .string "INVALID_EVENT_FORMAT"),
    ("message", .string "Schema validation failed")]⟩

def handleClientMessageSubmit (client : Socket N) (data : JsValue N) : Gateway N :=
  match safeParse js data with
  | none => g.reply client protocolError
  | some parsed => g.reply client
      ⟨"server.message.accepted", [("eventId", .string parsed.eventId),
        ("correlationId", .string parsed.correlationId), ("status", .string "accepted"),
        ("timestamp", .number (js.ofNat g.clock))]⟩

def handleStatus (status : String) (client : Socket N) (data : JsValue N) : Gateway N :=
  match safeParse js data with
  | none => g.reply client protocolError
  | some parsed => g.reply client
      ⟨"server.message.status", [("eventId", .string parsed.eventId), ("status", .string status),
        ("timestamp", .number (js.ofNat g.clock))]⟩

def handleClientMessageDelivered (client : Socket N) (data : JsValue N) : Gateway N :=
  g.handleStatus js "delivered" client data

def handleClientMessageRead (client : Socket N) (data : JsValue N) : Gateway N :=
  g.handleStatus js "read" client data

def handleMessage (client : Socket N) : ClientEvent → JsValue N → Gateway N
  | .messageSubmit, data => g.handleClientMessageSubmit js client data
  | .messageDelivered, data => g.handleClientMessageDelivered js client data
  | .messageRead, data => g.handleClientMessageRead js client data

end Gateway

inductive Action (N : Type) where
  | tick (n : Nat)
  | connect (id : SocketId) (handshakeAuth : JsValue N)
  | disconnect (id : SocketId)
  | message (id : SocketId) (event : ClientEvent) (data : JsValue N)
  | sendIdentityNotification (userId : String) (eventType : IdentityEvent) (payload : JsValue N)
  | sendDeliveryEvent (recipientDeviceId : String) (payload : JsValue N)
  | sendAcceptedEvent (senderDeviceId : String) (payload : JsValue N)

namespace Gateway

def boot (clock : Nat) : Gateway N := ⟨clock, .empty, []⟩

/-- socket.io keeps connected clients apart by their ids and drops the rooms of a client that leaves. -/
def step (g : Gateway N) : Action N → Gateway N
  | .tick n => { g with clock := g.clock + n }
  | .connect id handshakeAuth =>
    if g.server.isConnected id then g
    else
      let client : Socket N := ⟨id, handshakeAuth, g.clock⟩
      { g with server := g.server.connect id client }.handleConnection js client
  | .disconnect id => g.disconnect id
  | .message id event data =>
    match g.server.clients.lookup id with
    | none => g
    | some client => g.handleMessage js client event data
  | .sendIdentityNotification userId eventType payload =>
    g.sendIdentityNotification js userId eventType payload
  | .sendDeliveryEvent deviceId payload => g.sendDeliveryEvent js deviceId payload
  | .sendAcceptedEvent deviceId payload => g.sendAcceptedEvent js deviceId payload

def run (g : Gateway N) (actions : List (Action N)) : Gateway N := actions.foldl (step js) g

end Gateway

end

end RealtimeGateway

end GuffSuff
