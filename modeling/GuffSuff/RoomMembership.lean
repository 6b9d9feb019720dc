import GuffSuff.MessagingRuns
import GuffSuff.RealtimeGateway

/-! Who gets the events of a user or a device: the clients whose handshake names
them, whatever token they present. -/

namespace GuffSuff

open JavaScript Rooms

namespace RealtimeGateway

section
variable {N : Type} (js : Numbers N)

namespace Socket
variable (c : Socket N)

/-- The handshake has the three fields that `handleConnection` asks for. -/
def isComplete : Bool :=
  (c.handshakeAuth.field "token").truthy js && (c.handshakeAuth.field "deviceId").truthy js &&
    (c.handshakeAuth.field "userId").truthy js

def userText : Option String := (c.handshakeAuth.field "userId").text js

def deviceText : Option String := (c.handshakeAuth.field "deviceId").text js

/-- The rooms that `handleConnection` makes the client join. -/
def rooms : List String :=
  if c.isComplete js then
    match c.userText js, c.deviceText js with
    | none, _ => []
    | some userId, none => ["user_" ++ userId]
    | some userId, some deviceId => ["user_" ++ userId, "device_" ++ deviceId]
  else []

/-- The handshake is complete and its field for the address reads as the address. -/
def Names : Address → Prop
  | .user userId => c.isComplete js = true ∧ c.userText js = some userId
  | .device deviceId => c.isComplete js = true ∧ (c.userText js).isSome ∧ c.deviceText js = some deviceId
  | .client => False

variable (pf : Messaging.Platform)

/-- The client connected with an access token that verifies and is that of the address. -/
def Owns (address : Address) : Prop :=
  ∃ token claims, c.handshakeAuth.field "token" = .string token ∧
    SessionService.verifyAccessToken pf.services token.toList c.connectedAt = .ok claims ∧
      match address with
      | .user userId => pf.uuidText claims.userId = userId
      | .device deviceId => pf.uuidText claims.deviceId = deviceId
      | .client => True

end Socket

def Action.address : Action N → Option Address
  | sendIdentityNotification userId _ _ => some (.user userId)
  | sendDeliveryEvent deviceId _ => some (.device deviceId)
  | sendAcceptedEvent deviceId _ => some (.device deviceId)
  | _ => none

def Gateway.Connected (g : Gateway N) (c : Socket N) : Prop := ∃ i, (i, c) ∈ g.server.clients

def Gateway.sent (g : Gateway N) (a : Action N) : List (Receipt N) :=
  (g.step js a).receipts.drop g.receipts.length

end

section
variable {N : Type} {js : Numbers N} {g : Gateway N} {c : Socket N}

theorem user_room_ne_device (u d : String) : "user_" ++ u ≠ "device_" ++ d := by
  intro h
  have hlist := congrArg String.toList h
  simp at hlist

theorem Socket.mem_rooms {address : Address} {room : String} (hroom : address.room = some room) :
    room ∈ c.rooms js ↔ c.Names js address := by
  unfold Socket.rooms
  cases hc : c.isComplete js with
  | false => cases address <;> simp [Socket.Names, hc]
  | true =>
    cases hu : c.userText js with
    | none => cases address <;> simp [Socket.Names, hu]
    | some userId =>
      cases address with
      | client => exact absurd hroom (by simp [Address.room])
      | user u =>
        obtain rfl : "user_" ++ u = room := Option.some.inj hroom
        have hnames : c.Names js (.user u) ↔ u = userId := by
          simp [Socket.Names, hc, hu, eq_comm (a := u)]
        cases c.deviceText js <;> simp [hnames, user_room_ne_device]
      | device d =>
        obtain rfl : "device_" ++ d = room := Option.some.inj hroom
        have hnames : c.Names js (.device d) ↔ c.deviceText js = some d := by
          simp [Socket.Names, hc, hu]
        have hne : "device_" ++ d ≠ "user_" ++ userId := (user_room_ne_device userId d).symm
        cases hd : c.deviceText js <;> simp [hnames, hd, hne, eq_comm (a := d)]

theorem handleConnection_server (g : Gateway N) (c : Socket N) : (g.handleConnection js c).server =
    if c.isComplete js then g.server.joinAll c.id (c.rooms js) else g.server.disconnect c.id := by
  have hguard : (!(c.handshakeAuth.field "token").truthy js || !(c.handshakeAuth.field "deviceId").truthy js ||
      !(c.handshakeAuth.field "userId").truthy js) = !c.isComplete js := by
    simp only [Socket.isComplete, Bool.not_and]
  simp only [Gateway.handleConnection, hguard]
  cases hc : c.isComplete js with
  | false => rfl
  | true =>
    simp only [Socket.rooms, hc, Socket.userText, Socket.deviceText, Bool.not_true, Bool.false_eq_true,
      if_false, if_true]
    cases (c.handshakeAuth.field "userId").text js with
    | none => rfl
    | some userId => cases (c.handshakeAuth.field "deviceId").text js <;> rfl

variable (js) in
theorem handleMessage_eq (g : Gateway N) (c : Socket N) (event : ClientEvent) (data : JsValue N) :
    ∃ e, g.handleMessage js c event data = g.reply c e := by
  cases event with
  | messageSubmit =>
    simp only [Gateway.handleMessage, Gateway.handleClientMessageSubmit]
    split <;> exact ⟨_, rfl⟩
  | messageDelivered =>
    simp only [Gateway.handleMessage, Gateway.handleClientMessageDelivered, Gateway.handleStatus]
    split <;> exact ⟨_, rfl⟩
  | messageRead =>
    simp only [Gateway.handleMessage, Gateway.handleClientMessageRead, Gateway.handleStatus]
    split <;> exact ⟨_, rfl⟩

theorem handleConnection_receipts (g : Gateway N) (c : Socket N) :
    (g.handleConnection js c).receipts = g.receipts := by
  unfold Gateway.handleConnection
  dsimp only
  split
  · rfl
  · split
    · rfl
    · split <;> rfl

theorem joins_step (h : g.server.Joins (Socket.rooms js)) (a : Action N) :
    (g.step js a).server.Joins (Socket.rooms js) := by
  cases a with
  | connect id handshakeAuth =>
    simp only [Gateway.step]
    split
    · exact h
    · rename_i hid
      rw [handleConnection_server]
      have hnew : id ∉ g.server.clients.map Prod.fst := by simpa [Hub.isConnected] using hid
      have hjoined := h.connect hnew ⟨id, handshakeAuth, g.clock⟩
      split
      · exact hjoined
      · rename_i hc
        have hnone : Socket.rooms js ⟨id, handshakeAuth, g.clock⟩ = [] := by
          simp only [Socket.rooms, hc, Bool.false_eq_true, if_false]
        rw [hnone] at hjoined
        exact hjoined.disconnect id
  | disconnect id => exact h.disconnect id
  | message id event data =>
    simp only [Gateway.step]
    split
    · exact h
    · rename_i c _
      obtain ⟨e, he⟩ := handleMessage_eq js g c event data
      rw [he]
      exact h
  | _ => exact h

theorem joins_run (h : g.server.Joins (Socket.rooms js)) (actions : List (Action N)) :
    (g.run js actions).server.Joins (Socket.rooms js) := by
  induction actions generalizing g with
  | nil => exact h
  | cons a actions ih => exact ih (joins_step h a)

variable (js) in
theorem step_receipts (g : Gateway N) (a : Action N) : ∃ new,
    (g.step js a).receipts = g.receipts ++ new ∧
      match a.address with
      | none => ∀ x ∈ new, x.address = .client
      | some address => ∃ room event, address.room = some room ∧
        new = (g.server.receivers room).map fun c => ⟨c, address, event⟩ := by
  cases a with
  | connect id handshakeAuth =>
    refine ⟨[], ?_, by simp [Action.address]⟩
    simp only [Gateway.step, List.append_nil]
    split
    · rfl
    · exact handleConnection_receipts _ _
  | message id event data =>
    cases hid : g.server.clients.lookup id with
    | none => exact ⟨[], by simp [Gateway.step, hid], by simp [Action.address]⟩
    | some c =>
      obtain ⟨e, he⟩ := handleMessage_eq js g c event data
      refine ⟨[⟨c, .client, e⟩], ?_, by simp [Action.address]⟩
      simp only [Gateway.step, hid, he]
      rfl
  | sendIdentityNotification => exact ⟨_, rfl, _, _, rfl, rfl⟩
  | sendDeliveryEvent => exact ⟨_, rfl, _, _, rfl, rfl⟩
  | sendAcceptedEvent => exact ⟨_, rfl, _, _, rfl, rfl⟩
  | _ => exact ⟨[], by simp [Gateway.step, Gateway.disconnect], by simp [Action.address]⟩

theorem receipts_step (g : Gateway N) (a : Action N) :
    (g.step js a).receipts = g.receipts ++ g.sent js a := by
  obtain ⟨new, hnew, _⟩ := step_receipts js g a
  simp [Gateway.sent, hnew]

/-- An action that sends to a room reaches the clients in it; all others only answer their client. -/
theorem mem_sent (hj : g.server.Joins (Socket.rooms js)) {a : Action N} {address : Address}
    (hne : address ≠ .client) : (∃ x ∈ g.sent js a, x.address = address ∧ x.socket = c) ↔
      a.address = some address ∧ g.Connected c ∧ c.Names js address := by
  obtain ⟨new, hnew, hspec⟩ := step_receipts js g a
  have hsent : g.sent js a = new := by simp [Gateway.sent, hnew]
  rw [hsent]
  cases ha : a.address with
  | none =>
    rw [ha] at hspec
    constructor
    · rintro ⟨x, hx, rfl, _⟩
      exact absurd (hspec x hx) hne
    · exact fun h => absurd h.1 (by simp)
  | some sent =>
    rw [ha] at hspec
    obtain ⟨room, event, hroom, rfl⟩ := hspec
    constructor
    · rintro ⟨x, hx, rfl, rfl⟩
      obtain ⟨d, hd, rfl⟩ := List.mem_map.mp hx
      obtain ⟨hconn, hmem⟩ := hj.mem_receivers.mp hd
      exact ⟨rfl, hconn, (Socket.mem_rooms hroom).mp hmem⟩
    · rintro ⟨heq, hconn, hnames⟩
      obtain rfl := Option.some.inj heq
      have hd := hj.mem_receivers.mpr ⟨hconn, (Socket.mem_rooms hroom).mpr hnames⟩
      exact ⟨_, List.mem_map_of_mem hd, rfl, rfl⟩

theorem mem_receipts_run {actions : List (Action N)} {x : Receipt N} :
    x ∈ (g.run js actions).receipts ↔ x ∈ g.receipts ∨ ∃ first a rest,
      actions = first ++ a :: rest ∧ x ∈ (g.run js first).sent js a := by
  induction actions generalizing g with
  | nil => simp [Gateway.run]
  | cons a actions ih =>
    have hrun : g.run js (a :: actions) = (g.step js a).run js actions := rfl
    rw [hrun, ih, receipts_step, List.mem_append]
    constructor
    · rintro ((hx | hx) | ⟨first, b, rest, rfl, hx⟩)
      · exact .inl hx
      · exact .inr ⟨[], a, actions, rfl, hx⟩
      · exact .inr ⟨a :: first, b, rest, rfl, hx⟩
    · rintro (hx | ⟨first, b, rest, hactions, hx⟩)
      · exact .inl (.inl hx)
      · cases first with
        | nil =>
          obtain ⟨rfl, rfl⟩ := List.cons.inj hactions
          exact .inl (.inr hx)
        | cons d first =>
          obtain ⟨rfl, rfl⟩ := List.cons.inj hactions
          exact .inr ⟨first, b, rest, rfl, hx⟩

/-- The events for users and devices reach their owners only, exactly if whoever is connected
under the name of an addressee when an event is sent has presented a token of it. -/
theorem receipts_owned_iff (pf : Messaging.Platform) (js : Numbers N) (clock : Nat)
    (actions : List (Action N)) :
    (∀ x ∈ ((Gateway.boot clock).run js actions).receipts, x.address ≠ .client →
      x.socket.Owns pf x.address) ↔
    ∀ first a rest address, actions = first ++ a :: rest → a.address = some address →
      ∀ c, ((Gateway.boot clock).run js first).Connected c → c.Names js address →
        c.Owns pf address := by
  have hjoins : ∀ first : List (Action N),
      ((Gateway.boot clock).run js first).server.Joins (Socket.rooms js) :=
    fun first => joins_run Hub.joins_empty first
  constructor
  · intro howned first a rest address hactions ha c hconn hnames
    have hne : address ≠ .client := by
      rintro rfl
      exact hnames
    obtain ⟨x, hx, rfl, rfl⟩ := (mem_sent (hjoins first) hne).mpr ⟨ha, hconn, hnames⟩
    exact howned x (mem_receipts_run.mpr (.inr ⟨first, a, rest, hactions, hx⟩)) hne
  · intro hnamed x hx hne
    rcases mem_receipts_run.mp hx with hold | ⟨first, a, rest, hactions, hx⟩
    · exact absurd hold List.not_mem_nil
    · obtain ⟨ha, hconn, hnames⟩ := (mem_sent (hjoins first) hne).mp ⟨x, hx, rfl, rfl⟩
      exact hnamed first a rest x.address hactions ha x.socket hconn hnames

end

/-- A handshake that names user 2 and presents no token of anybody. -/
def sampleImpostor : JsValue Nat :=
  .object [("token", .string "x"), ("deviceId", .string "d"),
    ("userId", .string (Messaging.sampleText 2))]

def sampleNotification : List (Action Nat) :=
  [.connect "socket" sampleImpostor,
    .sendIdentityNotification (Messaging.sampleText 2) .securityAlert (.object [])]

theorem impostor_notified :
    ¬ ∀ x ∈ ((Gateway.boot 0).run sampleNumbers sampleNotification).receipts, x.address ≠ .client →
      x.socket.Owns Messaging.samplePlatform x.address := by
  intro h
  have hreceipts : ((Gateway.boot 0).run sampleNumbers sampleNotification).receipts =
      [⟨⟨"socket", sampleImpostor, 0⟩, .user (Messaging.sampleText 2), ⟨"identity_event",
        [("eventType", .string "security_alert"), ("payload", .object []), ("timestamp", .number 0)]⟩⟩] := by
    rfl
  rw [hreceipts] at h
  obtain ⟨token, claims, htoken, hverify, _⟩ := h _ List.mem_cons_self (by decide)
  obtain rfl : "x" = token := JsValue.string.inj htoken
  have herror : SessionService.verifyAccessToken Messaging.samplePlatform.services "x".toList 0 =
      .error "jwt malformed" := by rfl
  rw [herror] at hverify
  exact absurd hverify (by simp)

end RealtimeGateway

end GuffSuff
