import GuffSuff.Deduplication
import GuffSuff.RoomMembership

/-! What an answer of acceptance is worth: the API has stored the envelope that it
answers for, while the gateway gives the same answer and stores nothing. -/

namespace GuffSuff

open ReadCommitted MessageEnvelopeService JavaScript
open RealtimeGateway (Gateway SocketId safeParse)

/-- The two services that take submissions, each with its own clients and its own clock. -/
structure Deployment (N : Type) where
  api : Server
  realtime : Gateway N

namespace Deployment

inductive Action (N : Type) where
  | api (choice : Choice)
  | realtime (action : RealtimeGateway.Action N)

abbrev Action.submit {N : Type} (id : SocketId) (data : JsValue N) : Action N :=
  .realtime (.message id .messageSubmit data)

def Action.choice {N : Type} : Action N → Option Choice
  | api choice => some choice
  | realtime _ => none

section
variable {N : Type} (pf : Platform) (fk : FkCheck) (js : Numbers N)

def step (s : Deployment N) : Action N → Deployment N
  | .api choice => { s with api := serve pf fk s.api [choice] }
  | .realtime action => { s with realtime := s.realtime.step js action }

def run (s : Deployment N) (actions : List (Action N)) : Deployment N := actions.foldl (step pf fk js) s

def choices (actions : List (Action N)) : List Choice := actions.filterMap Action.choice

/-- The envelope is stored, and each device that the submission found for the recipient has it
in its pending list until it acknowledges it or the envelope expires. -/
def Delivers (start : Server) (sched : List Choice) (e : MessageEnvelope) : Prop :=
  let s := serve pf fk start sched
  e ∈ s.db.messageEnvelopes ∧ ∃ p s', AsksDevices pf fk start sched p e.recipientUserId s' ∧
    ∀ d ∈ s'.db.unrevokedDevicesOf e.recipientUserId,
      (∀ q record ackId now, (q, .deliveryAcknowledged record e.id d ackId now) ∉ s.log) →
      s.clock < e.expiresAt →
        ∃ row ∈ getPendingEnvelopes pf s.db s.clock e.recipientUserId d, row.id = e.id

def Accepts (g : Gateway N) (id : SocketId) (data : JsValue N) : Prop :=
  ∃ x ∈ g.sent js (.message id .messageSubmit data),
    g.server.clients.lookup id = some x.socket ∧ x.event.name = "server.message.accepted"

/-- A submission of these data to the gateway made it store the envelope. -/
def StoredFor (s : Deployment N) (actions : List (Action N)) (data : JsValue N)
    (e : MessageEnvelope) : Prop :=
  ∃ first id rest, actions = first ++ .submit id data :: rest ∧
    e ∉ (s.run pf fk js first).api.db.messageEnvelopes ∧
    e ∈ (s.run pf fk js (first ++ [.submit id data])).api.db.messageEnvelopes

/-- Every submission that was answered as accepted has its envelope. -/
structure Durable (s : Deployment N) (actions : List (Action N)) : Prop where
  rest : ∀ q user device dto v,
    (s.run pf fk js actions).api.Returned q (.submitEnvelope user device dto) (.ok v) →
      ∃ r e k, v = .receipt r ∧ r.envelope = some e.columns ∧
        k ∈ (s.run pf fk js actions).api.db.messageIdempotencyKeys ∧ k.envelopeId = e.id ∧
        k.senderDeviceId = device ∧ k.idempotencyKey = dto.idempotencyKey ∧
        Delivers pf fk s.api (choices actions) e
  realtime : ∀ first id data rest, actions = first ++ .submit id data :: rest →
    Accepts js (s.run pf fk js first).realtime id data →
      ∃ e, s.StoredFor pf fk js actions data e ∧ Delivers pf fk s.api (choices actions) e

end

section
variable {N : Type} {pf : Platform} {fk : FkCheck} {js : Numbers N} {s : Deployment N}

variable (pf fk js) in
theorem run_append (s : Deployment N) (first rest : List (Action N)) :
    s.run pf fk js (first ++ rest) = (s.run pf fk js first).run pf fk js rest :=
  List.foldl_append ..

theorem run_api (s : Deployment N) (actions : List (Action N)) :
    (s.run pf fk js actions).api = serve pf fk s.api (choices actions) := by
  induction actions generalizing s with
  | nil => rfl
  | cons a actions ih =>
    have hrun : s.run pf fk js (a :: actions) = (s.step pf fk js a).run pf fk js actions := rfl
    rw [hrun, ih]
    cases a <;> rfl

theorem not_storedFor {actions : List (Action N)} {data : JsValue N} {e : MessageEnvelope} :
    ¬ s.StoredFor pf fk js actions data e := by
  rintro ⟨first, id, rest, _, hbefore, hafter⟩
  rw [run_append] at hafter
  exact hbefore hafter

theorem accepts_iff {g : Gateway N} {id : SocketId} {data : JsValue N} : Accepts js g id data ↔
    g.server.isConnected id = true ∧ safeParse js data ≠ none := by
  have hconnected : g.server.isConnected id = (g.server.clients.lookup id).isSome := by
    rw [Bool.eq_iff_iff]
    simp [Rooms.Hub.isConnected]
  rw [hconnected]
  cases hid : g.server.clients.lookup id with
  | none => simp [Accepts, hid]
  | some client =>
    cases hparsed : safeParse js data with
    | none =>
      have hsent : g.sent js (.message id .messageSubmit data) = [⟨client, .client, Gateway.protocolError⟩] := by
        simp [Gateway.sent, Gateway.step, hid, Gateway.handleMessage, Gateway.handleClientMessageSubmit,
          hparsed, Gateway.reply]
      simp [Accepts, hsent, Gateway.protocolError]
    | some parsed =>
      simp [Accepts, Gateway.sent, Gateway.step, hid, Gateway.handleMessage,
        Gateway.handleClientMessageSubmit, hparsed, Gateway.reply]

theorem delivers_of_stored {w₀ : World Db} {start : Server} (h : SoundRun pf fk w₀ start)
    (h₀ : w₀.db.Initial) (hlog : start.log = []) {sched : List Choice} {k : MessageIdempotencyKey}
    (hk : k ∈ (serve pf fk start sched).db.messageIdempotencyKeys) {e : MessageEnvelope}
    (he : e ∈ (serve pf fk start sched).db.messageEnvelopes) (hid : e.id = k.envelopeId) :
    Delivers pf fk start sched e := by
  have hs := h.run sched
  obtain ⟨p, rs, hp⟩ := hs.envelope_origin h₀ hk he hid
  obtain ⟨user, device, dto, hby⟩ := hs.submitted hp
  have hasked : (p, .recipientDevicesRead e.recipientUserId
      (rs.map MessageRecipientDevice.recipientDeviceId)) ∈ (serve pf fk start sched).log :=
    ReadCommitted.Server.mem_eventsOf.mp (by simp [hby.events, hby.recipient])
  obtain ⟨s', hasks, hperm⟩ := h.asked hlog hasked
  refine ⟨he, p, s', hasks, fun d hd hack hclock => ?_⟩
  have hwait := hs.waiting h₀.holds hp (hperm.mem_iff.mpr hd) hack hclock
  have hone : ((getPendingEnvelopes pf _ _ e.recipientUserId d).filter
      (fun row => row.id = e.id)).length = 1 := hwait.found_once hs.holds hclock
  obtain ⟨row, hrow⟩ := List.exists_mem_of_length_pos (by rw [hone]; exact Nat.one_pos)
  obtain ⟨hmem, heq⟩ := List.mem_filter.mp hrow
  exact ⟨row, hmem, of_decide_eq_true heq⟩

/-- The answers of the API are durable; a run is durable exactly if no connected client submits
to the gateway what its schema lets pass. -/
theorem durable_iff {db : Db} {clock : Nat} {used : List Uuid} (hdb : db.Initial)
    (hused : ∀ x ∈ db.ids, x ∈ used) (time : Nat) (actions : List (Action N)) :
    let s : Deployment N := ⟨.boot db clock used, .boot time⟩
    Durable pf fk js s actions ↔ ∀ first id data rest, actions = first ++ .submit id data :: rest →
      (s.run pf fk js first).realtime.server.isConnected id = true → safeParse js data = none := by
  intro s
  have hboot : SoundRun pf fk ⟨clock, db⟩ s.api := hdb.boot hused
  constructor
  · intro hdurable first id data rest hactions hconn
    by_contra hparsed
    obtain ⟨e, hstored, _⟩ :=
      hdurable.realtime first id data rest hactions (accepts_iff.mpr ⟨hconn, hparsed⟩)
    exact not_storedFor hstored
  · intro hnone
    constructor
    · intro q user device dto v hret
      rw [run_api] at hret ⊢
      obtain ⟨pr, hp, hc, hr⟩ := ReadCommitted.Server.returned_iff.mp hret
      obtain ⟨r, k, e, hv, ha⟩ := (hboot.run _).accepted hp hc hr
      have hid : e.id = k.envelopeId := lookup_key ha.envelope
      exact ⟨r, e, k, hv, ha.columns, ha.record, hid.symm, ha.ofDevice, ha.ofKey,
        delivers_of_stored hboot hdb rfl ha.record (lookup_mem ha.envelope) hid⟩
    · intro first id data rest hactions haccepts
      obtain ⟨hconn, hparsed⟩ := accepts_iff.mp haccepts
      exact absurd (hnone first id data rest hactions hconn) hparsed

end

def sampleDeployment : Deployment Nat := ⟨sampleStart, .boot 0⟩

def sampleConnection : Action Nat :=
  .realtime (.connect "socket" (.object [("token", .string "x"), ("deviceId", .string "d"),
    ("userId", .string "u")]))

def sampleEvent : JsValue Nat :=
  .object [("eventId", .string "00000000-0000-4000-8000-000000000001"),
    ("eventType", .string "client.message.submit"),
    ("correlationId", .string "00000000-0000-4000-8000-000000000002"), ("timestamp", .number 5),
    ("payload", .object [])]

/-- A submission to the API, next to an event that does not parse. -/
def sampleActions : List (Action Nat) :=
  sampleSubmission.map .api ++ [sampleConnection, .submit "socket" .null]

theorem sampleActions_durable :
    Durable samplePlatform .atCommit sampleNumbers sampleDeployment sampleActions := by
  refine (durable_iff sampleDb_initial (by decide) 0 sampleActions).mpr ?_
  intro first id data rest hactions _
  have hmem : .submit id data ∈ sampleActions := by simp [hactions]
  obtain rfl : data = .null := by
    simp [sampleActions, sampleConnection] at hmem
    exact hmem.2
  rfl

theorem sampleEvent_lost :
    let actions : List (Action Nat) := [sampleConnection, .submit "socket" sampleEvent]
    let before := sampleDeployment.run samplePlatform .atCommit sampleNumbers [sampleConnection]
    let after := sampleDeployment.run samplePlatform .atCommit sampleNumbers actions
    Accepts sampleNumbers before.realtime "socket" sampleEvent ∧ after.api.db.messageEnvelopes = [] ∧
      ¬ Durable samplePlatform .atCommit sampleNumbers sampleDeployment actions := by
  intro actions before after
  have hparsed : (safeParse sampleNumbers sampleEvent).isSome = true := by decide
  have haccepts : Accepts sampleNumbers before.realtime "socket" sampleEvent :=
    accepts_iff.mpr ⟨by decide, Option.isSome_iff_ne_none.mp hparsed⟩
  refine ⟨haccepts, rfl, fun hdurable => ?_⟩
  obtain ⟨e, hstored, _⟩ := hdurable.realtime [sampleConnection] "socket" sampleEvent [] rfl haccepts
  exact not_storedFor hstored

end Deployment

end GuffSuff
