import GuffSuff.MessagingControllers

/-! What the services of messaging learn of the user that the guard accepted. -/

namespace GuffSuff

open ReadCommitted JwtAuthGuard
open ReadCommitted.Server (eventsOf)

namespace Messaging

namespace Request

/-- The service gets the user and the device that the guard accepted, and each
id of the request in the parameter that means it. -/
def PassedAs (pf : Platform) (user : RequestUser) : Request → Call → Prop
  | submitEnvelope conversationId body, .submitEnvelope senderUserId senderDeviceId dto =>
    senderUserId = some user.userId ∧ senderDeviceId = some user.deviceId ∧
      pf.uuid conversationId = some dto.conversationId ∧
      pf.uuid body.recipientUserId = some dto.recipientUserId
  | getPendingEnvelopes _, .getPendingEnvelopes userId deviceId =>
    userId = some user.userId ∧ deviceId = some user.deviceId
  | acknowledgeDelivery envelopeId, .acknowledgeDelivery userId deviceId envelope =>
    userId = some user.userId ∧ deviceId = some user.deviceId ∧ envelope = envelopeId
  | acknowledgeRead _ lastReadEnvelopeId, .acknowledgeRead userId _ lastRead =>
    userId = some user.userId ∧ lastRead = lastReadEnvelopeId
  | getEnvelopeStatus envelopeId, .getEnvelopeStatus userId envelope =>
    userId = some user.userId ∧ envelope = envelopeId
  | createDirectConversation recipientUserId, .getOrCreateDirectConversation userId recipient =>
    userId = some (pf.uuidText user.userId) ∧ recipient = recipientUserId
  | listConversations, .listConversations userId => userId = some user.userId
  | getConversation conversationId, .getConversationById userId conversation =>
    userId = some user.userId ∧ conversation = conversationId
  | _, _ => False

def stores : Request → Bool
  | submitEnvelope .. | acknowledgeDelivery .. | acknowledgeRead .. | createDirectConversation _ => true
  | _ => false

section
variable {pf : Platform} {user : RequestUser} {request : Request} {c : Call}

theorem identified_of_passedAs (h : request.PassedAs pf user c) : c.identified = true := by
  unfold PassedAs at h
  split at h
  case h_9 => exact absurd h id
  case h_7 => simp [Call.identified, h]
  all_goals simp [Call.identified, h.1]

theorem submitEnvelope_eq {object : JsonObject} {conversationId : String} {body : SubmitBody}
    (h : (submitEnvelope conversationId body).call pf object = some c) :
    ∃ dto, c = .submitEnvelope (property object "sub") (property object "deviceId") dto := by
  obtain ⟨dto, _, rfl⟩ := Option.map_eq_some_iff.mp h
  exact ⟨dto, rfl⟩

theorem acknowledgeRead_eq {object : JsonObject} {envelopeId lastReadEnvelopeId : String}
    (h : (acknowledgeRead envelopeId lastReadEnvelopeId).call pf object = some c) :
    c = .acknowledgeRead (property object "sub") lastReadEnvelopeId envelopeId := by
  simp only [call, EnvelopesController.acknowledgeRead] at h
  split at h
  · exact nomatch h
  · exact (Option.some.inj h).symm

theorem createDirectConversation_eq {object : JsonObject} {recipientUserId : String}
    (h : (createDirectConversation recipientUserId).call pf object = some c) :
    c = .getOrCreateDirectConversation ((property object "sub").map pf.uuidText) recipientUserId := by
  simp only [call, ConversationsController.createDirectConversation] at h
  split at h
  · exact nomatch h
  · exact (Option.some.inj h).symm

theorem property_sub (user : RequestUser) : property user.attached "sub" = none := rfl

theorem call_unidentified (hc : request.call pf user.attached = some c) : c.identified = false := by
  have hsub : (property user.attached "sub").isSome = false := congrArg Option.isSome (property_sub user)
  cases request with
  | submitEnvelope conversationId body =>
    obtain ⟨dto, rfl⟩ := submitEnvelope_eq hc
    exact hsub
  | acknowledgeRead envelopeId lastReadEnvelopeId =>
    obtain rfl := acknowledgeRead_eq hc
    exact hsub
  | createDirectConversation recipientUserId =>
    obtain rfl := createDirectConversation_eq hc
    rw [property_sub]
    rfl
  | _ =>
    obtain rfl := Option.some.inj hc
    exact hsub

/-- A list is the answer to a request that stores nothing. -/
theorem error_of_blank {object : JsonObject} (hc : request.call pf object = some c)
    (hstores : request.stores = true) {r : Answer} (hr : c.Blank r) : ∃ x, r = .error x := by
  cases r with
  | error x => exact ⟨x, rfl⟩
  | ok v =>
    have hlist := hr v rfl
    cases request with
    | submitEnvelope conversationId body =>
      obtain ⟨dto, rfl⟩ := submitEnvelope_eq hc
      simp at hlist
    | acknowledgeDelivery envelopeId =>
      obtain rfl := Option.some.inj hc
      simp [EnvelopesController.acknowledgeDelivery] at hlist
    | acknowledgeRead envelopeId lastReadEnvelopeId =>
      obtain rfl := acknowledgeRead_eq hc
      simp at hlist
    | createDirectConversation recipientUserId =>
      obtain rfl := createDirectConversation_eq hc
      simp at hlist
    | _ => exact nomatch hstores

end

end Request

section
variable {pf : Platform} {fk : FkCheck} {w₀ : World Db} {s : Server}

variable (fk) in
theorem SoundRun.unidentified (h : SoundRun pf w₀ s) {c : Call} (hc : c.identified = false) {p : Nat}
    (hp : s.procs p = none) (sched : List Choice) :
    eventsOf (serve pf fk s (.call p c :: sched)).log p = [] ∧
      ∀ r, (serve pf fk s (.call p c :: sched)).Returned p c r → c.Blank r := by
  have hs : SoundRun pf w₀ (serve pf fk s (.call p c :: sched)) := h.run _
  have hstart : (serve pf fk s [.call p c]).procs p = some (.start s.world c (c.program pf fk)) := by
    simp [serve, ReadCommitted.Server.run, ReadCommitted.Server.step, hp,
      ReadCommitted.Server.setProc_self]
  obtain ⟨pr, hpr, hcont⟩ := ReadCommitted.Server.run_continues (Call.program pf fk) Call.aborted
    sched hstart
  have hpr' : (serve pf fk s (.call p c :: sched)).procs p = some pr := hpr
  have hcall : pr.call = c := hcont.call
  constructor
  · have hnil := (hs.trace p pr hpr').1 (hcall ▸ hc)
    rw [← hs.events p pr hpr']
    exact hnil
  · intro r hr
    obtain ⟨pr', hpr'', rfl, hfin⟩ := ReadCommitted.Server.returned_iff.mp hr
    exact hs.post hpr'' hfin hc

/-- Every handler loses the user, so nothing that a request asks for is done. -/
theorem requests_unidentified (h : Reachable pf fk s) {authHeader : Option (List Char)}
    {user : RequestUser} (hguard : canActivate pf.services s.db.core s.clock authHeader = .ok user)
    {request : Request} {c : Call}
    (hc : request.served pf s.db s.clock authHeader = some c) :
    ¬ request.PassedAs pf user c ∧ ∀ p sched, s.procs p = none →
      eventsOf (serve pf fk s (.call p c :: sched)).log p = [] ∧
      ∀ r, (serve pf fk s (.call p c :: sched)).Returned p c r →
        c.Blank r ∧ (request.stores = true → ∃ x, r = .error x) := by
  obtain ⟨w₀, _, hs⟩ := h.sound
  rw [Request.served, hguard] at hc
  have hid := Request.call_unidentified hc
  constructor
  · intro hpassed
    exact absurd (hid.symm.trans (Request.identified_of_passedAs hpassed)) Bool.noConfusion
  · intro p sched hp
    obtain ⟨hnil, hblank⟩ := hs.unidentified fk hid hp sched
    exact ⟨hnil, fun r hr => ⟨hblank r hr, fun hst => Request.error_of_blank hc hst (hblank r hr)⟩⟩

end

/-- User 1 logs in on device 3: session 20, family 21, refresh token 22 in row 23. -/
def sampleLogin : Server :=
  serve samplePlatform .endOfStatement sampleStart
    ([.call 0 (.backend (.createSession 1 3)), .exec 0 [20], .exec 0 [21]] ++ Choice.steps 0 5 ++
      [.exec 0 [22], .exec 0 [23]] ++ Choice.steps 0 5)

def sampleHeader : Option (List Char) :=
  some (bearer ++
    (SessionService.createdPair GuffSuff.samplePlatform 22 1 3 20 21 0).accessToken)

def sampleRequest : Request :=
  .submitEnvelope "00000000-0000-0000-0000-000000000006"
    { idempotencyKey := "k", recipientUserId := "00000000-0000-0000-0000-000000000002"
      protocolVersion := none, opaquePayloadBase64 := "AAAA"
      clientCreatedAt := "2026-01-01T00:00:00Z", expiresAt := "2026-01-02T00:00:00Z" }

def sampleCall : Call :=
  .submitEnvelope none (some 3)
    { idempotencyKey := "k", conversationId := 6, recipientUserId := 2, protocolVersion := 1
      opaquePayloadBase64 := ['A', 'A', 'A', 'A'], clientCreatedAt := some 20, expiresAt := some 20 }

theorem sampleLogin_reachable : Reachable samplePlatform .endOfStatement sampleLogin := by
  unfold sampleLogin
  exact sampleStart_reachable _ _

theorem sampleRequest_unidentified :
    eventsOf (serve samplePlatform .endOfStatement sampleLogin
      (.call 1 sampleCall :: Choice.steps 1 1)).log 1 = [] := by
  have hguard : canActivate samplePlatform.services sampleLogin.db.core sampleLogin.clock sampleHeader
      = .ok ⟨1, 3, 20⟩ := by decide +kernel
  have hserved : sampleRequest.served samplePlatform sampleLogin.db sampleLogin.clock sampleHeader
      = some sampleCall := by decide +kernel
  have hidle : sampleLogin.procs 1 = none := by
    unfold sampleLogin
    rfl
  exact ((requests_unidentified sampleLogin_reachable hguard hserved).2 1 _ hidle).1

/-- A member writes into the conversation from the active device, and is refused
as if the device were not theirs. -/
theorem sampleRequest_refused :
    Reachable samplePlatform .endOfStatement sampleLogin ∧
      canActivate samplePlatform.services sampleLogin.db.core sampleLogin.clock sampleHeader =
        .ok ⟨1, 3, 20⟩ ∧
      sampleLogin.db.core.isMember 6 1 = true ∧
      (sampleLogin.db.core.deviceOfUser 3 1).map Device.isRevoked = some false ∧
      sampleRequest.served samplePlatform sampleLogin.db sampleLogin.clock sampleHeader =
        some sampleCall ∧
      ¬ sampleRequest.PassedAs samplePlatform ⟨1, 3, 20⟩ sampleCall ∧
      let s := serve samplePlatform .endOfStatement sampleLogin (.call 1 sampleCall :: Choice.steps 1 1)
      s.Returned 1 sampleCall
          (.error (.backend (.forbidden "Sender device is invalid or revoked"))) ∧
        s.db.core.messageEnvelopes = [] :=
  ⟨sampleLogin_reachable, by decide +kernel, by decide +kernel, by decide +kernel, by decide +kernel,
    fun h => absurd h.1 (by decide), by decide +kernel, by decide +kernel⟩

end Messaging

end GuffSuff
