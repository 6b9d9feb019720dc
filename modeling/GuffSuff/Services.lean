import GuffSuff.ReadCommitted.Runs
import GuffSuff.DeliveryOutline
import GuffSuff.DeviceOutline
import GuffSuff.JwtAuthGuard
import GuffSuff.SubmissionOutline

/-! The backend as a running system: any number of calls of its services, in
any interleaving of their statements. -/

namespace GuffSuff

open ReadCommitted SessionService DeviceService MessageEnvelopeService TransportProcessor

inductive Call where
  | createSession (user device : Uuid)
  | rotateRefreshToken (raw : RawToken)
  | revokeSession (session : Uuid)
  | revokeAllSessionsForUser (user : Uuid)
  | revokeDevice (user device : Uuid) (reason : String)
  | submitEnvelope (user device : Uuid) (dto : SubmitMessageEnvelope)
  | acknowledgeDelivery (user device envelope : Uuid)
  | processOfflineMessageRetries
  | processExpiredEnvelopeCleanup
  deriving DecidableEq

inductive Operation where
  | createSession | rotateRefreshToken | revokeSession | revokeAllSessionsForUser | revokeDevice
  | submitEnvelope | acknowledgeDelivery | processOfflineMessageRetries
  | processExpiredEnvelopeCleanup

def Event.operation : Event → Operation
  | sessionCreated .. => .createSession
  | tokenRotated .. | graceAnswered .. | reuseDetected .. => .rotateRefreshToken
  | sessionRevoked .. => .revokeSession
  | userSessionsRevoked .. | userFamiliesCompromised .. | userTokensRevoked .. =>
    .revokeAllSessionsForUser
  | deviceRevoked .. => .revokeDevice
  | envelopeSubmitted .. | idempotencyKeyRead .. | recipientDevicesRead .. => .submitEnvelope
  | deliveryAcknowledged .. => .acknowledgeDelivery
  | deliveryRetried .. | retriesSelected .. => .processOfflineMessageRetries
  | deliveriesExpired .. => .processExpiredEnvelopeCleanup

namespace Call

def operation : Call → Operation
  | createSession .. => .createSession
  | rotateRefreshToken .. => .rotateRefreshToken
  | revokeSession .. => .revokeSession
  | revokeAllSessionsForUser .. => .revokeAllSessionsForUser
  | revokeDevice .. => .revokeDevice
  | submitEnvelope .. => .submitEnvelope
  | acknowledgeDelivery .. => .acknowledgeDelivery
  | processOfflineMessageRetries => .processOfflineMessageRetries
  | processExpiredEnvelopeCleanup => .processExpiredEnvelopeCleanup

def program (pf : Platform) (fk : FkCheck) : Call → Program
  | createSession user device => SessionService.createSession pf user device
  | rotateRefreshToken raw => SessionService.rotateRefreshToken pf fk raw
  | revokeSession session => SessionService.revokeSession session
  | revokeAllSessionsForUser user => SessionService.revokeAllSessionsForUser user
  | revokeDevice user device reason => DeviceService.revokeDevice user device reason
  | submitEnvelope user device dto => MessageEnvelopeService.submitEnvelope pf user device dto
  | acknowledgeDelivery user device envelope =>
    MessageEnvelopeService.acknowledgeDelivery user device envelope
  | processOfflineMessageRetries => TransportProcessor.processOfflineMessageRetries
  | processExpiredEnvelopeCleanup => TransportProcessor.processExpiredEnvelopeCleanup

/-- The answer when a statement fails; the worker's jobs catch the error. -/
def aborted : Call → Answer
  | processOfflineMessageRetries | processExpiredEnvelopeCleanup => .ok .unit
  | _ => .error .database

def contract (pf : Platform) (fk : FkCheck) : Call → World Db → Spec.Contract Db Event Answer
  | createSession user device, w => createSessionContract pf user device w
  | rotateRefreshToken raw, w => rotateRefreshTokenContract pf fk raw w
  | revokeSession session, w => revokeSessionContract session w
  | revokeAllSessionsForUser user, w => revokeAllSessionsForUserContract user w
  | revokeDevice user device _, w => revokeDeviceContract user device w
  | submitEnvelope user device dto, w => submitEnvelopeContract pf user device dto w
  | acknowledgeDelivery _ device envelope, _ => acknowledgeDeliveryContract device envelope
  | processOfflineMessageRetries, _ => processOfflineMessageRetriesContract
  | processExpiredEnvelopeCleanup, _ => processExpiredEnvelopeCleanupContract

def faultyContract (pf : Platform) (fk : FkCheck) (c : Call) (w : World Db) :
    Spec.Contract Db Event Answer := (c.contract pf fk w).orAborted c.aborted

section
variable {pf : Platform} {fk : FkCheck} {w : World Db}

theorem contract_start (c : Call) : (c.contract pf fk w).trace [] := by
  cases c with
  | submitEnvelope user device dto => exact .start
  | processOfflineMessageRetries => exact .start
  | rotateRefreshToken raw => exact ⟨Nat.zero_le 1, fun e he => absurd he List.not_mem_nil⟩
  | _ => exact fun e he => absurd he List.not_mem_nil

/-- A call records events of its own operation only. -/
theorem operation_of_trace {c : Call} {es : List Event} (ht : (c.contract pf fk w).trace es)
    {e : Event} (he : e ∈ es) : e.operation = c.operation := by
  cases c with
  | createSession user device =>
    obtain ⟨_, _, _, _, _, rfl⟩ := ht e he
    rfl
  | rotateRefreshToken raw =>
    have hev : RotationEvent fk raw w e := ht.2 e he
    cases e <;> first | rfl | exact absurd hev id
  | revokeSession session =>
    obtain ⟨_, _, rfl, _⟩ := ht e he
    rfl
  | revokeAllSessionsForUser user =>
    have hev : RevokeAllEvent user w e := ht e he
    cases e <;> first | rfl | exact absurd hev id
  | revokeDevice user device reason =>
    have hev : RevokeDeviceEvent user device w e := ht e he
    cases e <;> first | rfl | exact absurd hev id
  | submitEnvelope user device dto =>
    cases ht with
    | start => exact absurd he List.not_mem_nil
    | looked found =>
      obtain rfl := List.mem_singleton.mp he
      rfl
    | read devices =>
      simp only [List.mem_cons, List.not_mem_nil, or_false] at he
      rcases he with rfl | rfl <;> rfl
    | stored devices envelope record now recipients h hsize =>
      simp only [List.mem_cons, List.not_mem_nil, or_false] at he
      rcases he with rfl | rfl | rfl <;> rfl
  | acknowledgeDelivery user device envelope =>
    obtain ⟨_, _, _, rfl⟩ := ht e he
    rfl
  | processOfflineMessageRetries =>
    cases ht with
    | start => exact absurd he List.not_mem_nil
    | batch ids _ written _ =>
      rcases List.mem_cons.mp he with rfl | he
      · rfl
      · obtain ⟨x, _, rfl⟩ := List.mem_map.mp he
        rfl
  | processExpiredEnvelopeCleanup =>
    obtain ⟨_, _, rfl⟩ := ht e he
    rfl

theorem rotation_of_trace {c : Call} {es : List Event} (ht : (c.contract pf fk w).trace es) {e : Event}
    (he : e ∈ es) (hop : e.operation = .rotateRefreshToken) :
    ∃ raw, c = .rotateRefreshToken raw ∧ RotationEvent fk raw w e := by
  have hc : c.operation = .rotateRefreshToken := (operation_of_trace ht he).symm.trans hop
  cases c with
  | rotateRefreshToken raw => exact ⟨raw, rfl, ht.2 e he⟩
  | _ => exact Operation.noConfusion hc

theorem submission_of_trace {c : Call} {es : List Event} (ht : (c.contract pf fk w).trace es) {e : Event}
    (he : e ∈ es) (hop : e.operation = .submitEnvelope) :
    ∃ user device dto, c = .submitEnvelope user device dto ∧ Submission pf user device dto es := by
  have hc : c.operation = .submitEnvelope := (operation_of_trace ht he).symm.trans hop
  cases c with
  | submitEnvelope user device dto => exact ⟨user, device, dto, rfl, ht⟩
  | _ => exact Operation.noConfusion hc

theorem retryPass_of_trace {c : Call} {es : List Event} (ht : (c.contract pf fk w).trace es) {e : Event}
    (he : e ∈ es) (hop : e.operation = .processOfflineMessageRetries) : RetryPass es := by
  have hc : c.operation = .processOfflineMessageRetries := (operation_of_trace ht he).symm.trans hop
  cases c with
  | processOfflineMessageRetries => exact ht
  | _ => exact Operation.noConfusion hc

theorem safe_program (c : Call) (hi : w.db.Holds) :
    (backend pf).Safe (c.contract pf fk w) (c.program pf fk) [] [] id [] w := by
  cases c with
  | createSession user device => exact safe_createSession hi
  | rotateRefreshToken raw => exact safe_rotateRefreshToken hi
  | revokeSession session => exact safe_revokeSession hi
  | revokeAllSessionsForUser user => exact safe_revokeAllSessionsForUser hi
  | revokeDevice user device reason => exact safe_revokeDevice hi
  | submitEnvelope user device dto => exact safe_submitEnvelope hi
  | acknowledgeDelivery user device envelope => exact safe_acknowledgeDelivery
  | processOfflineMessageRetries => exact safe_processOfflineMessageRetries
  | processExpiredEnvelopeCleanup => exact safe_processExpiredEnvelopeCleanup

theorem safe_faulty (c : Call) (hi : w.db.Holds) :
    (backend pf).Safe (c.faultyContract pf fk w) (c.program pf fk) [] [] id [] w := by
  refine Spec.Safe.mono ?_ ?_ (safe_program c hi)
  · exact fun _ h => h
  · exact fun _ _ _ h => Or.inr h

end

end Call

abbrev Server := ReadCommitted.Server Db Key Uuid Event Answer Call
abbrev Choice := ReadCommitted.Choice Uuid Call

/-- A database as migrations and registration leave it: users, devices and
conversations, and nothing in the tables the services write first. -/
structure Db.Initial (db : Db) : Prop where
  users : (keys db.users).Nodup
  devices : (keys db.devices).Nodup
  sessions : db.sessions = []
  families : db.refreshTokenFamilies = []
  tokens : db.refreshTokens = []
  envelopes : db.messageEnvelopes = []
  recipients : db.messageRecipientDevices = []
  records : db.messageIdempotencyKeys = []

theorem Db.Initial.holds {db : Db} (h : db.Initial) : db.Holds where
  users := h.users
  devices := h.devices
  identity := by
    constructor <;> simp [h.sessions, h.families, h.tokens, keys]
  transport := by
    constructor <;> simp [h.envelopes, h.recipients, h.records, keys]

section
variable (pf : Platform) (fk : FkCheck)

def serve (s : Server) (sched : List Choice) : Server :=
  s.run (Call.program pf fk) Call.aborted sched

/-- The states of all runs, from any initial database at any time. -/
inductive Reachable : Server → Prop
  | run (db : Db) (clock : Nat) (used : List Uuid) (hdb : db.Initial) (hused : ∀ x ∈ db.ids, x ∈ used)
      (sched : List Choice) : Reachable (serve pf fk (.boot db clock used) sched)

end

def samplePlatform : Platform where
  jwt := sampleJwt
  hashRefreshToken := id
  sha256 := fun b => b.length
  decodeBase64 := fun s => s.map fun _ => 0
  encodeBase64 := fun b => b.map fun _ => 'A'

def sampleDb : Db :=
  { Db.empty with
    users := [⟨1, .active⟩, ⟨2, .active⟩]
    devices := [⟨3, 1, "phone", false, none, none⟩, ⟨4, 2, "phone", false, none, none⟩,
      ⟨5, 2, "tablet", false, none, none⟩]
    directConversations := [⟨6, 1, 2⟩]
    conversationMembers := [⟨7, 6, 1⟩, ⟨8, 6, 2⟩] }

theorem sampleDb_initial : sampleDb.Initial := by
  constructor <;> decide

def sampleStart : Server := .boot sampleDb 0 (List.range 10)

theorem sampleStart_reachable (pf : Platform) (fk : FkCheck) (sched : List Choice) :
    Reachable pf fk (serve pf fk sampleStart sched) :=
  .run sampleDb 0 (List.range 10) sampleDb_initial (by decide) sched

def Choice.steps (p n : Nat) : List Choice := List.replicate n (.exec p [])

/-- Process 0 logs in device 3: session 10, family 11, refresh token 12 in row 13. -/
def sampleLogin : List Choice :=
  [.call 0 (.createSession 1 3), .exec 0 [10], .exec 0 [11]] ++ Choice.steps 0 5 ++
    [.exec 0 [12], .exec 0 [13]] ++ Choice.steps 0 5

/-- A rotation up to its commit, and the rest of it. -/
def sampleRotation (p : Nat) (raw newRaw : RawToken) (token : Uuid) : List Choice :=
  .call p (.rotateRefreshToken raw) :: (Choice.steps p 5 ++ [.exec p [newRaw], .exec p [token]] ++
    Choice.steps p 8)

def sampleIssue (p : Nat) (claimed session : Uuid) : List Choice :=
  [.exec p [claimed], .exec p [], .exec p [session]]

/-- A refresh within the grace period, and one that is taken for a theft. -/
def sampleGrace (p : Nat) (raw : RawToken) (claimed session : Uuid) : List Choice :=
  .call p (.rotateRefreshToken raw) :: (Choice.steps p 8 ++ sampleIssue p claimed session)

def sampleReport (p : Nat) (raw : RawToken) (eventId : Uuid) : List Choice :=
  .call p (.rotateRefreshToken raw) :: (Choice.steps p 8 ++ [.exec p [13, 15]] ++ Choice.steps p 3 ++
    [.exec p [10]] ++ Choice.steps p 2 ++ [.exec p [eventId]] ++ Choice.steps p 4)

def sampleMessage : SubmitMessageEnvelope :=
  { idempotencyKey := "k", conversationId := 6, recipientUserId := 2, protocolVersion := 1,
    opaquePayloadBase64 := [], clientCreatedAt := some 0, expiresAt := some 100 }

/-- User 1 sends envelope 10 from device 3 to the devices 4 and 5, in records 12 and 13. -/
def sampleSubmission : List Choice :=
  .call 0 (.submitEnvelope 1 3 sampleMessage) :: (Choice.steps 0 3 ++
    [.exec 0 [4, 5], .exec 0 [10], .exec 0 [11]] ++ Choice.steps 0 6 ++ [.exec 0 [12]] ++
    Choice.steps 0 3 ++ [.exec 0 [13]] ++ Choice.steps 0 4)

def sampleAcknowledgement (p : Nat) : List Choice :=
  [.call p (.acknowledgeDelivery 2 4 10), .exec p [], .exec p [14]] ++ Choice.steps p 5

def sampleSelection (p : Nat) : List Choice :=
  [.call p .processOfflineMessageRetries, .exec p [], .exec p [12, 13]]

abbrev SoundRun (pf : Platform) (fk : FkCheck) (w₀ : World Db) (s : Server) : Prop :=
  ReadCommitted.Server.Sound (backend pf) (Call.faultyContract pf fk) w₀ s

section
variable {pf : Platform} {fk : FkCheck} {w₀ : World Db} {s : Server}

theorem faulty_covers (ch : Choice) : ReadCommitted.Server.Covers (backend pf)
    (Call.faultyContract pf fk) (Call.program pf fk) Call.aborted ch := by
  cases ch with
  | call p c => exact fun w h => ⟨c.contract_start, c.safe_faulty h⟩
  | fail p => exact fun _ _ _ _ => .inl rfl
  | _ => trivial

theorem SoundRun.run (h : SoundRun pf fk w₀ s) (sched : List Choice) :
    SoundRun pf fk w₀ (serve pf fk s sched) :=
  ReadCommitted.Server.Sound.run h fun ch _ => faulty_covers ch

theorem SoundRun.added (h : SoundRun pf fk w₀ s) (sched : List Choice) :
    ∃ new, ReadCommitted.Server.Added (backend pf) s (serve pf fk s sched) new ∧
      ∀ p, (∀ ch ∈ sched, ch.OnlyMoves p) → ∀ x ∈ new, x.1 = p :=
  ReadCommitted.Server.Sound.run_added h fun ch _ => faulty_covers ch

theorem SoundRun.run_entry (h : SoundRun pf fk w₀ s) {sched : List Choice}
    {l₁ l₂ : List (Nat × Event)} {x : Nat × Event}
    (hlog : (serve pf fk s sched).log = s.log ++ l₁ ++ x :: l₂) :
    ∃ sched₁ ch sched₂, sched = sched₁ ++ ch :: sched₂ ∧
      (serve pf fk s sched₁).log = s.log ++ l₁ ∧
      (serve pf fk s (sched₁ ++ [ch])).log = s.log ++ l₁ ++ [x] :=
  ReadCommitted.Server.Sound.run_entry h (fun ch _ => faulty_covers ch) hlog

theorem SoundRun.starts (h : SoundRun pf fk w₀ s) {sched : List Choice} {q : Nat}
    {qr : Process Db Key Uuid Event Answer Call} (hq : s.procs q = none)
    (hq' : (serve pf fk s sched).procs q = some qr) : (backend pf).Later s.world qr.began :=
  ReadCommitted.Server.Sound.run_starts h (fun ch _ => faulty_covers ch) hq hq'

/-- While only process `p` moves, the events of its call are the whole run. -/
theorem SoundRun.solo (h : SoundRun pf fk w₀ s) {p : Nat} (hp : s.procs p = none) (c : Call)
    {sched : List Choice} (honly : ∀ ch ∈ sched, ch.OnlyMoves p) :
    (backend pf).Path s.world
      (ReadCommitted.Server.eventsOf (serve pf fk s (.call p c :: sched)).log p)
      (serve pf fk s (.call p c :: sched)).world := by
  have hcall : serve pf fk s [.call p c] =
      ReadCommitted.Server.setProc s p (.start s.world c (c.program pf fk)) := by
    simp [serve, ReadCommitted.Server.run, ReadCommitted.Server.step, hp]
  have hsplit : serve pf fk s (.call p c :: sched) = serve pf fk (serve pf fk s [.call p c]) sched :=
    rfl
  obtain ⟨new, hadd, hnew⟩ := (h.run [.call p c]).added sched
  have hlog : (serve pf fk s (.call p c :: sched)).log = s.log ++ new := by
    rw [hsplit, hadd.log, hcall]
    rfl
  have hpath := hadd.path
  rw [hcall] at hpath
  rw [hlog, ReadCommitted.Server.eventsOf_append, h.idle p hp, List.nil_append,
    ReadCommitted.Server.eventsOf_eq_map (hnew p honly), hsplit, hcall]
  exact hpath

variable (pf fk) in
theorem serve_continues (sched : List Choice) {q : Nat}
    {qr : Process Db Key Uuid Event Answer Call} (hq : s.procs q = some qr) :
    ∃ qr', (serve pf fk s sched).procs q = some qr' ∧ ReadCommitted.Server.Continues qr qr' :=
  ReadCommitted.Server.run_continues (Call.program pf fk) Call.aborted sched hq

theorem SoundRun.events_of_finished (h : SoundRun pf fk w₀ s) {q : Nat}
    {qr : Process Db Key Uuid Event Answer Call} (hq : s.procs q = some qr) {r : Answer}
    (hr : qr.Finished r) (sched : List Choice) :
    (serve pf fk s sched).procs q = some qr ∧
      ReadCommitted.Server.eventsOf (serve pf fk s sched).log q =
        ReadCommitted.Server.eventsOf s.log q := by
  obtain ⟨qr', hq', hc⟩ := serve_continues pf fk sched hq
  obtain rfl := hc.finished r hr
  exact ⟨hq', ((h.run sched).events q qr' hq').symm.trans (h.events q qr' hq)⟩

theorem Db.Initial.boot {db : Db} {clock : Nat} {used : List Uuid} (hdb : db.Initial)
    (hused : ∀ x ∈ db.ids, x ∈ used) : SoundRun pf fk ⟨clock, db⟩ (.boot db clock used) :=
  ReadCommitted.Server.sound_boot hdb.holds hused

theorem Reachable.sound (h : Reachable pf fk s) : ∃ w₀, w₀.db.Initial ∧ SoundRun pf fk w₀ s := by
  obtain ⟨db, clock, used, hdb, hused, sched⟩ := h
  exact ⟨⟨clock, db⟩, hdb, (hdb.boot hused).run sched⟩

theorem Reachable.more (h : Reachable pf fk s) (sched : List Choice) :
    Reachable pf fk (serve pf fk s sched) := by
  obtain ⟨db, clock, used, hdb, hused, sched₀⟩ := h
  have happ : serve pf fk (serve pf fk (.boot db clock used) sched₀) sched =
      serve pf fk (.boot db clock used) (sched₀ ++ sched) := (List.foldl_append ..).symm
  rw [happ]
  exact .run db clock used hdb hused _

theorem Reachable.holds (h : Reachable pf fk s) : s.db.Holds := by
  obtain ⟨_, _, hs⟩ := h.sound
  exact hs.holds

end

end GuffSuff
