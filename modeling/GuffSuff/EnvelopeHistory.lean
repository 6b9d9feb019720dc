import GuffSuff.DeliveryRuns
import GuffSuff.MessagingRuns
import GuffSuff.ReadCommitted.Records

/-! The records of an envelope as the log tells them: who submitted it, and what
each entry since then says of a device's record. -/

namespace GuffSuff

open ReadCommitted

theorem Call.acknowledgement_of_trace {pf : Platform} {fk : FkCheck} {c : Call} {w : World Db}
    {es : List Event} (ht : (c.contract pf fk w).trace es) {record envelope device ackId : Uuid} {now : Nat}
    (he : .deliveryAcknowledged record envelope device ackId now ∈ es) :
    ∃ user, c = .acknowledgeDelivery user device envelope := by
  have hc : Operation.acknowledgeDelivery = c.operation := operation_of_trace ht he
  cases c with
  | acknowledgeDelivery user device' envelope' =>
    obtain ⟨_, _, _, heq⟩ := ht _ he
    obtain ⟨_, rfl, rfl, _⟩ := Event.deliveryAcknowledged.inj heq
    exact ⟨user, rfl⟩
  | _ => exact Operation.noConfusion hc

namespace Messaging

def Event.onRecipient : Event → MessageRecipientDevice → MessageRecipientDevice
  | backend e, r => e.onRecipient r
  | _, r => r

def Event.newRecipients : Event → List MessageRecipientDevice
  | backend e => e.newRecipients
  | _ => []

abbrev History := List Event

/-- The record after the events. -/
def History.record (es : History) (r : MessageRecipientDevice) : MessageRecipientDevice :=
  es.foldl (fun r e => e.onRecipient r) r

/-- What the event says of the delivery to a record. -/
def Event.statusOf (record : Uuid) : Event → Option DeliveryStatus
  | backend (.deliveryAcknowledged r _ _ _ _) => if r = record then some .delivered else none
  | backend (.deliveryRetried r _) => if r = record then some .queued else none
  | backend (.deliveriesExpired ids _) => if record ∈ ids then some .expired else none
  | _ => none

def Event.acknowledgedAt (record : Uuid) : Event → Option Nat
  | backend (.deliveryAcknowledged r _ _ _ now) => if r = record then some now else none
  | _ => none

/-- What the events say of it last; a new record has been accepted. -/
def History.status (es : History) (record : Uuid) : DeliveryStatus :=
  (es.filterMap (Event.statusOf record)).getLast?.getD .accepted

def History.acknowledgedAt (es : History) (record : Uuid) : Option Nat :=
  (es.filterMap (Event.acknowledgedAt record)).getLast?

def Db.recordsOf (db : Db) (envelope : Uuid) : List MessageRecipientDevice :=
  db.core.messageRecipientDevices.filter fun rd => rd.envelopeId = envelope

section
variable {e : Event} {r : MessageRecipientDevice} {l : Log}

theorem Event.id_onRecipient (e : Event) (r : MessageRecipientDevice) : (e.onRecipient r).id = r.id := by
  cases e with
  | backend e => exact e.id_onRecipient r
  | _ => rfl

theorem Event.envelopeId_onRecipient (e : Event) (r : MessageRecipientDevice) :
    (e.onRecipient r).envelopeId = r.envelopeId := by
  cases e with
  | backend e => exact (e.grows_onRecipient r).envelopeId
  | _ => rfl

theorem Event.device_onRecipient (e : Event) (r : MessageRecipientDevice) :
    (e.onRecipient r).recipientDeviceId = r.recipientDeviceId := by
  cases e with
  | backend e => exact (e.grows_onRecipient r).recipientDeviceId
  | _ => rfl

theorem Event.status_onRecipient (e : Event) (r : MessageRecipientDevice) :
    (e.onRecipient r).deliveryStatus = (e.statusOf r.id).getD r.deliveryStatus := by
  cases e with
  | backend e =>
    cases e with
    | deliveryAcknowledged record envelope device ackId now =>
      by_cases h : r.id = record
      · simp [Event.onRecipient, GuffSuff.Event.onRecipient, Event.statusOf, h,
          MessageRecipientDevice.deliver]
      · simp [Event.onRecipient, GuffSuff.Event.onRecipient, Event.statusOf, h, Ne.symm h]
    | deliveryRetried record now =>
      by_cases h : r.id = record
      · simp [Event.onRecipient, GuffSuff.Event.onRecipient, Event.statusOf, h,
          MessageRecipientDevice.retry]
      · simp [Event.onRecipient, GuffSuff.Event.onRecipient, Event.statusOf, h, Ne.symm h]
    | deliveriesExpired ids now =>
      by_cases h : r.id ∈ ids
      · simp [Event.onRecipient, GuffSuff.Event.onRecipient, Event.statusOf, h,
          MessageRecipientDevice.expire]
      · simp [Event.onRecipient, GuffSuff.Event.onRecipient, Event.statusOf, h]
    | _ => rfl
  | _ => rfl

theorem Event.deliveredAt_onRecipient (e : Event) (r : MessageRecipientDevice) :
    (e.onRecipient r).deliveredAt = ((e.acknowledgedAt r.id).map some).getD r.deliveredAt := by
  cases e with
  | backend e =>
    cases e with
    | deliveryAcknowledged record envelope device ackId now =>
      by_cases h : r.id = record
      · simp [Event.onRecipient, GuffSuff.Event.onRecipient, Event.acknowledgedAt, h,
          MessageRecipientDevice.deliver]
      · simp [Event.onRecipient, GuffSuff.Event.onRecipient, Event.acknowledgedAt, h, Ne.symm h]
    | deliveryRetried record now =>
      simp only [Event.onRecipient, GuffSuff.Event.onRecipient]
      split <;> rfl
    | deliveriesExpired ids now =>
      simp only [Event.onRecipient, GuffSuff.Event.onRecipient]
      split <;> rfl
    | _ => rfl
  | _ => rfl

theorem History.id_record (es : History) (r : MessageRecipientDevice) : (es.record r).id = r.id :=
  foldl_name (fun r e => Event.id_onRecipient e r) es r

theorem History.device_record (es : History) (r : MessageRecipientDevice) :
    (es.record r).recipientDeviceId = r.recipientDeviceId :=
  foldl_name (fun r e => Event.device_onRecipient e r) es r

theorem History.status_record (es : History) (hr : r.deliveryStatus = .accepted) :
    (es.record r).deliveryStatus = es.status r.id := by
  have h : (es.record r).deliveryStatus = _ := foldl_overwrite
    (fun r e => Event.id_onRecipient e r) (fun r e => Event.status_onRecipient e r) es r
  rw [h, hr, History.status]

theorem History.deliveredAt_record (es : History) (hr : r.deliveredAt = none) :
    (es.record r).deliveredAt = es.acknowledgedAt r.id := by
  have h : (es.record r).deliveredAt = _ :=
    @foldl_overwrite _ _ _ _ _ _ _ (fun record e => (Event.acknowledgedAt record e).map some)
      (fun r e => Event.id_onRecipient e r) (fun r e => Event.deliveredAt_onRecipient e r) es r
  rw [hr, ← List.map_filterMap, List.getLast?_map] at h
  rw [h, History.acknowledgedAt]
  cases (es.filterMap (Event.acknowledgedAt r.id)).getLast? <;> rfl

end

section
variable {pf : Platform} {db : Db} {e : Event} {clock : Nat} {envelope : Uuid}

theorem Event.recipients_apply (ha : e.Allowed pf clock db) :
    (e.apply pf db).core.messageRecipientDevices =
      db.core.messageRecipientDevices.map e.onRecipient ++ e.newRecipients := by
  cases e with
  | backend e => exact e.recipients_writes db.core
  | conversationCreated row members now => exact ha.elim
  | readAcknowledged state => exact ((List.append_nil _).trans (List.map_id _)).symm

theorem Event.recordsOf_apply (ha : e.Allowed pf clock db)
    (henv : envelope ∈ keys db.core.messageEnvelopes) :
    (e.apply pf db).recordsOf envelope = (db.recordsOf envelope).map e.onRecipient := by
  have hnone : e.newRecipients.filter (fun r => r.envelopeId = envelope) = [] := by
    rw [List.filter_eq_nil_iff]
    intro r hr
    cases e with
    | backend e =>
      obtain ⟨new, _, hid, hfresh⟩ := GuffSuff.Event.Allowed.newRecipient ha hr
      have hne : r.envelopeId ≠ envelope := fun h => hfresh (hid ▸ h ▸ henv)
      simpa using hne
    | _ => exact absurd hr List.not_mem_nil
  have hkept : (fun r => decide (r.envelopeId = envelope)) ∘ e.onRecipient =
      fun r => decide (r.envelopeId = envelope) := by
    funext r
    simp [e.envelopeId_onRecipient r]
  rw [Db.recordsOf, Event.recipients_apply ha, List.filter_append, hnone, List.append_nil,
    List.filter_map, hkept]
  rfl

theorem Event.envelope_apply (ha : e.Allowed pf clock db) (henv : envelope ∈ keys db.core.messageEnvelopes) :
    envelope ∈ keys (e.apply pf db).core.messageEnvelopes := by
  cases e with
  | backend e =>
    have hwrites := @GuffSuff.Event.envelopes_writes pf.services e db.core
    simp only [Event.apply, hwrites, keys_append]
    exact List.mem_append_left _ henv
  | conversationCreated row members now => exact ha.elim
  | readAcknowledged state => exact henv

theorem recordsOf_path {v w : World Db} {es : History} (h : (messaging pf).Path v es w)
    (hv : v.db.core.Holds) (henv : envelope ∈ keys v.db.core.messageEnvelopes) :
    w.db.recordsOf envelope = (v.db.recordsOf envelope).map es.record := by
  have hboth := h.keeps_log (P := fun es db => envelope ∈ keys db.core.messageEnvelopes ∧
    db.recordsOf envelope = (v.db.recordsOf envelope).map (History.record es)) ?_ hv ⟨henv, ?_⟩
  · exact hboth.2
  · intro es c db e db' _ hp hm
    obtain ⟨hmem, hrecords⟩ := hp
    obtain ⟨ha, rfl⟩ := hm
    refine ⟨Event.envelope_apply ha hmem, ?_⟩
    rw [Event.recordsOf_apply ha hmem, hrecords, List.map_map]
    refine List.map_congr_left fun r _ => ?_
    simp [History.record]
  · exact (List.map_id _).symm

theorem recordsOf_submitted {env : MessageEnvelope} {k : MessageIdempotencyKey}
    {rs : List MessageRecipientDevice} (hv : db.core.Holds)
    (ha : (Event.backend (.envelopeSubmitted env k rs)).Allowed pf clock db) :
    ((Event.backend (.envelopeSubmitted env k rs)).apply pf db).recordsOf env.id = rs := by
  obtain ⟨hfresh, _, _, _, _, _, _, _, hrs⟩ := id ha
  have hold : (db.core.messageRecipientDevices.map
      (Event.backend (.envelopeSubmitted env k rs)).onRecipient).filter
        (fun r => r.envelopeId = env.id) = [] := by
    rw [List.filter_eq_nil_iff]
    intro r hr
    obtain ⟨q, hq, rfl⟩ := List.mem_map.mp hr
    have hne : q.envelopeId ≠ env.id := fun h => hfresh (h ▸ hv.transport.recipientEnvelope q hq)
    rw [Event.envelopeId_onRecipient]
    simpa using hne
  have hnew : rs.filter (fun r => r.envelopeId = env.id) = rs := by
    rw [List.filter_eq_self]
    intro r hr
    simpa using (hrs r hr).1
  rw [Db.recordsOf, Event.recipients_apply ha, List.filter_append, hold, List.nil_append]
  exact hnew

end

/-- The call of the backend that this one makes, when its arguments are given. -/
def Call.core (pf : Platform) : Call → Option GuffSuff.Call
  | backend call => some call
  | submitEnvelope (some user) (some device) dto => some (.submitEnvelope user device dto)
  | acknowledgeDelivery (some user) (some device) envelopeId =>
    (pf.uuid envelopeId).map (.acknowledgeDelivery user device)
  | _ => none

/-- What the call records in the tables of the backend is what its call of the backend may record. -/
def Call.origin (pf : Platform) (fk : FkCheck) (c : Call) (w : World Db) :
    Spec.Contract Db Event Answer where
  trace es := ∀ e, .backend e ∈ es → ∃ call es', c.core pf = some call ∧ es = es'.map .backend ∧
    (call.contract pf.services fk (backendTables.world w)).trace es'
  answer _ _ _ := True

section
variable {pf : Platform} {fk : FkCheck} {w : World Db} {c : Call} {call : GuffSuff.Call}

theorem Call.program_of_core (hc : c.core pf = some call) :
    c.program pf fk = ofBackend (call.program pf.services fk) := by
  cases c with
  | backend c =>
    obtain rfl : c = call := Option.some.inj hc
    rfl
  | submitEnvelope senderUserId senderDeviceId dto =>
    cases senderUserId with
    | none => exact nomatch hc
    | some user =>
      cases senderDeviceId with
      | none => exact nomatch hc
      | some device =>
        obtain rfl := Option.some.inj hc
        rfl
  | acknowledgeDelivery userId deviceId envelopeId =>
    cases userId with
    | none => exact nomatch hc
    | some user =>
      cases deviceId with
      | none => exact nomatch hc
      | some device =>
        obtain ⟨envelope, henvelope, rfl⟩ := Option.map_eq_some_iff.mp hc
        simp only [Call.program, MessageEnvelopeService.acknowledgeDelivery, uuidParameter, henvelope]
        rfl
  | _ => exact nomatch hc

theorem origin_core (hc : c.core pf = some call) (hi : w.db.core.Holds) :
    (messaging pf).Safe (c.origin pf fk w) (c.program pf fk) [] [] id [] w := by
  have hcore : (backend pf.services).Safe (call.contract pf.services fk (backendTables.world w))
      (call.program pf.services fk) [] [] id [] (backendTables.world w) := call.safe_program hi
  rw [Call.program_of_core hc]
  refine Spec.Safe.mono ?_ ?_ (Spec.Safe.lift (backend_embeds pf) (g := ofAnswer) hcore)
  · intro es ht e _
    obtain ⟨es', rfl, ht⟩ := ht
    exact ⟨call, es', hc, rfl, ht⟩
  · exact fun _ _ _ _ => trivial

theorem origin_quiet {P : Answer → Prop} {p : Program} (hp : p.Quiet P) :
    (messaging pf).Safe (c.origin pf fk w) p [] [] id [] w :=
  Spec.Safe.of_quiet hp fun _ _ _ => trivial

theorem keeps_acknowledgeRead (userId : Option Uuid) (conversationId lastReadEnvelopeId : String) :
    (MessageEnvelopeService.acknowledgeRead pf userId conversationId lastReadEnvelopeId).Keeps
      (fun _ _ => True) (fun e => ∀ x, e ≠ .backend x) := by
  unfold MessageEnvelopeService.acknowledgeRead uuidParameter
  dsimp only
  split
  · trivial
  · intro db
    dsimp only
    split
    · trivial
    · intro readStateId
      split
      · trivial
      · intro now _ db'
        dsimp only
        repeat' split
        any_goals trivial
        refine ⟨fun _ => trivial, ?_⟩
        exact And.intro (fun x h => nomatch h) trivial

theorem Call.safe_origin (c : Call) (hi : w.db.core.Holds) :
    (messaging pf).Safe (c.origin pf fk w) (c.program pf fk) [] [] id [] w := by
  cases hc : c.core pf with
  | some call => exact origin_core hc hi
  | none =>
    cases c with
    | backend call => exact nomatch hc
    | getOrCreateDirectConversation userId recipientUserId =>
      exact origin_quiet (quiet_getOrCreate userId recipientUserId)
    | listConversations userId => exact origin_quiet (quiet_listConversations userId)
    | getConversationById userId conversationId =>
      exact origin_quiet (quiet_getConversationById userId conversationId)
    | getPendingEnvelopes userId deviceId =>
      exact origin_quiet (quiet_getPendingEnvelopes userId deviceId)
    | getEnvelopeStatus userId envelopeId =>
      exact origin_quiet (quiet_getEnvelopeStatus userId envelopeId)
    | submitEnvelope senderUserId senderDeviceId dto =>
      refine origin_quiet (P := fun _ => True) ?_
      unfold Call.program MessageEnvelopeService.submitEnvelope
      dsimp only
      split
      · exact nomatch hc
      · exact fun _ => trivial
    | acknowledgeDelivery userId deviceId envelopeId =>
      refine origin_quiet (P := fun _ => True) ?_
      simp only [Call.program, MessageEnvelopeService.acknowledgeDelivery, uuidParameter]
      cases hid : pf.uuid envelopeId with
      | none => trivial
      | some envelope =>
        dsimp only
        split
        · simp [Call.core, hid] at hc
        · exact fun _ => trivial
    | acknowledgeRead userId conversationId lastReadEnvelopeId =>
      refine Spec.Safe.mono ?_ ?_ (Spec.Safe.traced (keeps_acknowledgeRead ..)
        (fun _ h => absurd h List.not_mem_nil) (safe_acknowledgeRead userId conversationId lastReadEnvelopeId))
      · exact fun es ht e he => absurd rfl (ht.2 _ he e)
      · exact fun _ _ _ _ => trivial

/-- The records that a submission creates are new ones. -/
def Event.StartsAll : Event → Prop
  | backend (.envelopeSubmitted env _ rs) => ∀ r ∈ rs, r =
    GuffSuff.MessageEnvelopeService.newRecipient r.id env.id r.recipientDeviceId env.serverAcceptedAt
  | _ => True

theorem keeps_fanOut_new {E : GuffSuff.Event → Prop} {envelope : Uuid} {now : Nat}
    {k : List MessageRecipientDevice → GuffSuff.Program}
    (hk : ∀ records : List MessageRecipientDevice, (∀ r ∈ records,
      r = GuffSuff.MessageEnvelopeService.newRecipient r.id envelope r.recipientDeviceId now) →
        (k records).Keeps (fun _ _ => True) E)
    (devices : List Uuid) {done : List MessageRecipientDevice} (hdone : ∀ r ∈ done,
      r = GuffSuff.MessageEnvelopeService.newRecipient r.id envelope r.recipientDeviceId now) :
    (GuffSuff.MessageEnvelopeService.fanOut envelope now done devices k).Keeps (fun _ _ => True) E := by
  induction devices generalizing done with
  | nil => exact hk done hdone
  | cons device devices ih =>
    intro rdId
    exact keeps_insertRecipient (ih (Spec.forall_mem_concat hdone rfl))

theorem keeps_submitEnvelope_new (pf : GuffSuff.Platform) (user device : Uuid) (dto : SubmitMessageEnvelope) :
    (GuffSuff.MessageEnvelopeService.submitEnvelope pf user device dto).Keeps (fun _ _ => True)
      fun e => (Event.backend e).StartsAll := by
  intro db
  dsimp only
  split
  · trivial
  intro db'
  dsimp only
  split
  · trivial
  split
  · trivial
  split
  · trivial
  intro db'' ids
  refine ⟨trivial, ?_⟩
  dsimp only
  split
  · unfold GuffSuff.MessageEnvelopeService.answerCached
    split
    · trivial
    · exact fun _ => trivial
  intro _ devices
  refine ⟨trivial, ?_⟩
  intro envelopeId idempRecordId now
  apply keeps_readTimes
  apply keeps_insertEnvelope
  apply keeps_insertIdempotencyKey
  refine keeps_fanOut_new (fun records hrecords => ?_) devices (fun _ h => absurd h List.not_mem_nil)
  exact ⟨hrecords, trivial⟩

theorem Call.keeps_new (pf : Platform) (fk : FkCheck) (c : Call) :
    (c.program pf fk).Keeps (fun _ _ => True) fun e =>
      (∃ user device dto, c.core pf = some (.submitEnvelope user device dto)) → e.StartsAll := by
  by_cases hc : ∃ user device dto, c.core pf = some (.submitEnvelope user device dto)
  · obtain ⟨user, device, dto, hcore⟩ := id hc
    rw [Call.program_of_core hcore]
    refine Program.Keeps.embed ?_ ?_ ?_ (keeps_submitEnvelope_new pf.services user device dto)
    · exact fun _ _ _ => trivial
    · exact fun e he _ => he
    · exact fun _ => trivial
  · exact Program.keeps_all (fun _ _ => trivial) (fun _ h => absurd h hc) _

end

/-- A state of a run from `w₀` in which each call has recorded its own events only. -/
abbrev OriginRun (pf : Platform) (fk : FkCheck) (w₀ : World Db) (s : Server) : Prop :=
  ReadCommitted.Server.Sound (messaging pf) (Call.origin pf fk) w₀ s

section
variable {pf : Platform} {fk : FkCheck} {w₀ : World Db} {s : Server}

theorem Reachable.origin (h : Reachable pf fk s) : ∃ w₀, w₀.db.Initial ∧ OriginRun pf fk w₀ s := by
  obtain ⟨db, clock, used, hdb, hused, sched⟩ := h
  have hboot : OriginRun pf fk ⟨clock, db⟩ (ReadCommitted.Server.boot db clock used) :=
    ReadCommitted.Server.sound_boot hdb.core.holds hused
  refine ⟨⟨clock, db⟩, hdb, hboot.run fun ch _ => ?_⟩
  cases ch with
  | call p c => exact fun w hi => ⟨fun e he => absurd he List.not_mem_nil, c.safe_origin hi⟩
  | fail p => exact fun _ _ _ _ => trivial
  | _ => trivial

/-- Whoever has made an entry in the tables of the backend has made a call that makes such entries. -/
theorem OriginRun.made (h : OriginRun pf fk w₀ s) {p : Nat} {e : GuffSuff.Event}
    (he : (p, .backend e) ∈ s.log) : ∃ pr call es w, s.procs p = some pr ∧ pr.call.core pf = some call ∧
      e ∈ es ∧ (call.contract pf.services fk w).trace es := by
  obtain ⟨pr, hp, ht⟩ := h.trace_of_log he
  have hmem := ReadCommitted.Server.mem_eventsOf.mpr he
  obtain ⟨call, es, hcore, hes, htrace⟩ := ht e hmem
  rw [hes] at hmem
  obtain ⟨e', he', heq⟩ := List.mem_map.mp hmem
  obtain rfl := Event.backend.inj heq
  exact ⟨pr, call, es, _, hp, hcore, he', htrace⟩

theorem Reachable.starts (h : Reachable pf fk s) {p : Nat} {e : Event} (he : (p, e) ∈ s.log) :
    e.StartsAll := by
  obtain ⟨w₀, _, horigin⟩ := h.origin
  obtain ⟨db, clock, used, hdb, hused, sched⟩ := h
  obtain ⟨pr, hp, hnew⟩ := ReadCommitted.Server.log_keeps (Call.keeps_new pf fk) db clock used sched he
  cases e with
  | backend e =>
    cases e with
    | envelopeSubmitted env k rs =>
      obtain ⟨pr', call, es, w, hp', hcore, hmem, ht⟩ := horigin.made he
      obtain rfl := Option.some.inj (hp.symm.trans hp')
      obtain ⟨user, device, dto, rfl, _⟩ := GuffSuff.Call.submission_of_trace ht hmem rfl
      exact hnew ⟨user, device, dto, hcore⟩
    | _ => trivial
  | _ => trivial

end

/-- The log has the envelope submitted with these records, and then these events. -/
def Submitted (log : List (Nat × Event)) (env : MessageEnvelope) (rs : List MessageRecipientDevice)
    (since : History) : Prop :=
  ∃ before p k after, log = before ++ (p, .backend (.envelopeSubmitted env k rs)) :: after ∧
    since = after.map Prod.snd

/-- An entry of the log says that this device has acknowledged the envelope at this time, and it
comes from a call that acknowledges it for the device. -/
def AcknowledgedBy (pf : Platform) (s : Server) (envelope device : Uuid) (now : Nat) : Prop :=
  ∃ q pr record ackId user, (q, .backend (.deliveryAcknowledged record envelope device ackId now)) ∈ s.log ∧
    s.procs q = some pr ∧ pr.call.core pf = some (.acknowledgeDelivery user device envelope)

section
variable {pf : Platform} {fk : FkCheck} {w₀ : World Db} {s : Server} {env : MessageEnvelope}
variable {rs : List MessageRecipientDevice} {since : History}

theorem SoundRun.submitted (h : SoundRun pf w₀ s) (h₀ : w₀.db.Initial)
    (henv : env ∈ s.db.core.messageEnvelopes) : ∃ rs since, Submitted s.log env rs since := by
  have hall := envelopes_of_path h.path
  rw [show s.world.db = s.db from rfl, h₀.core.envelopes, List.nil_append] at hall
  rw [hall] at henv
  obtain ⟨e, he, hnew⟩ := List.mem_flatMap.mp henv
  obtain ⟨⟨p, e⟩, hp, rfl⟩ := List.mem_map.mp he
  obtain ⟨before, after, hlog⟩ := List.append_of_mem hp
  cases e with
  | backend e =>
    cases e with
    | envelopeSubmitted env' k rs =>
      obtain rfl : env = env' := List.mem_singleton.mp hnew
      exact ⟨rs, _, before, p, k, after, hlog, rfl⟩
    | _ => exact absurd hnew List.not_mem_nil
  | _ => exact absurd hnew List.not_mem_nil

theorem recordsOf_history {w : World Db} {before after : List Event} {k : MessageIdempotencyKey}
    (hp : (messaging pf).Path w₀ (before ++ .backend (.envelopeSubmitted env k rs) :: after) w)
    (h₀ : w₀.db.core.Holds) : env ∈ w.db.core.messageEnvelopes ∧
      w.db.recordsOf env.id = rs.map (History.record after) := by
  obtain ⟨c, db, _, hbefore, ⟨ha, rfl⟩, hpath⟩ := hp.cut
  have hi : db.core.Holds := hbefore.holds h₀
  have hmem : env ∈ ((Event.backend (.envelopeSubmitted env k rs)).apply pf db).core.messageEnvelopes := by
    have hwrites :=
      @GuffSuff.Event.envelopes_writes pf.services (.envelopeSubmitted env k rs) db.core
    simp only [Event.apply, hwrites]
    exact List.mem_append_right _ (List.mem_singleton_self env)
  have hkey : env.id ∈ keys ((Event.backend (.envelopeSubmitted env k rs)).apply pf db).core.messageEnvelopes :=
    key_mem_keys hmem
  constructor
  · have hkept := envelopes_of_path hpath
    exact hkept ▸ List.mem_append_left _ hmem
  · have hnew := recordsOf_path hpath ((messaging pf).holds_move hi ⟨ha, rfl⟩) hkey
    exact hnew.trans (congrArg (List.map _) (recordsOf_submitted hi ha))

theorem SoundRun.recordsOf (h : SoundRun pf w₀ s) (h₀ : w₀.db.core.Holds)
    (hs : Submitted s.log env rs since) :
    env ∈ s.db.core.messageEnvelopes ∧ s.db.recordsOf env.id = rs.map since.record := by
  obtain ⟨before, p, k, after, hlog, rfl⟩ := hs
  have hpath := h.path
  rw [hlog, List.map_append, List.map_cons] at hpath
  exact recordsOf_history hpath h₀

theorem Event.acknowledgedAt_eq_some {e : Event} {record : Uuid} {now : Nat}
    (h : e.acknowledgedAt record = some now) : ∃ envelope device ackId,
      e = .backend (.deliveryAcknowledged record envelope device ackId now) := by
  cases e with
  | backend e =>
    cases e with
    | deliveryAcknowledged r envelope device ackId t =>
      obtain ⟨rfl, rfl⟩ : r = record ∧ t = now := by simpa [Event.acknowledgedAt] using h
      exact ⟨envelope, device, ackId, rfl⟩
    | _ => exact nomatch h
  | _ => exact nomatch h

/-- The record that an acknowledgement delivers to is the one of its own device and envelope. -/
theorem Reachable.acknowledgedBy (h : Reachable pf fk s) (hs : Submitted s.log env rs since)
    {r : MessageRecipientDevice} (hr : r ∈ rs) {now : Nat} (hat : since.acknowledgedAt r.id = some now) :
    AcknowledgedBy pf s env.id r.recipientDeviceId now := by
  obtain ⟨w₀, h₀, hsound⟩ := h.origin
  obtain ⟨before, p, k, after, hlog, rfl⟩ := hs
  obtain ⟨e, he, hsome⟩ := List.mem_filterMap.mp (List.mem_of_getLast? hat)
  obtain ⟨⟨q, e⟩, hq, rfl⟩ := List.mem_map.mp he
  obtain ⟨envelope, device, ackId, rfl⟩ := Event.acknowledgedAt_eq_some hsome
  obtain ⟨first, rest, rfl⟩ := List.append_of_mem hq
  have hsplit : s.log = (before ++ (p, .backend (.envelopeSubmitted env k rs)) :: first) ++
      (q, .backend (.deliveryAcknowledged r.id envelope device ackId now)) :: rest := by simp [hlog]
  obtain ⟨c, db, _, hpath, hi, ⟨ha, _⟩, _⟩ := hsound.cut h₀.core.holds hsplit
  rw [List.map_append, List.map_cons] at hpath
  obtain ⟨_, hrecords⟩ := recordsOf_history hpath h₀.core.holds
  have hmem : History.record (first.map Prod.snd) r ∈ db.recordsOf env.id :=
    hrecords ▸ List.mem_map_of_mem hr
  obtain ⟨hin, henv⟩ := List.mem_filter.mp hmem
  obtain ⟨r', hr', rfl, rfl⟩ := ha
  have hi' : db.core.Holds := hi
  have hlook := lookup_of_mem hi'.transport.recipients hin
  rw [MessageRecipientDevice.key_eq, History.id_record] at hlook
  obtain rfl := Option.some.inj (hlook.symm.trans hr')
  rw [of_decide_eq_true henv, History.device_record] at hsplit
  have hentry : (q, .backend (.deliveryAcknowledged r.id env.id r.recipientDeviceId ackId now)) ∈ s.log := by
    rw [hsplit]
    exact List.mem_append_right _ List.mem_cons_self
  obtain ⟨pr, call, es, w, hpr, hcore, he, ht⟩ := hsound.made hentry
  obtain ⟨user, rfl⟩ := GuffSuff.Call.acknowledgement_of_trace ht he
  exact ⟨q, pr, r.id, ackId, user, hentry, hpr, hcore⟩

end

end Messaging

end GuffSuff
