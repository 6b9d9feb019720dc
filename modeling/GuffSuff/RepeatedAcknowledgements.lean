import GuffSuff.DeliveryRuns

/-! Repeated acknowledgements of one delivery. Nothing in the code or the schema
keeps a second call from storing a second row and a later `delivered_at`. -/

namespace GuffSuff

open ReadCommitted

namespace Db

/-- `message_acknowledgements.envelope_id` is a foreign key. -/
def AcknowledgementsRefer (db : Db) : Prop :=
  ∀ a ∈ db.messageAcknowledgements, a.envelopeId ∈ keys db.messageEnvelopes

def deliveryRows (db : Db) (envelope device : Uuid) : List MessageAcknowledgement :=
  db.messageAcknowledgements.filter fun a =>
    a.envelopeId = envelope && a.recipientDeviceId = device && a.ackType = .delivery

end Db

def Event.newAcknowledgements : Event → List MessageAcknowledgement
  | deliveryAcknowledged _ envelope device ackId now =>
    [{ id := ackId, envelopeId := envelope, recipientDeviceId := device, ackType := .delivery,
       acknowledgedAt := now }]
  | _ => []

def Event.acknowledges (envelope device : Uuid) : Event → Option Nat
  | deliveryAcknowledged _ e d _ now => if e = envelope ∧ d = device then some now else none
  | _ => none

def acknowledgedAt (es : List Event) (envelope device : Uuid) : List Nat :=
  es.filterMap (Event.acknowledges envelope device)

section
variable (envelope device : Uuid)

/-- Once acknowledged, the delivery has the row and the time of its first acknowledgement. -/
def AcknowledgedOnce (s : Server) : Prop :=
  ∀ first later, acknowledgedAt (s.log.map Prod.snd) envelope device = first :: later →
    (s.db.deliveryRows envelope device).length = 1 ∧
      ∀ r ∈ s.db.messageRecipientDevices, r.envelopeId = envelope → r.recipientDeviceId = device →
        r.deliveredAt = some first

variable (pf : Platform) (fk : FkCheck) (s : Server) (sched : List Choice)

def AcknowledgementIdempotent : Prop :=
  ∀ first rest, sched = first ++ rest → AcknowledgedOnce envelope device (serve pf fk s first)

/-- An acknowledgement of the delivery commits only while there is no row of one yet. -/
def NoneRepeated : Prop :=
  ∀ s' record ackId now,
    Commits pf fk s sched s' (.deliveryAcknowledged record envelope device ackId now) →
      s'.db.deliveryRows envelope device = []

end

/-- What the tables know of the acknowledgements `es`. -/
structure Acknowledged (es : List Event) (db : Db) : Prop where
  rows : ∀ envelope device,
    (db.deliveryRows envelope device).length = (acknowledgedAt es envelope device).length
  known : ∀ envelope device, acknowledgedAt es envelope device ≠ [] →
    envelope ∈ keys db.messageEnvelopes
  times : ∀ r ∈ db.messageRecipientDevices, ∀ t,
    (acknowledgedAt es r.envelopeId r.recipientDeviceId).getLast? = some t → r.deliveredAt = some t

section
variable {pf : Platform} {fk : FkCheck} {s : Server} {db : Db} {clock : Nat} {es : List Event} {e : Event}
variable {envelope device : Uuid}

theorem acknowledgedAt_concat : acknowledgedAt (es ++ [e]) envelope device =
    acknowledgedAt es envelope device ++ (e.acknowledges envelope device).toList := by
  rw [acknowledgedAt, List.filterMap_append]
  cases h : e.acknowledges envelope device <;> simp [acknowledgedAt, h]

theorem Event.acknowledgements_writes (e : Event) (db : Db) :
    (applyAll (e.writes pf) db).messageAcknowledgements =
      db.messageAcknowledgements ++ e.newAcknowledgements := by
  cases e <;> simp [Event.writes, Write.apply, Event.newAcknowledgements]

theorem Event.deliveryRows_writes (e : Event) (db : Db) (envelope device : Uuid) :
    ((applyAll (e.writes pf) db).deliveryRows envelope device).length =
      (db.deliveryRows envelope device).length + (e.acknowledges envelope device).toList.length := by
  rw [Db.deliveryRows, e.acknowledgements_writes, List.filter_append, List.length_append]
  congr 1
  cases e with
  | deliveryAcknowledged record x d ackId now =>
    by_cases h : x = envelope ∧ d = device
    · simp [Event.newAcknowledgements, Event.acknowledges, h.1, h.2]
    · have hne : x = envelope → d ≠ device := fun hx hd => h ⟨hx, hd⟩
      simp only [Event.newAcknowledgements, Event.acknowledges, if_neg h]
      simpa using hne
  | _ => rfl

theorem Event.deliveredAt_onRecipient {r : MessageRecipientDevice} (hi : db.Holds)
    (hr : r ∈ db.messageRecipientDevices) (ha : e.Allowed pf clock db) : (e.onRecipient r).deliveredAt =
      (e.acknowledges r.envelopeId r.recipientDeviceId).or r.deliveredAt := by
  cases e with
  | deliveryAcknowledged record x d ackId now =>
    obtain ⟨q, hq, rfl, rfl⟩ := ha
    by_cases hid : r.id = record
    · have hrq : r = q := eq_of_key_eq hi.transport.recipients hr (lookup_mem hq)
        (hid.trans (lookup_key hq).symm)
      simp only [Event.onRecipient, if_pos hid]
      simp [Event.acknowledges, hrq, MessageRecipientDevice.deliver]
    · have hpair : ¬ (q.envelopeId = r.envelopeId ∧ q.recipientDeviceId = r.recipientDeviceId) := by
        rintro ⟨henv, hdev⟩
        obtain rfl := hi.transport.pair_unique hr (lookup_mem hq) henv.symm hdev.symm
        exact hid (lookup_key hq)
      simp only [Event.onRecipient, Event.acknowledges, if_neg hid, if_neg hpair, Option.none_or]
  | deliveryRetried | deliveriesExpired =>
    simp only [Event.onRecipient, Event.acknowledges, Option.none_or]
    split <;> rfl
  | _ => rfl

theorem Acknowledged.event (h : Acknowledged es db) (hi : db.Holds) (ha : e.Allowed pf clock db) :
    Acknowledged (es ++ [e]) (applyAll (e.writes pf) db) := by
  refine ⟨fun x d => ?_, fun x d hne => ?_, fun r hr t ht => ?_⟩
  · rw [e.deliveryRows_writes, h.rows, acknowledgedAt_concat, List.length_append]
  · rw [Event.envelopes_writes, keys_append]
    apply List.mem_append_left
    rw [acknowledgedAt_concat] at hne
    by_cases hold : acknowledgedAt es x d = []
    · cases e with
      | deliveryAcknowledged record x' d' ackId now =>
        obtain ⟨q, hq, rfl, rfl⟩ := ha
        have hx : q.envelopeId = x := by
          by_contra hx
          simp [hold, Event.acknowledges, hx] at hne
        exact hx ▸ hi.transport.recipientEnvelope q (lookup_mem hq)
      | _ => simp [hold, Event.acknowledges] at hne
    · exact h.known x d hold
  · rw [acknowledgedAt_concat] at ht
    rcases Event.mem_recipients_writes hr with ⟨q, hq, rfl⟩ | hnew
    · have hg := e.grows_onRecipient q
      rw [hg.envelopeId, hg.recipientDeviceId] at ht
      rw [Event.deliveredAt_onRecipient hi hq ha]
      cases hack : e.acknowledges q.envelopeId q.recipientDeviceId with
      | some now =>
        rw [hack] at ht
        simpa using ht
      | none =>
        rw [hack] at ht
        simpa using h.times q hq t (by simpa using ht)
    · obtain ⟨x, hx, henv, hfresh⟩ := ha.newRecipient hnew
      have hold : acknowledgedAt es r.envelopeId r.recipientDeviceId = [] := by
        by_contra hne
        exact hfresh (henv ▸ h.known _ _ hne)
      cases e with
      | envelopeSubmitted => simp [hold, Event.acknowledges] at ht
      | _ => exact absurd hnew List.not_mem_nil

theorem Acknowledged.initial (hdb : db.Initial) (hrefer : db.AcknowledgementsRefer) :
    Acknowledged [] db := by
  have hnone : db.messageAcknowledgements = [] := by
    apply List.eq_nil_iff_forall_not_mem.mpr
    intro a ha
    have hx := hrefer a ha
    simp [hdb.envelopes, keys] at hx
  refine ⟨fun x d => ?_, fun x d h => absurd rfl h, fun r hr => ?_⟩
  · simp [Db.deliveryRows, hnone, acknowledgedAt]
  · rw [hdb.recipients] at hr
    exact absurd hr List.not_mem_nil

variable {used : List Uuid} {sched : List Choice}

theorem acknowledged_run (hdb : db.Initial) (hrefer : db.AcknowledgementsRefer)
    (hs : SoundRun pf fk ⟨clock, db⟩ s) : Acknowledged (s.log.map Prod.snd) s.db := by
  refine hs.path.keeps_log ?_ hdb.holds (Acknowledged.initial hdb hrefer)
  rintro es c db e _ hi h ⟨ha, rfl⟩
  exact h.event hi ha

theorem none_repeated (hs : SoundRun pf fk ⟨clock, db⟩ s)
    (h : AcknowledgementIdempotent envelope device pf fk s sched) :
    NoneRepeated envelope device pf fk s sched := by
  intro s' record ackId now hc
  obtain ⟨first, ch, rest, p, hsplit, rfl, hlog, _, hdb⟩ := hs.commit_step hc
  have hacks : acknowledgedAt ((serve pf fk s (first ++ [ch])).log.map Prod.snd) envelope device =
      acknowledgedAt ((serve pf fk s first).log.map Prod.snd) envelope device ++ [now] := by
    rw [hlog, List.map_append, List.map_singleton, acknowledgedAt_concat]
    simp [Event.acknowledges]
  have hne : acknowledgedAt ((serve pf fk s (first ++ [ch])).log.map Prod.snd) envelope device ≠ [] := by
    rw [hacks]
    simp
  obtain ⟨t, later, hcons⟩ := List.exists_cons_of_ne_nil hne
  obtain ⟨hone, _⟩ := h (first ++ [ch]) rest hsplit t later hcons
  rw [hdb, Event.deliveryRows_writes] at hone
  simp only [Event.acknowledges, and_self, if_true, Option.toList_some, List.length_singleton] at hone
  exact List.eq_nil_of_length_eq_zero (by omega)

theorem one_row (hs : SoundRun pf fk ⟨clock, db⟩ s) (h : NoneRepeated envelope device pf fk s sched)
    (hrows : s.db.deliveryRows envelope device = []) :
    Always pf fk (fun db => (db.deliveryRows envelope device).length ≤ 1) s sched := by
  refine hs.always (P := fun db => (db.deliveryRows envelope device).length ≤ 1) (by simp [hrows]) ?_
  intro s' e _ hc _ hle
  rw [e.deliveryRows_writes]
  cases hack : e.acknowledges envelope device with
  | none => simpa using hle
  | some now =>
    cases e with
    | deliveryAcknowledged record x d ackId t =>
      have hpair : x = envelope ∧ d = device := by
        by_contra hne
        simp [Event.acknowledges, hne] at hack
      obtain ⟨rfl, rfl⟩ := hpair
      simp [h s' record ackId t hc]
    | _ => exact absurd hack (by simp [Event.acknowledges])

theorem none_repeated_of_log (hdb : db.Initial) (hrefer : db.AcknowledgementsRefer)
    (hs : SoundRun pf fk ⟨clock, db⟩ s)
    (h : (acknowledgedAt ((serve pf fk s sched).log.map Prod.snd) envelope device).length ≤ 1) :
    NoneRepeated envelope device pf fk s sched := by
  intro s' record ackId now hc
  obtain ⟨first, ch, rest, p, rfl, rfl, hlog, _, _⟩ := hs.commit_step hc
  obtain ⟨new, hnew, _⟩ := (hs.run (first ++ [ch])).added rest
  have hrows := (acknowledged_run hdb hrefer (hs.run first)).rows envelope device
  rw [serve_append, hnew.log, hlog, List.map_append, List.map_append, acknowledgedAt,
    List.filterMap_append, List.length_append, List.map_singleton] at h
  change (acknowledgedAt _ envelope device).length + _ ≤ 1 at h
  rw [acknowledgedAt_concat, List.length_append] at h
  simp only [Event.acknowledges, and_self, if_true, Option.toList_some, List.length_singleton] at h
  exact List.eq_nil_of_length_eq_zero (by omega)

/-- Acknowledging a delivery is idempotent exactly as long as it is not done twice. -/
theorem acknowledgement_idempotent_iff (hdb : db.Initial) (hrefer : db.AcknowledgementsRefer)
    (hused : ∀ x ∈ db.ids, x ∈ used) (sched : List Choice) (envelope device : Uuid) :
    AcknowledgementIdempotent envelope device pf fk (.boot db clock used) sched ↔
      NoneRepeated envelope device pf fk (.boot db clock used) sched := by
  have hboot : SoundRun pf fk ⟨clock, db⟩ (.boot db clock used) := hdb.boot hused
  refine ⟨none_repeated hboot, fun hnone first rest hsplit t later hacks => ?_⟩
  have hempty : db.deliveryRows envelope device = [] :=
    List.eq_nil_of_length_eq_zero ((Acknowledged.initial hdb hrefer).rows envelope device)
  have hnow := acknowledged_run hdb hrefer (hboot.run first)
  have hlen := hnow.rows envelope device
  rw [hacks, List.length_cons] at hlen
  have hle : ((serve pf fk (.boot db clock used) first).db.deliveryRows envelope device).length ≤ 1 :=
    one_row hboot hnone hempty first rest hsplit
  have hlater : later = [] := List.eq_nil_of_length_eq_zero (by omega)
  refine ⟨by rw [hlen, hlater]; rfl, ?_⟩
  rintro r hr rfl rfl
  apply hnow.times r hr t
  rw [hacks, hlater]
  rfl

end

def sampleDelivery (p : Nat) (ackId : Uuid) : List Choice :=
  [.call p (.acknowledgeDelivery 2 4 10), .exec p [], .exec p [ackId]] ++ Choice.steps p 6

theorem sampleDb_acknowledgementsRefer : sampleDb.AcknowledgementsRefer := by
  intro a ha
  exact absurd ha List.not_mem_nil

theorem sampleDelivery_idempotent : AcknowledgementIdempotent 10 4 samplePlatform .atCommit sampleStart
    (sampleSubmission ++ sampleDelivery 1 14) := by
  have hused : ∀ x ∈ sampleDb.ids, x ∈ List.range 10 := by decide
  have hboot : SoundRun samplePlatform .atCommit ⟨0, sampleDb⟩ sampleStart :=
    sampleDb_initial.boot hused
  have honce : NoneRepeated 10 4 samplePlatform .atCommit sampleStart
      (sampleSubmission ++ sampleDelivery 1 14) :=
    none_repeated_of_log sampleDb_initial sampleDb_acknowledgementsRefer hboot (by decide)
  exact (acknowledgement_idempotent_iff sampleDb_initial sampleDb_acknowledgementsRefer hused _ 10
    4).mpr honce

/-- The response to the first call is lost, the device sends it again. -/
theorem acknowledged_twice :
    let s := serve samplePlatform .atCommit sampleStart
      (sampleSubmission ++ sampleDelivery 1 14 ++ [.tick 1] ++ sampleDelivery 2 15)
    (s.db.deliveryRows 10 4).map (·.acknowledgedAt) = [0, 1] ∧
      (lookup s.db.messageRecipientDevices 12).map (·.deliveredAt) = some (some 1) ∧
        ¬ AcknowledgementIdempotent 10 4 samplePlatform .atCommit sampleStart
          (sampleSubmission ++ sampleDelivery 1 14 ++ [.tick 1] ++ sampleDelivery 2 15) := by
  intro s
  have hrows : (s.db.deliveryRows 10 4).map (·.acknowledgedAt) = [0, 1] := by decide
  have hrecord : (lookup s.db.messageRecipientDevices 12).map (·.deliveredAt) = some (some 1) := by
    decide
  refine ⟨hrows, hrecord, fun h => ?_⟩
  have honce : AcknowledgedOnce 10 4 s := h _ [] (List.append_nil _).symm
  have hacks : acknowledgedAt (s.log.map Prod.snd) 10 4 = [0, 1] := by decide
  obtain ⟨hone, _⟩ := honce 0 [1] hacks
  rw [← List.length_map, hrows] at hone
  exact absurd hone (by decide)

end GuffSuff
