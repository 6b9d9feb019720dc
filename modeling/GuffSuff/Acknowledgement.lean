import GuffSuff.Deliveries

/-! When a delivery acknowledgement is the last word on its record: the retry
job writes rows that it selected earlier, whatever has become of them. -/

namespace GuffSuff

open ReadCommitted TransportProcessor MessageEnvelopeService
open ReadCommitted.Server (eventsOf)

def Db.Settled (db : Db) (record envelope device : Uuid) : Prop :=
  ∃ r, lookup db.messageRecipientDevices record = some r ∧ r.envelopeId = envelope ∧
    r.recipientDeviceId = device ∧ r.deliveryStatus.isPending = false

section
variable {pf : Platform} {record envelope device : Uuid} {db : Db}

theorem Db.Settled.event (h : db.Settled record envelope device) {e : Event}
    (he : ∀ now, e ≠ .deliveryRetried record now)
    (hv' : (applyAll (e.writes pf) db).Holds) :
    (applyAll (e.writes pf) db).Settled record envelope device := by
  obtain ⟨r, hr, henv, hdev, hp⟩ := h
  have hid : r.id = record := lookup_key hr
  have hmem := e.onRecipient_mem pf (lookup_mem hr)
  have hlook := lookup_of_mem hv'.transport.recipients hmem
  rw [MessageRecipientDevice.key_eq, e.id_onRecipient, hid] at hlook
  have hg := e.grows_onRecipient r
  refine ⟨e.onRecipient r, hlook, hg.envelopeId.trans henv, hg.recipientDeviceId.trans hdev, ?_⟩
  cases e with
  | deliveryAcknowledged acknowledged _ _ _ now =>
    simp only [Event.onRecipient]
    split
    · rfl
    · exact hp
  | deliveryRetried retried now =>
    have hne : r.id ≠ retried := by
      intro heq
      obtain rfl := heq
      exact he now (by rw [hid])
    simpa only [Event.onRecipient, hne, if_false] using hp
  | deliveriesExpired ids now =>
    simp only [Event.onRecipient]
    split
    · rfl
    · exact hp
  | _ => exact hp

theorem Db.Settled.not_pending (h : db.Settled record envelope device) (hv : db.Holds)
    {r : MessageRecipientDevice} (hr : r ∈ db.messageRecipientDevices) (henv : r.envelopeId = envelope)
    (hdev : r.recipientDeviceId = device) : r.deliveryStatus.isPending = false := by
  obtain ⟨q, hq, hqe, hqd, hp⟩ := h
  have hrq : r = q := hv.transport.pair_unique hr (lookup_mem hq) (henv.trans hqe.symm)
    (hdev.trans hqd.symm)
  rw [hrq]
  exact hp

theorem Db.settled_of_acknowledged {clock : Nat} {ackId : Uuid} {now : Nat} (hv : db.Holds)
    (ha : (Event.deliveryAcknowledged record envelope device ackId now).Allowed pf clock db) :
    (applyAll ((Event.deliveryAcknowledged record envelope device ackId now).writes pf) db).Settled
      record envelope device := by
  have hv' := hv.event ha
  obtain ⟨r, hr, henv, hdev⟩ := ha
  have hid : r.id = record := lookup_key hr
  have hmem := (Event.deliveryAcknowledged record envelope device ackId now).onRecipient_mem pf
    (lookup_mem hr)
  have hlook := lookup_of_mem hv'.transport.recipients hmem
  simp only [MessageRecipientDevice.key_eq, Event.onRecipient, hid, if_true,
    MessageRecipientDevice.id_deliver] at hlook
  exact ⟨_, hlook, henv, hdev, rfl⟩

end

/-- Every retry of the record in a list of events comes after a selection of it. -/
def SelectedFirst (record : Uuid) (es : List Event) : Prop :=
  ∀ es₁ es₂ now, es = es₁ ++ .deliveryRetried record now :: es₂ →
    ∃ ids, .retriesSelected ids ∈ es₁ ∧ record ∈ ids

theorem SelectedFirst.of_append {record : Uuid} {es fs : List Event}
    (h : SelectedFirst record (es ++ fs)) : SelectedFirst record es := by
  intro es₁ es₂ now heq
  exact h es₁ (es₂ ++ fs) now (by rw [heq, List.append_assoc, List.cons_append])

section
variable {pf : Platform} {record envelope device : Uuid}

/-- The invariant of a run: a settled record is not selected, and so not retried. -/
theorem settled_path {v w : World Db} {es : List Event} (h : (backend pf).Path v es w)
    (hv : v.db.Holds) (hs : v.db.Settled record envelope device) (hsel : SelectedFirst record es) :
    w.db.Settled record envelope device ∧ ∀ ids, .retriesSelected ids ∈ es → record ∉ ids := by
  induction h with
  | refl => exact ⟨hs, by simp⟩
  | tick _ _ ih => exact ih hsel
  | @move es c db db' e hpath hm ih =>
    obtain ⟨hset, hnone⟩ := ih hsel.of_append
    have hold : db.Holds := hpath.holds hv
    obtain ⟨ha, rfl⟩ := hm
    constructor
    · apply hset.event _ (hold.event ha)
      intro now heq
      obtain rfl := heq
      obtain ⟨ids, hids, hrec⟩ := hsel es [] now rfl
      exact hnone ids hids hrec
    · intro ids hids hrec
      rcases List.mem_append.mp hids with hids | hids
      · exact hnone ids hids hrec
      · obtain rfl := List.mem_singleton.mp hids
        obtain ⟨r, hr, _, _, hp⟩ := hset
        obtain ⟨q, hq, hpend⟩ := ha record hrec
        obtain rfl := Option.some.inj (hq.symm.trans hr)
        rw [hp] at hpend
        exact absurd hpend (by decide)

theorem TransportProcessor.RetryPass.before_retry {es₁ es₂ : List Event} {now : Nat}
    (h : RetryPass (es₁ ++ .deliveryRetried record now :: es₂)) : ∃ ids rest,
      es₁ = .retriesSelected ids :: rest ∧ record ∈ ids ∧ ∀ n, .deliveryRetried record n ∉ rest := by
  generalize hes : es₁ ++ .deliveryRetried record now :: es₂ = es at h
  cases h with
  | start => simp at hes
  | batch ids hnd done hdone =>
    cases es₁ with
    | nil => simp at hes
    | cons e rest =>
      obtain ⟨rfl, hrest⟩ := List.cons.inj hes
      obtain ⟨pre, tail, rfl, rfl, htail⟩ := List.map_eq_append_iff.mp hrest.symm
      obtain ⟨x, post, rfl, hx, rfl⟩ := List.map_eq_cons_iff.mp htail
      obtain ⟨rfl, rfl⟩ := Event.deliveryRetried.inj hx
      have hdn := hdone.sublist.nodup hnd
      rw [List.map_append, List.map_cons] at hdn
      refine ⟨ids, _, rfl, hdone.subset (by simp), fun n hn => ?_⟩
      obtain ⟨y, hy, hye⟩ := List.mem_map.mp hn
      have hxy : y.1 = x.1 := (Event.deliveryRetried.inj hye).1
      exact List.disjoint_of_nodup_append hdn (List.mem_map_of_mem hy) (by simp [hxy])

variable {fk : FkCheck} {w₀ : World Db} {s : Server}

/-- A retry pass that is still running has the record among the rows it
selected and has not written it yet. -/
def RetryOutstanding (s : Server) (record : Uuid) : Prop :=
  ∃ q qr ids, s.procs q = some qr ∧ (∀ r, ¬ qr.Finished r) ∧
    .retriesSelected ids ∈ eventsOf s.log q ∧ record ∈ ids ∧
    ∀ now, .deliveryRetried record now ∉ eventsOf s.log q

theorem SoundRun.selectedFirst (h : SoundRun pf fk w₀ s) (hret : ¬ RetryOutstanding s record)
    {sched : List Choice} {new : List (Nat × Event)} (hnew : (serve pf fk s sched).log = s.log ++ new) :
    SelectedFirst record (new.map Prod.snd) := by
  intro es₁ es₂ now heq
  obtain ⟨l₁, tail, rfl, rfl, htail⟩ := List.map_eq_append_iff.mp heq
  obtain ⟨⟨q, e⟩, l₂, rfl, he, rfl⟩ := List.map_eq_cons_iff.mp htail
  obtain rfl : e = .deliveryRetried record now := he
  have hs := h.run sched
  have hq : (q, Event.deliveryRetried record now) ∈ (serve pf fk s sched).log := by simp [hnew]
  obtain ⟨qr, _, ht⟩ := hs.trace_of_log hq
  have hpass := Call.retryPass_of_trace ht (ReadCommitted.Server.mem_eventsOf.mpr hq) rfl
  have hev : eventsOf (serve pf fk s sched).log q = (eventsOf s.log q ++ eventsOf l₁ q) ++
      .deliveryRetried record now :: eventsOf l₂ q := by
    simp [hnew, eventsOf]
  rw [hev] at hpass
  obtain ⟨ids, rest, hids, hrec, hrest⟩ := hpass.before_retry
  cases hold : eventsOf s.log q with
  | nil =>
    rw [hold, List.nil_append] at hids
    have hmem : .retriesSelected ids ∈ eventsOf l₁ q := by simp [hids]
    exact ⟨ids, List.mem_map_of_mem (ReadCommitted.Server.mem_eventsOf.mp hmem), hrec⟩
  | cons e es =>
    rw [hold, List.cons_append] at hids
    obtain ⟨rfl, rfl⟩ := List.cons.inj hids
    refine absurd ?_ hret
    obtain ⟨pr, hp, _⟩ := h.trace_of_log (ReadCommitted.Server.mem_eventsOf.mp (hold ▸ List.mem_cons_self))
    refine ⟨q, pr, ids, hp, fun r hr => ?_, by simp [hold], hrec, fun n hn => ?_⟩
    · obtain ⟨_, hsame⟩ := h.events_of_finished hp hr sched
      rw [hev] at hsame
      have hlen := congrArg List.length hsame
      simp only [List.length_append, List.length_cons] at hlen
      omega
    · rw [hold, List.mem_cons] at hn
      rcases hn with hn | hn
      · simp at hn
      · exact hrest n (List.mem_append_left _ hn)

/-- An acknowledgement that commits while no retry of its record is outstanding
is final, however the calls go on. -/
theorem acknowledged_final (h : Reachable pf fk s) {p : Nat} {ids : List Uuid} {ackId : Uuid}
    {now : Nat} (hack : (serve pf fk s [.exec p ids]).log =
      s.log ++ [(p, .deliveryAcknowledged record envelope device ackId now)])
    (hret : ¬ RetryOutstanding s record) (sched : List Choice) :
    let t := serve pf fk s (.exec p ids :: sched)
    (∀ r ∈ t.db.messageRecipientDevices, r.envelopeId = envelope → r.recipientDeviceId = device →
      r.deliveryStatus.isPending = false) ∧
    ∀ clock user, ∀ row ∈ getPendingEnvelopes pf t.db clock user device, row.id ≠ envelope := by
  intro t
  obtain ⟨w₀, h₀, hs⟩ := h.sound
  obtain ⟨first, hfirst, _⟩ := hs.added [.exec p ids]
  obtain ⟨new, hadd, _⟩ := (hs.run [.exec p ids]).added sched
  obtain rfl := List.append_cancel_left (hack.symm.trans hfirst.log)
  obtain ⟨_, _, ha, hdb⟩ := hfirst.path.of_singleton
  have hset : (serve pf fk s [.exec p ids]).db.Settled record envelope device := by
    rw [show (serve pf fk s [.exec p ids]).db = _ from hdb]
    exact Db.settled_of_acknowledged hs.holds ha
  have htotal : t.log = s.log ++ (p, .deliveryAcknowledged record envelope device ackId now) :: new := by
    have hlog : t.log = (serve pf fk s [.exec p ids]).log ++ new := hadd.log
    rw [hlog, hack, List.append_assoc, List.singleton_append]
  have hsel := hs.selectedFirst hret htotal
  have hsel' : SelectedFirst record (new.map Prod.snd) := by
    intro es₁ es₂ n heq
    obtain ⟨rows, hrows, hrec⟩ := hsel (.deliveryAcknowledged record envelope device ackId now :: es₁)
      es₂ n (by simp [heq])
    exact ⟨rows, by simpa using hrows, hrec⟩
  obtain ⟨hfin, _⟩ := settled_path hadd.path (hs.run [.exec p ids]).holds hset hsel'
  have hholds : t.db.Holds := (hs.run (.exec p ids :: sched)).holds
  constructor
  · intro r hr henv hdev
    exact hfin.not_pending hholds hr henv hdev
  · intro clock user row hrow heq
    obtain rfl := heq
    obtain ⟨e, _, rd, hrd, hid, hdev, _, hp, _, rfl⟩ := mem_getPendingEnvelopes.mp hrow
    rw [hfin.not_pending hholds hrd hid hdev] at hp
    exact absurd hp (by decide)

end

theorem sampleAcknowledged_final :
    let s := serve samplePlatform .atCommit sampleStart
      (sampleSubmission ++ sampleSelection 1 ++ Choice.steps 1 8 ++ sampleAcknowledgement 2)
    ∀ sched, (∀ r ∈ (serve samplePlatform .atCommit s (.exec 2 [] :: sched)).db.messageRecipientDevices,
      r.envelopeId = 10 → r.recipientDeviceId = 4 → r.deliveryStatus.isPending = false) := by
  intro s sched
  have hlog : s.log = [(0, .idempotencyKeyRead 3 "k" none), (0, .recipientDevicesRead 2 [4, 5]),
      (0, .envelopeSubmitted (envelopeOf samplePlatform 1 3 sampleMessage 10 0)
        (keyOf samplePlatform 3 sampleMessage 11 10 0) [newRecipient 12 10 4 0, newRecipient 13 10 5 0]),
      (1, .retriesSelected [12, 13]), (1, .deliveryRetried 12 0), (1, .deliveryRetried 13 0)] := by
    decide
  have hdone : ¬ RetryOutstanding s 12 := by
    intro hx
    obtain ⟨q, qr, ids, _, _, hsel, _, hno⟩ := hx
    have hq := ReadCommitted.Server.mem_eventsOf.mp hsel
    simp only [hlog, List.mem_cons, Prod.mk.injEq, reduceCtorEq, and_false, false_or,
      List.not_mem_nil, or_false] at hq
    obtain ⟨rfl, _⟩ := hq
    exact hno 0 (by decide)
  have hack : (serve samplePlatform .atCommit s [.exec 2 []]).log =
      s.log ++ [(2, .deliveryAcknowledged 12 10 4 14 0)] := by decide
  exact (acknowledged_final (sampleStart_reachable samplePlatform .atCommit _) hack hdone sched).1

/-- Otherwise the retry job queues the delivered record again. -/
theorem acknowledged_requeued :
    let s := serve samplePlatform .atCommit sampleStart
      (sampleSubmission ++ sampleSelection 1 ++ sampleAcknowledgement 2)
    let t := serve samplePlatform .atCommit s (.exec 2 [] :: Choice.steps 1 4)
    (serve samplePlatform .atCommit s [.exec 2 []]).log =
      s.log ++ [(2, .deliveryAcknowledged 12 10 4 14 0)] ∧
    (lookup t.db.messageRecipientDevices 12).map (·.deliveryStatus) = some .queued ∧
    (getPendingEnvelopes samplePlatform t.db t.clock 2 4).map (·.id) = [10] := by
  decide

end GuffSuff
