import GuffSuff.ConversationBounds
import GuffSuff.ConversationLookups
import GuffSuff.EnvelopeHistory
import GuffSuff.ReadCommitted.Readings

/-! What the readers of an envelope are told of it: the status that `getEnvelopeStatus`
answers and the list of `getPendingEnvelopes` are the history of the log at a
moment of the call. -/

namespace GuffSuff

open ReadCommitted

namespace Messaging

section
variable {pf : Platform} {fk : FkCheck} {ws : List (World Db)}

theorem reading_getEnvelopeStatus (userId : Option Uuid) (envelopeId : String) :
    (Call.program pf fk (.getEnvelopeStatus userId envelopeId)).Reading := by
  unfold Call.program MessageEnvelopeService.getEnvelopeStatus uuidParameter
  dsimp only
  split
  · trivial
  · intro db
    dsimp only
    split
    · trivial
    · split
      · trivial
      · exact fun _ => trivial

theorem reads_getEnvelopeStatus {userId : Option Uuid} {envelopeId : String} {st : EnvelopeStatus}
    (h : (MessageEnvelopeService.getEnvelopeStatus pf userId envelopeId).Reads (.ok (.status st)) ws) :
    ∃ w₁ w₂ id env, ws = [w₁, w₂] ∧ pf.uuid envelopeId = some id ∧
      lookup w₁.db.core.messageEnvelopes id = some env ∧
      (some env.senderUserId = userId ∨ some env.recipientUserId = userId) ∧
      st = { envelopeId := env.id, conversationId := env.conversationId,
             serverAcceptedAt := env.serverAcceptedAt, expiresAt := env.expiresAt,
             recipientDevices := MessageEnvelopeService.recipientStatuses w₂.db env.id } := by
  unfold MessageEnvelopeService.getEnvelopeStatus uuidParameter at h
  cases hid : pf.uuid envelopeId with
  | none => simp [hid, throw] at h
  | some id =>
    simp only [hid, Program.reads_query, Option.bind_some] at h
    obtain ⟨w₁, rest, rfl, h⟩ := h
    cases henv : lookup w₁.db.core.messageEnvelopes id with
    | none => simp [henv] at h
    | some env =>
      simp only [henv] at h
      split at h
      · simp at h
      · rename_i hparty
        obtain ⟨w₂, last, rfl, h⟩ := Program.reads_query.mp h
        obtain ⟨rfl, hst⟩ := Program.reads_ret.mp h
        refine ⟨w₁, w₂, id, env, rfl, rfl, henv, ?_, ?_⟩
        · rcases not_and_or.mp hparty with hs | hr
          · exact .inl (not_not.mp hs)
          · exact .inr (not_not.mp hr)
        · exact (Value.status.inj (Except.ok.inj hst)).symm

theorem reads_getPendingEnvelopes {user device : Uuid}
    {rows : List GuffSuff.MessageEnvelopeService.PendingEnvelope}
    (h : (MessageEnvelopeService.getPendingEnvelopes pf (some user) (some device)).Reads
      (.ok (.pending rows)) ws) :
    ∃ w₁ w₂, ws = [w₁, w₂] ∧ rows = GuffSuff.MessageEnvelopeService.getPendingEnvelopes pf.services
      w₂.db.core w₁.clock user device := by
  obtain ⟨w₁, _, rfl, h⟩ := Program.reads_now.mp h
  obtain ⟨w₂, _, rfl, h⟩ := Program.reads_query.mp h
  obtain ⟨rfl, hrows⟩ := Program.reads_ret.mp h
  exact ⟨w₁, w₂, rfl, (Value.pending.inj (Except.ok.inj hrows)).symm⟩

end

/-- The row of the answer for a record of the submission. -/
def History.shown (since : History) (r : MessageRecipientDevice) : RecipientDeviceStatus :=
  { recipientDeviceId := r.recipientDeviceId, deliveryStatus := since.status r.id,
    deliveredAt := since.acknowledgedAt r.id, readAt := none }

section
variable {pf : Platform} {fk : FkCheck} {s : Server} {env : MessageEnvelope}
variable {rs : List MessageRecipientDevice} {since : History}

theorem Reachable.new_record (h : Reachable pf fk s) (hs : Submitted s.log env rs since)
    {r : MessageRecipientDevice} (hr : r ∈ rs) : r.deliveryStatus = .accepted ∧ r.deliveredAt = none := by
  obtain ⟨before, p, k, after, hlog, rfl⟩ := hs
  have hnew := h.starts (show (p, .backend (.envelopeSubmitted env k rs)) ∈ s.log by simp [hlog]) r hr
  rw [hnew]
  exact ⟨rfl, rfl⟩

theorem Reachable.shown (h : Reachable pf fk s) (hs : Submitted s.log env rs since) :
    MessageEnvelopeService.recipientStatuses s.db env.id = rs.map since.shown := by
  obtain ⟨w₀, h₀, hsound⟩ := h.sound
  obtain ⟨_, hrecords⟩ := hsound.recordsOf h₀.core.holds hs
  have hrows : MessageEnvelopeService.recipientStatuses s.db env.id =
      (s.db.recordsOf env.id).map fun rd =>
        { recipientDeviceId := rd.recipientDeviceId, deliveryStatus := rd.deliveryStatus,
          deliveredAt := rd.deliveredAt, readAt := none } := rfl
  rw [hrows, hrecords, List.map_map]
  refine List.map_congr_left fun r hr => ?_
  obtain ⟨haccepted, hundelivered⟩ := h.new_record hs hr
  simp [History.shown, History.device_record, History.status_record _ haccepted,
    History.deliveredAt_record _ hundelivered]

theorem History.acknowledged_of_delivered {record : Uuid} (h : since.status record = .delivered) :
    ∃ now, since.acknowledgedAt record = some now := by
  have hlast : (since.filterMap (Event.statusOf record)).getLast? = some .delivered := by
    unfold History.status at h
    cases hl : (since.filterMap (Event.statusOf record)).getLast? with
    | none => simp [hl] at h
    | some st =>
      rw [hl] at h
      exact congrArg some h
  obtain ⟨e, he, hword⟩ := List.mem_filterMap.mp (List.mem_of_getLast? hlast)
  have hack : ∃ now, e.acknowledgedAt record = some now := by
    cases e with
    | backend e =>
      cases e with
      | deliveryAcknowledged r envelope device ackId now =>
        by_cases hr : r = record
        · exact ⟨now, by simp [Event.acknowledgedAt, hr]⟩
        · simp [Event.statusOf, hr] at hword
      | deliveryRetried r now => simp [Event.statusOf] at hword
      | deliveriesExpired ids now => simp [Event.statusOf] at hword
      | _ => cases hword
    | _ => cases hword
  obtain ⟨now, hnow⟩ := hack
  have hne : since.filterMap (Event.acknowledgedAt record) ≠ [] :=
    List.ne_nil_of_mem (List.mem_filterMap.mpr ⟨e, he, hnow⟩)
  exact ⟨_, List.getLast?_eq_some_getLast hne⟩

/-- The answer about an envelope is its history in the log at a moment of the call: one row for each
device that the submission found, with the last word on its delivery. -/
theorem status_tells_history (h : Reachable pf fk s) (sched : List Choice) {p : Nat} {user : Option Uuid}
    {envelopeId : String} {st : EnvelopeStatus} (hidle : s.procs p = none)
    (hret : (serve pf fk s sched).Returned p (.getEnvelopeStatus user envelopeId) (.ok (.status st))) :
    ∃ first rest env rs since, sched = first ++ rest ∧
      Submitted (serve pf fk s first).log env rs since ∧ pf.uuid envelopeId = some env.id ∧
      (some env.senderUserId = user ∨ some env.recipientUserId = user) ∧ st.envelopeId = env.id ∧
      st.conversationId = env.conversationId ∧ st.serverAcceptedAt = env.serverAcceptedAt ∧
      st.expiresAt = env.expiresAt ∧ st.recipientDevices.Perm (rs.map since.shown) ∧
      ∀ row ∈ st.recipientDevices, row.deliveryStatus = .delivered →
        ∃ now, row.deliveredAt = some now ∧
          AcknowledgedBy pf (serve pf fk s first) env.id row.recipientDeviceId now := by
  obtain hr | ⟨ts, hts, hreads⟩ := ReadCommitted.Server.answer_of_reading
    (reading_getEnvelopeStatus user envelopeId) hidle hret
  · cases hr
  obtain ⟨_, _, id, env, hws, hid, henv, hparty, rfl⟩ := reads_getEnvelopeStatus hreads
  obtain ⟨first, mid, rest, rfl, rfl, rfl⟩ := hts.pair hws
  have ht : Reachable pf fk (serve pf fk s (first ++ mid)) := h.more (first ++ mid)
  obtain ⟨_, _, hfirst⟩ := (h.more first).sound
  obtain ⟨w₀, h₀, hsound⟩ := ht.sound
  have hkept : env ∈ (serve pf fk s (first ++ mid)).db.core.messageEnvelopes := by
    obtain ⟨new, hadded, _⟩ := hfirst.run_added fun ch (_ : ch ∈ mid) => @covers pf fk ch
    have hrun : serve pf fk s (first ++ mid) = ReadCommitted.Server.run (Call.program pf fk) Call.aborted
        (serve pf fk s first) mid := List.foldl_append ..
    rw [hrun]
    have hmore := envelopes_of_path hadded.path
    exact hmore ▸ List.mem_append_left _ (lookup_mem henv)
  obtain ⟨rs, since, hsubmitted⟩ := hsound.submitted h₀ hkept
  have hrows := ht.shown hsubmitted
  refine ⟨first ++ mid, rest, env, rs, since, rfl, hsubmitted, ?_, hparty, rfl, rfl, rfl, rfl, ?_, ?_⟩
  · exact hid.trans (congrArg some (lookup_key henv).symm)
  · exact List.Perm.of_eq hrows
  · intro row hrow hdelivered
    change row ∈ MessageEnvelopeService.recipientStatuses (serve pf fk s (first ++ mid)).db env.id at hrow
    rw [hrows] at hrow
    obtain ⟨r, hr, rfl⟩ := List.mem_map.mp hrow
    obtain ⟨now, hnow⟩ := History.acknowledged_of_delivered hdelivered
    exact ⟨now, hnow, ht.acknowledgedBy hsubmitted hr hnow⟩

end

/-- Device 4 acknowledges envelope 20, then its sender asks for the status. -/
def sampleDelivered : List Choice :=
  [.tick 7, .call 2 (.acknowledgeDelivery (some 2) (some 4) "20"), .exec 2 [], .exec 2 [30]] ++
    Choice.steps 2 6 ++ [.call 3 (.getEnvelopeStatus (some 1) "20"), .exec 3 [], .exec 3 []]

def sampleStatus : EnvelopeStatus :=
  { envelopeId := 20, conversationId := 6, serverAcceptedAt := 0, expiresAt := 100,
    recipientDevices := [⟨4, .delivered, some 7, none⟩, ⟨5, .accepted, none, none⟩] }

theorem sampleSubmission_reachable (recipient : Uuid) (devices : List Uuid) :
    Reachable samplePlatform .endOfStatement (sampleSubmission recipient devices) := by
  unfold sampleSubmission
  exact sampleStart_reachable _ _

theorem sampleDelivered_told :
    let s := sampleSubmission 2 [4, 5]
    (serve samplePlatform .endOfStatement s sampleDelivered).Returned 3 (.getEnvelopeStatus (some 1) "20")
      (.ok (.status sampleStatus)) ∧
    ∃ first rest, sampleDelivered = first ++ rest ∧
      AcknowledgedBy samplePlatform (serve samplePlatform .endOfStatement s first) 20 4 7 := by
  intro s
  have hret : (serve samplePlatform .endOfStatement s sampleDelivered).Returned 3
      (.getEnvelopeStatus (some 1) "20") (.ok (.status sampleStatus)) := by decide +kernel
  obtain ⟨first, rest, env, rs, since, hsched, _, _, _, henv, _, _, _, _, hdelivered⟩ :=
    status_tells_history (sampleSubmission_reachable 2 [4, 5]) sampleDelivered (by decide +kernel) hret
  obtain ⟨now, hnow, hack⟩ := hdelivered ⟨4, .delivered, some 7, none⟩ List.mem_cons_self rfl
  obtain rfl : 7 = now := Option.some.inj hnow
  rw [← henv] at hack
  exact ⟨hret, first, rest, hsched, hack⟩

section
variable {pf : Platform} {fk : FkCheck} {s : Server}

/-- What the device is offered of the envelope, if the record is its own. -/
def History.offered (pf : Platform) (since : History) (env : MessageEnvelope) (r : MessageRecipientDevice) :
    GuffSuff.MessageEnvelopeService.PendingEnvelope :=
  { GuffSuff.MessageEnvelopeService.pendingRow pf.services env r with deliveryStatus := since.status r.id }

variable (pf) in
theorem pairwise_pending (db : GuffSuff.Db) (now : Nat) (user device : Uuid) :
    (GuffSuff.MessageEnvelopeService.getPendingEnvelopes pf.services db now user device).Pairwise
      fun a b => a.serverAcceptedAt ≤ b.serverAcceptedAt :=
  @List.pairwise_insertionSort GuffSuff.MessageEnvelopeService.PendingEnvelope
    (fun a b => a.serverAcceptedAt ≤ b.serverAcceptedAt) _ ⟨fun _ _ => Nat.le_total _ _⟩
    ⟨fun _ _ _ => Nat.le_trans⟩ _

theorem nodup_pending {db : GuffSuff.Db} (hv : db.Holds) (now : Nat) (user device : Uuid) :
    ((GuffSuff.MessageEnvelopeService.getPendingEnvelopes pf.services db now user device).map
      GuffSuff.MessageEnvelopeService.PendingEnvelope.id).Nodup := by
  have hperm := (getPendingEnvelopes_perm pf.services db now user device).map
    GuffSuff.MessageEnvelopeService.PendingEnvelope.id
  rw [hperm.nodup_iff, List.map_map]
  have hpairs : (GuffSuff.MessageEnvelopeService.pendingJoin db now user device).Nodup :=
    (List.Nodup.product (List.Nodup.of_map _ hv.transport.envelopes)
      (List.Nodup.of_map _ hv.transport.recipients)).filter _
  refine hpairs.map_on ?_
  rintro ⟨e, rd⟩ hx ⟨e', rd'⟩ hy hid
  simp only [GuffSuff.MessageEnvelopeService.pendingJoin, List.mem_filter, List.pair_mem_product,
    Bool.and_eq_true, decide_eq_true_eq] at hx hy
  obtain ⟨⟨he, hrd⟩, ⟨⟨⟨henv, hdev⟩, _⟩, _⟩, _⟩ := hx
  obtain ⟨⟨he', hrd'⟩, ⟨⟨⟨henv', hdev'⟩, _⟩, _⟩, _⟩ := hy
  obtain rfl : e = e' := eq_of_key_eq hv.transport.envelopes he he' hid
  obtain rfl : rd = rd' :=
    hv.transport.pair_unique hrd hrd' (henv.symm.trans henv') (hdev.trans hdev'.symm)
  rfl

/-- The list that a device is answered is the history of the log at a moment of the call: the
envelopes to its user that had a record for it and, by the last word on that record, still wait
and have not expired when the call looked at the clock; each once, in the order of acceptance. -/
theorem pending_tells_history (h : Reachable pf fk s) (sched : List Choice) {p : Nat} {user device : Uuid}
    {rows : List GuffSuff.MessageEnvelopeService.PendingEnvelope} (hidle : s.procs p = none)
    (hret : (serve pf fk s sched).Returned p (.getPendingEnvelopes (some user) (some device))
      (.ok (.pending rows))) :
    ∃ first mid rest, sched = first ++ mid ++ rest ∧
      (rows.map GuffSuff.MessageEnvelopeService.PendingEnvelope.id).Nodup ∧
      rows.Pairwise (fun a b => a.serverAcceptedAt ≤ b.serverAcceptedAt) ∧
      ∀ row, row ∈ rows ↔ ∃ env rs since, ∃ r ∈ rs, row = since.offered pf env r ∧
        Submitted (serve pf fk s (first ++ mid)).log env rs since ∧ env.recipientUserId = user ∧
        r.recipientDeviceId = device ∧ (since.status r.id).isPending = true ∧
        (serve pf fk s first).clock < env.expiresAt := by
  have hreading : (Call.program pf fk (.getPendingEnvelopes (some user) (some device))).Reading :=
    fun _ _ => trivial
  obtain hr | ⟨ts, hts, hreads⟩ := ReadCommitted.Server.answer_of_reading hreading hidle hret
  · cases hr
  obtain ⟨_, _, hws, rfl⟩ := reads_getPendingEnvelopes hreads
  obtain ⟨first, mid, rest, rfl, rfl, rfl⟩ := hts.pair hws
  have ht : Reachable pf fk (serve pf fk s (first ++ mid)) := h.more (first ++ mid)
  obtain ⟨w₀, h₀, hsound⟩ := ht.sound
  have hholds : (serve pf fk s (first ++ mid)).db.core.Holds := hsound.holds
  refine ⟨first, mid, rest, rfl, nodup_pending hholds _ _ _, ?_, fun row => ?_⟩
  · exact pairwise_pending ..
  · rw [mem_getPendingEnvelopes]
    constructor
    · rintro ⟨env, henv, rd, hrd, hid, hdev, huser, hpend, hexp, rfl⟩
      obtain ⟨rs, since, hsubmitted⟩ := hsound.submitted h₀ henv
      obtain ⟨_, hrecords⟩ := hsound.recordsOf h₀.core.holds hsubmitted
      have hmem : rd ∈ (serve pf fk s (first ++ mid)).db.recordsOf env.id :=
        List.mem_filter.mpr ⟨hrd, decide_eq_true hid⟩
      rw [hrecords] at hmem
      obtain ⟨r, hr, rfl⟩ := List.mem_map.mp hmem
      obtain ⟨haccepted, _⟩ := ht.new_record hsubmitted hr
      rw [History.status_record _ haccepted] at hpend
      rw [History.device_record] at hdev
      refine ⟨env, rs, since, r, hr, ?_, hsubmitted, huser, hdev, hpend, hexp⟩
      simp [History.offered, GuffSuff.MessageEnvelopeService.pendingRow, History.status_record _ haccepted]
    · rintro ⟨env, rs, since, r, hr, rfl, hsubmitted, huser, hdev, hpend, hexp⟩
      obtain ⟨henv, hrecords⟩ := hsound.recordsOf h₀.core.holds hsubmitted
      have hmem : since.record r ∈ (serve pf fk s (first ++ mid)).db.recordsOf env.id :=
        hrecords ▸ List.mem_map_of_mem hr
      obtain ⟨hin, hid⟩ := List.mem_filter.mp hmem
      obtain ⟨haccepted, _⟩ := ht.new_record hsubmitted hr
      refine ⟨env, henv, since.record r, hin, of_decide_eq_true hid, ?_, huser, ?_, hexp, ?_⟩
      · rw [History.device_record, hdev]
      · rw [History.status_record _ haccepted, hpend]
      · simp [History.offered, GuffSuff.MessageEnvelopeService.pendingRow, History.status_record _ haccepted]

end

/-- Device 5 asks for its envelopes. -/
def sampleAsking : List Choice :=
  [.call 3 (.getPendingEnvelopes (some 2) (some 5)), .exec 3 [], .exec 3 []]

def samplePending : GuffSuff.MessageEnvelopeService.PendingEnvelope :=
  GuffSuff.MessageEnvelopeService.pendingRow samplePlatform.services
    (GuffSuff.MessageEnvelopeService.envelopeOf GuffSuff.samplePlatform 1 3 (sampleAddressed 2) 20 0)
    (GuffSuff.MessageEnvelopeService.newRecipient 105 20 5 0)

theorem sampleAsking_told :
    let s := sampleSubmission 2 [4, 5]
    (serve samplePlatform .endOfStatement s sampleAsking).Returned 3
      (.getPendingEnvelopes (some 2) (some 5)) (.ok (.pending [samplePending])) ∧
    ∃ first rest env rs since, sampleAsking = first ++ rest ∧
      Submitted (serve samplePlatform .endOfStatement s first).log env rs since ∧ env.recipientUserId = 2 ∧
      ∃ r ∈ rs, r.recipientDeviceId = 5 ∧ since.offered samplePlatform env r = samplePending := by
  intro s
  have hret : (serve samplePlatform .endOfStatement s sampleAsking).Returned 3
      (.getPendingEnvelopes (some 2) (some 5)) (.ok (.pending [samplePending])) := by decide +kernel
  obtain ⟨first, mid, rest, hsched, _, _, hrows⟩ :=
    pending_tells_history (sampleSubmission_reachable 2 [4, 5]) sampleAsking (by decide +kernel) hret
  obtain ⟨env, rs, since, r, hr, hrow, hsubmitted, huser, hdev, _⟩ :=
    (hrows samplePending).mp (List.mem_singleton_self _)
  exact ⟨hret, first ++ mid, rest, env, rs, since, hsched, hsubmitted, huser, r, hr, hdev, hrow.symm⟩

end Messaging

end GuffSuff
