import GuffSuff.RetryProgress

/-! What the devices are shown while the jobs of the worker run: a job changes the
status of records, never the envelopes that a device is yet to be shown. -/

namespace GuffSuff

open ReadCommitted MessageEnvelopeService TransportProcessor

inductive Job where
  | retries
  | cleanup

def Job.call : Job → Call
  | retries => .processOfflineMessageRetries
  | cleanup => .processExpiredEnvelopeCleanup

section
variable (pf : Platform) (fk : FkCheck)

/-- The envelopes that `getPendingEnvelopes` returns, without the status of their record. -/
def shown (db : Db) (now : Nat) (user device : Uuid) : Set PendingEnvelope :=
  {x | ∃ row ∈ getPendingEnvelopes pf db now user device, x = { row with deliveryStatus := .accepted }}

/-- The job runs on its own; an error that cuts it short is caught. -/
inductive Ran (job : Job) (s : Server) : Server → Prop
  | intro (p : Nat) (sched : List Choice) (r : Answer)
      (turn : ReadCommitted.Server.Turn (Call.program pf fk) Call.aborted s p job.call sched r) :
      Ran job s (serve pf fk s (.call p job.call :: sched))

end

section
variable {pf : Platform} {fk : FkCheck} {db db' : Db} {now : Nat}

theorem mem_shown {user device : Uuid} {x : PendingEnvelope} :
    x ∈ shown pf db now user device ↔ ∃ e ∈ db.messageEnvelopes, ∃ rd ∈ db.messageRecipientDevices,
      rd.envelopeId = e.id ∧ rd.recipientDeviceId = device ∧ e.recipientUserId = user ∧
        rd.deliveryStatus.isPending = true ∧ now < e.expiresAt ∧
        x = { pendingRow pf e rd with deliveryStatus := .accepted } := by
  constructor
  · intro h
    obtain ⟨row, hrow, rfl⟩ := h
    obtain ⟨e, he, rd, hrd, hid, hdev, huser, hp, hexp, rfl⟩ := mem_getPendingEnvelopes.mp hrow
    exact ⟨e, he, rd, hrd, hid, hdev, huser, hp, hexp, rfl⟩
  · intro h
    obtain ⟨e, he, rd, hrd, hid, hdev, huser, hp, hexp, rfl⟩ := h
    exact ⟨_, mem_getPendingEnvelopes.mpr ⟨e, he, rd, hrd, hid, hdev, huser, hp, hexp, rfl⟩, rfl⟩

theorem shown_map {f : MessageRecipientDevice → MessageRecipientDevice}
    (hrecords : db'.messageRecipientDevices = db.messageRecipientDevices.map f)
    (henvelopes : db'.messageEnvelopes = db.messageEnvelopes)
    (henvelope : ∀ r, (f r).envelopeId = r.envelopeId)
    (hdevice : ∀ r, (f r).recipientDeviceId = r.recipientDeviceId)
    (hpending : ∀ r ∈ db.messageRecipientDevices, ∀ e ∈ db.messageEnvelopes, r.envelopeId = e.id →
      now < e.expiresAt → (f r).deliveryStatus.isPending = r.deliveryStatus.isPending)
    (user device : Uuid) : shown pf db' now user device = shown pf db now user device := by
  ext x
  rw [mem_shown, mem_shown, henvelopes, hrecords]
  constructor
  · intro h
    obtain ⟨e, he, rd, hrd, hid, hdev, huser, hp, hexp, rfl⟩ := h
    obtain ⟨r, hr, rfl⟩ := List.mem_map.mp hrd
    rw [henvelope] at hid
    rw [hdevice] at hdev
    exact ⟨e, he, r, hr, hid, hdev, huser, hpending r hr e he hid hexp ▸ hp, hexp, rfl⟩
  · intro h
    obtain ⟨e, he, r, hr, hid, hdev, huser, hp, hexp, rfl⟩ := h
    exact ⟨e, he, f r, List.mem_map_of_mem hr, (henvelope r).trans hid, (hdevice r).trans hdev, huser,
      (hpending r hr e he hid hexp).trans hp, hexp, rfl⟩

theorem Retrying.shown_eq {w w' : World Db} {es : List Event} (h : Retrying w es w')
    (hnd : (keys w.db.messageRecipientDevices).Nodup) (now : Nat) (user device : Uuid) :
    shown pf w'.db now user device = shown pf w.db now user device := by
  rcases h with ⟨_, hdb⟩ | ⟨t, ids, done, hbatch, hdone⟩
  · rw [hdb]
  have hrecords : (w.db.retryAll done).messageRecipientDevices =
      w.db.messageRecipientDevices.map (.retryAll done) := rfl
  rw [hbatch.db]
  refine shown_map hrecords rfl (fun r => r.envelopeId_retryAll done)
    (fun r => r.device_retryAll done) (fun r hr _ _ _ _ => ?_) user device
  by_cases hmem : r.id ∈ done.map Prod.fst
  · obtain ⟨hw, _⟩ := Batches.mem_unfinished.mp (hbatch.mem_unfinished hnd (hdone.subset hmem))
    obtain ⟨q, hq, hwaits, hid⟩ := Db.mem_waiting.mp hw
    obtain rfl : q = r := eq_of_key_eq hnd hq hr hid
    have hp : q.deliveryStatus.isPending = true := (Bool.and_eq_true _ _ ▸ hwaits).2
    rw [hp, MessageRecipientDevice.pending_retryAll done hp]
  · rw [MessageRecipientDevice.retryAll_of_not_mem hmem]

/-- What a cleanup marks has expired, and no device is shown it from then on. -/
theorem Expired.shown_eq {w w' : World Db} {es : List Event} (h : Expired w es w')
    (hnd : (keys w.db.messageRecipientDevices).Nodup) (henv : (keys w.db.messageEnvelopes).Nodup)
    (hnow : w'.clock ≤ now) (user device : Uuid) :
    shown pf w'.db now user device = shown pf w.db now user device := by
  obtain ⟨t, ids, _, ht, hids, _, hdb⟩ := h
  have hrecords : ((Write.expireRecipients ids t).apply w.db).messageRecipientDevices =
      w.db.messageRecipientDevices.map fun r => if r.id ∈ ids then r.expire t else r := rfl
  rw [hdb]
  refine shown_map hrecords rfl (fun r => ?_) (fun r => ?_) (fun r hr e he hid hexp => ?_) user device
  · split <;> rfl
  · split <;> rfl
  · rw [if_neg]
    intro hmem
    obtain ⟨q, hq, hqid⟩ := List.mem_map.mp ((hids r.id).mp hmem)
    obtain ⟨hqmem, hexpired⟩ := List.mem_filter.mp hq
    obtain rfl : q = r := eq_of_key_eq hnd hqmem hr hqid
    have hlook : lookup w.db.messageEnvelopes q.envelopeId = some e := hid ▸ lookup_of_mem henv he
    simp only [isExpired, hlook, Option.any_some, Bool.and_eq_true, decide_eq_true_eq] at hexpired
    exact absurd hexp (Nat.not_lt.mpr (Nat.le_trans hexpired.1 (Nat.le_trans ht hnow)))

end

section
variable {pf : Platform} {fk : FkCheck} {s s' : Server} {job : Job}

theorem Ran.shown_eq (hs : s.db.Holds) (h : Ran pf fk job s s') {now : Nat} (hnow : s'.clock ≤ now)
    (user device : Uuid) : shown pf s'.db now user device = shown pf s.db now user device := by
  have hnd : (keys s.world.db.messageRecipientDevices).Nodup := hs.transport.recipients
  have henv : (keys s.world.db.messageEnvelopes).Nodup := hs.transport.envelopes
  obtain ⟨p, sched, r, turn⟩ := h
  cases job with
  | retries =>
    obtain ⟨es, _, hretrying⟩ := ReadCommitted.Server.kept_run (Call.program pf fk) Call.aborted
      .processOfflineMessageRetries (lasting_retrying s.world) turn.idle (.inl ⟨rfl, rfl⟩)
      (ends_processOfflineMessageRetries s.world) turn.only
    exact hretrying.shown_eq hnd now user device
  | cleanup =>
    obtain ⟨es, _, hexpiring⟩ := ReadCommitted.Server.kept_run (Call.program pf fk) Call.aborted
      .processExpiredEnvelopeCleanup (lasting_expiring s.world) turn.idle (.inl ⟨rfl, rfl⟩)
      (ends_processExpiredEnvelopeCleanup s.world hnd) turn.only
    rcases hexpiring with ⟨_, hdb⟩ | hexpired
    · exact congrArg (shown pf · now user device) hdb
    · exact hexpired.shown_eq hnd henv hnow user device

theorem Ran.reachable (h : Reachable pf fk s) (hran : Ran pf fk job s s') : Reachable pf fk s' := by
  obtain ⟨p, sched, r, _⟩ := hran
  exact h.more _

theorem Ran.clock_le (h : Ran pf fk job s s') : s.clock ≤ s'.clock := by
  obtain ⟨p, sched, r, _⟩ := h
  exact ReadCommitted.Server.run_clock_le _ _ s _

/-- The jobs of the worker are invisible to the devices, and so is their order. -/
theorem jobs_invisible (h : Reachable pf fk s) (job job' : Job) :
    (∀ s', Ran pf fk job s s' → ∀ user device now, s'.clock ≤ now →
      shown pf s'.db now user device = shown pf s.db now user device) ∧
    ∀ s₁ s₂ s₃ s₄, Ran pf fk job s s₁ → Ran pf fk job' s₁ s₂ → Ran pf fk job' s s₃ →
      Ran pf fk job s₃ s₄ → ∀ user device now, s₂.clock ≤ now → s₄.clock ≤ now →
        shown pf s₂.db now user device = shown pf s₄.db now user device := by
  refine ⟨fun s' hran user device now hnow => hran.shown_eq h.holds hnow user device, ?_⟩
  intro s₁ s₂ s₃ s₄ h₁ h₂ h₃ h₄ user device now hnow hnow'
  have hthere := (h₂.shown_eq (h₁.reachable h).holds hnow user device).trans
    (h₁.shown_eq h.holds (Nat.le_trans h₂.clock_le hnow) user device)
  have hback := (h₄.shown_eq (h₃.reachable h).holds hnow' user device).trans
    (h₃.shown_eq h.holds (Nat.le_trans h₄.clock_le hnow') user device)
  exact hthere.trans hback.symm

end

/-- The devices of user 2 are still shown envelope 10 after a retry of its records. -/
theorem samplePasses_shown :
    shown samplePlatform (samplePasses 1).db 0 2 4 = shown samplePlatform (samplePasses 0).db 0 2 4 := by
  have hran : ∀ n, (samplePasses n).procs (n + 1) = none →
      (samplePasses (n + 1)).Returned (n + 1) .processOfflineMessageRetries (.ok .unit) →
        Ran samplePlatform .endOfStatement .retries (samplePasses n) (samplePasses (n + 1)) := by
    intro n hidle hret
    refine .intro (n + 1) _ (.ok .unit) ⟨hidle, ?_, hret⟩
    simp [Choice.steps, ReadCommitted.Choice.OnlyMoves]
  have hreachable : Reachable samplePlatform .endOfStatement (samplePasses 0) :=
    sampleStart_reachable samplePlatform .endOfStatement sampleSubmission
  exact (jobs_invisible hreachable .retries .cleanup).1 _ (hran 0 (by decide +kernel) (by decide +kernel))
    2 4 0 (by decide +kernel)

end GuffSuff
