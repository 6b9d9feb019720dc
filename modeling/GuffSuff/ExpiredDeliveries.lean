import GuffSuff.DeliveryRuns

/-! Which statements can revive an expired delivery: the expiry pass and the
submissions leave it alone, the other writers never look at its status. -/

namespace GuffSuff

open ReadCommitted

def Db.deliveryStatus (db : Db) (record : Uuid) : Option DeliveryStatus :=
  (lookup db.messageRecipientDevices record).map MessageRecipientDevice.deliveryStatus

/-- The record whose status the `UPDATE` sets, whatever it was. -/
def Event.overwrites : Event → Option Uuid
  | deliveryAcknowledged record _ _ _ _ => some record
  | deliveryRetried record _ => some record
  | _ => none

section
variable (pf : Platform) (fk : FkCheck) (s : Server) (sched : List Choice)

def ExpiredStay : Prop :=
  ∀ record, Stays pf fk (fun db => db.deliveryStatus record = some .expired) s sched

/-- No acknowledgement and no retry commits on a record that has expired by then. -/
def ExpiredLeftAlone : Prop :=
  ∀ s' e record, Commits pf fk s sched s' e → e.overwrites = some record →
    s'.db.deliveryStatus record ≠ some .expired

end

section
variable {pf : Platform} {fk : FkCheck} {s : Server} {db : Db} {e : Event} {record : Uuid}

theorem Db.deliveryStatus_eq_some {st : DeliveryStatus} : db.deliveryStatus record = some st ↔
    ∃ r, lookup db.messageRecipientDevices record = some r ∧ r.deliveryStatus = st :=
  Option.map_eq_some_iff

theorem Event.status_onRecipient (he : e.overwrites ≠ some record) {r : MessageRecipientDevice}
    (hid : r.id = record) (hr : r.deliveryStatus = .expired) :
    (e.onRecipient r).deliveryStatus = .expired := by
  cases e with
  | deliveryAcknowledged acknowledged _ _ _ now =>
    have hne : r.id ≠ acknowledged := fun h => he (by rw [Event.overwrites, ← h, hid])
    simpa only [Event.onRecipient, if_neg hne] using hr
  | deliveryRetried retried now =>
    have hne : r.id ≠ retried := fun h => he (by rw [Event.overwrites, ← h, hid])
    simpa only [Event.onRecipient, if_neg hne] using hr
  | deliveriesExpired ids now =>
    simp only [Event.onRecipient]
    split
    · rfl
    · exact hr
  | _ => exact hr

theorem Event.status_overwritten (he : e.overwrites = some record) {r : MessageRecipientDevice}
    (hid : r.id = record) : (e.onRecipient r).deliveryStatus ≠ .expired := by
  cases e with
  | deliveryAcknowledged acknowledged _ _ _ now =>
    obtain rfl : acknowledged = record := Option.some.inj he
    simp [Event.onRecipient, hid, MessageRecipientDevice.deliver]
  | deliveryRetried retried now =>
    obtain rfl : retried = record := Option.some.inj he
    simp [Event.onRecipient, hid, MessageRecipientDevice.retry]
  | _ => exact absurd he (by simp [Event.overwrites])

variable (pf) in
theorem Event.expired_kept (he : e.overwrites ≠ some record)
    (h : db.deliveryStatus record = some .expired) :
    (applyAll (e.writes pf) db).deliveryStatus record = some .expired := by
  obtain ⟨r, hr, hst⟩ := Db.deliveryStatus_eq_some.mp h
  refine Db.deliveryStatus_eq_some.mpr ⟨e.onRecipient r, e.lookup_recipient pf hr, ?_⟩
  exact Event.status_onRecipient he (lookup_key hr) hst

variable (pf) in
theorem Event.expired_lost (he : e.overwrites = some record)
    (h : db.deliveryStatus record = some .expired) :
    (applyAll (e.writes pf) db).deliveryStatus record ≠ some .expired := by
  obtain ⟨r, hr, _⟩ := Db.deliveryStatus_eq_some.mp h
  intro h'
  obtain ⟨r', hr', hst⟩ := Db.deliveryStatus_eq_some.mp h'
  obtain rfl := Option.some.inj ((e.lookup_recipient pf hr).symm.trans hr')
  exact Event.status_overwritten he (lookup_key hr) hst

/-- An expired delivery stays expired exactly if no acknowledgement and no retry
commits on it. -/
theorem expired_stay_iff (h : Reachable pf fk s) (sched : List Choice) :
    ExpiredStay pf fk s sched ↔ ExpiredLeftAlone pf fk s sched := by
  obtain ⟨w₀, _, hs⟩ := h.sound
  constructor
  · intro hstay s' e record hc he hexp
    obtain ⟨first, ch, rest, p, hsplit, rfl, _, _, hdb⟩ := hs.commit_step hc
    have hafter := hstay record first [ch] rest hsplit hexp
    rw [show (ReadCommitted.Server.run _ _ s (first ++ [ch])).db = _ from hdb] at hafter
    exact Event.expired_lost pf he hexp hafter
  · intro hleft record
    refine hs.stays (P := fun db => db.deliveryStatus record = some .expired) ?_
    intro s' e _ hc _ hexp
    have hne : e.overwrites ≠ some record := fun he => hleft s' e record hc he hexp
    exact Event.expired_kept pf hne hexp

end

/-- The clock passes the expiry of envelope 10, and the worker expires both of its records. -/
def sampleExpiry (p : Nat) : List Choice :=
  [.tick 100, .call p .processExpiredEnvelopeCleanup, .exec p [], .exec p [12, 13]] ++ Choice.steps p 5

theorem sampleExpiry_stays :
    ExpiredStay samplePlatform .atCommit sampleStart (sampleSubmission ++ sampleExpiry 1) := by
  have hs : Reachable samplePlatform .atCommit sampleStart := sampleStart_reachable _ _ []
  refine (expired_stay_iff hs _).mpr ?_
  intro s' e record hc he
  obtain ⟨w₀, _, hsound⟩ := hs.sound
  obtain ⟨p, hp⟩ := hsound.commit_logged hc
  have hlog : ∀ x ∈ (serve samplePlatform .atCommit sampleStart (sampleSubmission ++ sampleExpiry 1)).log,
      x.2.overwrites = none := by decide
  exact absurd ((hlog _ hp).symm.trans he) (by simp)

def sampleLateAcknowledgement (p : Nat) : List Choice := sampleAcknowledgement p ++ [.exec p []]

/-- A device that acknowledges late turns its expired record into a delivered one. -/
theorem late_acknowledgement_delivers :
    let expired := serve samplePlatform .atCommit sampleStart (sampleSubmission ++ sampleExpiry 1)
    let after := serve samplePlatform .atCommit sampleStart
      (sampleSubmission ++ sampleExpiry 1 ++ sampleLateAcknowledgement 2)
    expired.db.deliveryStatus 12 = some .expired ∧ after.db.deliveryStatus 12 = some .delivered ∧
      ¬ ExpiredStay samplePlatform .atCommit sampleStart
        (sampleSubmission ++ sampleExpiry 1 ++ sampleLateAcknowledgement 2) := by
  intro expired after
  have hexpired : expired.db.deliveryStatus 12 = some .expired := by decide
  have hdelivered : after.db.deliveryStatus 12 = some .delivered := by decide
  refine ⟨hexpired, hdelivered, fun hstay => ?_⟩
  have hafter : after.db.deliveryStatus 12 = some .expired :=
    hstay 12 (sampleSubmission ++ sampleExpiry 1) (sampleLateAcknowledgement 2) [] (by simp) hexpired
  exact absurd (hdelivered.symm.trans hafter) (by decide)

end GuffSuff
