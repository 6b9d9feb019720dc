import GuffSuff.Deliveries
import GuffSuff.ReadCommitted.Turns

/-! The jobs of the worker on their own: what a pass has made of the records of the
recipient devices when it ends, or when an error cuts it short. -/

namespace GuffSuff

open ReadCommitted TransportProcessor

/-- What the `UPDATE`s of a retry pass make of a record. -/
def MessageRecipientDevice.retryAll :
    List (Uuid × Nat) → MessageRecipientDevice → MessageRecipientDevice
  | [], r => r
  | (id, now) :: done, r => retryAll done (if r.id = id then r.retry now else r)

def Db.retryAll (done : List (Uuid × Nat)) (db : Db) : Db :=
  { db with messageRecipientDevices := db.messageRecipientDevices.map (.retryAll done) }

section
variable {done : List (Uuid × Nat)} {r : MessageRecipientDevice}

theorem MessageRecipientDevice.retryAll_append (done : List (Uuid × Nat)) (id : Uuid) (now : Nat)
    (r : MessageRecipientDevice) : r.retryAll (done ++ [(id, now)]) =
      if (r.retryAll done).id = id then (r.retryAll done).retry now else r.retryAll done := by
  induction done generalizing r with
  | nil => rfl
  | cons x done ih => exact ih _

theorem MessageRecipientDevice.retryAll_fixes {β : Type} {column : MessageRecipientDevice → β}
    (h : ∀ now r, column (r.retry now) = column r) (done : List (Uuid × Nat))
    (r : MessageRecipientDevice) : column (r.retryAll done) = column r := by
  induction done generalizing r with
  | nil => rfl
  | cons x done ih =>
    rw [MessageRecipientDevice.retryAll, ih]
    split
    · exact h x.2 r
    · rfl

@[simp] theorem MessageRecipientDevice.id_retryAll (done : List (Uuid × Nat)) (r : MessageRecipientDevice) :
    (r.retryAll done).id = r.id := retryAll_fixes (fun _ _ => rfl) done r

@[simp] theorem MessageRecipientDevice.envelopeId_retryAll (done : List (Uuid × Nat))
    (r : MessageRecipientDevice) : (r.retryAll done).envelopeId = r.envelopeId :=
  retryAll_fixes (fun _ _ => rfl) done r

@[simp] theorem MessageRecipientDevice.device_retryAll (done : List (Uuid × Nat))
    (r : MessageRecipientDevice) : (r.retryAll done).recipientDeviceId = r.recipientDeviceId :=
  retryAll_fixes (fun _ _ => rfl) done r

theorem MessageRecipientDevice.attempts_retryAll (done : List (Uuid × Nat)) (r : MessageRecipientDevice) :
    (r.retryAll done).deliveryAttemptsCount =
      r.deliveryAttemptsCount + (done.map Prod.fst).count r.id := by
  induction done generalizing r with
  | nil => rfl
  | cons x done ih =>
    obtain ⟨id, now⟩ := x
    rw [MessageRecipientDevice.retryAll, ih, List.map_cons, List.count_cons]
    by_cases h : r.id = id
    · simp [h, MessageRecipientDevice.retry]
      omega
    · simp [h, Ne.symm h]

theorem MessageRecipientDevice.retryAll_of_not_mem (h : r.id ∉ done.map Prod.fst) : r.retryAll done = r := by
  induction done with
  | nil => rfl
  | cons x done ih =>
    obtain ⟨id, now⟩ := x
    rw [List.map_cons, List.mem_cons, not_or] at h
    rw [MessageRecipientDevice.retryAll, if_neg h.1, ih h.2]

theorem MessageRecipientDevice.pending_retryAll (done : List (Uuid × Nat))
    (h : r.deliveryStatus.isPending = true) : (r.retryAll done).deliveryStatus.isPending = true := by
  induction done generalizing r with
  | nil => exact h
  | cons x done ih =>
    apply ih
    split
    · rfl
    · exact h

theorem Db.retryAll_append (done : List (Uuid × Nat)) (id : Uuid) (now : Nat) (db : Db) :
    db.retryAll (done ++ [(id, now)]) = (Write.retryRecipient id now).apply (db.retryAll done) := by
  simp only [Db.retryAll, Write.apply, updateRows, List.map_map]
  congr 2
  funext r
  simp [MessageRecipientDevice.retryAll_append]

theorem Db.retryAll_nil (db : Db) : db.retryAll [] = db := by
  have hid : (MessageRecipientDevice.retryAll []) = id := rfl
  simp [Db.retryAll, hid]

end

/-- A retry pass from `w₀` has selected the batch at `t` and made the attempts in `done`. -/
structure RetriedBatch (w₀ : World Db) (t : Nat) (ids : List Uuid) (done : List (Uuid × Nat))
    (es : List Event) (w : World Db) : Prop where
  started : w₀.clock ≤ t
  selected : t ≤ w.clock
  batch : selectsBatch t w₀.db ids = true
  events : es = .retriesSelected ids :: done.map fun x => .deliveryRetried x.1 x.2
  db : w.db = w₀.db.retryAll done

/-- A retry pass has so far read only, or attempted some of the batch. -/
def Retrying (w₀ : World Db) (es : List Event) (w : World Db) : Prop :=
  (es = [] ∧ w.db = w₀.db) ∨
    ∃ t ids done, RetriedBatch w₀ t ids done es w ∧ done.map Prod.fst <+: ids

def Retried (w₀ : World Db) (_ : Answer) (es : List Event) (w : World Db) : Prop :=
  ∃ t ids done, RetriedBatch w₀ t ids done es w ∧ done.map Prod.fst = ids

theorem RetriedBatch.later {w₀ : World Db} {t : Nat} {ids : List Uuid} {done : List (Uuid × Nat)}
    {es : List Event} {c c' : Nat} {db : Db} (h : RetriedBatch w₀ t ids done es ⟨c, db⟩) (hc : c ≤ c') :
    RetriedBatch w₀ t ids done es ⟨c', db⟩ :=
  { h with selected := Nat.le_trans h.selected hc }

theorem lasting_retrying (w₀ : World Db) : Lasting (Retrying w₀) := by
  intro es c c' db h hc
  exact h.imp_right fun ⟨t, ids, done, hb, hdone⟩ => ⟨t, ids, done, hb.later hc, hdone⟩

theorem lasting_retried (w₀ : World Db) (r : Answer) : Lasting (Retried w₀ r) := by
  intro es c c' db h hc
  obtain ⟨t, ids, done, hb, hdone⟩ := h
  exact ⟨t, ids, done, hb.later hc, hdone⟩

theorem ends_retryEach {w₀ w : World Db} {t : Nat} {ids : List Uuid} {done : List (Uuid × Nat)}
    {es : List Event} (h : RetriedBatch w₀ t ids done es w) (rest : List Uuid)
    (hrest : done.map Prod.fst ++ rest = ids) :
    (retryEach rest (.ret (.ok .unit))).Ends (Retrying w₀) (Retried w₀) id es w := by
  induction rest generalizing done es w with
  | nil => exact ⟨t, ids, done, h, by simpa using hrest⟩
  | cons id rest ih =>
    intro now hnow
    have hnext : RetriedBatch w₀ t ids (done ++ [(id, now)]) (es ++ [.deliveryRetried id now])
        ⟨now, (Write.retryRecipient id now).apply w.db⟩ := by
      refine ⟨h.started, Nat.le_trans h.selected hnow, h.batch, ?_, ?_⟩
      · rw [h.events, List.map_append]
        rfl
      · rw [Db.retryAll_append, ← h.db]
    have hsplit : (done ++ [(id, now)]).map Prod.fst ++ rest = ids := by simpa using hrest
    refine ⟨.inr ⟨t, ids, _, hnext, ?_⟩, ih hnext hsplit⟩
    exact hsplit ▸ List.prefix_append _ _

theorem ends_processOfflineMessageRetries (w : World Db) :
    processOfflineMessageRetries.Ends (Retrying w) (Retried w) id [] w := by
  intro t ht ids hids
  have hstart : RetriedBatch w t ids [] [.retriesSelected ids] ⟨t, w.db⟩ :=
    ⟨ht, Nat.le_refl t, hids, rfl, (Db.retryAll_nil w.db).symm⟩
  exact ⟨.inr ⟨t, ids, [], hstart, List.nil_prefix⟩, ends_retryEach hstart ids rfl⟩

/-- An expiry pass from `w₀` has marked the records that it found expired at `t`. -/
def Expired (w₀ : World Db) (es : List Event) (w : World Db) : Prop :=
  ∃ t ids, w₀.clock ≤ t ∧ t ≤ w.clock ∧ (∀ i, i ∈ ids ↔ i ∈ expired t w₀.db) ∧
    es = [.deliveriesExpired ids t] ∧ w.db = (Write.expireRecipients ids t).apply w₀.db

def Expiring (w₀ : World Db) (es : List Event) (w : World Db) : Prop :=
  (es = [] ∧ w.db = w₀.db) ∨ Expired w₀ es w

theorem lasting_expired (w₀ : World Db) : Lasting (Expired w₀) := by
  intro es c c' db h hc
  obtain ⟨t, ids, hstart, ht, hids, hes, hdb⟩ := h
  exact ⟨t, ids, hstart, Nat.le_trans ht hc, hids, hes, hdb⟩

theorem lasting_expiring (w₀ : World Db) : Lasting (Expiring w₀) :=
  fun _ _ _ _ h hc => h.imp_right fun h => lasting_expired w₀ _ _ _ _ h hc

theorem stillExpired_of_mem {now : Nat} {db : Db} (hnd : (keys db.messageRecipientDevices).Nodup)
    {id : Uuid} (h : id ∈ expired now db) : stillExpired now id db = true := by
  obtain ⟨r, hr, rfl⟩ := List.mem_map.mp h
  obtain ⟨hmem, hexp⟩ := List.mem_filter.mp hr
  have hlook : lookup db.messageRecipientDevices r.id = some r := lookup_of_mem hnd hmem
  rw [stillExpired, hlook]
  exact hexp

theorem ends_processExpiredEnvelopeCleanup (w : World Db)
    (hnd : (keys w.db.messageRecipientDevices).Nodup) :
    processExpiredEnvelopeCleanup.Ends (Expiring w) (fun _ => Expired w) id [] w := by
  intro t ht found hfound
  have hmem : ∀ i, i ∈ found ↔ i ∈ expired t w.db := fun i => mem_of_exactly hfound
  refine Program.Ends.lockEach found [] (fun i hi => ?_) ?_
  · exact stillExpired_of_mem hnd ((hmem i).mp hi)
  · have hdone : Expired w [.deliveriesExpired found t]
        ⟨t, (Write.expireRecipients found t).apply w.db⟩ :=
      ⟨t, found, ht, Nat.le_refl t, hmem, rfl, rfl⟩
    exact ⟨.inr hdone, hdone⟩

end GuffSuff
