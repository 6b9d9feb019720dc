import GuffSuff.Events

/-! The invariant of the transport tables and the writes that keep it. -/

namespace GuffSuff

open ReadCommitted

/-- Key rows and envelopes pair up in the order of submission. -/
structure Db.Transport (db : Db) : Prop where
  envelopes : (keys db.messageEnvelopes).Nodup
  recipients : (keys db.messageRecipientDevices).Nodup
  recipientPairs : (db.messageRecipientDevices.map fun r => (r.envelopeId, r.recipientDeviceId)).Nodup
  recipientEnvelope : ∀ r ∈ db.messageRecipientDevices, r.envelopeId ∈ keys db.messageEnvelopes
  records : (db.messageIdempotencyKeys.map fun k => (k.senderDeviceId, k.idempotencyKey)).Nodup
  paired : db.messageIdempotencyKeys.map (fun k => (k.envelopeId, k.senderDeviceId, k.idempotencyKey))
    = db.messageEnvelopes.map fun e => (e.id, e.senderDeviceId, e.clientIdempotencyKey)

@[simp] theorem applyAll_insertRecipients (rs : List MessageRecipientDevice) (db : Db) :
    applyAll (rs.map .insertMessageRecipientDevice) db =
      { db with messageRecipientDevices := db.messageRecipientDevices ++ rs } := by
  induction rs generalizing db with
  | nil => simp
  | cons r rs ih => simp [ih, Write.apply]

namespace Db

theorem idempotencyRecord_mem {db : Db} {d : Uuid} {key : String} {k : MessageIdempotencyKey}
    (h : db.idempotencyRecord d key = some k) :
    k ∈ db.messageIdempotencyKeys ∧ k.senderDeviceId = d ∧ k.idempotencyKey = key := by
  have hk := List.find?_some h
  simp only [Bool.and_eq_true, beq_iff_eq] at hk
  exact ⟨List.mem_of_find?_eq_some h, hk⟩

theorem idempotencyRecord_eq_none {db : Db} {d : Uuid} {key : String} :
    db.idempotencyRecord d key = none ↔
      ∀ k ∈ db.messageIdempotencyKeys, ¬ (k.senderDeviceId = d ∧ k.idempotencyKey = key) := by
  simp [idempotencyRecord]

namespace Transport
variable {db : Db}

theorem record_unique (h : db.Transport) {k l : MessageIdempotencyKey}
    (hk : k ∈ db.messageIdempotencyKeys) (hl : l ∈ db.messageIdempotencyKeys)
    (hd : k.senderDeviceId = l.senderDeviceId) (hi : k.idempotencyKey = l.idempotencyKey) : k = l :=
  List.inj_on_of_nodup_map h.records hk hl (by simp [hd, hi])

theorem idempotencyRecord_of_mem (h : db.Transport) {k : MessageIdempotencyKey}
    (hk : k ∈ db.messageIdempotencyKeys) :
    db.idempotencyRecord k.senderDeviceId k.idempotencyKey = some k := by
  cases hr : db.idempotencyRecord k.senderDeviceId k.idempotencyKey with
  | none => exact absurd ⟨rfl, rfl⟩ (idempotencyRecord_eq_none.mp hr k hk)
  | some l =>
    obtain ⟨hl, hd, hi⟩ := idempotencyRecord_mem hr
    rw [h.record_unique hl hk hd hi]

theorem pair_unique (h : db.Transport) {r s : MessageRecipientDevice}
    (hr : r ∈ db.messageRecipientDevices) (hs : s ∈ db.messageRecipientDevices)
    (he : r.envelopeId = s.envelopeId) (hd : r.recipientDeviceId = s.recipientDeviceId) : r = s :=
  List.inj_on_of_nodup_map h.recipientPairs hr hs (by simp [he, hd])

theorem updateRecipients (h : db.Transport) (ids : List Uuid)
    {f : MessageRecipientDevice → MessageRecipientDevice} (hid : ∀ r, (f r).id = r.id)
    (he : ∀ r, (f r).envelopeId = r.envelopeId)
    (hd : ∀ r, (f r).recipientDeviceId = r.recipientDeviceId) :
    Transport { db with messageRecipientDevices := updateRows db.messageRecipientDevices ids f } where
  envelopes := h.envelopes
  recipients := by
    have hk := keys_updateRows db.messageRecipientDevices ids hid
    simpa only [hk] using h.recipients
  recipientPairs := by
    have hm := map_updateRows db.messageRecipientDevices ids f
      (g := fun r => (r.envelopeId, r.recipientDeviceId)) (fun r => by simp [he, hd])
    simpa only [hm] using h.recipientPairs
  recipientEnvelope := by
    intro r hr
    obtain ⟨s, hs, rfl⟩ := mem_updateRows.mp hr
    have hse : (if (Keyed.key s : Uuid) ∈ ids then f s else s).envelopeId = s.envelopeId := by
      split
      · exact he s
      · rfl
    rw [hse]
    exact h.recipientEnvelope s hs
  records := h.records
  paired := h.paired

theorem submit (h : db.Transport) {envelope : MessageEnvelope} {record : MessageIdempotencyKey}
    {recipients : List MessageRecipientDevice} (hid : envelope.id ∉ keys db.messageEnvelopes)
    (hfree : db.idempotencyRecord envelope.senderDeviceId envelope.clientIdempotencyKey = none)
    (he : record.envelopeId = envelope.id) (hd : record.senderDeviceId = envelope.senderDeviceId)
    (hk : record.idempotencyKey = envelope.clientIdempotencyKey)
    (hrid : (keys db.messageRecipientDevices ++ keys recipients).Nodup)
    (hdev : (recipients.map MessageRecipientDevice.recipientDeviceId).Nodup)
    (henv : ∀ r ∈ recipients, r.envelopeId = envelope.id) :
    Transport { db with
      messageEnvelopes := db.messageEnvelopes ++ [envelope]
      messageIdempotencyKeys := db.messageIdempotencyKeys ++ [record]
      messageRecipientDevices := db.messageRecipientDevices ++ recipients } where
  envelopes := by
    rw [keys_append, keys_singleton]
    exact h.envelopes.append (List.nodup_singleton _) (by simpa using hid)
  recipients := by
    rw [keys_append]
    exact hrid
  recipientPairs := by
    rw [List.map_append]
    refine h.recipientPairs.append ?_ ?_
    · exact List.Nodup.of_map Prod.snd (by simpa [List.map_map, Function.comp_def] using hdev)
    · intro p hp hq
      obtain ⟨r, hr, rfl⟩ := List.mem_map.mp hp
      obtain ⟨q, hq, hqr⟩ := List.mem_map.mp hq
      have hre : r.envelopeId = envelope.id := by
        rw [← henv q hq]
        exact (Prod.mk.inj hqr).1.symm
      exact hid (hre ▸ h.recipientEnvelope r hr)
  recipientEnvelope := by
    intro r hr
    rw [keys_append, keys_singleton, List.mem_append, List.mem_singleton]
    rcases List.mem_append.mp hr with hr | hr
    · exact .inl (h.recipientEnvelope r hr)
    · exact .inr (henv r hr)
  records := by
    rw [List.map_append]
    refine h.records.append (List.nodup_singleton _) ?_
    intro p hp hq
    obtain ⟨k, hkm, rfl⟩ := List.mem_map.mp hp
    have hpair := List.mem_singleton.mp hq
    refine idempotencyRecord_eq_none.mp hfree k hkm ⟨?_, ?_⟩
    · exact (Prod.mk.inj hpair).1.trans hd
    · exact (Prod.mk.inj hpair).2.trans hk
  paired := by
    rw [List.map_append, List.map_append, h.paired]
    simp [he, hd, hk]

end Transport

end Db

end GuffSuff
