import GuffSuff.Services

/-! What the record of a recipient device goes through, event by event. -/

namespace GuffSuff

open ReadCommitted MessageEnvelopeService

def Event.onRecipient : Event → MessageRecipientDevice → MessageRecipientDevice
  | deliveryAcknowledged record _ _ _ now, r => if r.id = record then r.deliver now else r
  | deliveryRetried record now, r => if r.id = record then r.retry now else r
  | deliveriesExpired ids now, r => if r.id ∈ ids then r.expire now else r
  | _, r => r

def Event.newRecipients : Event → List MessageRecipientDevice
  | envelopeSubmitted _ _ recipients => recipients
  | _ => []

def Event.newEnvelopes : Event → List MessageEnvelope
  | envelopeSubmitted envelope _ _ => [envelope]
  | _ => []

section
variable {pf : Platform}

theorem Event.recipients_writes (e : Event) (db : Db) :
    (applyAll (e.writes pf) db).messageRecipientDevices =
      db.messageRecipientDevices.map e.onRecipient ++ e.newRecipients := by
  cases e with
  | envelopeSubmitted envelope record recipients =>
    have hid : (Event.envelopeSubmitted envelope record recipients).onRecipient = id := rfl
    simp [Event.writes, Write.apply, Event.newRecipients, hid]
  | deliveryAcknowledged | deliveryRetried | deliveriesExpired =>
    simp [Event.writes, Write.apply, Event.newRecipients, updateRows, Event.onRecipient]
  | _ =>
    have hid : db.messageRecipientDevices.map id ++ [] = db.messageRecipientDevices := by simp
    exact hid.symm

theorem Event.envelopes_writes (e : Event) (db : Db) :
    (applyAll (e.writes pf) db).messageEnvelopes = db.messageEnvelopes ++ e.newEnvelopes := by
  cases e with
  | envelopeSubmitted envelope record recipients =>
    simp [Event.writes, Write.apply, Event.newEnvelopes]
  | _ => simp [Event.writes, Write.apply, Event.newEnvelopes]

theorem Event.grows_onRecipient (e : Event) (r : MessageRecipientDevice) : r.Grows (e.onRecipient r) := by
  cases e with
  | deliveryAcknowledged record envelope device ackId now =>
    simp only [Event.onRecipient]
    split
    · exact r.grows_deliver now
    · exact .refl r
  | deliveryRetried record now =>
    simp only [Event.onRecipient]
    split
    · exact r.grows_retry now
    · exact .refl r
  | deliveriesExpired ids now =>
    simp only [Event.onRecipient]
    split
    · exact r.grows_expire now
    · exact .refl r
  | _ => exact .refl r

theorem Event.id_onRecipient (e : Event) (r : MessageRecipientDevice) : (e.onRecipient r).id = r.id := by
  cases e <;> simp only [Event.onRecipient] <;> split <;> rfl

variable (pf) in
theorem Event.onRecipient_mem (e : Event) {db : Db} {r : MessageRecipientDevice}
    (h : r ∈ db.messageRecipientDevices) :
    e.onRecipient r ∈ (applyAll (e.writes pf) db).messageRecipientDevices := by
  rw [e.recipients_writes]
  exact List.mem_append_left _ (List.mem_map_of_mem h)

theorem Event.Allowed.newRecipient {e : Event} {clock : Nat} {db : Db} (ha : e.Allowed pf clock db)
    {r : MessageRecipientDevice} (hr : r ∈ e.newRecipients) :
    ∃ envelope ∈ e.newEnvelopes, r.envelopeId = envelope.id ∧ envelope.id ∉ keys db.messageEnvelopes := by
  cases e with
  | envelopeSubmitted envelope record recipients =>
    obtain ⟨hnew, _, _, _, _, _, _, _, hrs⟩ := ha
    exact ⟨envelope, List.mem_singleton_self _, (hrs r hr).1, hnew⟩
  | _ => exact absurd hr List.not_mem_nil

variable (pf) in
theorem getPendingEnvelopes_perm (db : Db) (now : Nat) (user device : Uuid) :
    (getPendingEnvelopes pf db now user device).Perm
      ((pendingJoin db now user device).map fun p => pendingRow pf p.1 p.2) :=
  List.perm_insertionSort _ _

theorem mem_getPendingEnvelopes {db : Db} {now : Nat} {user device : Uuid} {row : PendingEnvelope} :
    row ∈ getPendingEnvelopes pf db now user device ↔ ∃ e ∈ db.messageEnvelopes,
      ∃ rd ∈ db.messageRecipientDevices, rd.envelopeId = e.id ∧ rd.recipientDeviceId = device ∧
        e.recipientUserId = user ∧ rd.deliveryStatus.isPending = true ∧ now < e.expiresAt ∧
        row = pendingRow pf e rd := by
  rw [(getPendingEnvelopes_perm pf db now user device).mem_iff]
  simp only [List.mem_map, pendingJoin, List.mem_filter, Prod.exists, List.pair_mem_product, Bool.and_eq_true, decide_eq_true_eq]
  constructor
  · intro hx
    obtain ⟨e, rd, ⟨⟨he, hrd⟩, ⟨⟨⟨hid, hdev⟩, huser⟩, hp⟩, hexp⟩, rfl⟩ := hx
    exact ⟨e, he, rd, hrd, hid.symm, hdev, huser, hp, hexp, rfl⟩
  · intro hx
    obtain ⟨e, he, rd, hrd, hid, hdev, huser, hp, hexp, rfl⟩ := hx
    exact ⟨e, rd, ⟨⟨he, hrd⟩, ⟨⟨⟨hid.symm, hdev⟩, huser⟩, hp⟩, hexp⟩, rfl⟩

end

end GuffSuff
