import GuffSuff.ReadCommitted.Soundness
import GuffSuff.Growth
import GuffSuff.Identity
import GuffSuff.Transport

/-! The backend as one specification: every committed transaction keeps the
invariant. -/

namespace GuffSuff

open ReadCommitted SessionService

structure Db.Holds (db : Db) : Prop where
  users : (keys db.users).Nodup
  devices : (keys db.devices).Nodup
  identity : db.Identity
  transport : db.Transport

section
variable {pf : Platform}

theorem Db.Identity.event {db : Db} (h : db.Identity) {clock : Nat} {e : Event}
    (ha : e.Allowed pf clock db) : (applyAll (e.writes pf) db).Identity := by
  cases e with
  | sessionCreated raw user device session family token now =>
    obtain ⟨_, _, hs, hf, ht, hh⟩ := ha
    exact (h.insertSession hs).insertFamily hf ht hh rfl rfl rfl rfl
  | tokenRotated raw newRaw old replacement checkedAt now =>
    obtain ⟨⟨_, hp⟩, hr, hid, hh⟩ := ha
    exact h.rotate old (childToken old replacement (pf.hashRefreshToken newRaw) now)
      (lookup_mem hp.token) hr hid hh rfl rfl rfl rfl rfl now
  | graceAnswered raw old checkedAt now => exact h
  | reuseDetected raw old family tokens sessions eventId checkedAt now startedAt =>
    obtain ⟨_, _, _, hc⟩ := ha
    have hf := h.compromiseFamilies [family.id] startedAt
    exact { (hf.revokeRefreshTokens hc startedAt).revokeSessions sessions startedAt with }
  | sessionRevoked session ids now => exact h.revokeSessions ids now
  | userSessionsRevoked user ids now => exact h.revokeSessions ids now
  | userFamiliesCompromised user ids now => exact h.compromiseFamilies ids now
  | userTokensRevoked user ids now => exact h.revokeRefreshTokens ha now
  | deviceRevoked user device reason deviceName sessions families tokens eventId auditId
      correlationId now =>
    have hf := (h.revokeSessions sessions now).compromiseFamilies families now
    exact { hf.revokeRefreshTokens ha.2 now with }
  | envelopeSubmitted envelope record recipients =>
    simp only [Event.writes, applyAll_cons, applyAll_insertRecipients]
    exact { h with }
  | deliveryAcknowledged record envelope device ackId now => exact { h with }
  | deliveryRetried record now => exact { h with }
  | deliveriesExpired ids now => exact { h with }
  | retriesSelected ids => exact h
  | idempotencyKeyRead device key found => exact h
  | recipientDevicesRead user devices => exact h

theorem Db.Transport.event {db : Db} (h : db.Transport) {clock : Nat} {e : Event}
    (ha : e.Allowed pf clock db) : (applyAll (e.writes pf) db).Transport := by
  cases e with
  | envelopeSubmitted envelope record recipients =>
    obtain ⟨hid, _, hfree, he, hd, hk, hrid, hdev, hrs⟩ := ha
    simp only [Event.writes, applyAll_cons, applyAll_insertRecipients]
    exact h.submit hid hfree he hd hk hrid hdev fun r hr => (hrs r hr).1
  | deliveryAcknowledged record envelope device ackId now =>
    have hd := h.updateRecipients [record] (MessageRecipientDevice.id_deliver now)
      (fun _ => rfl) (fun _ => rfl)
    exact { hd with }
  | deliveryRetried record now =>
    exact h.updateRecipients [record] (MessageRecipientDevice.id_retry now)
      (fun _ => rfl) (fun _ => rfl)
  | deliveriesExpired ids now =>
    exact h.updateRecipients ids (MessageRecipientDevice.id_expire now)
      (fun _ => rfl) (fun _ => rfl)
  | _ => exact { h with }

theorem Db.Holds.event {db : Db} (h : db.Holds) {clock : Nat} {e : Event}
    (ha : e.Allowed pf clock db) : (applyAll (e.writes pf) db).Holds where
  users := by
    rw [(grows_applyAll _ db).users]
    exact h.users
  devices := by
    rw [(grows_applyAll _ db).deviceKeys]
    exact h.devices
  identity := h.identity.event ha
  transport := h.transport.event ha

end

def backend (pf : Platform) : Spec Db Key Uuid Event Cell where
  moves clock db e db' := e.Allowed pf clock db ∧ db' = applyAll (e.writes pf) db
  holds _ db := db.Holds
  cell := Db.cell
  has x db := x ∈ db.ids
  holds_move := by
    intro _ _ _ _ h hm
    obtain ⟨ha, rfl⟩ := hm
    exact h.event ha
  holds_tick := fun h _ => h

section
variable {pf : Platform} {v w : World Db}

/-- The run lemma: whatever the calls do, the database only grows. -/
theorem grows_of_path {es : List Event} (h : (backend pf).Path v es w) : v.db.Grows w.db := by
  apply h.keeps (P := fun _ db => v.db.Grows db)
  · exact fun _ _ _ hp _ => hp
  · intro _ db _ _ hp hm
    obtain ⟨_, rfl⟩ := hm
    exact hp.trans (grows_applyAll _ db)
  · exact .refl v.db

theorem grows_of_later (h : (backend pf).Later v w) : v.db.Grows w.db := by
  obtain ⟨_, h⟩ := h
  exact grows_of_path h

end

end GuffSuff
