import GuffSuff.IdempotencyKeys

/-! What a reused idempotency key answers: the stored envelope has the payload
of the request, and whatever else the request changes is not looked at. -/

namespace GuffSuff

open ReadCommitted MessageEnvelopeService
open ReadCommitted.Server (eventsOf)

/-- What a request says of its envelope, the payload apart. -/
structure MessageEnvelope.Routed (e : MessageEnvelope) (dto : SubmitMessageEnvelope) : Prop where
  conversation : e.conversationId = dto.conversationId
  recipient : e.recipientUserId = dto.recipientUserId
  protocol : e.protocolVersion = dto.protocolVersion

instance (e : MessageEnvelope) (dto : SubmitMessageEnvelope) : Decidable (e.Routed dto) :=
  decidable_of_iff (e.conversationId = dto.conversationId ∧ e.recipientUserId = dto.recipientUserId ∧
      e.protocolVersion = dto.protocolVersion)
    ⟨fun h => ⟨h.1, h.2.1, h.2.2⟩, fun h => ⟨h.1, h.2, h.3⟩⟩

def Event.ReadsOnly (pf : Platform) (e : Event) : Prop := e.writes pf = []

section
variable {pf : Platform} {fk : FkCheck} {w₀ : World Db} {s : Server}
variable {p : Nat} {user device : Uuid} {dto : SubmitMessageEnvelope}

theorem MessageEnvelopeService.StoredBy.routed {es : List Event} {e : MessageEnvelope} {k : MessageIdempotencyKey}
    {rs : List MessageRecipientDevice} (h : StoredBy pf user device dto es e k rs) : e.Routed dto :=
  ⟨h.conversation, h.recipient, h.protocol⟩

namespace SoundRun

theorem submission (h : SoundRun pf fk w₀ s) {pr : Process Db Key Uuid Event Answer Call}
    (hp : s.procs p = some pr) (hc : pr.call = .submitEnvelope user device dto) :
    Submission pf user device dto (eventsOf s.log p) := by
  have ht := h.trace p pr hp
  rw [hc, h.events p pr hp] at ht
  exact ht

theorem accepted (h : SoundRun pf fk w₀ s) {pr : Process Db Key Uuid Event Answer Call}
    (hp : s.procs p = some pr) (hc : pr.call = .submitEnvelope user device dto) {v : Value}
    (hr : pr.Finished (.ok v)) :
    ∃ r k e, v = .receipt r ∧ Accepted pf user device dto (eventsOf s.log p) s.db r k e := by
  have hpost := h.post hp hr
  rw [hc] at hpost
  rcases hpost with hfail | ⟨_, _, _, hacc⟩
  · exact absurd hfail (by simp [Call.aborted])
  · exact hacc

theorem payload_of_accepted (h : SoundRun pf fk w₀ s) (h₀ : w₀.db.Initial) {es : List Event}
    {r : EnvelopeReceipt} {k : MessageIdempotencyKey} {e : MessageEnvelope}
    (ha : Accepted pf user device dto es s.db r k e)
    (hsha : pf.sha256 e.opaquePayload = pf.sha256 (pf.decodeBase64 dto.opaquePayloadBase64) →
      e.opaquePayload = pf.decodeBase64 dto.opaquePayloadBase64) :
    e.opaquePayload = pf.decodeBase64 dto.opaquePayloadBase64 := by
  obtain ⟨hdigest, _⟩ := h.record_digest h₀ ha.record (lookup_mem ha.envelope) (lookup_key ha.envelope)
  exact hsha (hdigest.symm.trans ha.digest)

theorem envelope_kept (h : SoundRun pf fk w₀ s) (h₀ : w₀.db.Initial) {e : MessageEnvelope}
    {k : MessageIdempotencyKey} {rs : List MessageRecipientDevice}
    (hstored : (p, .envelopeSubmitted e k rs) ∈ s.log) : e ∈ s.db.messageEnvelopes := by
  obtain ⟨c, db, _, _, _, ⟨_, rfl⟩, es, hpath⟩ := h.entry h₀.holds hstored
  apply hpath.keeps (P := fun _ db => e ∈ db.messageEnvelopes)
  · exact fun _ _ _ hmem _ => hmem
  · intro _ db ev _ hmem hm
    obtain ⟨_, rfl⟩ := hm
    exact envelope_mem_writes ev hmem
  · rw [Event.envelopes_writes]
    exact List.mem_append_right _ (List.mem_singleton_self e)

theorem reads_only (h : SoundRun pf fk w₀ s) (h₀ : w₀.db.Initial) {k : MessageIdempotencyKey}
    (hk : k ∈ s.db.messageIdempotencyKeys) {e : MessageEnvelope} (he : e ∈ s.db.messageEnvelopes)
    (hid : e.id = k.envelopeId) (hkey : dto.idempotencyKey = k.idempotencyKey)
    {pr : Process Db Key Uuid Event Answer Call} (hp : s.procs p = some pr)
    (hc : pr.call = .submitEnvelope user k.senderDeviceId dto)
    (hother : e.opaquePayload ≠ pf.decodeBase64 dto.opaquePayloadBase64 ∨ ¬ e.Routed dto) :
    ∀ ev ∈ eventsOf s.log p, ev.ReadsOnly pf := by
  intro ev hev
  have hsub := h.submission hp hc
  cases ev with
  | envelopeSubmitted e' k' rs =>
    have hby := hsub.storedBy hev
    have hkept := h.envelope_kept h₀ (ReadCommitted.Server.mem_eventsOf.mp hev)
    have hb := h.holds.transport.keysBiject
    obtain ⟨hkd, hkk⟩ := hb.own k hk e he hid
    have heq : e' = e := hb.distinct e' hkept e he (hby.ofDevice.trans hkd)
      (hby.ofKey.trans (hkey.trans hkk))
    obtain rfl := heq
    rcases hother with hpay | hroute
    · exact absurd hby.payload hpay
    · exact absurd hby.routed hroute
  | idempotencyKeyRead device key found => rfl
  | recipientDevicesRead user devices => rfl
  | _ =>
    have hop := Call.operation_of_trace (h.trace p pr hp) (by rw [h.events p pr hp]; exact hev)
    rw [hc] at hop
    exact Operation.noConfusion hop

end SoundRun

/-- Deduplication by payload: no accepted submission loses its payload, and a
fresh one keeps its routing; a reused key stores nothing new. -/
theorem deduplication_by_payload (h : Reachable pf fk s) (hsha : Function.Injective pf.sha256) :
    (∀ p user device dto v, s.Returned p (.submitEnvelope user device dto) (.ok v) →
      ∃ r, v = .receipt r ∧ ∃ k ∈ s.db.messageIdempotencyKeys, ∃ e ∈ s.db.messageEnvelopes,
        k.senderDeviceId = device ∧ k.idempotencyKey = dto.idempotencyKey ∧ e.id = k.envelopeId ∧
        r.envelope = some e.columns ∧
        e.opaquePayload = pf.decodeBase64 dto.opaquePayloadBase64 ∧
        (r.idempotentRetry = false → e.Routed dto)) ∧
    ∀ k ∈ s.db.messageIdempotencyKeys, ∀ e ∈ s.db.messageEnvelopes, e.id = k.envelopeId →
      ∀ p user dto pr, s.procs p = some pr → pr.call = .submitEnvelope user k.senderDeviceId dto →
        dto.idempotencyKey = k.idempotencyKey →
        (e.opaquePayload ≠ pf.decodeBase64 dto.opaquePayloadBase64 →
          (∀ v, ¬ pr.Finished (.ok v)) ∧ ∀ ev ∈ eventsOf s.log p, ev.ReadsOnly pf) ∧
        (¬ e.Routed dto → ∀ ev ∈ eventsOf s.log p, ev.ReadsOnly pf) := by
  obtain ⟨w₀, h₀, hs⟩ := h.sound
  constructor
  · intro p user device dto v hret
    obtain ⟨pr, hp, hc, hr⟩ := ReadCommitted.Server.returned_iff.mp hret
    obtain ⟨r, k, e, hv, ha⟩ := hs.accepted hp hc hr
    refine ⟨r, hv, k, ha.record, e, lookup_mem ha.envelope, ha.ofDevice, ha.ofKey,
      lookup_key ha.envelope, ha.columns, hs.payload_of_accepted h₀ ha fun h => hsha h, fun hfresh => ?_⟩
    rcases ha.found with ⟨hretry, _⟩ | ⟨_, _, devices, recipients, hes⟩
    · rw [hfresh] at hretry
      exact absurd hretry (by decide)
    · have hstored : .envelopeSubmitted e k recipients ∈ eventsOf s.log p := by simp [hes]
      exact ((hs.submission hp hc).storedBy hstored).routed
  · intro k hk e he hid p user dto pr hp hc hkey
    refine ⟨fun hpay => ⟨fun v hr => ?_, ?_⟩, fun hroute => ?_⟩
    · obtain ⟨r, k', e', hv, ha⟩ := hs.accepted hp hc hr
      have hkk : k' = k := hs.holds.transport.record_unique ha.record hk ha.ofDevice
        (ha.ofKey.trans hkey)
      have hee : e' = e := eq_of_key_eq hs.holds.transport.envelopes (lookup_mem ha.envelope) he
        ((lookup_key ha.envelope).trans (by rw [hkk]; exact hid.symm))
      exact hpay (hee ▸ hs.payload_of_accepted h₀ ha fun h => hsha h)
    · exact hs.reads_only h₀ hk he hid hkey hp hc (.inl hpay)
    · exact hs.reads_only h₀ hk he hid hkey hp hc (.inr hroute)

end

/-- Bytes as the digits of a number, so that no two payloads share a digest. -/
def sampleDigest (bytes : Bytes) : Nat := bytes.foldr (fun b n => 256 * n + b.toNat + 1) 0

theorem sampleDigest_injective : Function.Injective sampleDigest :=
  digits_injective (fun _ _ => UInt8.toNat_inj.mp) fun b => b.toNat_lt

def injectivePlatform : Platform := { samplePlatform with sha256 := sampleDigest }

theorem sampleSubmission_deduplicated :
    let s := serve injectivePlatform .atCommit sampleStart sampleSubmission
    ∃ k ∈ s.db.messageIdempotencyKeys, ∃ e ∈ s.db.messageEnvelopes, k.senderDeviceId = 3 ∧
      e.id = k.envelopeId ∧ e.columns.id = 10 ∧ e.opaquePayload = [] ∧ e.Routed sampleMessage := by
  intro s
  have hret : s.Returned 0 (.submitEnvelope 1 3 sampleMessage)
      (.ok (.receipt ⟨some (envelopeOf injectivePlatform 1 3 sampleMessage 10 0).columns, some 2,
        false⟩)) := by decide
  obtain ⟨r, hr, k, hk, e, he, hd, _, hid, hcol, hpay, hroute⟩ := (deduplication_by_payload
    (sampleStart_reachable injectivePlatform .atCommit sampleSubmission)
      sampleDigest_injective).1 _ _ _ _ _ hret
  obtain rfl := Value.receipt.inj hr
  have hten : e.columns.id = 10 := by rw [← Option.some.inj hcol]; rfl
  exact ⟨k, hk, e, he, hd, hid, hten, hpay, hroute rfl⟩

/-- User 1 sends the payload of `sampleMessage` again under its key, to another
recipient and under another protocol. -/
def sampleRerouted : SubmitMessageEnvelope :=
  { sampleMessage with recipientUserId := 9, protocolVersion := 2 }

theorem sampleRerouted_swallowed : Function.Injective injectivePlatform.sha256 ∧
    let s := serve injectivePlatform .atCommit sampleStart
      (sampleSubmission ++ .call 1 (.submitEnvelope 1 3 sampleRerouted) :: Choice.steps 1 4)
    Reachable injectivePlatform .atCommit s ∧
      ∃ r e, s.Returned 1 (.submitEnvelope 1 3 sampleRerouted) (.ok (.receipt r)) ∧
        r.envelope = some e ∧ e.recipientUserId ≠ sampleRerouted.recipientUserId ∧
          e.protocolVersion ≠ sampleRerouted.protocolVersion := by
  refine ⟨sampleDigest_injective, sampleStart_reachable _ _ _, ?_⟩
  exact ⟨storedReceipt (envelopeOf injectivePlatform 1 3 sampleMessage 10 0),
    (envelopeOf injectivePlatform 1 3 sampleMessage 10 0).columns, by decide, rfl, by decide, by decide⟩

end GuffSuff
