import GuffSuff.Base64
import GuffSuff.Deduplication

/-! A payload on its way through base64: the text a sender submits and the text
the devices of the recipient get for it. -/

namespace GuffSuff

open ReadCommitted MessageEnvelopeService

/-- `Buffer.from(text, 'base64')` reads padded base64, and `encode(payload, 'base64')` writes it
in lines. -/
structure Platform.StandardBase64 (pf : Platform) : Prop where
  decode : ∀ text bytes, Base64.decode text = some bytes → pf.decodeBase64 text = bytes
  encode : ∀ bytes, pf.encodeBase64 bytes = Base64.encodeLines bytes

section
variable {pf : Platform} {fk : FkCheck} {w₀ : World Db} {s : Server}

theorem MessageEnvelopeService.Submission.byteLength {user device : Uuid} {dto : SubmitMessageEnvelope}
    {es : List Event} (h : Submission pf user device dto es) {e : MessageEnvelope}
    {k : MessageIdempotencyKey} {rs : List MessageRecipientDevice} (he : .envelopeSubmitted e k rs ∈ es) :
    e.payloadByteLength = e.opaquePayload.length := by
  cases h with
  | stored devices envelope record now recipients hdev hsize =>
    have heq : Event.envelopeSubmitted e k rs = .envelopeSubmitted
        (envelopeOf pf user device dto envelope now) (keyOf pf device dto record envelope now)
          recipients := by simpa using he
    obtain ⟨rfl, _, _⟩ := Event.envelopeSubmitted.inj heq
    rfl
  | _ => simp at he

theorem SoundRun.byteLength (h : SoundRun pf fk w₀ s) (h₀ : w₀.db.Initial) {e : MessageEnvelope}
    (he : e ∈ s.db.messageEnvelopes) : e.payloadByteLength = e.opaquePayload.length := by
  obtain ⟨k, hk, hid, _⟩ := h.holds.transport.record_of_envelope he
  obtain ⟨p, rs, hp⟩ := h.envelope_origin h₀ hk he hid.symm
  have hmem := ReadCommitted.Server.mem_eventsOf.mpr hp
  obtain ⟨pr, _, ht⟩ := h.trace_of_log hp
  obtain ⟨user, device, dto, _, hsub⟩ := Call.submission_of_trace ht hmem rfl
  exact hsub.byteLength hmem

theorem Db.Waiting.found_row {db : Db} {clock : Nat} (hv : db.Holds) {e : MessageEnvelope} {device : Uuid}
    (h : db.Waiting e device) (hclock : clock < e.expiresAt) : ∃ row,
      (getPendingEnvelopes pf db clock e.recipientUserId device).filter (fun row => row.id = e.id) = [row] ∧
        row.payloadByteLength = e.payloadByteLength ∧
        row.opaquePayloadBase64 = pf.encodeBase64 e.opaquePayload := by
  have hone : ((getPendingEnvelopes pf db clock e.recipientUserId device).filter
      (fun row => row.id = e.id)).length = 1 := h.found_once hv hclock
  obtain ⟨row, hrow⟩ := List.length_eq_one_iff.mp hone
  refine ⟨row, hrow, ?_⟩
  have hmem : row ∈ (getPendingEnvelopes pf db clock e.recipientUserId device).filter
      (fun row => row.id = e.id) := by simp [hrow]
  obtain ⟨hmem, hid⟩ := List.mem_filter.mp hmem
  obtain ⟨x, hx, r, _, _, _, _, _, _, rfl⟩ := mem_getPendingEnvelopes.mp hmem
  have hxe : x = e := eq_of_key_eq hv.transport.envelopes hx h.1 (of_decide_eq_true hid)
  rw [hxe]
  exact ⟨rfl, rfl⟩

/-- The devices get the payload of an accepted submission with its length, in the text that was
submitted up to line breaks; a payload of 57 bytes or more comes with line breaks. -/
theorem payload_text_iff (h : Reachable pf fk s) (hpf : pf.StandardBase64) {q : Nat} {user device : Uuid}
    {dto : SubmitMessageEnvelope} {v : Value} {bytes : Bytes}
    (hret : s.Returned q (.submitEnvelope user device dto) (.ok v))
    (htext : dto.opaquePayloadBase64 = Base64.encode bytes)
    (hsha : ∀ e ∈ s.db.messageEnvelopes, pf.sha256 e.opaquePayload = pf.sha256 bytes →
      e.opaquePayload = bytes) (sched : List Choice) :
    let s' := serve pf fk s sched
    ∃ r, v = .receipt r ∧ ∃ e ∈ s.db.messageEnvelopes, r.envelope = some e.columns ∧
      ∀ d, s'.db.Waiting e d → s'.clock < e.expiresAt → ∃ row,
        (getPendingEnvelopes pf s'.db s'.clock e.recipientUserId d).filter
          (fun row => row.id = e.id) = [row] ∧
        row.payloadByteLength = bytes.length ∧
        row.opaquePayloadBase64.filter (· ≠ '\n') = dto.opaquePayloadBase64 ∧
        (row.opaquePayloadBase64 = dto.opaquePayloadBase64 ↔ bytes.length ≤ 56) := by
  intro s'
  obtain ⟨w₀, h₀, hs⟩ := h.sound
  obtain ⟨pr, hp, hc, hr⟩ := ReadCommitted.Server.returned_iff.mp hret
  obtain ⟨r, k, e, hv, ha⟩ := hs.accepted hp hc hr
  have he : e ∈ s.db.messageEnvelopes := lookup_mem ha.envelope
  have hdecode : pf.decodeBase64 dto.opaquePayloadBase64 = bytes :=
    hpf.decode _ _ (htext ▸ Base64.decode_encode bytes)
  have hpayload : e.opaquePayload = bytes := by
    have hsame := hs.payload_of_accepted h₀ ha
    rw [hdecode] at hsame
    exact hsame (hsha e he)
  refine ⟨r, hv, e, he, ha.columns, fun d hwait hclock => ?_⟩
  obtain ⟨row, hrow, hlen, hencoded⟩ := hwait.found_row (hs.run sched).holds hclock
  refine ⟨row, hrow, ?_, ?_, ?_⟩
  · rw [hlen, hs.byteLength h₀ he, hpayload]
  · rw [hencoded, hpf.encode, hpayload, Base64.filter_encodeLines, htext]
  · rw [hencoded, hpf.encode, hpayload, htext, Base64.encodeLines_eq_iff]
    omega

end

def base64Platform : Platform :=
  { samplePlatform with
    decodeBase64 := fun text => (Base64.decode text).getD []
    encodeBase64 := Base64.encodeLines }

theorem base64Platform_standard : base64Platform.StandardBase64 where
  decode text bytes h := by
    show (Base64.decode text).getD [] = bytes
    rw [h]
    rfl
  encode _ := rfl

def samplePayload (n : Nat) : SubmitMessageEnvelope :=
  { sampleMessage with opaquePayloadBase64 := Base64.encode (List.replicate n 1) }

def samplePayloadSubmission (n : Nat) : List Choice :=
  .call 0 (.submitEnvelope 1 3 (samplePayload n)) :: sampleSubmission.tail

theorem samplePayload_broken : base64Platform.StandardBase64 ∧
    let s := serve base64Platform .atCommit sampleStart (samplePayloadSubmission 57)
    s.Returned 0 (.submitEnvelope 1 3 (samplePayload 57)) (.ok (.receipt
      ⟨some (envelopeOf base64Platform 1 3 (samplePayload 57) 10 0).columns, some 2, false⟩)) ∧
    ∃ row ∈ getPendingEnvelopes base64Platform s.db s.clock 2 4, row.id = 10 ∧
      row.opaquePayloadBase64 ≠ (samplePayload 57).opaquePayloadBase64 :=
  ⟨base64Platform_standard, by decide⟩

theorem samplePayload_kept :
    let s := serve base64Platform .atCommit sampleStart (samplePayloadSubmission 4)
    let s' := serve base64Platform .atCommit s [.tick 5]
    ∃ row ∈ getPendingEnvelopes base64Platform s'.db s'.clock 2 4, row.payloadByteLength = 4 ∧
      row.opaquePayloadBase64 = (samplePayload 4).opaquePayloadBase64 := by
  intro s s'
  have hret : s.Returned 0 (.submitEnvelope 1 3 (samplePayload 4)) (.ok (.receipt
      ⟨some (envelopeOf base64Platform 1 3 (samplePayload 4) 10 0).columns, some 2, false⟩)) := by decide
  have hsha : ∀ e ∈ s.db.messageEnvelopes, base64Platform.sha256 e.opaquePayload =
      base64Platform.sha256 (List.replicate 4 1) → e.opaquePayload = List.replicate 4 1 := by decide
  obtain ⟨r, hr, e, he, hcol, hrows⟩ := payload_text_iff
    (sampleStart_reachable base64Platform .atCommit (samplePayloadSubmission 4))
      base64Platform_standard hret rfl hsha [.tick 5]
  have hstored : e = envelopeOf base64Platform 1 3 (samplePayload 4) 10 0 := by
    have hall : ∀ x ∈ s.db.messageEnvelopes, x = envelopeOf base64Platform 1 3 (samplePayload 4) 10 0 := by
      decide
    exact hall e he
  have hwait : s'.db.Waiting e 4 := by
    rw [hstored]
    exact ⟨by decide, newRecipient 12 10 4 0, by decide, rfl, rfl, rfl⟩
  have hclock : s'.clock < e.expiresAt := by
    rw [hstored]
    decide
  obtain ⟨row, hrow, hlen, _, htext⟩ := hrows 4 hwait hclock
  have hmem : row ∈ [row] := List.mem_singleton_self row
  rw [← hrow] at hmem
  have hto : e.recipientUserId = 2 := by rw [hstored]; rfl
  rw [hto] at hmem
  exact ⟨row, List.mem_of_mem_filter hmem, hlen, htext.mpr (by decide)⟩

end GuffSuff
