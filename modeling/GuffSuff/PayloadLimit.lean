import GuffSuff.MessagingControllers
import GuffSuff.PayloadTransport
import GuffSuff.SubmissionFailures

/-! The size of a payload in the three units in which it is bounded: characters
of base64 in the schema, bytes in the service, an integer in the table. -/

namespace GuffSuff

open ReadCommitted MessageEnvelopeService

namespace Messaging

/-- The padded base64 text of the payload passes the length bound of `SubmitMessageEnvelopeSchema`. -/
def PassesBound (bytes : Bytes) : Prop :=
  Registration.AuthController.lengthIn 1 maxPayloadText (String.ofList (Base64.encode bytes)) = true

instance (bytes : Bytes) : Decidable (PassesBound bytes) :=
  inferInstanceAs (Decidable (_ = _))

/-- A submission was refused for the size of its payload, by the service or by the table. -/
def SizeFailure (x : GuffSuff.Failure) : Prop :=
  x = .badRequest "Opaque payload exceeds maximum allowed size of 64KB" ∨
    x = .checkViolation "message_envelopes_payload_byte_length_check"

structure SameLimit (pf : GuffSuff.Platform) (fk : FkCheck) (bytes : Bytes) : Prop where
  schema : PassesBound bytes ↔ bytes.length ≤ 65536
  stored : PassesBound bytes → ∀ s, GuffSuff.Reachable pf fk s → ∀ p user device dto x,
    dto.opaquePayloadBase64 = Base64.encode bytes →
      s.Returned p (.submitEnvelope user device dto) (.error x) → ¬ SizeFailure x

theorem utf16Length_ofList {text : List Char} (h : ∀ c ∈ text, c.toNat < 128) :
    Registration.AuthController.utf16Length (String.ofList text) = text.length := by
  have hfold : ∀ n, text.foldl (fun n c => if c.toNat < 0x10000 then n + 1 else n + 2) n =
      n + text.length := by
    intro n
    induction text generalizing n with
    | nil => rfl
    | cons c text ih =>
      have hc : c.toNat < 0x10000 := Nat.lt_trans (h c List.mem_cons_self) (by decide)
      rw [List.foldl_cons, if_pos hc, ih fun x hx => h x (List.mem_cons_of_mem c hx), List.length_cons]
      omega
  rw [Registration.AuthController.utf16Length, String.toList_ofList, hfold, Nat.zero_add]

theorem passesBound_iff (bytes : Bytes) : PassesBound bytes ↔ 1 ≤ bytes.length ∧ bytes.length ≤ 65535 := by
  have hlen : Registration.AuthController.utf16Length (String.ofList (Base64.encode bytes)) =
      4 * ((bytes.length + 2) / 3) := by
    rw [utf16Length_ofList fun c hc => Base64.ascii_of_mem_encode hc, Base64.length_encode]
  simp only [PassesBound, Registration.AuthController.lengthIn, hlen, Bool.and_eq_true, decide_eq_true_eq,
    maxPayloadText]
  omega

theorem not_sizeFailure {pf : GuffSuff.Platform} {fk : FkCheck} (hpf : pf.StandardBase64) {bytes : Bytes}
    (hpass : PassesBound bytes) {s : GuffSuff.Server} (hs : GuffSuff.Reachable pf fk s) {p : Nat}
    {user device : Uuid} {dto : SubmitMessageEnvelope} {x : GuffSuff.Failure}
    (htext : dto.opaquePayloadBase64 = Base64.encode bytes)
    (hret : s.Returned p (.submitEnvelope user device dto) (.error x)) : ¬ SizeFailure x := by
  obtain ⟨db, clock, used, hdb, hused, sched⟩ := hs
  have hblame := submission_blamed hdb.holds hused hret
  have hdecode : pf.decodeBase64 dto.opaquePayloadBase64 = bytes :=
    hpf.decode _ _ (htext ▸ Base64.decode_encode bytes)
  have hsmall : ¬ maxPayloadBytes < (pf.decodeBase64 dto.opaquePayloadBase64).length := by
    have hle := ((passesBound_iff bytes).mp hpass).2
    rw [hdecode, maxPayloadBytes]
    omega
  intro hx
  rcases hx with rfl | rfl
  · exact hsmall (hblame rfl)
  · exact hsmall hblame

/-- The bounds agree on every payload but the largest: the text of 65536 bytes is too long by two. -/
theorem payload_limit_iff {pf : GuffSuff.Platform} (fk : FkCheck) (hpf : pf.StandardBase64) {bytes : Bytes}
    (hne : 1 ≤ bytes.length) : SameLimit pf fk bytes ↔ bytes.length ≠ 65536 := by
  constructor
  · intro h heq
    have hpass := h.schema.mpr (Nat.le_of_eq heq)
    have hle := ((passesBound_iff bytes).mp hpass).2
    omega
  · intro hne'
    refine ⟨?_, fun hpass s hs p user device dto x htext hret => ?_⟩
    · rw [passesBound_iff]
      omega
    · exact not_sizeFailure hpf hpass hs htext hret

theorem sampleLimit_same : SameLimit base64Platform .atCommit (List.replicate 65535 0) :=
  (payload_limit_iff .atCommit base64Platform_standard (by rw [List.length_replicate]; decide)).mpr
    (by rw [List.length_replicate]; decide)

theorem largest_payload_refused : ¬ PassesBound (List.replicate 65536 0) ∧
    ¬ SameLimit base64Platform .atCommit (List.replicate 65536 0) := by
  have hno : ¬ PassesBound (List.replicate 65536 0) := by
    rw [passesBound_iff, List.length_replicate]
    decide
  refine ⟨hno, fun h => hno (h.schema.mpr ?_)⟩
  rw [List.length_replicate]

end Messaging

end GuffSuff
