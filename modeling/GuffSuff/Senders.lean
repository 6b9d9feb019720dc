import GuffSuff.Services

/-! The sender of a stored envelope is a member of its conversation: what
`submitEnvelope` has read by the time it commits. -/

namespace GuffSuff

open ReadCommitted

namespace Call

def SentByMembers (db : Db) (es : List Event) : Prop :=
  ∀ e k rs, .envelopeSubmitted e k rs ∈ es → db.isMember e.conversationId e.senderUserId = true

def senderContract (pf : Platform) (fk : FkCheck) (c : Call) (w : World Db) :
    Spec.Contract Db Event Answer where
  trace es := (c.contract pf fk w).trace es ∧ SentByMembers w.db es
  answer := (c.contract pf fk w).answer

section
variable {pf : Platform} {fk : FkCheck} {w : World Db} {c : Call}

theorem sentByMembers_of_operation (hc : c.operation ≠ .submitEnvelope) {es : List Event}
    (ht : (c.contract pf fk w).trace es) : SentByMembers w.db es := by
  intro e k rs he
  exact absurd (operation_of_trace ht he).symm hc

theorem sentByMembers_of_member {user device : Uuid} {dto : SubmitMessageEnvelope}
    (hmem : w.db.isMember dto.conversationId user = true) {es : List Event}
    (ht : MessageEnvelopeService.Submission pf user device dto es) : SentByMembers w.db es := by
  intro e k rs he
  have hby := ht.storedBy he
  rw [hby.conversation, hby.sender]
  exact hmem

/-- The outline of a submission is followed to the check of its sender; from
there on the sender is known to be a member. -/
theorem safe_submission_sender {user device : Uuid} {dto : SubmitMessageEnvelope} (hi : w.db.Holds) :
    (backend pf).Safe ((submitEnvelope user device dto).senderContract pf fk w)
      (MessageEnvelopeService.submitEnvelope pf user device dto) [] [] id [] w := by
  have hsafe : (backend pf).Safe (MessageEnvelopeService.submitEnvelopeContract pf user device dto w)
      (MessageEnvelopeService.submitEnvelope pf user device dto) [] [] (applyAll []) [] w :=
    MessageEnvelopeService.safe_submitEnvelope hi
  intro w₁ hr₁ hi₁
  have h₁ := hsafe w₁ hr₁ hi₁
  dsimp only [applyAll_nil] at h₁
  dsimp only [id_eq]
  by_cases hrev : (w₁.db.deviceOfUser device user).all Device.isRevoked = true
  · rw [if_pos hrev] at h₁ ⊢
    exact h₁
  · rw [if_neg hrev] at h₁ ⊢
    intro w₂ hr₂ hi₂
    have h₂ := h₁ w₂ hr₂ hi₂
    dsimp only [applyAll_nil] at h₂
    dsimp only [id_eq]
    by_cases hout : (!w₂.db.isMember dto.conversationId user) = true
    · rw [if_pos hout] at h₂ ⊢
      exact h₂
    · have hin : w₂.db.isMember dto.conversationId user = true := by simpa using hout
      have hmem : w.db.isMember dto.conversationId user = true := by
        rw [← MessageEnvelopeService.isMember_grows (grows_of_rely (hr₁.trans hr₂))]
        exact hin
      rw [if_neg hout] at h₂ ⊢
      refine Spec.Safe.mono ?_ ?_ h₂
      · exact fun _ ht => ⟨ht, sentByMembers_of_member hmem ht⟩
      · exact fun _ _ _ ha => ha

theorem safe_sender (c : Call) (hi : w.db.Holds) :
    (backend pf).Safe (c.senderContract pf fk w) (c.program pf fk) [] [] id [] w := by
  by_cases hc : c.operation = .submitEnvelope
  · cases c with
    | submitEnvelope user device dto => exact safe_submission_sender hi
    | _ => exact Operation.noConfusion hc
  · refine Spec.Safe.mono ?_ ?_ (c.safe_program hi)
    · exact fun _ ht => ⟨ht, sentByMembers_of_operation hc ht⟩
    · exact fun _ _ _ ha => ha

end

end Call

end GuffSuff
