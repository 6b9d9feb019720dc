import GuffSuff.MessagingControllers
import GuffSuff.RegistrationFailures
import GuffSuff.SubmissionFailures

/-! Requests that passed their schema against the columns they are stored in. The
schemas leave the locale, the time zone, the fields of the device, the size of
the protocol version, the range of the dates and the character zero to the
database. -/

namespace GuffSuff

open ReadCommitted MessageEnvelopeService

namespace Registration

/-- No run refuses the registration for anything but uniqueness or its proof of the phone number. -/
def Storable (pf : Platform) (params : RegisterParams) : Prop :=
  ∀ db clock used sched p r, db.Holds →
    (serve pf (.boot db clock used) sched).Returned p (.registerAccount params) r →
      ∀ x, r = .error x → x.isViolation = false

section
variable {pf : Platform} {body : AuthController.RegisterBody} {params : RegisterParams}

end

end Registration

namespace Messaging

/-- No run refuses the submission for anything but its sender, its idempotency key or uniqueness, once
the rows that it refers to are there. -/
def Storable (pf : GuffSuff.Platform) (fk : FkCheck) (dto : SubmitMessageEnvelope) : Prop :=
  ∀ db clock used sched p user device x, db.Initial → (∀ i ∈ db.ids, i ∈ used) →
    Referents user device dto db →
    (GuffSuff.serve pf fk (.boot db clock used) sched).Returned p (.submitEnvelope user device dto)
      (.error x) → x.isViolation = false

section
variable {pf : GuffSuff.Platform} {dto : SubmitMessageEnvelope} {clock : Nat}

/-- What the schema of a submission leaves open, and its tables ask for. -/
structure Fits (dto : SubmitMessageEnvelope) : Prop where
  idempotencyKey : hasNul dto.idempotencyKey = false
  protocolVersion : dto.protocolVersion ≤ 2147483647
  clientCreatedAt : dto.clientCreatedAt.isSome = true
  expiresAt : dto.expiresAt.isSome = true

end

end Messaging

namespace Registration

end Registration

namespace Messaging

end Messaging

end GuffSuff
