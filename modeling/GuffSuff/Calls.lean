import GuffSuff.ReadCommitted.Program
import GuffSuff.Writes

/-! What the calls of the services answer, the events their transactions
commit, and the library functions they use. -/

namespace GuffSuff

open ReadCommitted

structure AccessClaims where
  sessionId : Uuid
  userId : Uuid
  deviceId : Uuid
  sessionVersion : Nat
  deriving DecidableEq, Repr

/-- `jsonwebtoken` with the secret of the server: `sign` gets the claims, the
lifetime in seconds, issuer, audience and the current time; `verify` throws a message. -/
structure Jwt where
  sign : AccessClaims → Nat → String → String → Nat → List Char
  verify : List Char → String → String → Nat → Except String AccessClaims

/-- Verification undoes signing until the `exp` second, and a token is one
word of base64url segments. -/
structure Jwt.Lawful (j : Jwt) : Prop where
  verify_sign : ∀ c ttl iss aud t t', t' / 1000 < t / 1000 + ttl →
    j.verify (j.sign c ttl iss aud t) iss aud t' = .ok c
  one_word : ∀ c ttl iss aud t, ' ' ∉ j.sign c ttl iss aud t

/-- The functions of Node, its packages and PostgreSQL that the services call. -/
structure Platform where
  jwt : Jwt
  hashRefreshToken : RawToken → Digest
  sha256 : Bytes → Digest
  decodeBase64 : List Char → Bytes
  encodeBase64 : Bytes → List Char

inductive Failure where
  | error (message : String)
  | unauthorized (message : String)
  | forbidden (message : String)
  | badRequest (message : String)
  | uniqueViolation (constraint : String)
  | foreignKeyViolation (constraint : String)
  | checkViolation (constraint : String)
  | dataException (column : String)
  | database
  deriving DecidableEq, Repr

structure TokenPair where
  accessToken : List Char
  refreshToken : RawToken
  expiresInSeconds : Nat
  sessionId : Uuid
  familyId : Uuid
  deriving DecidableEq, Repr

structure EnvelopeColumns where
  id : Uuid
  conversationId : Uuid
  senderUserId : Uuid
  senderDeviceId : Uuid
  recipientUserId : Uuid
  protocolVersion : Nat
  payloadByteLength : Nat
  serverAcceptedAt : Nat
  expiresAt : Nat
  deriving DecidableEq, Repr

/-- The object `submitEnvelope` returns; it has no columns when the cached
envelope was not found, and no device count on a retry. -/
structure EnvelopeReceipt where
  envelope : Option EnvelopeColumns
  recipientDeviceCount : Option Nat
  idempotentRetry : Bool
  deriving DecidableEq, Repr

inductive Value where
  | unit
  | tokens (pair : TokenPair)
  | deviceRevoked (device : Uuid)
  | receipt (r : EnvelopeReceipt)
  | delivered (envelope device : Uuid)
  deriving DecidableEq, Repr

abbrev Answer := Except Failure Value

/-- What a committed transaction did. The last three stand for a read. -/
inductive Event where
  | sessionCreated (raw : RawToken) (user device session family token : Uuid) (now : Nat)
  | tokenRotated (raw newRaw : RawToken) (old : RefreshToken) (replacement : Uuid)
      (checkedAt now : Nat)
  | graceAnswered (raw : RawToken) (old : RefreshToken) (checkedAt now : Nat)
  | reuseDetected (raw : RawToken) (old : RefreshToken) (family : RefreshTokenFamily)
      (tokens sessions : List Uuid) (eventId : Uuid) (checkedAt now startedAt : Nat)
  | sessionRevoked (session : Uuid) (ids : List Uuid) (now : Nat)
  | userSessionsRevoked (user : Uuid) (ids : List Uuid) (now : Nat)
  | userFamiliesCompromised (user : Uuid) (ids : List Uuid) (now : Nat)
  | userTokensRevoked (user : Uuid) (ids : List Uuid) (now : Nat)
  | deviceRevoked (user device : Uuid) (reason deviceName : String)
      (sessions families tokens : List Uuid) (eventId auditId correlationId : Uuid) (now : Nat)
  | envelopeSubmitted (envelope : MessageEnvelope) (record : MessageIdempotencyKey)
      (recipients : List MessageRecipientDevice)
  | deliveryAcknowledged (record envelope device ackId : Uuid) (now : Nat)
  | deliveryRetried (record : Uuid) (now : Nat)
  | deliveriesExpired (ids : List Uuid) (now : Nat)
  | retriesSelected (ids : List Uuid)
  | idempotencyKeyRead (device : Uuid) (key : String) (found : Option Uuid)
  | recipientDevicesRead (user : Uuid) (devices : List Uuid)
  deriving DecidableEq

abbrev Program := ReadCommitted.Program Db Key Uuid Event Answer

/-- `catch`: roll back and let the caller see the error. -/
def throw (e : Failure) : Program := .rollback (.ret (.error e))

/-- The rows of an unordered `SELECT` or `UPDATE .. WHERE`, in whatever order they come. -/
def exactly (rows : Db → List Uuid) (db : Db) (ids : List Uuid) : Bool := ids.isPerm (rows db)

theorem mem_of_exactly {rows : Db → List Uuid} {db : Db} {ids : List Uuid}
    (h : exactly rows db ids = true) {i : Uuid} : i ∈ ids ↔ i ∈ rows db :=
  (List.isPerm_iff.mp h).mem_iff

theorem digits_injective {α : Type} {f : α → Nat} {base : Nat} (hf : Function.Injective f)
    (hbase : ∀ a, f a < base) :
    Function.Injective (List.foldr (fun a n => base * n + f a + 1) 0) := by
  intro as
  induction as with
  | nil =>
    intro bs h
    cases bs with
    | nil => rfl
    | cons b bs => simp at h
  | cons a as ih =>
    intro bs h
    cases bs with
    | nil => simp at h
    | cons b bs =>
      simp only [List.foldr_cons, Nat.add_right_cancel_iff] at h
      have hmod := congrArg (· % base) h
      simp only [Nat.mul_add_mod, Nat.mod_eq_of_lt (hbase _)] at hmod
      rw [hmod, Nat.add_right_cancel_iff] at h
      have hpos := Nat.lt_of_le_of_lt (Nat.zero_le _) (hbase a)
      rw [hf hmod, ih (Nat.eq_of_mul_eq_mul_left hpos h)]

end GuffSuff
