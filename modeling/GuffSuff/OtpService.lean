import GuffSuff.RegistrationSchema

/-! `OtpService`: one-time passwords for phone numbers, kept as keyed digests. -/

namespace GuffSuff

open ReadCommitted

namespace Registration

structure OtpDeliveryResult where
  success : Bool
  providerName : String
  providerRequestId : Option String
  costAmount : Nat
  costCurrency : String
  errorCode : Option String
  deriving DecidableEq, Repr

namespace OtpService

def dayMs : Nat := 24 * 60 * 60 * 1000
def validityMs : Nat := 5 * 60 * 1000
def maxAttempts : Nat := 3
def minCode : Nat := 100000
def maxCode : Nat := 1000000
def maxRequestIdLength : Nat := 128

/-- `crypto.randomInt(100000, 1000000)`. -/
def isRandomCode (drawn : List Uuid) : Bool :=
  match drawn with
  | [n] => minCode ≤ n && n < maxCode
  | _ => false

def codeText (drawn : List Uuid) : String := toString (drawn.headD 0)

/-- The `created_at` of the challenges for an index in the last 24 hours. -/
def recentChallenges (db : Db) (phoneBlindIndex : Digest) (now : Nat) : List Nat :=
  (db.otpChallenges.filter fun r =>
    r.phoneBlindIndex = phoneBlindIndex && now < r.createdAt + dayMs).map OtpChallenge.createdAt

/-- 60s, 120s, 300s. -/
def cooldownSeconds (recent : List Nat) : Nat :=
  if recent.length = 1 then 120 else if 2 ≤ recent.length then 300 else 60

/-- What is left of the cooldown after the newest challenge, rounded up. -/
def secondsRemaining (recent : List Nat) (now : Nat) : Option Nat :=
  match recent.max? with
  | none => none
  | some lastCreated =>
    if now < lastCreated + cooldownSeconds recent * 1000 then
      some ((lastCreated + cooldownSeconds recent * 1000 - now + 999) / 1000)
    else none

def insertOtpChallenge (r : OtpChallenge) (rawOtp : String) (k : Program) : Program :=
  insertRow [.otpChallenge r.id]
    (fun db => [(r.id ∈ keys db.otpChallenges, .uniqueViolation "otp_challenges_pkey")])
    (Db.insertOtpChallenge r) <|
  .commit (.challengeRequested r rawOtp) k

def insertOtpDeliveryAttempt (r : OtpDeliveryAttempt) (k : Program) : Program :=
  insertRow [.otpDeliveryAttempt r.id]
    (fun db =>
      [(r.providerRequestId.any (fun id => maxRequestIdLength < id.length),
          .dataException "provider_request_id"),
        (r.id ∈ keys db.otpDeliveryAttempts, .uniqueViolation "otp_delivery_attempts_pkey"),
        (r.challengeId ∉ keys db.otpChallenges,
          .foreignKeyViolation "otp_delivery_attempts_challenge_id_fkey")])
    (Db.insertOtpDeliveryAttempt r) <|
  .commit (.deliveryRecorded r) k

section
variable (pf : Platform)

/-- `${challengeId}:${otpCode}` under the pepper of the verifiers. -/
def computeVerifierHash (challengeId otpCode : String) : Digest :=
  pf.hmacOtp (challengeId ++ ":" ++ otpCode)

/-- The provider of the environment; production has none. -/
def sendOtp (challengeId : String) : Except String OtpDeliveryResult :=
  if pf.production then
    .error ("[CONFIG-ERROR] No permanent production SMS provider configured. " ++
      "Sparow SMS / Twilio integration requires explicit evaluation.")
  else
    .ok { success := true, providerName := "DEV_SIMULATOR",
          providerRequestId := some ("sim_" ++ challengeId), costAmount := 0, costCurrency := "NPR",
          errorCode := none }

def newChallenge (challengeId : Uuid) (phoneBlindIndex : Digest) (rawOtp : String)
    (cooldown now : Nat) : OtpChallenge :=
  { id := challengeId, phoneBlindIndex,
    verifierHash := computeVerifierHash pf (pf.uuidText challengeId) rawOtp, attemptsCount := 0,
    maxAttempts := maxAttempts, expiresAt := now + validityMs,
    resendAvailableAt := now + cooldown * 1000, isVerified := false, createdAt := now }

def newDelivery (id challengeId : Uuid) (result : OtpDeliveryResult) (now : Nat) : OtpDeliveryAttempt :=
  { id, challengeId, providerName := result.providerName,
    providerRequestId := result.providerRequestId.filter (· ≠ ""),
    status := if result.success then "DELIVERED" else "FAILED", costAmount := result.costAmount,
    costCurrency := result.costCurrency, errorCode := result.errorCode.filter (· ≠ ""),
    createdAt := now }

def requestOtpChallenge (phoneBlindIndex : Digest) : Program :=
  .now fun selectedAt =>
  .query fun db =>
  let recent := recentChallenges db phoneBlindIndex selectedAt
  .now fun checkedAt =>
  match secondsRemaining recent checkedAt with
  | some seconds =>
    .ret (.error (.error ("OTP resend cooldown active. Try again in " ++ toString seconds ++ " seconds.")))
  | none =>
    .select (fun _ drawn => isRandomCode drawn) fun drawn =>
    .fresh fun challengeId =>
    .now fun now =>
    insertOtpChallenge
      (newChallenge pf challengeId phoneBlindIndex (codeText drawn) (cooldownSeconds recent) now)
      (codeText drawn) <|
    match sendOtp pf (pf.uuidText challengeId) with
    | .error message => .ret (.error (.error message))
    | .ok result =>
      .fresh fun id =>
      insertOtpDeliveryAttempt (newDelivery id challengeId result now) <|
      .ret (.ok (.challenge
        { challengeId, resendAvailableAt := now + cooldownSeconds recent * 1000,
          expiresAt := now + validityMs }))

def isMatch (challengeId candidateOtp : String) (challenge : OtpChallenge) : Bool :=
  computeVerifierHash pf challengeId candidateOtp = challenge.verifierHash

/-- The `UPDATE` after a comparison, by itself a transaction. -/
def countAttempt (id : Uuid) (isMatch : Bool) (k : Program) : Program :=
  .lock (.otpChallenge id) fun _ =>
  .write (Db.countAttempt id isMatch) <| .commit (.attemptCounted id isMatch) k

/-- The `SELECT .. FOR UPDATE` holds its row lock for the statement only. -/
def verifyOtpChallenge (challengeId candidateOtp : String) : Program :=
  match pf.uuid challengeId with
  | none => .ret (.error (.dataException "id"))
  | some id =>
    .lock (.otpChallenge id) fun db =>
    .now fun readAt =>
    .commit (.challengeSelected id (lookup db.otpChallenges id) readAt) <|
    match lookup db.otpChallenges id with
    | none => .ret (.error (.error "Invalid or expired OTP challenge"))
    | some challenge =>
      if challenge.isVerified then
        .ret (.error (.error "OTP challenge has already been verified"))
      else
        .now fun comparedAt =>
        if challenge.expiresAt < comparedAt then
          .ret (.error (.error "OTP challenge has expired"))
        else if challenge.maxAttempts ≤ challenge.attemptsCount then
          .ret (.error (.error "Maximum OTP verification attempts exceeded"))
        else
          .observe (fun _ _ => true)
            (fun _ _ => .codeCompared id challengeId candidateOtp challenge comparedAt) fun _ _ =>
          countAttempt id (isMatch pf challengeId candidateOtp challenge) <|
          .ret (.ok (.verified (isMatch pf challengeId candidateOtp challenge)))

end

end OtpService

end Registration

end GuffSuff
