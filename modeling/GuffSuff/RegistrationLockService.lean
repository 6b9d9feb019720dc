import GuffSuff.Calls

/-! `RegistrationLockService`: the PIN of an account, its verification and the
lockout after failed attempts. -/

namespace GuffSuff

open ReadCommitted

namespace RegistrationLock

structure Credential where
  userId : Uuid
  pinArgon2Hash : Digest
  enabledAt : Nat
  updatedAt : Nat
  deriving DecidableEq, Repr

structure Attempt where
  id : Uuid
  userId : Uuid
  isSuccessful : Bool
  ipAddress : Option String
  createdAt : Nat
  deriving DecidableEq, Repr

instance : Keyed Credential Uuid := ⟨Credential.userId⟩
instance : Keyed Attempt Uuid := ⟨Attempt.id⟩

@[simp] theorem Credential.key_eq (r : Credential) : (Keyed.key r : Uuid) = r.userId := rfl
@[simp] theorem Attempt.key_eq (r : Attempt) : (Keyed.key r : Uuid) = r.id := rfl

/-- The tables of the service, and the users they refer to. -/
structure Db where
  users : List User
  registrationLockCredentials : List Credential
  registrationLockAttempts : List Attempt
  securityEvents : List SecurityEvent

/-- `argon2` with the options of the service; the salt of a hash is random. -/
structure Platform where
  argon2Hash : List Uuid → String → Digest
  argon2Verify : Digest → String → Bool
  pinPepper : String

/-- What a statement did; the first three only read or compute. -/
inductive Event where
  | failuresCounted (user : Uuid) (now failures : Nat)
  | hashRead (user : Uuid) (hash : Option Digest)
  | pinCompared (user : Uuid) (pin : String) (hash : Digest) (now : Nat)
  | attemptRecorded (attempt : Attempt)
  | pinSet (user : Uuid) (pin : String) (hash : Digest) (now : Nat) (previous : Option Credential)
  | pinDeleted (user : Uuid) (pin : String) (previous : Option Credential)
  | securityEventLogged (event : SecurityEvent)
  deriving DecidableEq

inductive Key where
  | credential (user : Uuid)
  | attempt (id : Uuid)
  | securityEvent (id : Uuid)
  deriving DecidableEq

inductive Value where
  | unit
  | matches (isMatch : Bool)
  deriving DecidableEq, Repr

abbrev Answer := Except Failure Value

abbrev Program := ReadCommitted.Program Db Key Uuid Event Answer

def throw (e : Failure) : Program := .rollback (.ret (.error e))

def lockoutMs : Nat := 30 * 60 * 1000
def maxFailures : Nat := 5
def maxIpLength : Nat := 45

namespace Db

def rehash (hash : Digest) (now : Nat) (r : Credential) : Credential :=
  { r with pinArgon2Hash := hash, updatedAt := now }

/-- `INSERT .. ON CONFLICT (user_id) DO UPDATE SET pin_argon2_hash = $2, updated_at = $3`. -/
def upsertCredential (user : Uuid) (hash : Digest) (now : Nat) (db : Db) : Db :=
  if user ∈ keys db.registrationLockCredentials then
    { db with registrationLockCredentials :=
                updateRows db.registrationLockCredentials [user] (rehash hash now) }
  else
    { db with registrationLockCredentials := db.registrationLockCredentials ++
                [{ userId := user, pinArgon2Hash := hash, enabledAt := now, updatedAt := now }] }

def deleteCredential (user : Uuid) (db : Db) : Db :=
  { db with registrationLockCredentials := deleteRow db.registrationLockCredentials user }

def insertAttempt (a : Attempt) (db : Db) : Db :=
  { db with registrationLockAttempts := db.registrationLockAttempts ++ [a] }

def insertSecurityEvent (e : SecurityEvent) (db : Db) : Db :=
  { db with securityEvents := db.securityEvents ++ [e] }

/-- The failed attempts of the last 30 minutes. -/
def failures (db : Db) (user : Uuid) (now : Nat) : Nat :=
  ((db.registrationLockAttempts.filter
    fun a => a.userId = user && now < a.createdAt + lockoutMs).filter
      fun a => !a.isSuccessful).length

end Db

def Event.apply : Event → Db → Db
  | failuresCounted .., db => db
  | hashRead .., db => db
  | pinCompared .., db => db
  | attemptRecorded a, db => db.insertAttempt a
  | pinSet user _ hash now _, db => db.upsertCredential user hash now
  | pinDeleted user _ _, db => db.deleteCredential user
  | securityEventLogged e, db => db.insertSecurityEvent e

def enabledEvent (id user : Uuid) (now : Nat) : SecurityEvent :=
  { id, userId := user, deviceId := none, eventType := .registrationLockEnabled, severity := .medium,
    userDescriptionKey := "sec_event.reg_lock_enabled", deviceContextJson := [],
    internalMetadataJson := [], createdAt := now }

def disabledEvent (id user : Uuid) (now : Nat) : SecurityEvent :=
  { id, userId := user, deviceId := none, eventType := .registrationLockDisabled, severity := .medium,
    userDescriptionKey := "sec_event.reg_lock_disabled", deviceContextJson := [],
    internalMetadataJson := [], createdAt := now }

def insertSecurityEvent (e : SecurityEvent) (k : Program) : Program :=
  .lock (.securityEvent e.id) fun db =>
  if e.id ∈ keys db.securityEvents then throw (.uniqueViolation "security_events_pkey")
  else if e.userId ∉ keys db.users then throw (.foreignKeyViolation "security_events_user_id_fkey")
  else .write (Db.insertSecurityEvent e) <| .commit (.securityEventLogged e) k

def insertAttempt (a : Attempt) (k : Program) : Program :=
  .lock (.attempt a.id) fun db =>
  if a.ipAddress.any (fun ip => maxIpLength < ip.length) then throw (.dataException "ip_address")
  else if a.id ∈ keys db.registrationLockAttempts then
    throw (.uniqueViolation "registration_lock_attempts_pkey")
  else if a.userId ∉ keys db.users then
    throw (.foreignKeyViolation "registration_lock_attempts_user_id_fkey")
  else .write (Db.insertAttempt a) <| .commit (.attemptRecorded a) k

/-- `/^\d{6,12}$/`. -/
def wellFormedPin (pin : String) : Bool :=
  6 ≤ pin.length && pin.length ≤ 12 && pin.toList.all Char.isDigit

section
variable (pf : Platform)

def getPepperedPin (pin : String) : String := pin ++ ":" ++ pf.pinPepper

def pinMatches (hash : Digest) (pin : String) : Bool := pf.argon2Verify hash (getPepperedPin pf pin)

def hashPin (pin : String) (k : Digest → Program) : Program :=
  if !wellFormedPin pin then .ret (.error (.error "Registration lock PIN must be 6 to 12 digits"))
  else .select (fun _ _ => true) fun salt => k (pf.argon2Hash salt (getPepperedPin pf pin))

def setPin (userId : Uuid) (pin : String) : Program :=
  hashPin pf pin fun pinHash =>
  .now fun now =>
  .lock (.credential userId) fun db =>
  if userId ∉ keys db.users then
    throw (.foreignKeyViolation "registration_lock_credentials_user_id_fkey")
  else
    .write (Db.upsertCredential userId pinHash now) <|
    .commit (.pinSet userId pin pinHash now (lookup db.registrationLockCredentials userId)) <|
    .fresh fun eventId =>
    insertSecurityEvent (enabledEvent eventId userId now) <|
    .ret (.ok .unit)

/-- `ipAddress || null`. -/
def ipOrNull (ipAddress : Option String) : Option String := ipAddress.filter (· ≠ "")

/-- `verifyPin`, with what its caller does with the answer. -/
def verify (userId : Uuid) (candidatePin : String) (ipAddress : Option String)
    (k : Bool → Program) : Program :=
  .now fun now =>
  .observe (fun _ _ => true) (fun db _ => .failuresCounted userId now (db.failures userId now))
    fun db _ =>
  if maxFailures ≤ db.failures userId now then
    .ret (.error (.error
      "Too many failed registration-lock PIN attempts. Account locked for 30 minutes."))
  else
    .observe (fun _ _ => true)
      (fun db _ => .hashRead userId
        ((lookup db.registrationLockCredentials userId).map Credential.pinArgon2Hash))
      fun db _ =>
    match lookup db.registrationLockCredentials userId with
    | none => .ret (.error (.error "Registration lock PIN is not set for this account"))
    | some row =>
      .now fun comparedAt =>
      .observe (fun _ _ => true)
        (fun _ _ => .pinCompared userId candidatePin row.pinArgon2Hash comparedAt) fun _ _ =>
      .fresh fun id =>
      .now fun now =>
      insertAttempt
        { id, userId, isSuccessful := pinMatches pf row.pinArgon2Hash candidatePin,
          ipAddress := ipOrNull ipAddress, createdAt := now } <|
      k (pinMatches pf row.pinArgon2Hash candidatePin)

def verifyPin (userId : Uuid) (candidatePin : String) (ipAddress : Option String) : Program :=
  verify pf userId candidatePin ipAddress fun isMatch => .ret (.ok (.matches isMatch))

def disablePin (userId : Uuid) (currentPin : String) : Program :=
  verify pf userId currentPin none fun isValid =>
  if !isValid then .ret (.error (.error "Incorrect registration lock PIN"))
  else
    .lock (.credential userId) fun db =>
    .write (Db.deleteCredential userId) <|
    .commit (.pinDeleted userId currentPin (lookup db.registrationLockCredentials userId)) <|
    .fresh fun eventId =>
    .now fun now =>
    insertSecurityEvent (disabledEvent eventId userId now) <|
    .ret (.ok .unit)

end

inductive Call where
  | setPin (user : Uuid) (pin : String)
  | verifyPin (user : Uuid) (candidatePin : String) (ipAddress : Option String)
  | disablePin (user : Uuid) (currentPin : String)
  deriving DecidableEq, Repr

def Call.program (pf : Platform) : Call → Program
  | .setPin user pin => RegistrationLock.setPin pf user pin
  | .verifyPin user pin ip => RegistrationLock.verifyPin pf user pin ip
  | .disablePin user pin => RegistrationLock.disablePin pf user pin

def Call.aborted (_ : Call) : Answer := .error .database

end RegistrationLock

end GuffSuff
