import GuffSuff.ReadCommitted.Embedding
import GuffSuff.PhoneNumberService

/-! The tables of migration 001 that the registration of an account reads or
writes. -/

namespace GuffSuff

open ReadCommitted

namespace Registration

structure User where
  id : Uuid
  accountState : AccountState
  termsAcceptedAt : Nat
  privacyAcceptedAt : Nat
  locale : String
  timezone : String
  createdAt : Nat
  updatedAt : Nat
  deriving DecidableEq, Repr

structure PhoneIdentity where
  id : Uuid
  userId : Uuid
  phoneEncrypted : Bytes
  phoneBlindIndex : Digest
  isPrimary : Bool
  verifiedAt : Nat
  createdAt : Nat
  updatedAt : Nat
  deriving DecidableEq, Repr

structure UserProfile where
  userId : Uuid
  displayName : String
  avatarObjectKey : Option String
  bio : Option String
  profileVisibility : String
  createdAt : Nat
  updatedAt : Nat
  deriving DecidableEq, Repr

structure Username where
  id : Uuid
  userId : Uuid
  usernameCanonical : String
  usernameDisplay : String
  assignedAt : Nat
  cooldownUntil : Nat
  deriving DecidableEq, Repr

structure Device where
  id : Uuid
  userId : Uuid
  installationId : String
  deviceName : String
  platform : String
  appVersion : String
  osVersion : String
  notificationTokenStatus : String
  isRevoked : Bool
  revokedAt : Option Nat
  revokedReason : Option String
  createdAt : Nat
  lastSeenAt : Nat
  deriving DecidableEq, Repr

structure PrivacySettings where
  userId : Uuid
  lastSeenVisibility : String
  onlineStatusVisibility : String
  profilePhotoVisibility : String
  phoneNumberVisibility : String
  readReceipts : Bool
  phoneDiscoverability : Bool
  securityNotifications : Bool
  notificationPreviews : Bool
  updatedAt : Nat
  deriving DecidableEq, Repr

structure OtpChallenge where
  id : Uuid
  phoneBlindIndex : Digest
  verifierHash : Digest
  attemptsCount : Nat
  maxAttempts : Nat
  expiresAt : Nat
  resendAvailableAt : Nat
  isVerified : Bool
  createdAt : Nat
  deriving DecidableEq, Repr

structure OtpDeliveryAttempt where
  id : Uuid
  challengeId : Uuid
  providerName : String
  providerRequestId : Option String
  status : String
  costAmount : Nat
  costCurrency : String
  errorCode : Option String
  createdAt : Nat
  deriving DecidableEq, Repr

instance : Keyed User Uuid := ⟨User.id⟩
instance : Keyed PhoneIdentity Uuid := ⟨PhoneIdentity.id⟩
instance : Keyed UserProfile Uuid := ⟨UserProfile.userId⟩
instance : Keyed Username Uuid := ⟨Username.id⟩
instance : Keyed Device Uuid := ⟨Device.id⟩
instance : Keyed PrivacySettings Uuid := ⟨PrivacySettings.userId⟩
instance : Keyed OtpChallenge Uuid := ⟨OtpChallenge.id⟩
instance : Keyed OtpDeliveryAttempt Uuid := ⟨OtpDeliveryAttempt.id⟩

@[simp] theorem User.key_eq (r : User) : (Keyed.key r : Uuid) = r.id := rfl
@[simp] theorem OtpChallenge.key_eq (r : OtpChallenge) : (Keyed.key r : Uuid) = r.id := rfl

/-- What a column of type `varchar(max)` keeps of a parameter, if the database takes it. -/
def textColumn (max : Nat) (text : String) : Option String :=
  if hasNul text then none else varchar max text

def keptText (max : Nat) (text : String) : String := (textColumn max text).getD text

theorem textColumn_of_length_le {max : Nat} {text : String} (hnul : hasNul text = false)
    (h : text.length ≤ max) : textColumn max text = some text := by
  simp [textColumn, varchar, hnul, h]

theorem keptText_of_length_le {max : Nat} {text : String} (hnul : hasNul text = false)
    (h : text.length ≤ max) : keptText max text = text := by
  rw [keptText, textColumn_of_length_le hnul h, Option.getD_some]

/-- What a column keeps is the text itself or as long as the column. -/
theorem keptText_eq_or (max : Nat) (text : String) :
    keptText max text = text ∨ (keptText max text).length = max := by
  cases hnul : hasNul text with
  | true => simp [keptText, textColumn, hnul]
  | false =>
    by_cases hlong : text.length ≤ max
    · exact .inl (keptText_of_length_le hnul hlong)
    · simp only [keptText, textColumn, varchar, hnul, hlong, if_false, Bool.false_eq_true]
      split
      · have hlen : max ≤ text.toList.length := by
          rw [String.length_toList]
          omega
        simp [String.length_ofList, hlen]
      · simp

/-- A row of parameters as its columns keep it. -/
def User.kept (r : User) : User :=
  { r with locale := keptText 10 r.locale, timezone := keptText 64 r.timezone }

def UserProfile.kept (r : UserProfile) : UserProfile :=
  { r with displayName := keptText 100 r.displayName }

def Username.kept (r : Username) : Username :=
  { r with usernameCanonical := keptText 32 r.usernameCanonical
           usernameDisplay := keptText 32 r.usernameDisplay }

def Device.kept (r : Device) : Device :=
  { r with installationId := keptText 128 r.installationId
           deviceName := keptText 100 r.deviceName
           platform := keptText 32 r.platform
           appVersion := keptText 32 r.appVersion
           osVersion := keptText 32 r.osVersion }

/-- `SET is_verified = true, attempts_count = attempts_count + 1`, the first
assignment only when the code matched. -/
def OtpChallenge.count (isMatch : Bool) (r : OtpChallenge) : OtpChallenge :=
  { r with isVerified := r.isVerified || isMatch, attemptsCount := r.attemptsCount + 1 }

structure Db where
  users : List User
  phoneIdentities : List PhoneIdentity
  userProfiles : List UserProfile
  usernames : List Username
  devices : List Device
  privacySettings : List PrivacySettings
  otpChallenges : List OtpChallenge
  otpDeliveryAttempts : List OtpDeliveryAttempt
  securityEvents : List SecurityEvent
  auditEvents : List AuditEvent
  sessions : List Session
  refreshTokenFamilies : List RefreshTokenFamily
  refreshTokens : List RefreshToken

/-- The rows of one registration. -/
structure Account where
  user : User
  phoneIdentity : PhoneIdentity
  userProfile : UserProfile
  username : Username
  device : Device
  privacySettings : PrivacySettings
  securityEvent : SecurityEvent
  auditEvent : AuditEvent
  deriving DecidableEq

def Account.kept (a : Account) : Account :=
  { a with user := a.user.kept, userProfile := a.userProfile.kept, username := a.username.kept
           device := a.device.kept }

@[simp] theorem Account.kept_phoneIdentity (a : Account) : a.kept.phoneIdentity = a.phoneIdentity := rfl

namespace Db

def empty : Db :=
  { users := [], phoneIdentities := [], userProfiles := [], usernames := [], devices := [],
    privacySettings := [], otpChallenges := [], otpDeliveryAttempts := [], securityEvents := [],
    auditEvents := [], sessions := [], refreshTokenFamilies := [], refreshTokens := [] }

def insertUser (r : User) (db : Db) : Db := { db with users := db.users ++ [r] }

def insertPhoneIdentity (r : PhoneIdentity) (db : Db) : Db :=
  { db with phoneIdentities := db.phoneIdentities ++ [r] }

def insertUserProfile (r : UserProfile) (db : Db) : Db :=
  { db with userProfiles := db.userProfiles ++ [r] }

def insertUsername (r : Username) (db : Db) : Db := { db with usernames := db.usernames ++ [r] }

def insertDevice (r : Device) (db : Db) : Db := { db with devices := db.devices ++ [r] }

def insertPrivacySettings (r : PrivacySettings) (db : Db) : Db :=
  { db with privacySettings := db.privacySettings ++ [r] }

def insertSecurityEvent (r : SecurityEvent) (db : Db) : Db :=
  { db with securityEvents := db.securityEvents ++ [r] }

def insertAuditEvent (r : AuditEvent) (db : Db) : Db :=
  { db with auditEvents := db.auditEvents ++ [r] }

def insertOtpChallenge (r : OtpChallenge) (db : Db) : Db :=
  { db with otpChallenges := db.otpChallenges ++ [r] }

def insertOtpDeliveryAttempt (r : OtpDeliveryAttempt) (db : Db) : Db :=
  { db with otpDeliveryAttempts := db.otpDeliveryAttempts ++ [r] }

def countAttempt (id : Uuid) (isMatch : Bool) (db : Db) : Db :=
  { db with otpChallenges := updateRows db.otpChallenges [id] (OtpChallenge.count isMatch) }

def insertAccount (a : Account) (db : Db) : Db :=
  insertAuditEvent a.auditEvent <| insertSecurityEvent a.securityEvent <|
  insertPrivacySettings a.privacySettings <| insertDevice a.device <|
  insertUsername a.username <| insertUserProfile a.userProfile <|
  insertPhoneIdentity a.phoneIdentity <| insertUser a.user db

end Db

inductive Key where
  | user (id : Uuid)
  | phoneIdentity (id : Uuid)
  | blindIndex (digest : Digest)
  | userProfile (user : Uuid)
  | username (id : Uuid)
  | canonical (name : String)
  | device (id : Uuid)
  | privacySettings (user : Uuid)
  | otpChallenge (id : Uuid)
  | otpDeliveryAttempt (id : Uuid)
  | securityEvent (id : Uuid)
  | auditEvent (id : Uuid)
  | session (key : GuffSuff.Key)
  deriving DecidableEq

/-- What a statement did; a challenge is selected, and a code compared, without a write. -/
inductive Event where
  | challengeRequested (challenge : OtpChallenge) (rawOtp : String)
  | deliveryRecorded (attempt : OtpDeliveryAttempt)
  | challengeSelected (id : Uuid) (challenge : Option OtpChallenge) (readAt : Nat)
  | codeCompared (id : Uuid) (challengeId candidateOtp : String) (challenge : OtpChallenge)
      (comparedAt : Nat)
  | attemptCounted (id : Uuid) (isMatch : Bool)
  | accountRegistered (challengeId : Uuid) (phoneNumber : String) (account : Account)
  | session (event : GuffSuff.Event)
  deriving DecidableEq

structure Challenge where
  challengeId : Uuid
  resendAvailableAt : Nat
  expiresAt : Nat
  deriving DecidableEq, Repr

structure Registered where
  userId : Uuid
  username : String
  displayName : String
  deviceId : Uuid
  tokenPair : GuffSuff.Value
  deriving DecidableEq, Repr

inductive Value where
  | challenge (c : Challenge)
  | verified (isMatch : Bool)
  | registered (r : Registered)
  deriving DecidableEq, Repr

abbrev Answer := Except Failure Value

abbrev Program := ReadCommitted.Program Db Key Uuid Event Answer

def throw (e : Failure) : Program := .rollback (.ret (.error e))

/-- The checks of a statement, each with the error that it raises. -/
def checked (checks : List (Bool × Failure)) (k : Program) : Program :=
  match checks with
  | [] => k
  | (violated, failure) :: checks => if violated then throw failure else checked checks k

/-- An `INSERT`: its entries of the primary key and the unique indexes, which
wait for a transaction that has inserted the same ones, then its checks. -/
def insertRow (locks : List Key) (checks : Db → List (Bool × Failure)) (write : Db → Db)
    (k : Program) : Program :=
  match locks with
  | [] => .query fun db => checked (checks db) (.write write k)
  | key :: locks => .lock key fun _ => insertRow locks checks write k

end Registration

end GuffSuff
