import GuffSuff.SessionService
import GuffSuff.OtpService

/-! `AccountService`: the transaction that registers an account for a verified
challenge, and the requests of `AuthController` that lead to it. -/

namespace GuffSuff

open ReadCommitted

namespace Registration

structure RegisterParams where
  challengeId : String
  phoneNumber : String
  displayName : String
  username : String
  installationId : String
  deviceName : String
  platform : String
  appVersion : String
  osVersion : String
  locale : Option String
  timezone : Option String
  deriving DecidableEq, Repr

/-- `value || fallback`. -/
def orDefault (value : Option String) (fallback : String) : String :=
  (value.filter (· ≠ "")).getD fallback

/-- `/^[a-z0-9_]{3,20}$/`, of the schema and of the table. -/
def wellFormedUsername (name : String) : Bool :=
  3 ≤ name.length && name.length ≤ 20 &&
    name.toList.all fun c => (c.isLower || c.isDigit || c = '_')

theorem wellFormedUsername_length {name : String} (h : wellFormedUsername name = true) : name.length ≤ 20 := by
  simp only [wellFormedUsername, Bool.and_eq_true, decide_eq_true_eq] at h
  exact h.1.2

theorem wellFormedUsername_of_kept {name : String} (h : wellFormedUsername (keptText 32 name) = true) :
    keptText 32 name = name := by
  rcases keptText_eq_or 32 name with heq | hlen
  · exact heq
  · have hle := wellFormedUsername_length h
    omega

def platforms : List String := ["android", "ios", "web", "desktop"]

namespace AccountService

/-- The check of a text against its column. -/
def textCheck (column : String) (max : Nat) (text : String) : Bool × Failure :=
  ((textColumn max text).isNone, .dataException column)

def insertUser (r : User) : Program → Program :=
  insertRow [.user r.id]
    (fun db =>
      [textCheck "locale" 10 r.locale,
        textCheck "timezone" 64 r.timezone,
        (r.id ∈ keys db.users, .uniqueViolation "users_pkey")])
    (Db.insertUser r.kept)

def insertPhoneIdentity (r : PhoneIdentity) : Program → Program :=
  insertRow [.phoneIdentity r.id, .blindIndex r.phoneBlindIndex]
    (fun db =>
      [(r.id ∈ keys db.phoneIdentities, .uniqueViolation "phone_identities_pkey"),
        (r.phoneBlindIndex ∈ db.phoneIdentities.map PhoneIdentity.phoneBlindIndex,
          .uniqueViolation "idx_phone_identities_verified_blind"),
        (r.userId ∉ keys db.users, .foreignKeyViolation "phone_identities_user_id_fkey")])
    (Db.insertPhoneIdentity r)

def insertUserProfile (r : UserProfile) : Program → Program :=
  insertRow [.userProfile r.userId]
    (fun db =>
      [textCheck "display_name" 100 r.displayName,
        (r.userId ∈ keys db.userProfiles, .uniqueViolation "user_profiles_pkey"),
        (r.userId ∉ keys db.users, .foreignKeyViolation "user_profiles_user_id_fkey")])
    (Db.insertUserProfile r.kept)

/-- The `CHECK` and the unique index see what the column keeps. -/
def insertUsername (r : Username) : Program → Program :=
  insertRow [.username r.id, .canonical r.kept.usernameCanonical]
    (fun db =>
      [textCheck "username_canonical" 32 r.usernameCanonical,
        textCheck "username_display" 32 r.usernameDisplay,
        (!wellFormedUsername r.kept.usernameCanonical,
          .checkViolation "usernames_username_canonical_check"),
        (r.id ∈ keys db.usernames, .uniqueViolation "usernames_pkey"),
        (r.kept.usernameCanonical ∈ db.usernames.map Username.usernameCanonical,
          .uniqueViolation "usernames_username_canonical_key"),
        (r.userId ∉ keys db.users, .foreignKeyViolation "usernames_user_id_fkey")])
    (Db.insertUsername r.kept)

def insertDevice (r : Device) : Program → Program :=
  insertRow [.device r.id]
    (fun db =>
      [textCheck "installation_id" 128 r.installationId,
        textCheck "device_name" 100 r.deviceName,
        textCheck "platform" 32 r.platform,
        textCheck "app_version" 32 r.appVersion,
        textCheck "os_version" 32 r.osVersion,
        (r.kept.platform ∉ platforms, .checkViolation "devices_platform_check"),
        (r.id ∈ keys db.devices, .uniqueViolation "devices_pkey"),
        (r.userId ∉ keys db.users, .foreignKeyViolation "devices_user_id_fkey")])
    (Db.insertDevice r.kept)

def insertPrivacySettings (r : PrivacySettings) : Program → Program :=
  insertRow [.privacySettings r.userId]
    (fun db =>
      [(r.userId ∈ keys db.privacySettings, .uniqueViolation "privacy_settings_pkey"),
        (r.userId ∉ keys db.users, .foreignKeyViolation "privacy_settings_user_id_fkey")])
    (Db.insertPrivacySettings r)

def insertSecurityEvent (r : SecurityEvent) : Program → Program :=
  insertRow [.securityEvent r.id]
    (fun db =>
      [(r.id ∈ keys db.securityEvents, .uniqueViolation "security_events_pkey"),
        (r.userId ∉ keys db.users, .foreignKeyViolation "security_events_user_id_fkey"),
        (r.deviceId.any (fun d => d ∉ keys db.devices),
          .foreignKeyViolation "security_events_device_id_fkey")])
    (Db.insertSecurityEvent r)

def insertAuditEvent (r : AuditEvent) : Program → Program :=
  insertRow [.auditEvent r.id]
    (fun db => [(r.id ∈ keys db.auditEvents, .uniqueViolation "audit_events_pkey")])
    (Db.insertAuditEvent r)

/-- The statements of a registration; its security event tells of the device as it was named. -/
def insertAccount (a : Account) (k : Program) : Program :=
  insertUser a.user <|
  insertPhoneIdentity a.phoneIdentity <|
  insertUserProfile a.userProfile <|
  insertUsername a.username <|
  insertDevice a.device <|
  insertPrivacySettings a.privacySettings <|
  insertSecurityEvent a.securityEvent <|
  insertAuditEvent a.auditEvent k

/-- The identifiers that a registration draws, in this order. -/
structure AccountIds where
  userId : Uuid
  phoneId : Uuid
  usernameId : Uuid
  deviceId : Uuid
  securityEventId : Uuid
  auditEventId : Uuid
  correlationId : Uuid

def drawIds (k : AccountIds → Program) : Program :=
  .fresh fun userId => .fresh fun phoneId => .fresh fun usernameId => .fresh fun deviceId =>
  .fresh fun securityEventId => .fresh fun auditEventId => .fresh fun correlationId =>
  k { userId, phoneId, usernameId, deviceId, securityEventId, auditEventId, correlationId }

def accountOf (params : RegisterParams) (canonicalUsername : String) (phoneBlindIndex : Digest)
    (encryptedPhone : Bytes) (ids : AccountIds) (now : Nat) : Account where
  user :=
    { id := ids.userId, accountState := .active, termsAcceptedAt := now, privacyAcceptedAt := now,
      locale := orDefault params.locale "ne",
      timezone := orDefault params.timezone "Asia/Kathmandu", createdAt := now, updatedAt := now }
  phoneIdentity :=
    { id := ids.phoneId, userId := ids.userId, phoneEncrypted := encryptedPhone, phoneBlindIndex,
      isPrimary := true, verifiedAt := now, createdAt := now, updatedAt := now }
  userProfile :=
    { userId := ids.userId, displayName := params.displayName, avatarObjectKey := none, bio := none,
      profileVisibility := "contacts_only", createdAt := now, updatedAt := now }
  username :=
    { id := ids.usernameId, userId := ids.userId, usernameCanonical := canonicalUsername,
      usernameDisplay := params.username, assignedAt := now, cooldownUntil := now }
  device :=
    { id := ids.deviceId, userId := ids.userId, installationId := params.installationId,
      deviceName := params.deviceName, platform := params.platform, appVersion := params.appVersion,
      osVersion := params.osVersion, notificationTokenStatus := "disabled", isRevoked := false,
      revokedAt := none, revokedReason := none, createdAt := now, lastSeenAt := now }
  privacySettings :=
    { userId := ids.userId, lastSeenVisibility := "contacts_only",
      onlineStatusVisibility := "contacts_only", profilePhotoVisibility := "contacts_only",
      phoneNumberVisibility := "nobody", readReceipts := true, phoneDiscoverability := false,
      securityNotifications := true, notificationPreviews := true, updatedAt := now }
  securityEvent :=
    { id := ids.securityEventId, userId := ids.userId, deviceId := some ids.deviceId,
      eventType := .accountRegistered, severity := .low,
      userDescriptionKey := "sec_event.registration_complete",
      deviceContextJson := [("deviceName", .text params.deviceName), ("platform", .text params.platform)],
      internalMetadataJson := [], createdAt := now }
  auditEvent :=
    { id := ids.auditEventId, actorType := "user", actorId := ids.userId,
      action := "account_registered", targetType := "user", targetId := ids.userId,
      reason := some "Registration completed", correlationId := ids.correlationId,
      requestId := ids.correlationId, outcome := "success", beforeStateJson := none,
      afterStateJson := some [("userId", .uuid ids.userId), ("username", .text canonicalUsername)],
      createdAt := now }

/-- The tables of `SessionService` inside those of registration. -/
def sessionTables : Embedding GuffSuff.Db GuffSuff.Key GuffSuff.Event Db Key Event where
  view db :=
    { GuffSuff.Db.empty with
      users := db.users.map fun r => { id := r.id, accountState := r.accountState }
      devices := db.devices.map fun r =>
        { id := r.id, userId := r.userId, deviceName := r.deviceName, isRevoked := r.isRevoked,
          revokedAt := r.revokedAt, revokedReason := r.revokedReason }
      sessions := db.sessions
      refreshTokenFamilies := db.refreshTokenFamilies
      refreshTokens := db.refreshTokens }
  put d db :=
    { db with
      sessions := d.sessions
      refreshTokenFamilies := d.refreshTokenFamilies
      refreshTokens := d.refreshTokens }
  key := .session
  event := .session

section
variable (pf : Platform)

/-- The answer, once the session service has issued the tokens. -/
def answerRegistered (params : RegisterParams) (canonicalUsername : String) (ids : AccountIds)
    (issued : GuffSuff.Answer) : Program :=
  match issued with
  | .error e => throw e
  | .ok tokenPair =>
    .ret (.ok (.registered
      { userId := ids.userId, username := canonicalUsername, displayName := params.displayName,
        deviceId := ids.deviceId, tokenPair }))

/-- `crypto.randomBytes(12)`. -/
def isIv (drawn : List Uuid) : Bool := drawn.length = PhoneNumberService.ivLength

def ivBytes (drawn : List Uuid) : Bytes := drawn.map UInt8.ofNat

def registerAccount (params : RegisterParams) : Program :=
  match pf.uuid params.challengeId with
  | none => throw (.dataException "id")
  | some challengeId =>
    .lock (.otpChallenge challengeId) fun db =>
    match lookup db.otpChallenges challengeId with
    | none => throw (.error "Invalid or unverified OTP challenge")
    | some challenge =>
      if !challenge.isVerified then throw (.error "Invalid or unverified OTP challenge")
      else
        match PhoneNumberService.normalizeToE164 pf params.phoneNumber "NP" with
        | .error message => throw (.error message)
        | .ok normalizedE164 =>
          .select (fun _ drawn => isIv drawn) fun drawn =>
          let encryptedPhone :=
            PhoneNumberService.encryptPhoneNumber pf (ivBytes drawn) normalizedE164
          .query fun db =>
          if challenge.phoneBlindIndex ∈ db.phoneIdentities.map PhoneIdentity.phoneBlindIndex then
            throw (.error "Phone number is already registered to an existing account")
          else if hasNul (pf.toLowerCase params.username) then throw (.dataException "username_canonical")
          else
            .query fun db =>
            if pf.toLowerCase params.username ∈ db.usernames.map Username.usernameCanonical then
              throw (.error "Username is already taken")
            else
              drawIds fun ids =>
              .now fun now =>
              let account := accountOf params (pf.toLowerCase params.username)
                challenge.phoneBlindIndex encryptedPhone ids now
              insertAccount account <|
              .commit (.accountRegistered challengeId params.phoneNumber account.kept) <|
              (SessionService.createSession pf.services ids.userId ids.deviceId).embed sessionTables
                (answerRegistered params (pf.toLowerCase params.username) ids)

end

/-- A row of the join of `getProfile`; an account may have no username in it. -/
structure Profile where
  userId : Uuid
  accountState : AccountState
  locale : String
  timezone : String
  displayName : String
  avatarObjectKey : Option String
  bio : Option String
  profileVisibility : String
  usernameCanonical : Option String
  usernameDisplay : Option String
  deriving DecidableEq, Repr

def profileRow (u : User) (up : UserProfile) (un : Option Username) : Profile :=
  { userId := u.id, accountState := u.accountState, locale := u.locale, timezone := u.timezone,
    displayName := up.displayName, avatarObjectKey := up.avatarObjectKey, bio := up.bio,
    profileVisibility := up.profileVisibility, usernameCanonical := un.map Username.usernameCanonical,
    usernameDisplay := un.map Username.usernameDisplay }

/-- The usernames of `LEFT JOIN usernames un ON u.id = un.user_id`. -/
def leftJoined (usernames : List Username) (user : Uuid) : List (Option Username) :=
  match usernames.filter fun un => un.userId = user with
  | [] => [none]
  | rows => rows.map some

def profileRows (db : Db) (userId : Uuid) : List Profile :=
  (db.users.filter fun u => u.id = userId).flatMap fun u =>
  (db.userProfiles.filter fun up => up.userId = u.id).flatMap fun up =>
  (leftJoined db.usernames u.id).map (profileRow u up)

def getProfile (db : Db) (userId : Uuid) : Except Failure Profile :=
  match profileRows db userId with
  | [] => .error (.error "User profile not found")
  | row :: _ => .ok row

end AccountService

inductive Call where
  | requestOtpChallenge (phoneBlindIndex : Digest)
  | verifyOtpChallenge (challengeId candidateOtp : String)
  | registerAccount (params : RegisterParams)
  deriving DecidableEq, Repr

def Call.program (pf : Platform) : Call → Program
  | .requestOtpChallenge phoneBlindIndex => OtpService.requestOtpChallenge pf phoneBlindIndex
  | .verifyOtpChallenge challengeId candidateOtp =>
    OtpService.verifyOtpChallenge pf challengeId candidateOtp
  | .registerAccount params => AccountService.registerAccount pf params

def Call.aborted (_ : Call) : Answer := .error .database

namespace AuthController

structure OtpRequest where
  phoneNumber : String
  installationId : String
  deviceName : String
  platform : String
  appVersion : String
  osVersion : String

structure RegisterBody where
  challengeId : String
  displayName : String
  username : String
  locale : Option String
  timezone : Option String
  termsAccepted : Bool
  privacyAccepted : Bool
  phoneNumber : Option String
  installationId : Option String
  deviceName : Option String
  platform : Option String
  appVersion : Option String
  osVersion : Option String

/-- `length` of a JavaScript string. -/
def utf16Length (s : String) : Nat :=
  s.toList.foldl (fun n c => if c.toNat < 0x10000 then n + 1 else n + 2) 0

def lengthIn (low high : Nat) (s : String) : Bool := low ≤ utf16Length s && utf16Length s ≤ high

def isHex (c : Char) : Bool := c.isDigit || c.toLower ∈ ['a', 'b', 'c', 'd', 'e', 'f']

/-- `z.string().uuid()`. -/
def isUuid (s : String) : Bool :=
  (s.toList.splitOn '-').map List.length = [8, 4, 4, 4, 12] &&
    (s.toList.splitOn '-').all fun group => group.all isHex

def otpRequestSchema (body : OtpRequest) : Bool :=
  lengthIn 5 30 body.phoneNumber && lengthIn 1 128 body.installationId &&
    lengthIn 1 100 body.deviceName && body.platform ∈ platforms &&
    lengthIn 1 32 body.appVersion && lengthIn 1 32 body.osVersion

def otpVerifySchema (challengeId otpCode : String) : Bool :=
  isUuid challengeId && utf16Length otpCode = 6 && otpCode.toList.all Char.isDigit

def registerAccountSchema (body : RegisterBody) : Bool :=
  isUuid body.challengeId && lengthIn 2 50 body.displayName && wellFormedUsername body.username &&
    body.termsAccepted && body.privacyAccepted

/-- The call that a request makes, if it passes its schema. -/
def requestOtp (pf : Platform) (body : OtpRequest) : Option Call :=
  if !otpRequestSchema body then none
  else
    match PhoneNumberService.normalizeToE164 pf body.phoneNumber "NP" with
    | .error _ => none
    | .ok normalized =>
      some (.requestOtpChallenge (PhoneNumberService.generateBlindIndex pf normalized))

def verifyOtp (challengeId otpCode : String) : Option Call :=
  if !otpVerifySchema challengeId otpCode then none
  else some (.verifyOtpChallenge challengeId otpCode)

def registerAccount (body : RegisterBody) : Option Call :=
  if !registerAccountSchema body then none
  else
    some (.registerAccount
      { challengeId := body.challengeId
        phoneNumber := orDefault body.phoneNumber "+9779800000000"
        displayName := body.displayName
        username := body.username
        installationId := orDefault body.installationId "inst_default"
        deviceName := orDefault body.deviceName "Mobile Device"
        platform := orDefault body.platform "android"
        appVersion := orDefault body.appVersion "1.0.0"
        osVersion := orDefault body.osVersion "Android 14"
        locale := some (body.locale.getD "ne")
        timezone := some (body.timezone.getD "Asia/Kathmandu") })

end AuthController

end Registration

end GuffSuff
