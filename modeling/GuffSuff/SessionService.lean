import GuffSuff.Calls

/-! `SessionService`: sessions, refresh-token families and token rotation. -/

namespace GuffSuff

open ReadCommitted

/-- When PostgreSQL checks `refresh_tokens.replacement_token_id`. The declared
constraint is not deferrable, so the schema gives `endOfStatement`. -/
inductive FkCheck where
  | endOfStatement | atCommit
  deriving DecidableEq, Repr

namespace Db

def tokenByHash (db : Db) (h : Digest) : Option RefreshToken :=
  db.refreshTokens.find? (fun t => t.tokenVerifierHash == h)

def sessionsWhere (p : Session → Bool) (db : Db) : List Uuid :=
  (db.sessions.filter p).map Session.id

def familiesWhere (p : RefreshTokenFamily → Bool) (db : Db) : List Uuid :=
  (db.refreshTokenFamilies.filter p).map RefreshTokenFamily.id

/-- `family_id IN (SELECT id FROM refresh_token_families WHERE ..)`. -/
def tokensOfFamilies (p : RefreshTokenFamily → Bool) (db : Db) : List Uuid :=
  (db.refreshTokens.filter (fun t => t.familyId ∈ db.familiesWhere p)).map RefreshToken.id

def tokensOfFamily (family : Uuid) (db : Db) : List Uuid :=
  (db.refreshTokens.filter (fun t => t.familyId = family)).map RefreshToken.id

/-- `SELECT token_verifier_hash FROM refresh_tokens WHERE id = $1 AND is_revoked = false`. -/
def hasUnrevokedToken (db : Db) (id : Uuid) : Bool :=
  db.refreshTokens.any (fun t => t.id == id && !t.isRevoked)

end Db

namespace SessionService

def accessTokenTtl : Nat := 15 * 60
def refreshTokenTtlDays : Nat := 30
def concurrentGraceMs : Nat := 10 * 1000
def issuer : String := "guffsuff-api"
def audience : String := "guffsuff-client"

def refreshTokenTtlMs : Nat := refreshTokenTtlDays * 24 * 60 * 60 * 1000

def newSession (session user device : Uuid) (now : Nat) : Session :=
  { id := session, userId := user, deviceId := device, sessionVersion := 1, createdAt := now,
    expiresAt := now + refreshTokenTtlMs, revokedAt := none }

def newFamily (family user device : Uuid) (now : Nat) : RefreshTokenFamily :=
  { id := family, userId := user, deviceId := device, isCompromised := false, createdAt := now,
    updatedAt := now }

def firstToken (token family : Uuid) (hash : Digest) (now : Nat) : RefreshToken :=
  { id := token, familyId := family, tokenVerifierHash := hash, parentTokenId := none,
    replacementTokenId := none, expiresAt := now + refreshTokenTtlMs, isRotated := false,
    rotatedAt := none, isRevoked := false, revokedAt := none, createdAt := now }

def childToken (old : RefreshToken) (token : Uuid) (hash : Digest) (now : Nat) : RefreshToken :=
  { id := token, familyId := old.familyId, tokenVerifierHash := hash, parentTokenId := some old.id,
    replacementTokenId := none, expiresAt := old.expiresAt, isRotated := false,
    rotatedAt := none, isRevoked := false, revokedAt := none, createdAt := now }

def reuseEvent (eventId : Uuid) (old : RefreshToken) (family : RefreshTokenFamily) (now : Nat) :
    SecurityEvent :=
  { id := eventId, userId := family.userId, deviceId := some family.deviceId,
    eventType := .refreshTokenReuseDetected, severity := .high,
    userDescriptionKey := "sec_event.refresh_token_reuse", deviceContextJson := [],
    internalMetadataJson :=
      [("familyId", .uuid old.familyId), ("attemptedTokenId", .uuid old.id)],
    createdAt := now }

def insertSession (s : Session) (k : Program) : Program :=
  .lock (.session s.id) fun db =>
  if s.id ∈ keys db.sessions then throw (.uniqueViolation "sessions_pkey")
  else if s.userId ∉ keys db.users then throw (.foreignKeyViolation "sessions_user_id_fkey")
  else if s.deviceId ∉ keys db.devices then throw (.foreignKeyViolation "sessions_device_id_fkey")
  else .write (Write.insertSession s).apply k

def insertFamily (f : RefreshTokenFamily) (k : Program) : Program :=
  .lock (.family f.id) fun db =>
  if f.id ∈ keys db.refreshTokenFamilies then throw (.uniqueViolation "refresh_token_families_pkey")
  else if f.userId ∉ keys db.users then
    throw (.foreignKeyViolation "refresh_token_families_user_id_fkey")
  else if f.deviceId ∉ keys db.devices then
    throw (.foreignKeyViolation "refresh_token_families_device_id_fkey")
  else .write (Write.insertRefreshTokenFamily f).apply k

/-- `INSERT INTO refresh_tokens` with a `NULL` replacement. -/
def insertRefreshToken (t : RefreshToken) (k : Program) : Program :=
  .lock (.token t.id) fun _ =>
  .lock (.tokenHash t.tokenVerifierHash) fun db =>
  if t.id ∈ keys db.refreshTokens then throw (.uniqueViolation "refresh_tokens_pkey")
  else if db.hashTaken t.tokenVerifierHash then
    throw (.uniqueViolation "refresh_tokens_token_verifier_hash_key")
  else if t.familyId ∉ keys db.refreshTokenFamilies then
    throw (.foreignKeyViolation "refresh_tokens_family_id_fkey")
  else if t.parentTokenId.any (fun p => p ∉ keys db.refreshTokens) then
    throw (.foreignKeyViolation "refresh_tokens_parent_token_id_fkey")
  else .write (Write.insertRefreshToken t).apply k

def insertSecurityEvent (e : SecurityEvent) (k : Program) : Program :=
  .lock (.securityEvent e.id) fun db =>
  if e.id ∈ keys db.securityEvents then throw (.uniqueViolation "security_events_pkey")
  else if e.userId ∉ keys db.users then throw (.foreignKeyViolation "security_events_user_id_fkey")
  else if e.deviceId.any (fun d => d ∉ keys db.devices) then
    throw (.foreignKeyViolation "security_events_device_id_fkey")
  else .write (Write.insertSecurityEvent e).apply k

section
variable (pf : Platform)

def generateAccessToken (payload : AccessClaims) (now : Nat) : List Char :=
  pf.jwt.sign payload accessTokenTtl issuer audience now

def verifyAccessToken (token : List Char) (now : Nat) : Except String AccessClaims :=
  pf.jwt.verify token issuer audience now

def createSession (userId deviceId : Uuid) : Program :=
  .fresh fun sessionId =>
  .fresh fun familyId =>
  .now fun now =>
  insertSession (newSession sessionId userId deviceId now) <|
  insertFamily (newFamily familyId userId deviceId now) <|
  .fresh fun rawRefreshToken =>
  .fresh fun tokenInstanceId =>
  insertRefreshToken
    (firstToken tokenInstanceId familyId (pf.hashRefreshToken rawRefreshToken) now) <|
  .commit (.sessionCreated rawRefreshToken userId deviceId sessionId familyId tokenInstanceId now) <|
  .now fun signedAt =>
  .ret <| .ok <| .tokens
    { accessToken := generateAccessToken pf
        { sessionId, userId, deviceId, sessionVersion := 1 } signedAt
      refreshToken := rawRefreshToken
      expiresInSeconds := accessTokenTtl
      sessionId, familyId }

/-- The pair a rotation returns after its `COMMIT`: the claims and the result
each get a session id of their own. -/
def issueTokens (family : RefreshTokenFamily) (refreshToken : RawToken) : Program :=
  .fresh fun claimedSessionId =>
  .now fun signedAt =>
  .fresh fun sessionId =>
  .ret <| .ok <| .tokens
    { accessToken := generateAccessToken pf
        { sessionId := claimedSessionId, userId := family.userId, deviceId := family.deviceId,
          sessionVersion := 1 } signedAt
      refreshToken
      expiresInSeconds := accessTokenTtl
      sessionId
      familyId := family.id }

/-- `SELECT .. JOIN refresh_token_families .. FOR UPDATE OF rt, rf`. The rows
are found on the snapshot of the statement and read again once both are locked. -/
def selectForUpdate (verifierHash : Digest)
    (k : Option (RefreshToken × RefreshTokenFamily) → Program) : Program :=
  .query fun db =>
  match db.tokenByHash verifierHash with
  | none => k none
  | some found =>
    .lock (.token found.id) fun _ =>
    .lock (.family found.familyId) fun db =>
    match lookup db.refreshTokens found.id, lookup db.refreshTokenFamilies found.familyId with
    | some rt, some rf => k (some (rt, rf))
    | _, _ => k none

/-- `UPDATE .. WHERE`: the rows are found on the snapshot of the statement, in
any order, and written once all of them are locked. -/
def updateWhere (rows : Db → List Uuid) (key : Uuid → Key) (w : List Uuid → Write)
    (k : List Uuid → Program) : Program :=
  .select (exactly rows) fun ids =>
  Program.lockAll key ids <|
  .write (w ids).apply (k ids)

def reuseAlert : Failure :=
  .error "Security Alert: Refresh token reuse detected. Session terminated."

def reportReuse (raw : RawToken) (token : RefreshToken) (family : RefreshTokenFamily)
    (checkedAt now startedAt : Nat) : Program :=
  .lock (.family family.id) fun _ =>
  .write (Write.compromiseFamilies [family.id] startedAt).apply <|
  updateWhere (Db.tokensOfFamily token.familyId) .token (.revokeRefreshTokens · startedAt) fun tokens =>
  updateWhere (Db.sessionsWhere fun s => s.userId = family.userId && s.deviceId = family.deviceId)
    .session (.revokeSessions · startedAt) fun sessions =>
  .fresh fun eventId =>
  insertSecurityEvent (reuseEvent eventId token family startedAt) <|
  .commit (.reuseDetected raw token family tokens sessions eventId checkedAt now startedAt) <|
  throw reuseAlert

/-- The old token is marked before its replacement exists. -/
def rotate (fk : FkCheck) (raw : RawToken) (token : RefreshToken) (family : RefreshTokenFamily)
    (checkedAt : Nat) : Program :=
  .fresh fun newRawRefreshToken =>
  .fresh fun newTokenInstanceId =>
  .now fun now =>
  .lock (.token token.id) fun _ =>
  .write (Write.rotateRefreshToken token.id newTokenInstanceId now).apply <|
  .query fun db =>
  if fk = .endOfStatement ∧ newTokenInstanceId ∉ keys db.refreshTokens then
    throw (.foreignKeyViolation "refresh_tokens_replacement_token_id_fkey")
  else
    insertRefreshToken
      (childToken token newTokenInstanceId (pf.hashRefreshToken newRawRefreshToken) now) <|
    .commit (.tokenRotated raw newRawRefreshToken token newTokenInstanceId checkedAt now) <|
    issueTokens pf family newRawRefreshToken

def rotateRefreshToken (fk : FkCheck) (rawRefreshToken : RawToken) : Program :=
  .now fun startedAt =>
  selectForUpdate (pf.hashRefreshToken rawRefreshToken) fun row =>
  match row with
  | none => throw (.error "Invalid or unknown refresh token")
  | some (token, family) =>
    .now fun checkedAt =>
    if family.isCompromised || token.isRevoked || token.expiresAt < checkedAt then
      throw (.error "Refresh token is invalid or revoked")
    else if token.isRotated then
      .now fun now =>
      match token.replacementTokenId with
      | none => reportReuse rawRefreshToken token family checkedAt now startedAt
      | some replacement =>
        if now ≤ token.rotatedAt.getD 0 + concurrentGraceMs then
          .query fun db =>
          if db.hasUnrevokedToken replacement then
            .commit (.graceAnswered rawRefreshToken token checkedAt now) <|
            issueTokens pf family rawRefreshToken
          else reportReuse rawRefreshToken token family checkedAt now startedAt
        else reportReuse rawRefreshToken token family checkedAt now startedAt
    else rotate pf fk rawRefreshToken token family checkedAt

end

/-- `pool.query("UPDATE ..")`: one statement in a transaction of its own. -/
def updateAlone (rows : Db → List Uuid) (key : Uuid → Key) (w : List Uuid → Nat → Write)
    (e : List Uuid → Nat → Event) (k : Program) : Program :=
  .now fun now =>
  updateWhere rows key (w · now) fun ids =>
  .commit (e ids now) k

def revokeSession (sessionId : Uuid) : Program :=
  updateAlone (Db.sessionsWhere fun s => s.id = sessionId) .session .revokeSessions
    (.sessionRevoked sessionId) <|
  .ret (.ok .unit)

/-- Three statements on the pool, no transaction around them. -/
def revokeAllSessionsForUser (userId : Uuid) : Program :=
  updateAlone (Db.sessionsWhere fun s => s.userId = userId) .session .revokeSessions
    (.userSessionsRevoked userId) <|
  updateAlone (Db.familiesWhere fun f => f.userId = userId) .family .compromiseFamilies
    (.userFamiliesCompromised userId) <|
  updateAlone (Db.tokensOfFamilies fun f => f.userId = userId) .token .revokeRefreshTokens
    (.userTokensRevoked userId) <|
  .ret (.ok .unit)

end SessionService

end GuffSuff
