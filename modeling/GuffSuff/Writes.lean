import GuffSuff.Schema

/-! What the `INSERT` and `UPDATE` statements of the services do to the tables,
and which rows and unique index entries each of them locks. -/

namespace GuffSuff

open ReadCommitted

/-- One statement's effect, with the rows it changes already chosen. -/
inductive Write where
  | insertSession (s : Session)
  | insertRefreshTokenFamily (f : RefreshTokenFamily)
  | insertRefreshToken (t : RefreshToken)
  | insertSecurityEvent (e : SecurityEvent)
  | insertAuditEvent (e : AuditEvent)
  | revokeSessions (ids : List Uuid) (now : Nat)
  | compromiseFamilies (ids : List Uuid) (now : Nat)
  | revokeRefreshTokens (ids : List Uuid) (now : Nat)
  | rotateRefreshToken (id replacement : Uuid) (now : Nat)
  | revokeDevices (ids : List Uuid) (reason : String) (now : Nat)
  | insertMessageEnvelope (e : MessageEnvelope)
  | insertMessageIdempotencyKey (k : MessageIdempotencyKey)
  | insertMessageRecipientDevice (r : MessageRecipientDevice)
  | insertMessageAcknowledgement (a : MessageAcknowledgement)
  | deliverRecipient (id : Uuid) (now : Nat)
  | retryRecipient (id : Uuid) (now : Nat)
  | expireRecipients (ids : List Uuid) (now : Nat)

def Session.revoke (now : Nat) (s : Session) : Session := { s with revokedAt := some now }

def RefreshTokenFamily.compromise (now : Nat) (f : RefreshTokenFamily) : RefreshTokenFamily :=
  { f with isCompromised := true, updatedAt := now }

def RefreshToken.revoke (now : Nat) (t : RefreshToken) : RefreshToken :=
  { t with isRevoked := true, revokedAt := some now }

def RefreshToken.rotate (replacement : Uuid) (now : Nat) (t : RefreshToken) : RefreshToken :=
  { t with isRotated := true, rotatedAt := some now, replacementTokenId := some replacement }

def Device.revoke (reason : String) (now : Nat) (d : Device) : Device :=
  { d with isRevoked := true, revokedAt := some now, revokedReason := some reason }

def MessageRecipientDevice.deliver (now : Nat) (r : MessageRecipientDevice) :
    MessageRecipientDevice :=
  { r with deliveryStatus := .delivered, deliveredAt := some now, updatedAt := now }

def MessageRecipientDevice.retry (now : Nat) (r : MessageRecipientDevice) :
    MessageRecipientDevice :=
  { r with deliveryStatus := .queued, deliveryAttemptsCount := r.deliveryAttemptsCount + 1,
           lastAttemptedAt := some now, updatedAt := now }

def MessageRecipientDevice.expire (now : Nat) (r : MessageRecipientDevice) :
    MessageRecipientDevice :=
  { r with deliveryStatus := .expired, updatedAt := now }

def Write.apply : Write → Db → Db
  | insertSession s, db => { db with sessions := db.sessions ++ [s] }
  | insertRefreshTokenFamily f, db =>
    { db with refreshTokenFamilies := db.refreshTokenFamilies ++ [f] }
  | insertRefreshToken t, db => { db with refreshTokens := db.refreshTokens ++ [t] }
  | insertSecurityEvent e, db => { db with securityEvents := db.securityEvents ++ [e] }
  | insertAuditEvent e, db => { db with auditEvents := db.auditEvents ++ [e] }
  | revokeSessions ids now, db => { db with sessions := updateRows db.sessions ids (.revoke now) }
  | compromiseFamilies ids now, db =>
    { db with refreshTokenFamilies := updateRows db.refreshTokenFamilies ids (.compromise now) }
  | revokeRefreshTokens ids now, db =>
    { db with refreshTokens := updateRows db.refreshTokens ids (.revoke now) }
  | rotateRefreshToken id replacement now, db =>
    { db with refreshTokens := updateRows db.refreshTokens [id] (.rotate replacement now) }
  | revokeDevices ids reason now, db =>
    { db with devices := updateRows db.devices ids (.revoke reason now) }
  | insertMessageEnvelope e, db => { db with messageEnvelopes := db.messageEnvelopes ++ [e] }
  | insertMessageIdempotencyKey k, db =>
    { db with messageIdempotencyKeys := db.messageIdempotencyKeys ++ [k] }
  | insertMessageRecipientDevice r, db =>
    { db with messageRecipientDevices := db.messageRecipientDevices ++ [r] }
  | insertMessageAcknowledgement a, db =>
    { db with messageAcknowledgements := db.messageAcknowledgements ++ [a] }
  | deliverRecipient id now, db =>
    { db with messageRecipientDevices := updateRows db.messageRecipientDevices [id] (.deliver now) }
  | retryRecipient id now, db =>
    { db with messageRecipientDevices := updateRows db.messageRecipientDevices [id] (.retry now) }
  | expireRecipients ids now, db =>
    { db with messageRecipientDevices := updateRows db.messageRecipientDevices ids (.expire now) }

def applyAll (ws : List Write) (db : Db) : Db := ws.foldl (fun db w => w.apply db) db

@[simp] theorem applyAll_nil (db : Db) : applyAll [] db = db := rfl

@[simp] theorem applyAll_cons (w : Write) (ws : List Write) (db : Db) :
    applyAll (w :: ws) db = applyAll ws (w.apply db) := rfl

theorem applyAll_append (ws vs : List Write) (db : Db) :
    applyAll (ws ++ vs) db = applyAll vs (applyAll ws db) := List.foldl_append

/-- Row locks, and the entries of the unique indexes an `INSERT` waits for. -/
inductive Key where
  | device (id : Uuid)
  | session (id : Uuid)
  | family (id : Uuid)
  | token (id : Uuid)
  | tokenHash (h : Digest)
  | securityEvent (id : Uuid)
  | auditEvent (id : Uuid)
  | envelope (id : Uuid)
  | idempotencyRow (id : Uuid)
  | idempotency (device : Uuid) (key : String)
  | recipient (id : Uuid)
  | recipientPair (envelope device : Uuid)
  | acknowledgement (id : Uuid)
  deriving DecidableEq

/-- The keys a statement must hold before it runs. -/
def Write.touches : Write → List Key
  | insertSession s => [.session s.id]
  | insertRefreshTokenFamily f => [.family f.id]
  | insertRefreshToken t => [.token t.id, .tokenHash t.tokenVerifierHash]
  | insertSecurityEvent e => [.securityEvent e.id]
  | insertAuditEvent e => [.auditEvent e.id]
  | revokeSessions ids _ => ids.map .session
  | compromiseFamilies ids _ => ids.map .family
  | revokeRefreshTokens ids _ => ids.map .token
  | rotateRefreshToken id _ _ => [.token id]
  | revokeDevices ids _ _ => ids.map .device
  | insertMessageEnvelope e => [.envelope e.id]
  | insertMessageIdempotencyKey k =>
    [.idempotencyRow k.id, .idempotency k.senderDeviceId k.idempotencyKey]
  | insertMessageRecipientDevice r =>
    [.recipient r.id, .recipientPair r.envelopeId r.recipientDeviceId]
  | insertMessageAcknowledgement a => [.acknowledgement a.id]
  | deliverRecipient id _ => [.recipient id]
  | retryRecipient id _ => [.recipient id]
  | expireRecipients ids _ => ids.map .recipient

def Write.inserts : Write → List Uuid
  | insertSession s => [s.id]
  | insertRefreshTokenFamily f => [f.id]
  | insertRefreshToken t => [t.id]
  | insertSecurityEvent e => [e.id]
  | insertAuditEvent e => [e.id]
  | insertMessageEnvelope e => [e.id]
  | insertMessageIdempotencyKey k => [k.id]
  | insertMessageRecipientDevice r => [r.id]
  | insertMessageAcknowledgement a => [a.id]
  | _ => []

/-- What a lock protects: a row, or whether an index entry is taken. -/
inductive Cell where
  | device (d : Option Device)
  | session (s : Option Session)
  | family (f : Option RefreshTokenFamily)
  | token (t : Option RefreshToken)
  | recipient (r : Option MessageRecipientDevice)
  | taken (b : Bool)

namespace Db

def hashTaken (db : Db) (h : Digest) : Bool :=
  db.refreshTokens.any (fun t => t.tokenVerifierHash == h)

/-- The row of the unique index on `(sender_device_id, idempotency_key)`. -/
def idempotencyRecord (db : Db) (device : Uuid) (key : String) : Option MessageIdempotencyKey :=
  db.messageIdempotencyKeys.find? (fun k => k.senderDeviceId == device && k.idempotencyKey == key)

def recipientPairTaken (db : Db) (envelope device : Uuid) : Bool :=
  db.messageRecipientDevices.any
    (fun r => r.envelopeId == envelope && r.recipientDeviceId == device)

def cell : Key → Db → Cell
  | .device i, db => .device (lookup db.devices i)
  | .session i, db => .session (lookup db.sessions i)
  | .family i, db => .family (lookup db.refreshTokenFamilies i)
  | .token i, db => .token (lookup db.refreshTokens i)
  | .tokenHash h, db => .taken (db.hashTaken h)
  | .securityEvent i, db => .taken (lookup db.securityEvents i).isSome
  | .auditEvent i, db => .taken (lookup db.auditEvents i).isSome
  | .envelope i, db => .taken (lookup db.messageEnvelopes i).isSome
  | .idempotencyRow i, db => .taken (lookup db.messageIdempotencyKeys i).isSome
  | .idempotency d k, db => .taken (db.idempotencyRecord d k).isSome
  | .recipient i, db => .recipient (lookup db.messageRecipientDevices i)
  | .recipientPair e d, db => .taken (db.recipientPairTaken e d)
  | .acknowledgement i, db => .taken (lookup db.messageAcknowledgements i).isSome

def ids (db : Db) : List Uuid :=
  keys db.users ++ keys db.devices ++ keys db.sessions ++ keys db.refreshTokenFamilies ++
    keys db.refreshTokens ++ keys db.securityEvents ++ keys db.auditEvents ++
    keys db.directConversations ++ keys db.messageEnvelopes ++ keys db.messageRecipientDevices ++
    keys db.messageAcknowledgements ++ keys db.messageIdempotencyKeys

end Db

@[simp] theorem Session.id_revoke (now : Nat) (s : Session) :
    (s.revoke now).id = s.id := rfl

@[simp] theorem RefreshTokenFamily.id_compromise (now : Nat) (f : RefreshTokenFamily) :
    (f.compromise now).id = f.id := rfl

@[simp] theorem RefreshToken.id_revoke (now : Nat) (t : RefreshToken) :
    (t.revoke now).id = t.id := rfl

@[simp] theorem RefreshToken.id_rotate (replacement : Uuid) (now : Nat) (t : RefreshToken) :
    (t.rotate replacement now).id = t.id := rfl

@[simp] theorem Device.id_revoke (reason : String) (now : Nat) (d : Device) :
    (d.revoke reason now).id = d.id := rfl

@[simp] theorem MessageRecipientDevice.id_deliver (now : Nat) (r : MessageRecipientDevice) :
    (r.deliver now).id = r.id := rfl

@[simp] theorem MessageRecipientDevice.id_retry (now : Nat) (r : MessageRecipientDevice) :
    (r.retry now).id = r.id := rfl

@[simp] theorem MessageRecipientDevice.id_expire (now : Nat) (r : MessageRecipientDevice) :
    (r.expire now).id = r.id := rfl

@[simp] theorem Session.keys_revoke (t : List Session) (ids : List Uuid) (now : Nat) :
    keys (updateRows t ids (Session.revoke now)) = keys t :=
  keys_updateRows t ids (Session.id_revoke now)

@[simp] theorem RefreshTokenFamily.keys_compromise (t : List RefreshTokenFamily) (ids : List Uuid) (now : Nat) :
    keys (updateRows t ids (RefreshTokenFamily.compromise now)) = keys t :=
  keys_updateRows t ids (RefreshTokenFamily.id_compromise now)

@[simp] theorem RefreshToken.keys_revoke (t : List RefreshToken) (ids : List Uuid) (now : Nat) :
    keys (updateRows t ids (RefreshToken.revoke now)) = keys t :=
  keys_updateRows t ids (RefreshToken.id_revoke now)

@[simp] theorem RefreshToken.keys_rotate (t : List RefreshToken) (ids : List Uuid) (new : Uuid) (now : Nat) :
    keys (updateRows t ids (RefreshToken.rotate new now)) = keys t :=
  keys_updateRows t ids (RefreshToken.id_rotate new now)

@[simp] theorem Device.keys_revoke (t : List Device) (ids : List Uuid) (reason : String) (now : Nat) :
    keys (updateRows t ids (Device.revoke reason now)) = keys t :=
  keys_updateRows t ids (Device.id_revoke reason now)

@[simp] theorem MessageRecipientDevice.keys_deliver (t : List MessageRecipientDevice) (ids : List Uuid) (now : Nat) :
    keys (updateRows t ids (MessageRecipientDevice.deliver now)) = keys t :=
  keys_updateRows t ids (MessageRecipientDevice.id_deliver now)

@[simp] theorem MessageRecipientDevice.keys_retry (t : List MessageRecipientDevice) (ids : List Uuid) (now : Nat) :
    keys (updateRows t ids (MessageRecipientDevice.retry now)) = keys t :=
  keys_updateRows t ids (MessageRecipientDevice.id_retry now)

@[simp] theorem MessageRecipientDevice.keys_expire (t : List MessageRecipientDevice) (ids : List Uuid) (now : Nat) :
    keys (updateRows t ids (MessageRecipientDevice.expire now)) = keys t :=
  keys_updateRows t ids (MessageRecipientDevice.id_expire now)

theorem any_updateRows {Row : Type} [Keyed Row Uuid] {t : List Row} {ids : List Uuid} {f : Row → Row}
    {p : Row → Bool} (hp : ∀ r, p (f r) = p r) : (updateRows t ids f).any p = t.any p := by
  induction t with
  | nil => rfl
  | cons r t ih =>
    have hr : p (if (Keyed.key r : Uuid) ∈ ids then f r else r) = p r := by
      split
      · exact hp r
      · rfl
    simpa [updateRows, hr] using congrArg (p r || ·) ih

theorem hashTaken_insert {t : RefreshToken} {h : Digest} (hne : h ≠ t.tokenVerifierHash) (db : Db) :
    ((Write.insertRefreshToken t).apply db).hashTaken h = db.hashTaken h := by
  simp [Write.apply, Db.hashTaken, hne.symm]

theorem idempotencyRecord_insert {k : MessageIdempotencyKey} {d : Uuid} {key : String}
    (hne : ¬ (d = k.senderDeviceId ∧ key = k.idempotencyKey)) (db : Db) :
    ((Write.insertMessageIdempotencyKey k).apply db).idempotencyRecord d key =
      db.idempotencyRecord d key := by
  have hk : ¬ (k.senderDeviceId = d ∧ k.idempotencyKey = key) := fun h => hne ⟨h.1.symm, h.2.symm⟩
  simp [Write.apply, Db.idempotencyRecord, List.find?_append, hk]

theorem recipientPairTaken_insert {r : MessageRecipientDevice} {e d : Uuid}
    (hne : ¬ (e = r.envelopeId ∧ d = r.recipientDeviceId)) (db : Db) :
    ((Write.insertMessageRecipientDevice r).apply db).recipientPairTaken e d =
      db.recipientPairTaken e d := by
  have hr : ¬ (r.envelopeId = e ∧ r.recipientDeviceId = d) := fun h => hne ⟨h.1.symm, h.2.symm⟩
  simp [Write.apply, Db.recipientPairTaken, hr]

theorem cell_apply {w : Write} {k : Key} (h : k ∉ w.touches) (db : Db) :
    (w.apply db).cell k = db.cell k := by
  cases w <;> cases k <;> try rfl
  case insertSession.session s i =>
    exact congrArg Cell.session (lookup_insert_of_ne (by simpa [Write.touches] using h))
  case insertRefreshTokenFamily.family f i =>
    exact congrArg Cell.family (lookup_insert_of_ne (by simpa [Write.touches] using h))
  case insertRefreshToken.token t i =>
    exact congrArg Cell.token (lookup_insert_of_ne (by simpa [Write.touches] using h))
  case insertRefreshToken.tokenHash t g =>
    exact congrArg Cell.taken (hashTaken_insert (by simpa [Write.touches] using h) db)
  case insertSecurityEvent.securityEvent e i =>
    exact congrArg (fun r => Cell.taken (Option.isSome r))
      (lookup_insert_of_ne (by simpa [Write.touches] using h))
  case insertAuditEvent.auditEvent e i =>
    exact congrArg (fun r => Cell.taken (Option.isSome r))
      (lookup_insert_of_ne (by simpa [Write.touches] using h))
  case revokeSessions.session ids now i =>
    exact congrArg Cell.session (lookup_updateRows_of_not_mem (by intro _; rfl)
      (by simpa [Write.touches] using h))
  case compromiseFamilies.family ids now i =>
    exact congrArg Cell.family (lookup_updateRows_of_not_mem (by intro _; rfl)
      (by simpa [Write.touches] using h))
  case revokeRefreshTokens.token ids now i =>
    exact congrArg Cell.token (lookup_updateRows_of_not_mem (by intro _; rfl)
      (by simpa [Write.touches] using h))
  case revokeRefreshTokens.tokenHash ids now g =>
    exact congrArg Cell.taken (any_updateRows fun _ => rfl)
  case rotateRefreshToken.token id new now i =>
    exact congrArg Cell.token (lookup_updateRows_of_not_mem (by intro _; rfl)
      (by simpa [Write.touches] using h))
  case rotateRefreshToken.tokenHash id new now g =>
    exact congrArg Cell.taken (any_updateRows fun _ => rfl)
  case revokeDevices.device ids reason now i =>
    exact congrArg Cell.device (lookup_updateRows_of_not_mem (by intro _; rfl)
      (by simpa [Write.touches] using h))
  case insertMessageEnvelope.envelope e i =>
    exact congrArg (fun r => Cell.taken (Option.isSome r))
      (lookup_insert_of_ne (by simpa [Write.touches] using h))
  case insertMessageIdempotencyKey.idempotencyRow k i =>
    exact congrArg (fun r => Cell.taken (Option.isSome r))
      (lookup_insert_of_ne (by simpa [Write.touches] using h))
  case insertMessageIdempotencyKey.idempotency k d key =>
    exact congrArg (fun r => Cell.taken (Option.isSome r))
      (idempotencyRecord_insert (by simpa [Write.touches] using h) db)
  case insertMessageRecipientDevice.recipient r i =>
    exact congrArg Cell.recipient (lookup_insert_of_ne (by simpa [Write.touches] using h))
  case insertMessageRecipientDevice.recipientPair r e d =>
    exact congrArg Cell.taken (recipientPairTaken_insert (by simpa [Write.touches] using h) db)
  case insertMessageAcknowledgement.acknowledgement a i =>
    exact congrArg (fun r => Cell.taken (Option.isSome r))
      (lookup_insert_of_ne (by simpa [Write.touches] using h))
  case deliverRecipient.recipient id now i =>
    exact congrArg Cell.recipient (lookup_updateRows_of_not_mem (by intro _; rfl)
      (by simpa [Write.touches] using h))
  case deliverRecipient.recipientPair id now e d =>
    exact congrArg Cell.taken (any_updateRows fun _ => rfl)
  case retryRecipient.recipient id now i =>
    exact congrArg Cell.recipient (lookup_updateRows_of_not_mem (by intro _; rfl)
      (by simpa [Write.touches] using h))
  case retryRecipient.recipientPair id now e d =>
    exact congrArg Cell.taken (any_updateRows fun _ => rfl)
  case expireRecipients.recipient ids now i =>
    exact congrArg Cell.recipient (lookup_updateRows_of_not_mem (by intro _; rfl)
      (by simpa [Write.touches] using h))
  case expireRecipients.recipientPair ids now e d =>
    exact congrArg Cell.taken (any_updateRows fun _ => rfl)

theorem cell_applyAll {ws : List Write} {k : Key} (h : ∀ w ∈ ws, k ∉ w.touches) (db : Db) :
    (applyAll ws db).cell k = db.cell k := by
  induction ws generalizing db with
  | nil => rfl
  | cons w ws ih =>
    rw [applyAll_cons, ih (fun v hv => h v (List.mem_cons_of_mem _ hv)),
      cell_apply (h w List.mem_cons_self)]

theorem ids_apply {w : Write} {db : Db} {x : Uuid} (h : x ∈ (w.apply db).ids) :
    x ∈ db.ids ∨ x ∈ w.inserts := by
  cases w <;> simp [Write.apply, Write.inserts, Db.ids] at h ⊢ <;> grind

theorem ids_applyAll {ws : List Write} {db : Db} {x : Uuid} (h : x ∈ (applyAll ws db).ids) :
    x ∈ db.ids ∨ ∃ w ∈ ws, x ∈ w.inserts := by
  induction ws generalizing db with
  | nil => exact .inl h
  | cons w ws ih =>
    rcases ih h with h | ⟨v, hv, hx⟩
    · rcases ids_apply h with h | h
      · exact .inl h
      · exact .inr ⟨w, List.mem_cons_self, h⟩
    · exact .inr ⟨v, List.mem_cons_of_mem _ hv, hx⟩

end GuffSuff
