import GuffSuff.Writes

/-! What no statement undoes: rows stay, their columns of identity never
change, and the marks of rotation, revocation and compromise stay set. -/

namespace GuffSuff

open ReadCommitted

structure Session.Grows (s s' : Session) : Prop where
  userId : s'.userId = s.userId
  deviceId : s'.deviceId = s.deviceId
  sessionVersion : s'.sessionVersion = s.sessionVersion
  revoked : s.revokedAt.isSome → s'.revokedAt.isSome

structure RefreshTokenFamily.Grows (f f' : RefreshTokenFamily) : Prop where
  userId : f'.userId = f.userId
  deviceId : f'.deviceId = f.deviceId
  compromised : f.isCompromised → f'.isCompromised

structure RefreshToken.Grows (t t' : RefreshToken) : Prop where
  familyId : t'.familyId = t.familyId
  tokenVerifierHash : t'.tokenVerifierHash = t.tokenVerifierHash
  parentTokenId : t'.parentTokenId = t.parentTokenId
  expiresAt : t'.expiresAt = t.expiresAt
  rotated : t.isRotated → t'.isRotated
  revoked : t.isRevoked → t'.isRevoked

structure Device.Grows (d d' : Device) : Prop where
  userId : d'.userId = d.userId
  deviceName : d'.deviceName = d.deviceName
  revoked : d.isRevoked → d'.isRevoked

structure MessageRecipientDevice.Grows (r r' : MessageRecipientDevice) : Prop where
  envelopeId : r'.envelopeId = r.envelopeId
  recipientDeviceId : r'.recipientDeviceId = r.recipientDeviceId

@[simp] theorem Session.Grows.refl (s : Session) : s.Grows s :=
  ⟨rfl, rfl, rfl, fun h => h⟩

@[simp] theorem RefreshTokenFamily.Grows.refl (f : RefreshTokenFamily) : f.Grows f :=
  ⟨rfl, rfl, fun h => h⟩

@[simp] theorem RefreshToken.Grows.refl (t : RefreshToken) : t.Grows t :=
  ⟨rfl, rfl, rfl, rfl, fun h => h, fun h => h⟩

@[simp] theorem Device.Grows.refl (d : Device) : d.Grows d := ⟨rfl, rfl, fun h => h⟩

@[simp] theorem MessageRecipientDevice.Grows.refl (r : MessageRecipientDevice) : r.Grows r :=
  ⟨rfl, rfl⟩

theorem Session.Grows.trans {a b c : Session} (h : a.Grows b) (h' : b.Grows c) : a.Grows c :=
  ⟨h'.1.trans h.1, h'.2.trans h.2, h'.3.trans h.3, fun ha => h'.4 (h.4 ha)⟩

theorem RefreshTokenFamily.Grows.trans {a b c : RefreshTokenFamily} (h : a.Grows b)
    (h' : b.Grows c) : a.Grows c :=
  ⟨h'.1.trans h.1, h'.2.trans h.2, fun ha => h'.3 (h.3 ha)⟩

theorem RefreshToken.Grows.trans {a b c : RefreshToken} (h : a.Grows b) (h' : b.Grows c) :
    a.Grows c :=
  ⟨h'.1.trans h.1, h'.2.trans h.2, h'.3.trans h.3, h'.4.trans h.4, fun ha => h'.5 (h.5 ha),
    fun ha => h'.6 (h.6 ha)⟩

theorem Device.Grows.trans {a b c : Device} (h : a.Grows b) (h' : b.Grows c) : a.Grows c :=
  ⟨h'.1.trans h.1, h'.2.trans h.2, fun ha => h'.3 (h.3 ha)⟩

theorem MessageRecipientDevice.Grows.trans {a b c : MessageRecipientDevice} (h : a.Grows b)
    (h' : b.Grows c) : a.Grows c := ⟨h'.1.trans h.1, h'.2.trans h.2⟩

theorem Session.grows_revoke (now : Nat) (s : Session) : s.Grows (s.revoke now) :=
  ⟨rfl, rfl, rfl, fun _ => rfl⟩

theorem RefreshTokenFamily.grows_compromise (now : Nat) (f : RefreshTokenFamily) :
    f.Grows (f.compromise now) := ⟨rfl, rfl, fun _ => rfl⟩

theorem RefreshToken.grows_revoke (now : Nat) (t : RefreshToken) : t.Grows (t.revoke now) :=
  ⟨rfl, rfl, rfl, rfl, fun h => h, fun _ => rfl⟩

theorem RefreshToken.grows_rotate (replacement : Uuid) (now : Nat) (t : RefreshToken) :
    t.Grows (t.rotate replacement now) := ⟨rfl, rfl, rfl, rfl, fun _ => rfl, fun h => h⟩

theorem Device.grows_revoke (reason : String) (now : Nat) (d : Device) :
    d.Grows (d.revoke reason now) := ⟨rfl, rfl, fun _ => rfl⟩

theorem MessageRecipientDevice.grows_deliver (now : Nat) (r : MessageRecipientDevice) :
    r.Grows (r.deliver now) := ⟨rfl, rfl⟩

theorem MessageRecipientDevice.grows_retry (now : Nat) (r : MessageRecipientDevice) :
    r.Grows (r.retry now) := ⟨rfl, rfl⟩

theorem MessageRecipientDevice.grows_expire (now : Nat) (r : MessageRecipientDevice) :
    r.Grows (r.expire now) := ⟨rfl, rfl⟩

/-- `db'` is `db` after any number of statements. -/
structure Db.Grows (db db' : Db) : Prop where
  users : db'.users = db.users
  directConversations : db'.directConversations = db.directConversations
  conversationMembers : db'.conversationMembers = db.conversationMembers
  deviceKeys : keys db'.devices = keys db.devices
  devices : Extends Device.Grows db.devices db'.devices
  sessions : Extends Session.Grows db.sessions db'.sessions
  families : Extends RefreshTokenFamily.Grows db.refreshTokenFamilies db'.refreshTokenFamilies
  tokens : Extends RefreshToken.Grows db.refreshTokens db'.refreshTokens
  envelopes : Extends Eq db.messageEnvelopes db'.messageEnvelopes
  recipients : Extends MessageRecipientDevice.Grows db.messageRecipientDevices
    db'.messageRecipientDevices
  records : ∀ k ∈ db.messageIdempotencyKeys, k ∈ db'.messageIdempotencyKeys

theorem Db.Grows.refl (db : Db) : db.Grows db where
  users := rfl
  directConversations := rfl
  conversationMembers := rfl
  deviceKeys := rfl
  devices := .refl (by simp) _
  sessions := .refl (by simp) _
  families := .refl (by simp) _
  tokens := .refl (by simp) _
  envelopes := .refl (by simp) _
  recipients := .refl (by simp) _
  records := fun _ h => h

theorem Db.Grows.trans {a b c : Db} (h : a.Grows b) (h' : b.Grows c) : a.Grows c where
  users := h'.users.trans h.users
  directConversations := h'.directConversations.trans h.directConversations
  conversationMembers := h'.conversationMembers.trans h.conversationMembers
  deviceKeys := h'.deviceKeys.trans h.deviceKeys
  devices := h.devices.trans (fun _ _ _ => Device.Grows.trans) h'.devices
  sessions := h.sessions.trans (fun _ _ _ => Session.Grows.trans) h'.sessions
  families := h.families.trans (fun _ _ _ => RefreshTokenFamily.Grows.trans) h'.families
  tokens := h.tokens.trans (fun _ _ _ => RefreshToken.Grows.trans) h'.tokens
  envelopes := h.envelopes.trans (fun _ _ _ => Eq.trans) h'.envelopes
  recipients := h.recipients.trans (fun _ _ _ => MessageRecipientDevice.Grows.trans) h'.recipients
  records := fun k hk => h'.records k (h.records k hk)

theorem Write.grows (w : Write) (db : Db) : db.Grows (w.apply db) := by
  have h := Db.Grows.refl db
  cases w with
  | insertSession s => exact { h with sessions := .append (by simp) _ _ }
  | insertRefreshTokenFamily f => exact { h with families := .append (by simp) _ _ }
  | insertRefreshToken t => exact { h with tokens := .append (by simp) _ _ }
  | insertSecurityEvent e => exact { h with }
  | insertAuditEvent e => exact { h with }
  | revokeSessions ids now =>
    have hs : Extends Session.Grows db.sessions _ :=
      .updateRows .refl (Session.grows_revoke now)
        (Session.id_revoke now) _ ids
    exact { h with sessions := hs }
  | compromiseFamilies ids now =>
    have hf : Extends RefreshTokenFamily.Grows db.refreshTokenFamilies _ :=
      .updateRows .refl (RefreshTokenFamily.grows_compromise now)
        (RefreshTokenFamily.id_compromise now) _ ids
    exact { h with families := hf }
  | revokeRefreshTokens ids now =>
    have ht : Extends RefreshToken.Grows db.refreshTokens _ :=
      .updateRows .refl (RefreshToken.grows_revoke now)
        (RefreshToken.id_revoke now) _ ids
    exact { h with tokens := ht }
  | rotateRefreshToken id replacement now =>
    have ht : Extends RefreshToken.Grows db.refreshTokens _ :=
      .updateRows .refl (RefreshToken.grows_rotate replacement now)
        (RefreshToken.id_rotate replacement now) _ [id]
    exact { h with tokens := ht }
  | revokeDevices ids reason now =>
    have hd : Extends Device.Grows db.devices _ :=
      .updateRows .refl (Device.grows_revoke reason now)
        (Device.id_revoke reason now) _ ids
    exact { h with deviceKeys := Device.keys_revoke _ _ _ _, devices := hd }
  | insertMessageEnvelope e => exact { h with envelopes := .append (by simp) _ _ }
  | insertMessageIdempotencyKey k =>
    exact { h with records := fun _ hk => List.mem_append_left _ hk }
  | insertMessageRecipientDevice r => exact { h with recipients := .append (by simp) _ _ }
  | insertMessageAcknowledgement a => exact { h with }
  | deliverRecipient id now =>
    have hr : Extends MessageRecipientDevice.Grows db.messageRecipientDevices _ :=
      .updateRows .refl (MessageRecipientDevice.grows_deliver now)
        (MessageRecipientDevice.id_deliver now) _ [id]
    exact { h with recipients := hr }
  | retryRecipient id now =>
    have hr : Extends MessageRecipientDevice.Grows db.messageRecipientDevices _ :=
      .updateRows .refl (MessageRecipientDevice.grows_retry now)
        (MessageRecipientDevice.id_retry now) _ [id]
    exact { h with recipients := hr }
  | expireRecipients ids now =>
    have hr : Extends MessageRecipientDevice.Grows db.messageRecipientDevices _ :=
      .updateRows .refl (MessageRecipientDevice.grows_expire now)
        (MessageRecipientDevice.id_expire now) _ ids
    exact { h with recipients := hr }

theorem grows_applyAll (ws : List Write) (db : Db) : db.Grows (applyAll ws db) := by
  induction ws generalizing db with
  | nil => exact .refl db
  | cons w ws ih => exact (w.grows db).trans (ih (w.apply db))

theorem Write.token_origin {w : Write} {db : Db} {t : RefreshToken}
    (ht : t ∈ (w.apply db).refreshTokens) :
    (∃ u ∈ db.refreshTokens, u.id = t.id ∧ u.Grows t) ∨ w = .insertRefreshToken t := by
  have hupdate : ∀ {ids : List Uuid} {f : RefreshToken → RefreshToken}, (∀ u : RefreshToken, u.Grows (f u)) →
      (∀ u, (f u).id = u.id) → t ∈ updateRows db.refreshTokens ids f →
        ∃ u ∈ db.refreshTokens, u.id = t.id ∧ u.Grows t := by
    intro ids f hg hid hmem
    obtain ⟨u, hu, rfl⟩ := mem_updateRows.mp hmem
    refine ⟨u, hu, ?_⟩
    split
    · exact ⟨(hid u).symm, hg u⟩
    · exact ⟨rfl, .refl u⟩
  cases w with
  | insertRefreshToken u =>
    rcases List.mem_append.mp ht with ht | ht
    · exact .inl ⟨t, ht, rfl, .refl t⟩
    · exact .inr (by rw [List.mem_singleton.mp ht])
  | revokeRefreshTokens ids now =>
    exact .inl (hupdate (RefreshToken.grows_revoke now) (RefreshToken.id_revoke now) ht)
  | rotateRefreshToken id replacement now =>
    exact .inl (hupdate (RefreshToken.grows_rotate replacement now)
      (RefreshToken.id_rotate replacement now) ht)
  | _ => exact .inl ⟨t, ht, rfl, .refl t⟩

theorem token_origin {ws : List Write} {db : Db} {t : RefreshToken}
    (ht : t ∈ (applyAll ws db).refreshTokens) :
    (∃ u ∈ db.refreshTokens, u.id = t.id ∧ u.Grows t) ∨
      ∃ u, .insertRefreshToken u ∈ ws ∧ u.id = t.id ∧ u.Grows t := by
  induction ws generalizing db with
  | nil => exact .inl ⟨t, ht, rfl, .refl t⟩
  | cons w ws ih =>
    rcases ih ht with ⟨u, hu, hid, hg⟩ | ⟨u, hu, hid, hg⟩
    · rcases Write.token_origin hu with ⟨v, hv, hvid, hvg⟩ | rfl
      · exact .inl ⟨v, hv, hvid.trans hid, hvg.trans hg⟩
      · exact .inr ⟨u, List.mem_cons_self, hid, hg⟩
    · exact .inr ⟨u, List.mem_cons_of_mem _ hu, hid, hg⟩

theorem Write.isRotated_apply {w : Write} {db : Db} {t : RefreshToken} {i : Uuid}
    (ht : lookup db.refreshTokens i = some t)
    (hw : ∀ replacement now, w ≠ .rotateRefreshToken i replacement now) :
    ∃ t', lookup (w.apply db).refreshTokens i = some t' ∧ t'.isRotated = t.isRotated := by
  cases w with
  | insertRefreshToken u =>
    exact ⟨t, by rw [Write.apply, lookup_append, ht, Option.some_or], rfl⟩
  | revokeRefreshTokens ids now =>
    refine ⟨if i ∈ ids then t.revoke now else t, ?_, ?_⟩
    · rw [Write.apply, lookup_updateRows (f := RefreshToken.revoke now) fun _ => rfl, ht]
      rfl
    · split <;> rfl
  | rotateRefreshToken id replacement now =>
    have hne : i ∉ [id] := by
      rw [List.mem_singleton]
      intro heq
      obtain rfl := heq
      exact hw replacement now rfl
    refine ⟨t, ?_, rfl⟩
    rw [Write.apply, lookup_updateRows_of_not_mem (f := RefreshToken.rotate replacement now)
      (fun _ => rfl) hne, ht]
  | _ => exact ⟨t, ht, rfl⟩

theorem isRotated_applyAll {ws : List Write} {db : Db} {t : RefreshToken} {i : Uuid}
    (ht : lookup db.refreshTokens i = some t)
    (hws : ∀ replacement now, .rotateRefreshToken i replacement now ∉ ws) :
    ∃ t', lookup (applyAll ws db).refreshTokens i = some t' ∧ t'.isRotated = t.isRotated := by
  induction ws generalizing db t with
  | nil => exact ⟨t, ht, rfl⟩
  | cons w ws ih =>
    obtain ⟨u, hu, hur⟩ := Write.isRotated_apply ht fun replacement now hw =>
      hws replacement now (hw ▸ List.mem_cons_self)
    obtain ⟨v, hv, hvr⟩ := ih hu fun replacement now hw =>
      hws replacement now (List.mem_cons_of_mem _ hw)
    exact ⟨v, hv, hvr.trans hur⟩

end GuffSuff
