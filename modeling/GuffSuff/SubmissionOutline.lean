import GuffSuff.Outlines

/-! Outline of `MessageEnvelopeService.submitEnvelope`. -/

namespace GuffSuff

open ReadCommitted

namespace MessageEnvelopeService

/-- The columns of a request fit their tables, and what it refers to exists. -/
structure Storable (pf : Platform) (user device : Uuid) (dto : SubmitMessageEnvelope) (db : Db) :
    Prop where
  key : dto.idempotencyKey.length ≤ maxKeyLength
  protocol : dto.protocolVersion ≤ maxInt
  payload : (pf.decodeBase64 dto.opaquePayloadBase64).length ≤ maxPayloadBytes
  times : dto.clientCreatedAt ≠ none ∧ dto.expiresAt ≠ none
  conversation : dto.conversationId ∈ keys db.directConversations
  sender : user ∈ keys db.users
  device : device ∈ keys db.devices
  recipient : dto.recipientUserId ∈ keys db.users

def senderActive (user device : Uuid) (db : Db) : Bool :=
  (db.deviceOfUser device user).any (fun d => !d.isRevoked)

inductive Submission (pf : Platform) (user device : Uuid) (dto : SubmitMessageEnvelope) :
    List Event → Prop
  | start : Submission pf user device dto []
  | looked (found : Option Uuid) :
      Submission pf user device dto [.idempotencyKeyRead device dto.idempotencyKey found]
  | read (devices : List Uuid) :
      Submission pf user device dto [.idempotencyKeyRead device dto.idempotencyKey none,
        .recipientDevicesRead dto.recipientUserId devices]
  | stored (devices : List Uuid) (envelope record : Uuid) (now : Nat)
      (recipients : List MessageRecipientDevice)
      (h : recipients.map MessageRecipientDevice.recipientDeviceId = devices)
      (hsize : (pf.decodeBase64 dto.opaquePayloadBase64).length ≤ maxPayloadBytes)
      (hnul : hasNul dto.idempotencyKey = false) :
      Submission pf user device dto [.idempotencyKeyRead device dto.idempotencyKey none,
        .recipientDevicesRead dto.recipientUserId devices,
        .envelopeSubmitted (envelopeOf pf user device dto envelope now)
          (keyOf pf device dto record envelope now) recipients]

structure StoredBy (pf : Platform) (user device : Uuid) (dto : SubmitMessageEnvelope)
    (es : List Event) (e : MessageEnvelope) (k : MessageIdempotencyKey)
    (rs : List MessageRecipientDevice) : Prop where
  events : es = [.idempotencyKeyRead device dto.idempotencyKey none,
    .recipientDevicesRead dto.recipientUserId (rs.map MessageRecipientDevice.recipientDeviceId),
    .envelopeSubmitted e k rs]
  sender : e.senderUserId = user
  ofDevice : e.senderDeviceId = device
  ofKey : e.clientIdempotencyKey = dto.idempotencyKey
  conversation : e.conversationId = dto.conversationId
  recipient : e.recipientUserId = dto.recipientUserId
  protocol : e.protocolVersion = dto.protocolVersion
  payload : e.opaquePayload = pf.decodeBase64 dto.opaquePayloadBase64
  digest : k.payloadDigestSha256 = payloadDigest pf dto
  size : (pf.decodeBase64 dto.opaquePayloadBase64).length ≤ maxPayloadBytes
  readable : hasNul k.idempotencyKey = false

theorem Submission.storedBy {pf : Platform} {user device : Uuid} {dto : SubmitMessageEnvelope}
    {es : List Event} (h : Submission pf user device dto es) {e : MessageEnvelope}
    {k : MessageIdempotencyKey} {rs : List MessageRecipientDevice}
    (he : .envelopeSubmitted e k rs ∈ es) : StoredBy pf user device dto es e k rs := by
  cases h with
  | start => exact absurd he List.not_mem_nil
  | looked found => simp at he
  | read devices => simp at he
  | stored devices envelope record now recipients hdev hsize hnul =>
    have heq : Event.envelopeSubmitted e k rs = .envelopeSubmitted
        (envelopeOf pf user device dto envelope now) (keyOf pf device dto record envelope now)
          recipients := by simpa using he
    obtain ⟨rfl, rfl, rfl⟩ := Event.envelopeSubmitted.inj heq
    exact ⟨by rw [hdev], rfl, rfl, rfl, rfl, rfl, rfl, rfl, rfl, hsize, hnul⟩

/-- Why a submission may fail: its sender, its request, another payload under
its key, or another submission of the key that committed first. -/
inductive Refused (pf : Platform) (user device : Uuid) (dto : SubmitMessageEnvelope)
    (es : List Event) (db : Db) : Prop
  | inactive (h : senderActive user device db = false)
  | outsider (h : db.isMember dto.conversationId user = false)
  | oversized (h : maxPayloadBytes < (pf.decodeBase64 dto.opaquePayloadBase64).length)
  | unreadable (h : hasNul dto.idempotencyKey = true)
  | unstorable (devices : List Uuid)
      (hes : es = [.idempotencyKeyRead device dto.idempotencyKey none,
        .recipientDevicesRead dto.recipientUserId devices])
      (h : ¬ Storable pf user device dto db)
  | otherPayload (k : MessageIdempotencyKey) (hk : k ∈ db.messageIdempotencyKeys)
      (hd : k.senderDeviceId = device) (hi : k.idempotencyKey = dto.idempotencyKey)
      (hp : k.payloadDigestSha256 ≠ payloadDigest pf dto)
  | overtaken (devices : List Uuid)
      (hes : es = [.idempotencyKeyRead device dto.idempotencyKey none,
        .recipientDevicesRead dto.recipientUserId devices])
      (h : (db.idempotencyRecord device dto.idempotencyKey).isSome)

/-- A submission that answers names the one envelope stored under its key. -/
structure Accepted (pf : Platform) (user device : Uuid) (dto : SubmitMessageEnvelope)
    (es : List Event) (db : Db) (r : EnvelopeReceipt) (k : MessageIdempotencyKey)
    (e : MessageEnvelope) : Prop where
  readable : hasNul dto.idempotencyKey = false
  record : k ∈ db.messageIdempotencyKeys
  ofDevice : k.senderDeviceId = device
  ofKey : k.idempotencyKey = dto.idempotencyKey
  digest : k.payloadDigestSha256 = payloadDigest pf dto
  envelope : lookup db.messageEnvelopes k.envelopeId = some e
  columns : r.envelope = some e.columns
  found : (r.idempotentRetry = true ∧
      es = [.idempotencyKeyRead device dto.idempotencyKey (some k.envelopeId)]) ∨
    (r.idempotentRetry = false ∧ Storable pf user device dto db ∧ ∃ devices recipients,
      es = [.idempotencyKeyRead device dto.idempotencyKey none,
        .recipientDevicesRead dto.recipientUserId devices, .envelopeSubmitted e k recipients])

def submitEnvelopeContract (pf : Platform) (user device : Uuid) (dto : SubmitMessageEnvelope)
    (began : World Db) : Spec.Contract Db Event Answer where
  trace := Submission pf user device dto
  answer
    | .ok v, es, w => senderActive user device began.db = true ∧
        began.db.isMember dto.conversationId user = true ∧
        (pf.decodeBase64 dto.opaquePayloadBase64).length ≤ maxPayloadBytes ∧
        ∃ r k e, v = .receipt r ∧ Accepted pf user device dto es w.db r k e
    | .error _, es, w => Refused pf user device dto es w.db

section
variable {pf : Platform} {user device : Uuid} {dto : SubmitMessageEnvelope} {db db' : Db}
variable {es : List Event}

theorem senderActive_eq : senderActive user device db =
    !(db.deviceOfUser device user).all Device.isRevoked := by
  unfold senderActive
  cases db.deviceOfUser device user <;> simp

theorem storable_grows (hg : db.Grows db') :
    Storable pf user device dto db' ↔ Storable pf user device dto db := by
  constructor
  · intro hx
    obtain ⟨hk, hv, hp, ht, hc, hs, hd, hr⟩ := hx
    rw [hg.directConversations] at hc
    rw [hg.users] at hs hr
    rw [hg.deviceKeys] at hd
    exact ⟨hk, hv, hp, ht, hc, hs, hd, hr⟩
  · intro hx
    obtain ⟨hk, hv, hp, ht, hc, hs, hd, hr⟩ := hx
    rw [← hg.directConversations] at hc
    rw [← hg.users] at hs hr
    rw [← hg.deviceKeys] at hd
    exact ⟨hk, hv, hp, ht, hc, hs, hd, hr⟩

theorem isMember_grows (hg : db.Grows db') (conversation : Uuid) :
    db'.isMember conversation user = db.isMember conversation user := by
  rw [Db.isMember, hg.conversationMembers, Db.isMember]

theorem senderActive_iff (h : db.Holds) : senderActive user device db = true ↔
    ∃ d, lookup db.devices device = some d ∧ d.userId = user ∧ d.isRevoked = false := by
  simp only [senderActive, Db.deviceOfUser, Option.any_eq_true, Bool.not_eq_true']
  constructor
  · intro hx
    obtain ⟨d, hd, hv⟩ := hx
    have hb := List.find?_some hd
    simp only [Bool.and_eq_true, beq_iff_eq] at hb
    exact ⟨d, hb.1 ▸ lookup_of_mem h.devices (List.mem_of_find?_eq_some hd), hb.2, hv⟩
  · intro hx
    obtain ⟨d, hd, hu, hv⟩ := hx
    have hm := lookup_mem hd
    have hid : d.id = device := lookup_key hd
    obtain ⟨d', hd'⟩ := Option.isSome_iff_exists.mp
      (List.find?_isSome (p := fun d => d.id == device && d.userId == user).mpr
        ⟨d, hm, by simp [hid, hu]⟩)
    have hb := List.find?_some hd'
    simp only [Bool.and_eq_true, beq_iff_eq] at hb
    have heq : d' = d := eq_of_key_eq h.devices (List.mem_of_find?_eq_some hd') hm
      (hb.1.trans hid.symm)
    exact ⟨d', hd', heq ▸ hv⟩

theorem senderActive_of_grows (h : db.Holds) (h' : db'.Holds) (hg : db.Grows db')
    (ha : senderActive user device db' = true) : senderActive user device db = true := by
  obtain ⟨d', hd', hu, hv⟩ := (senderActive_iff h').mp ha
  have hk : device ∈ keys db.devices := hg.deviceKeys ▸ mem_keys_of_lookup hd'
  obtain ⟨d, hd⟩ := Option.isSome_iff_exists.mp (lookup_isSome.mpr hk)
  obtain ⟨e, he, hge⟩ := hg.devices device d hd
  obtain rfl : e = d' := Option.some.inj (he.symm.trans hd')
  refine (senderActive_iff h).mpr ⟨d, hd, hge.userId.symm.trans hu, ?_⟩
  by_contra hne
  rw [hge.revoked (Bool.eq_true_of_not_eq_false hne)] at hv
  exact absurd hv (by decide)

theorem idempotencyRecord_grows (h' : db'.Holds) (hg : db.Grows db') {key : String}
    {k : MessageIdempotencyKey} (hk : db.idempotencyRecord device key = some k) :
    db'.idempotencyRecord device key = some k := by
  obtain ⟨hm, rfl, rfl⟩ := Db.idempotencyRecord_mem hk
  exact h'.transport.idempotencyRecord_of_mem (hg.records k hm)

theorem Refused.grows (h : db.Holds) (h' : db'.Holds) (hg : db.Grows db')
    (hr : Refused pf user device dto es db) : Refused pf user device dto es db' := by
  cases hr with
  | inactive ha =>
    refine .inactive (Bool.eq_false_of_not_eq_true fun hne => ?_)
    rw [senderActive_of_grows h h' hg hne] at ha
    exact absurd ha (by decide)
  | outsider hm => exact .outsider ((isMember_grows hg _).trans hm)
  | oversized hsize => exact .oversized hsize
  | unreadable hnul => exact .unreadable hnul
  | unstorable devices hes hs =>
    exact .unstorable devices hes fun hn => hs ((storable_grows hg).mp hn)
  | otherPayload k hk hd hi hp => exact .otherPayload k (hg.records k hk) hd hi hp
  | overtaken devices hes hk =>
    obtain ⟨k, hk⟩ := Option.isSome_iff_exists.mp hk
    exact .overtaken devices hes (by simp [idempotencyRecord_grows h' hg hk])

theorem Accepted.grows (hg : db.Grows db') {r : EnvelopeReceipt} {k : MessageIdempotencyKey}
    {e : MessageEnvelope} (ha : Accepted pf user device dto es db r k e) :
    Accepted pf user device dto es db' r k e := by
  obtain ⟨e', he', rfl⟩ := hg.envelopes _ _ ha.envelope
  refine { ha with record := hg.records k ha.record, envelope := he', found := ?_ }
  rcases ha.found with h | ⟨hr, hs, h⟩
  · exact .inl h
  · exact .inr ⟨hr, (storable_grows hg).mpr hs, h⟩

end

section
variable {pf : Platform} {user device : Uuid} {dto : SubmitMessageEnvelope} {began w : World Db}
variable {L : List Key} {D : List Uuid} {es : List Event} {k : Program}

theorem safe_refused {x : Failure} {f : Db → Db} (h : Refused pf user device dto es w.db)
    (hi : w.db.Holds) : (backend pf).Safe (submitEnvelopeContract pf user device dto began)
      (.ret (.error x)) L D f es w := by
  intro w' hr hi'
  exact h.grows hi hi' (grows_of_later hr.later)

theorem safe_refused_throw {x : Failure} {f : Db → Db} (h : Refused pf user device dto es w.db)
    (hi : w.db.Holds) : (backend pf).Safe (submitEnvelopeContract pf user device dto began)
      (throw x) L D f es w := by
  intro w' hr hi'
  exact h.grows hi hi' (grows_of_later hr.later)

theorem safe_readTimes {devices : List Uuid} (hi : w.db.Holds)
    (hes : es = [.idempotencyKeyRead device dto.idempotencyKey none,
      .recipientDevicesRead dto.recipientUserId devices])
    (hk : dto.clientCreatedAt ≠ none ∧ dto.expiresAt ≠ none →
      (backend pf).Safe (submitEnvelopeContract pf user device dto began) k L D (applyAll []) es w) :
    (backend pf).Safe (submitEnvelopeContract pf user device dto began) (readTimes dto k) L D
      (applyAll []) es w := by
  have hbad : ¬ (dto.clientCreatedAt ≠ none ∧ dto.expiresAt ≠ none) → ∀ x, (backend pf).Safe
      (submitEnvelopeContract pf user device dto began) (throw x) L D (applyAll []) es w :=
    fun hno x => safe_refused_throw (.unstorable devices hes fun hs => hno hs.times) hi
  unfold readTimes
  split
  · exact hbad (fun h => h.1 ‹_›) _
  · split
    · exact hbad (fun h => h.2 ‹_›) _
    · exact hk ⟨‹_›, ‹_›⟩

theorem safe_insertEnvelope {envelope : Uuid} {now : Nat} {devices : List Uuid}
    (h : Since pf began D w) (hD : envelope ∈ D)
    (htimes : dto.clientCreatedAt ≠ none ∧ dto.expiresAt ≠ none)
    (hes : es = [.idempotencyKeyRead device dto.idempotencyKey none,
      .recipientDevicesRead dto.recipientUserId devices])
    (hk : ∀ w', (backend pf).Rely L D w w' → w'.db.Holds → Storable pf user device dto w'.db →
      (backend pf).Safe (submitEnvelopeContract pf user device dto began) k
        (.envelope envelope :: L) D
        (applyAll [.insertMessageEnvelope (envelopeOf pf user device dto envelope now)]) es w') :
    (backend pf).Safe (submitEnvelopeContract pf user device dto began)
      (insertEnvelope (envelopeOf pf user device dto envelope now) k) L D (applyAll []) es w := by
  intro w' hr hi
  have hfresh := (Db.not_mem_of_ids ((h.rely hr hi).not_mem_ids hD)).2.2.2.1
  by_cases hs : Storable pf user device dto w'.db
  · have hgo := hk w' hr hi hs
    obtain ⟨hkey, hver, hpay, _, hconv, hsend, hdev, hrec⟩ := hs
    simp only [applyAll_nil, envelopeOf, Nat.not_lt.mpr hkey, Nat.not_lt.mpr hver,
      Nat.not_lt.mpr hpay, hfresh, hconv, hsend, hdev, hrec, not_true_eq_false, if_false]
    exact safe_write hgo
  · have hbad : ∀ x, (backend pf).Safe (submitEnvelopeContract pf user device dto began)
        (throw x) (.envelope envelope :: L) D (applyAll []) es w' := fun x =>
      safe_refused_throw (.unstorable devices hes hs) hi
    change (backend pf).Safe _ (if _ then _ else _) _ _ _ _ _
    refine safe_check (hbad _) fun h₁ => safe_check (hbad _) fun h₂ => safe_check (hbad _) fun h₃ =>
      safe_check (hbad _) fun _ => safe_check (hbad _) fun h₅ => safe_check (hbad _) fun h₆ =>
      safe_check (hbad _) fun h₇ => safe_check (hbad _) fun h₈ => ?_
    exact absurd ⟨Nat.not_lt.mp h₁, Nat.not_lt.mp h₂, Nat.not_lt.mp h₃, htimes, not_not.mp h₅,
      not_not.mp h₆, not_not.mp h₇, not_not.mp h₈⟩ hs

theorem safe_insertIdempotencyKey {envelope record : Uuid} {now : Nat} {devices : List Uuid}
    (h : Since pf began D w) (hD : record ∈ D)
    (hes : es = [.idempotencyKeyRead device dto.idempotencyKey none,
      .recipientDevicesRead dto.recipientUserId devices])
    (hs : Storable pf user device dto w.db)
    (hk : ∀ w', (backend pf).Rely L D w w' → w'.db.Holds →
      w'.db.idempotencyRecord device dto.idempotencyKey = none →
      (backend pf).Safe (submitEnvelopeContract pf user device dto began) k
        (.idempotency device dto.idempotencyKey :: .idempotencyRow record :: L) D
        (applyAll [.insertMessageEnvelope (envelopeOf pf user device dto envelope now),
          .insertMessageIdempotencyKey (keyOf pf device dto record envelope now)]) es w') :
    (backend pf).Safe (submitEnvelopeContract pf user device dto began)
      (insertIdempotencyKey (keyOf pf device dto record envelope now) k) L D
      (applyAll [.insertMessageEnvelope (envelopeOf pf user device dto envelope now)]) es w := by
  intro w₁ hr₁ hi₁ w' hr' hi
  have hr := hr₁.trans hr'.of_cons
  have h' := h.rely hr hi
  have hfresh := (Db.not_mem_of_ids (h'.not_mem_ids hD)).2.2.2.2.2
  have hs' := (storable_grows (grows_of_rely hr)).mpr hs
  have henv : envelope ∈ keys ((w'.db.messageEnvelopes ++
      [envelopeOf pf user device dto envelope now])) := by simp [envelopeOf]
  have hrec : ((Write.insertMessageEnvelope (envelopeOf pf user device dto envelope now)).apply
      w'.db).idempotencyRecord device dto.idempotencyKey =
        w'.db.idempotencyRecord device dto.idempotencyKey := rfl
  simp only [applyAll_cons, applyAll_nil, keyOf, hrec, Nat.not_lt.mpr hs'.key]
  cases hfound : w'.db.idempotencyRecord device dto.idempotencyKey with
  | some r =>
    have hsome : (w'.db.idempotencyRecord device dto.idempotencyKey).isSome := by simp [hfound]
    simp only [Write.apply, hfresh, if_false, Option.isSome_some, if_true]
    exact safe_refused_throw (.overtaken devices hes hsome) hi
  | none =>
    simp only [Write.apply, hfresh, henv, hs'.device, not_true_eq_false, if_false,
      Option.isSome_none, Bool.false_eq_true]
    exact safe_write (hk w' hr hi hfound)

def submissionWrites (e : MessageEnvelope) (r : MessageIdempotencyKey)
    (done : List MessageRecipientDevice) : List Write :=
  .insertMessageEnvelope e :: .insertMessageIdempotencyKey r :: done.map .insertMessageRecipientDevice

theorem applyAll_submissionWrites (e : MessageEnvelope) (r : MessageIdempotencyKey)
    (done : List MessageRecipientDevice) (db : Db) : applyAll (submissionWrites e r done) db =
      { db with
        messageEnvelopes := db.messageEnvelopes ++ [e]
        messageIdempotencyKeys := db.messageIdempotencyKeys ++ [r]
        messageRecipientDevices := db.messageRecipientDevices ++ done } := by
  simp [submissionWrites, Write.apply]

/-- The state of the loop: its rows are new, belong to the envelope and are locked. -/
structure FanOut (L : List Key) (D : List Uuid) (envelope : Uuid) (now : Nat)
    (done : List MessageRecipientDevice) : Prop where
  rows : ∀ r ∈ done, r = newRecipient r.id envelope r.recipientDeviceId now
  drawn : ∀ r ∈ done, r.id ∈ D
  distinct : (keys done).Nodup
  locked : ∀ r ∈ done, .recipient r.id ∈ L ∧ .recipientPair envelope r.recipientDeviceId ∈ L

theorem FanOut.snoc {L : List Key} {D : List Uuid} {envelope device rdId : Uuid} {now : Nat}
    {done : List MessageRecipientDevice} (h : FanOut L D envelope now done) (hD : rdId ∉ D) :
    FanOut (.recipientPair envelope device :: .recipient rdId :: L) (rdId :: D) envelope now
      (done ++ [newRecipient rdId envelope device now]) where
  rows := by
    intro r hr
    rcases List.mem_append.mp hr with hr | hr
    · exact h.rows r hr
    · rw [List.mem_singleton.mp hr]
      rfl
  drawn := by
    intro r hr
    rcases List.mem_append.mp hr with hr | hr
    · exact List.mem_cons_of_mem _ (h.drawn r hr)
    · rw [List.mem_singleton.mp hr]
      exact List.mem_cons_self
  distinct := by
    rw [keys_append, keys_singleton]
    refine h.distinct.append (List.nodup_singleton _) ?_
    intro i hi hj
    obtain ⟨r, hr, rfl⟩ := mem_keys.mp hi
    have he : r.id = rdId := List.mem_singleton.mp hj
    exact hD (he ▸ h.drawn r hr)
  locked := by
    intro r hr
    rcases List.mem_append.mp hr with hr | hr
    · obtain ⟨h₁, h₂⟩ := h.locked r hr
      exact ⟨List.mem_cons_of_mem _ (List.mem_cons_of_mem _ h₁),
        List.mem_cons_of_mem _ (List.mem_cons_of_mem _ h₂)⟩
    · rw [List.mem_singleton.mp hr]
      simp [newRecipient]

theorem safe_insertRecipient {C : Spec.Contract Db Event Answer} {e : MessageEnvelope}
    {r : MessageIdempotencyKey} {done : List MessageRecipientDevice} {device rdId : Uuid} {now : Nat}
    (h : Since pf began D w) (hD : e.id ∈ D) (hrd : rdId ∈ D)
    (hnew : ∀ s ∈ done, s.id ≠ rdId ∧ s.recipientDeviceId ≠ device)
    (hdev : device ∈ keys w.db.devices)
    (hk : ∀ w', (backend pf).Rely L D w w' → w'.db.Holds →
      (backend pf).Safe C k (.recipientPair e.id device :: .recipient rdId :: L) D
        (applyAll (submissionWrites e r (done ++ [newRecipient rdId e.id device now]))) es w') :
    (backend pf).Safe C (insertRecipient (newRecipient rdId e.id device now) k) L D
      (applyAll (submissionWrites e r done)) es w := by
  intro w₁ hr₁ hi₁ w' hr' hi
  have hr := hr₁.trans hr'.of_cons
  have h' := h.rely hr hi
  have hids := Db.not_mem_of_ids (h'.not_mem_ids hrd)
  have hid : rdId ∉ keys (w'.db.messageRecipientDevices ++ done) := by
    rw [keys_append, List.mem_append, not_or]
    refine ⟨hids.2.2.2.2.1, fun hmem => ?_⟩
    obtain ⟨s, hs, hsid⟩ := mem_keys.mp hmem
    exact (hnew s hs).1 hsid
  have hpair : (w'.db.messageRecipientDevices ++ done).any
      (fun s => s.envelopeId == e.id && s.recipientDeviceId == device) = false := by
    rw [List.any_eq_false]
    intro s hs hse
    simp only [Bool.and_eq_true, beq_iff_eq] at hse
    rcases List.mem_append.mp hs with hs | hs
    · have henv := hi.transport.recipientEnvelope s hs
      rw [hse.1] at henv
      exact (Db.not_mem_of_ids (h'.not_mem_ids hD)).2.2.2.1 henv
    · exact (hnew s hs).2 hse.2
  have hdev' : device ∈ keys w'.db.devices := (grows_of_rely hr).deviceKeys ▸ hdev
  have henv : e.id ∈ keys (w'.db.messageEnvelopes ++ [e]) := by simp
  have hk' := hk w' hr hi
  have hws : submissionWrites e r (done ++ [newRecipient rdId e.id device now]) =
      submissionWrites e r done ++
        [.insertMessageRecipientDevice (newRecipient rdId e.id device now)] := by
    simp [submissionWrites]
  rw [hws] at hk'
  simp only [applyAll_submissionWrites, Db.recipientPairTaken, newRecipient, hid, hpair, henv,
    hdev', if_false, not_true_eq_false, Bool.false_eq_true]
  exact safe_write hk'

/-- The whole loop: it ends with one row for each device it was given. -/
theorem safe_fanOut {C : Spec.Contract Db Event Answer} {e : MessageEnvelope}
    {r : MessageIdempotencyKey} {now : Nat} {k : List MessageRecipientDevice → Program}
    (devices : List Uuid) (done : List MessageRecipientDevice)
    (h : Since pf began D w) (hD : e.id ∈ D) (hdone : FanOut L D e.id now done)
    (hnd : (done.map MessageRecipientDevice.recipientDeviceId ++ devices).Nodup)
    (hdev : ∀ d ∈ devices, d ∈ keys w.db.devices)
    (hk : ∀ w' L' D' recipients, (backend pf).Rely L D w w' → Since pf began D' w' →
      FanOut L' D' e.id now recipients → L ⊆ L' → D ⊆ D' →
      recipients.map MessageRecipientDevice.recipientDeviceId =
        done.map MessageRecipientDevice.recipientDeviceId ++ devices →
      (backend pf).Safe C (k recipients) L' D' (applyAll (submissionWrites e r recipients)) es w') :
    (backend pf).Safe C (fanOut e.id now done devices k) L D
      (applyAll (submissionWrites e r done)) es w := by
  induction devices generalizing w L D done with
  | nil =>
    exact hk w L D done (.refl _ _ _) h hdone (List.Subset.refl _) (List.Subset.refl _) (by simp)
  | cons device devices ih =>
    intro w₁ hr₁ hi₁ rdId hfresh hrd
    have h₁ := h.draw hr₁ hi₁ hrd
    have hdev₁ : ∀ d ∈ device :: devices, d ∈ keys w₁.db.devices := by
      intro d hd
      rw [(grows_of_rely hr₁).deviceKeys]
      exact hdev d hd
    have hne : ∀ s ∈ done, s.id ≠ rdId ∧ s.recipientDeviceId ≠ device := by
      intro s hs
      refine ⟨fun he => hfresh (he ▸ hdone.drawn s hs), fun he => ?_⟩
      have hdis := List.disjoint_of_nodup_append hnd
      exact hdis (he ▸ List.mem_map_of_mem hs) List.mem_cons_self
    apply safe_insertRecipient h₁ (List.mem_cons_of_mem _ hD) List.mem_cons_self hne
      (hdev₁ device List.mem_cons_self)
    intro w₂ hr₂ hi₂
    have h₂ := h₁.rely hr₂ hi₂
    apply ih _ h₂ (List.mem_cons_of_mem _ hD) (hdone.snoc hfresh)
    · simpa [newRecipient] using hnd
    · intro d hd
      rw [(grows_of_rely hr₂).deviceKeys]
      exact hdev₁ d (List.mem_cons_of_mem _ hd)
    · intro w' L' D' recipients hr' h' hrs hL hD' hmap
      have hr₂' := hr'.of_cons.of_cons
      have hr := hr₁.trans ((hr₂.trans hr₂').of_draw)
      apply hk w' L' D' recipients hr h' hrs
      · exact fun x hx => hL (List.mem_cons_of_mem _ (List.mem_cons_of_mem _ hx))
      · exact fun x hx => hD' (List.mem_cons_of_mem _ hx)
      · simpa [newRecipient] using hmap

theorem accepted_stored {db : Db} {envelope record now : Nat} {devices : List Uuid}
    {recipients : List MessageRecipientDevice} (hnul : hasNul dto.idempotencyKey = false)
    (hs : Storable pf user device dto db)
    (henv : envelope ∉ keys db.messageEnvelopes)
    (hes : es = [.idempotencyKeyRead device dto.idempotencyKey none,
      .recipientDevicesRead dto.recipientUserId devices,
      .envelopeSubmitted (envelopeOf pf user device dto envelope now)
        (keyOf pf device dto record envelope now) recipients]) :
    Accepted pf user device dto es
      (applyAll (submissionWrites (envelopeOf pf user device dto envelope now)
        (keyOf pf device dto record envelope now) recipients) db)
      { envelope := some (envelopeOf pf user device dto envelope now).columns
        recipientDeviceCount := some devices.length
        idempotentRetry := false }
      (keyOf pf device dto record envelope now) (envelopeOf pf user device dto envelope now) where
  readable := hnul
  record := by
    rw [applyAll_submissionWrites]
    exact List.mem_append_right _ (List.mem_singleton_self _)
  ofDevice := rfl
  ofKey := rfl
  digest := rfl
  envelope := by
    have hnone : lookup db.messageEnvelopes envelope = none := lookup_eq_none.mpr henv
    rw [applyAll_submissionWrites]
    simp only [keyOf, lookup_append, hnone, Option.none_or]
    simp [lookup, envelopeOf]
  columns := rfl
  found := .inr ⟨rfl, (storable_grows (grows_applyAll _ db)).mpr hs, devices, recipients, hes⟩

theorem safe_storeEnvelope {devices : List Uuid} (h : Since pf began [] w)
    (hsend : senderActive user device began.db = true)
    (hmem : began.db.isMember dto.conversationId user = true)
    (hnul : hasNul dto.idempotencyKey = false) (hnd : devices.Nodup)
    (hdev : ∀ d ∈ devices, d ∈ keys w.db.devices)
    (hes : es = [.idempotencyKeyRead device dto.idempotencyKey none,
      .recipientDevicesRead dto.recipientUserId devices]) :
    (backend pf).Safe (submitEnvelopeContract pf user device dto began)
      (storeEnvelope pf user device dto devices) [] [] (applyAll []) es w := by
  intro w₁ hr₁ hi₁ envelope _ he w₂ hr₂ hi₂ record hfresh hrec w₃ hr₃ hi₃
  have hrecord : record ≠ envelope := fun heq => hfresh (heq ▸ List.mem_cons_self)
  have h₂ := (h.draw hr₁ hi₁ he).draw hr₂ hi₂ hrec
  have h₃ := h₂.rely hr₃ hi₃
  refine safe_readTimes hi₃ hes fun htimes => ?_
  apply safe_insertEnvelope h₃ (by simp) htimes hes
  intro w₄ hr₄ hi₄ hs₄
  have h₄ := h₃.rely hr₄ hi₄
  apply safe_insertIdempotencyKey h₄ (by simp) hes hs₄
  intro w₅ hr₅ hi₅ hfree
  have h₅ := h₄.rely hr₅ hi₅
  have hg₅ := (grows_of_rely hr₁).trans ((grows_of_rely hr₂).trans ((grows_of_rely hr₃).trans
    ((grows_of_rely hr₄).trans (grows_of_rely hr₅))))
  have hdev₅ : ∀ d ∈ devices, d ∈ keys w₅.db.devices := fun d hd => by
    rw [hg₅.deviceKeys]
    exact hdev d hd
  apply safe_fanOut (e := envelopeOf pf user device dto envelope w₃.clock)
    (r := keyOf pf device dto record envelope w₃.clock) devices [] h₅ (by simp [envelopeOf])
    ⟨by simp, by simp, by simp [keys], by simp⟩ (by simpa using hnd) hdev₅
  intro w₆ L D recipients hr₆ h₆ hrs hL hD hmap
  have hmap' : recipients.map MessageRecipientDevice.recipientDeviceId = devices := by
    simpa using hmap
  have hkeyL : Key.idempotency device dto.idempotencyKey ∈ L := hL (by simp)
  apply safe_commit (e := .envelopeSubmitted (envelopeOf pf user device dto envelope w₃.clock)
    (keyOf pf device dto record envelope w₃.clock) recipients) (fun _ => rfl)
  · intro x hx key hkey
    simp only [Event.writes, List.mem_cons, List.mem_map] at hx
    rcases hx with rfl | rfl | ⟨r, hr, rfl⟩
    · simp only [Write.touches, envelopeOf, List.mem_singleton] at hkey
      exact hL (by simp [hkey])
    · simp only [Write.touches, keyOf, List.mem_cons, List.not_mem_nil, or_false] at hkey
      rcases hkey with rfl | rfl <;> exact hL (by simp)
    · obtain ⟨h₁, h₂⟩ := hrs.locked r hr
      have henv : r.envelopeId = envelope := by
        rw [hrs.rows r hr]
        rfl
      simp only [Write.touches, henv, List.mem_cons, List.not_mem_nil, or_false] at hkey
      rcases hkey with rfl | rfl
      · exact h₁
      · exact h₂
  · intro x hx i hi
    simp only [Event.writes, List.mem_cons, List.mem_map] at hx
    rcases hx with rfl | rfl | ⟨r, hr, rfl⟩
    · simp only [Write.inserts, envelopeOf, List.mem_singleton] at hi
      exact hD (by simp [hi])
    · simp only [Write.inserts, keyOf, List.mem_singleton] at hi
      exact hD (by simp [hi])
    · rw [List.mem_singleton.mp hi]
      exact hrs.drawn r hr
  · intro w₇ hr₇ hi₇
    have h₇ := h₆.rely hr₇ hi₇
    have hids : ∀ x ∈ [record, envelope], x ∉ w₇.db.ids := fun x hx => h₇.not_mem_ids (hD hx)
    have hcell : w₇.db.cell (.idempotency device dto.idempotencyKey) =
        w₅.db.cell (.idempotency device dto.idempotencyKey) :=
      (cell_of_rely hr₇ hkeyL).trans (cell_of_rely hr₆ (by simp))
    simp only [Db.cell, hfree, Cell.taken.injEq, Option.isSome_none, Option.isSome_eq_false_iff,
      Option.isNone_iff_eq_none] at hcell
    have hs₇ : Storable pf user device dto w₇.db :=
      (storable_grows ((grows_of_rely hr₅).trans ((grows_of_rely hr₆).trans
        (grows_of_rely hr₇)))).mpr hs₄
    have hdisj : (keys w₇.db.messageRecipientDevices ++ keys recipients).Nodup := by
      refine hi₇.transport.recipients.append hrs.distinct ?_
      intro i hi hj
      obtain ⟨r, hr, rfl⟩ := mem_keys.mp hj
      exact (Db.not_mem_of_ids (h₇.not_mem_ids (hrs.drawn r hr))).2.2.2.2.1 hi
    have ha : (Event.envelopeSubmitted (envelopeOf pf user device dto envelope w₃.clock)
        (keyOf pf device dto record envelope w₃.clock) recipients).Allowed pf w₇.clock w₇.db := by
      refine ⟨?_, ?_, hcell, rfl, rfl, rfl, hdisj, ?_, ?_⟩
      · exact (Db.not_mem_of_ids (hids envelope (by simp))).2.2.2.1
      · exact (Db.not_mem_of_ids (hids record (by simp))).2.2.2.2.2
      · rw [hmap']
        exact hnd
      · intro r hr
        rw [hrs.rows r hr]
        exact ⟨rfl, rfl⟩
    refine ⟨ha, ?_, ?_⟩
    · rw [hes]
      exact .stored devices envelope record w₃.clock recipients hmap' hs₇.payload hnul
    · intro w₈ hr₈ hi₈
      have hpay : (pf.decodeBase64 dto.opaquePayloadBase64).length ≤ maxPayloadBytes := hs₇.payload
      refine ⟨hsend, hmem, hpay, _, keyOf pf device dto record envelope w₃.clock,
        envelopeOf pf user device dto envelope w₃.clock, rfl, ?_⟩
      apply Accepted.grows (grows_of_later hr₈.later)
      have henv := (Db.not_mem_of_ids (hids envelope (by simp))).2.2.2.1
      exact accepted_stored hnul hs₇ henv (by rw [hes]; rfl)

theorem safe_answerCached {r : MessageIdempotencyKey} (h : Since pf began [] w)
    (hsend : senderActive user device began.db = true)
    (hmem : began.db.isMember dto.conversationId user = true)
    (hnul : hasNul dto.idempotencyKey = false)
    (hpay : (pf.decodeBase64 dto.opaquePayloadBase64).length ≤ maxPayloadBytes)
    (hr : r ∈ w.db.messageIdempotencyKeys) (hd : r.senderDeviceId = device)
    (hi : r.idempotencyKey = dto.idempotencyKey)
    (hes : es = [.idempotencyKeyRead device dto.idempotencyKey (some r.envelopeId)]) :
    (backend pf).Safe (submitEnvelopeContract pf user device dto began) (answerCached pf dto r)
      [] [] (applyAll []) es w := by
  unfold answerCached
  split
  · rename_i hne
    exact safe_refused (.otherPayload r hr hd hi hne) h.holds
  · rename_i heq
    intro w₁ hr₁ hi₁ w₂ hr₂ _
    have hrow := (grows_of_rely hr₁).records r hr
    have hpaired : (r.envelopeId, r.senderDeviceId, r.idempotencyKey) ∈
        w₁.db.messageEnvelopes.map fun e => (e.id, e.senderDeviceId, e.clientIdempotencyKey) := by
      rw [← hi₁.transport.paired]
      exact List.mem_map_of_mem hrow
    obtain ⟨e, he, hep⟩ := List.mem_map.mp hpaired
    have hlookup : lookup w₁.db.messageEnvelopes r.envelopeId = some e := by
      rw [← (Prod.mk.inj hep).1]
      exact lookup_of_mem hi₁.transport.envelopes he
    refine ⟨hsend, hmem, hpay, _, r, e, rfl, ?_⟩
    apply Accepted.grows (grows_of_later hr₂.later)
    constructor
    case found => exact .inl ⟨rfl, hes⟩
    case columns => simp [hlookup]
    case envelope => exact hlookup
    case readable => exact hnul
    case record => exact hrow
    case ofDevice => exact hd
    case ofKey => exact hi
    case digest => exact not_not.mp heq

theorem safe_submitEnvelope (hi : w.db.Holds) :
    (backend pf).Safe (submitEnvelopeContract pf user device dto w)
      (submitEnvelope pf user device dto) [] [] (applyAll []) [] w := by
  intro w₁ hr₁ hi₁
  have h₁ := (Since.start hi).rely hr₁ hi₁
  dsimp only [applyAll_nil]
  split
  · rename_i hrev
    refine safe_refused (.inactive ?_) hi₁
    rw [senderActive_eq, hrev, Bool.not_true]
  · rename_i hact
    have hact₁ : senderActive user device w₁.db = true := by
      rw [senderActive_eq, Bool.eq_false_of_not_eq_true hact, Bool.not_false]
    have hsend := senderActive_of_grows hi hi₁ h₁.grows hact₁
    intro w₂ hr₂ hi₂
    have h₂ := h₁.rely hr₂ hi₂
    dsimp only [applyAll_nil]
    split
    · rename_i hout
      exact safe_refused (.outsider (by simpa using hout)) hi₂
    · rename_i hin
      have hmem : w.db.isMember dto.conversationId user = true := by
        rw [← isMember_grows h₂.grows]
        simpa using hin
      split
      · rename_i hbig
        exact safe_refused (.oversized hbig) hi₂
      rename_i hpay
      split
      · exact safe_refused (.unreadable ‹_›) hi₂
      · rename_i hnul
        have hnul : hasNul dto.idempotencyKey = false := Bool.eq_false_of_not_eq_true hnul
        apply safe_observe (fun _ _ => rfl)
        intro w₃ hr₃ hi₃ ids _
        have h₃ := h₂.rely hr₃ hi₃
        refine ⟨rfl, .looked _, ?_⟩
        simp only [applyAll_nil, List.nil_append]
        cases hfound : w₃.db.idempotencyRecord device dto.idempotencyKey with
        | some r =>
          obtain ⟨hr, hd, hk⟩ := Db.idempotencyRecord_mem hfound
          exact safe_answerCached h₃ hsend hmem hnul (Nat.not_lt.mp hpay) hr hd hk rfl
        | none =>
          apply safe_observe (fun _ _ => rfl)
          intro w₄ hr₄ hi₄ devices hdevs
          have h₄ := h₃.rely hr₄ hi₄
          have hperm : devices.Perm (w₄.db.unrevokedDevicesOf dto.recipientUserId) :=
            List.isPerm_iff.mp hdevs
          have hsub : (w₄.db.unrevokedDevicesOf dto.recipientUserId).Sublist (keys w₄.db.devices) :=
            List.filter_sublist.map _
          refine ⟨hperm, .read devices, ?_⟩
          apply safe_storeEnvelope h₄ hsend hmem hnul
          · exact hperm.nodup_iff.mpr (hi₄.devices.sublist hsub)
          · exact fun d hd => hsub.subset (hperm.subset hd)
          · rfl

end

end MessageEnvelopeService

end GuffSuff
