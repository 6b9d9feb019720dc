import Mathlib.Data.Set.Function
import GuffSuff.PendingEnvelopes
import GuffSuff.ReadCommitted.Alone

/-! Key rows and envelopes correspond one to one, and a stored key answers every
later submission of its payload. -/

namespace GuffSuff

open ReadCommitted MessageEnvelopeService

/-- The rows of `message_idempotency_keys` stand for the envelopes, one for one. -/
structure Db.KeysBiject (db : Db) : Prop where
  rows : db.messageIdempotencyKeys.Nodup
  envelopes : (keys db.messageEnvelopes).Nodup
  bijective : Set.BijOn MessageIdempotencyKey.envelopeId {k | k ∈ db.messageIdempotencyKeys}
    {i | i ∈ keys db.messageEnvelopes}
  own : ∀ k ∈ db.messageIdempotencyKeys, ∀ e ∈ db.messageEnvelopes, e.id = k.envelopeId →
    k.senderDeviceId = e.senderDeviceId ∧ k.idempotencyKey = e.clientIdempotencyKey
  distinct : ∀ e ∈ db.messageEnvelopes, ∀ e' ∈ db.messageEnvelopes,
    e.senderDeviceId = e'.senderDeviceId → e.clientIdempotencyKey = e'.clientIdempotencyKey → e = e'

namespace Db.Transport
variable {db : Db}

theorem envelopeIds (h : db.Transport) :
    db.messageIdempotencyKeys.map MessageIdempotencyKey.envelopeId = keys db.messageEnvelopes := by
  have hp := congrArg (List.map Prod.fst) h.paired
  rw [List.map_map, List.map_map] at hp
  exact hp

theorem envelope_of_record (h : db.Transport) {k : MessageIdempotencyKey}
    (hk : k ∈ db.messageIdempotencyKeys) : ∃ e ∈ db.messageEnvelopes, e.id = k.envelopeId ∧
      e.senderDeviceId = k.senderDeviceId ∧ e.clientIdempotencyKey = k.idempotencyKey := by
  have hmem : (k.envelopeId, k.senderDeviceId, k.idempotencyKey) ∈
      db.messageEnvelopes.map fun e => (e.id, e.senderDeviceId, e.clientIdempotencyKey) := by
    rw [← h.paired]
    exact List.mem_map_of_mem hk
  obtain ⟨e, he, heq⟩ := List.mem_map.mp hmem
  simp only [Prod.mk.injEq] at heq
  exact ⟨e, he, heq⟩

theorem record_of_envelope (h : db.Transport) {e : MessageEnvelope} (he : e ∈ db.messageEnvelopes) :
    ∃ k ∈ db.messageIdempotencyKeys, k.envelopeId = e.id ∧ k.senderDeviceId = e.senderDeviceId ∧
      k.idempotencyKey = e.clientIdempotencyKey := by
  have hmem : (e.id, e.senderDeviceId, e.clientIdempotencyKey) ∈ db.messageIdempotencyKeys.map
      fun k => (k.envelopeId, k.senderDeviceId, k.idempotencyKey) := by
    rw [h.paired]
    exact List.mem_map_of_mem he
  obtain ⟨k, hk, heq⟩ := List.mem_map.mp hmem
  simp only [Prod.mk.injEq] at heq
  exact ⟨k, hk, heq⟩

theorem keysBiject (h : db.Transport) : db.KeysBiject where
  rows := h.records.of_map
  envelopes := h.envelopes
  bijective := by
    refine ⟨?_, ?_, ?_⟩
    · intro k hk
      obtain ⟨e, he, hid, _⟩ := h.envelope_of_record hk
      exact hid ▸ key_mem_keys he
    · intro k hk l hl heq
      have hnd : (db.messageIdempotencyKeys.map MessageIdempotencyKey.envelopeId).Nodup := by
        rw [h.envelopeIds]
        exact h.envelopes
      exact List.inj_on_of_nodup_map hnd hk hl heq
    · intro i hi
      obtain ⟨e, he, rfl⟩ := mem_keys.mp hi
      obtain ⟨k, hk, hid, _⟩ := h.record_of_envelope he
      exact ⟨k, hk, hid⟩
  own := by
    intro k hk e he hid
    obtain ⟨e', he', hid', hd, hkey⟩ := h.envelope_of_record hk
    have heq : e' = e := eq_of_key_eq h.envelopes he' he (hid'.trans hid.symm)
    exact ⟨heq ▸ hd.symm, heq ▸ hkey.symm⟩
  distinct := by
    intro e he e' he' hd hkey
    obtain ⟨k, hk, hid, hkd, hkk⟩ := h.record_of_envelope he
    obtain ⟨k', hk', hid', hkd', hkk'⟩ := h.record_of_envelope he'
    have hkeq : k = k' := h.record_unique hk hk' (by rw [hkd, hkd', hd]) (by rw [hkk, hkk', hkey])
    exact eq_of_key_eq h.envelopes he he' (by rw [hkeq] at hid; exact hid.symm.trans hid')

end Db.Transport

def storedReceipt (e : MessageEnvelope) : EnvelopeReceipt :=
  { envelope := some e.columns, recipientDeviceCount := none, idempotentRetry := true }

def Event.newRecords : Event → List MessageIdempotencyKey
  | envelopeSubmitted _ record _ => [record]
  | _ => []

section
variable {pf : Platform}

theorem Event.records_writes (e : Event) (db : Db) :
    (applyAll (e.writes pf) db).messageIdempotencyKeys = db.messageIdempotencyKeys ++ e.newRecords := by
  cases e with
  | envelopeSubmitted envelope record recipients =>
    simp [Event.writes, Write.apply, Event.newRecords]
  | _ => simp [Event.writes, Write.apply, Event.newRecords]

/-- A key row is as old as the run, or a submission of the run wrote it. -/
theorem record_origin {v w : World Db} {es : List Event} (h : (backend pf).Path v es w)
    {k : MessageIdempotencyKey} (hk : k ∈ w.db.messageIdempotencyKeys) :
    k ∈ v.db.messageIdempotencyKeys ∨ ∃ e rs, .envelopeSubmitted e k rs ∈ es ∧
      e ∈ w.db.messageEnvelopes ∧ k.envelopeId = e.id := by
  induction h with
  | refl => exact .inl hk
  | tick _ _ ih => exact ih hk
  | @move es c db _ ev hpath hm ih =>
    obtain ⟨ha, rfl⟩ := hm
    have hk' : k ∈ (applyAll (ev.writes pf) db).messageIdempotencyKeys := hk
    rw [ev.records_writes] at hk'
    rcases List.mem_append.mp hk' with hk' | hk'
    · rcases ih hk' with hold | ⟨e, rs, hes, he, hid⟩
      · exact .inl hold
      · exact .inr ⟨e, rs, List.mem_append_left _ hes, envelope_mem_writes ev he, hid⟩
    · cases ev with
      | envelopeSubmitted envelope record recipients =>
        obtain ⟨_, _, _, hid, _⟩ := ha
        obtain rfl := List.mem_singleton.mp hk'
        refine .inr ⟨envelope, recipients, by simp, ?_, hid⟩
        rw [Event.envelopes_writes]
        exact List.mem_append_right _ (List.mem_singleton_self _)
      | _ => exact absurd hk' List.not_mem_nil

variable {fk : FkCheck} {w₀ : World Db} {s : Server}

/-- A submission of the run stored the envelope together with its key row. -/
theorem SoundRun.envelope_origin (h : SoundRun pf fk w₀ s) (h₀ : w₀.db.Initial)
    {k : MessageIdempotencyKey} (hk : k ∈ s.db.messageIdempotencyKeys) {e : MessageEnvelope}
    (he : e ∈ s.db.messageEnvelopes) (hid : e.id = k.envelopeId) :
    ∃ p rs, (p, .envelopeSubmitted e k rs) ∈ s.log := by
  rcases record_origin h.path hk with hold | ⟨e', rs, hes, he', hid'⟩
  · rw [h₀.records] at hold
    exact absurd hold List.not_mem_nil
  · have heq : e' = e := eq_of_key_eq h.holds.transport.envelopes he' he (hid'.symm.trans hid.symm)
    obtain ⟨⟨p, ev⟩, hp, hev⟩ := List.mem_map.mp hes
    obtain rfl : ev = .envelopeSubmitted e' k rs := hev
    exact ⟨p, rs, heq ▸ hp⟩

theorem SoundRun.record_digest (h : SoundRun pf fk w₀ s) (h₀ : w₀.db.Initial)
    {k : MessageIdempotencyKey} (hk : k ∈ s.db.messageIdempotencyKeys) {e : MessageEnvelope}
    (he : e ∈ s.db.messageEnvelopes) (hid : e.id = k.envelopeId) :
    k.payloadDigestSha256 = pf.sha256 e.opaquePayload ∧ e.opaquePayload.length ≤ maxPayloadBytes ∧
      hasNul k.idempotencyKey = false := by
  obtain ⟨p, rs, hp⟩ := h.envelope_origin h₀ hk he hid
  obtain ⟨user, device, dto, hby⟩ := h.submitted hp
  rw [hby.payload]
  exact ⟨hby.digest, hby.size, hby.readable⟩

/-- A submission under a stored key that runs alone answers the stored envelope
after four statements. -/
theorem Reachable.answers_stored (h : Reachable pf fk s) {k : MessageIdempotencyKey}
    (hk : k ∈ s.db.messageIdempotencyKeys) {e : MessageEnvelope} (he : e ∈ s.db.messageEnvelopes)
    (hid : e.id = k.envelopeId) {p : Nat} (hp : s.procs p = none) {user : Uuid}
    {dto : SubmitMessageEnvelope} (hactive : senderActive user k.senderDeviceId s.db = true)
    (hmember : s.db.isMember dto.conversationId user = true)
    (hkey : dto.idempotencyKey = k.idempotencyKey)
    (hpayload : pf.decodeBase64 dto.opaquePayloadBase64 = e.opaquePayload) {sched : List Choice}
    (halone : ∀ ch ∈ sched, ch.RunsAlone p) (hturns : 4 ≤ ReadCommitted.Choice.turns p sched) :
    (serve pf fk s (.call p (.submitEnvelope user k.senderDeviceId dto) :: sched)).At p
      (.submitEnvelope user k.senderDeviceId dto)
      (.ret (.ok (.receipt (storedReceipt e)))) s.db := by
  obtain ⟨w₀, h₀, hs⟩ := h.sound
  have ht := hs.holds.transport
  obtain ⟨hdigest, hsize, hnul⟩ := hs.record_digest h₀ hk he hid
  have hrevoked : (s.db.deviceOfUser k.senderDeviceId user).all Device.isRevoked = false := by
    rw [senderActive_eq] at hactive
    simpa using hactive
  have hreadable : hasNul dto.idempotencyKey = false := hkey ▸ hnul
  have hrecord : s.db.idempotencyRecord k.senderDeviceId dto.idempotencyKey = some k := by
    rw [hkey]
    exact ht.idempotencyRecord_of_mem hk
  have hlookup : lookup s.db.messageEnvelopes k.envelopeId = some e := by
    rw [← hid]
    exact lookup_of_mem ht.envelopes he
  have hstart : (serve pf fk s [.call p (.submitEnvelope user k.senderDeviceId dto)]).At p
      (.submitEnvelope user k.senderDeviceId dto) (submitEnvelope pf user k.senderDeviceId dto) s.db :=
    ReadCommitted.Server.At.call (Call.program pf fk) Call.aborted hp
  obtain ⟨s₁, sched₁, hrun₁, h₁, halone₁, hturns₁⟩ :=
    hstart.advance (Call.program pf fk) Call.aborted (fun _ ids h => h.query ids) halone hturns
  simp only [hrevoked, Bool.false_eq_true, if_false] at h₁
  obtain ⟨s₂, sched₂, hrun₂, h₂, halone₂, hturns₂⟩ :=
    h₁.advance (Call.program pf fk) Call.aborted (fun _ ids h => h.query ids) halone₁ hturns₁
  rw [hmember, hpayload] at h₂
  simp only [Bool.not_true, Bool.false_eq_true, if_false, Nat.not_lt.mpr hsize, hreadable] at h₂
  obtain ⟨s₃, sched₃, hrun₃, h₃, halone₃, hturns₃⟩ :=
    h₂.advance (Call.program pf fk) Call.aborted (fun _ ids h => h.observe ids) halone₂ hturns₂
  simp only [hrecord, answerCached, payloadDigest, hpayload, hdigest, ne_eq, not_true_eq_false,
    if_false] at h₃
  obtain ⟨s₄, sched₄, hrun₄, h₄, halone₄, _⟩ :=
    h₃.advance (Call.program pf fk) Call.aborted (fun _ ids h => h.query ids) halone₃ hturns₃
  rw [hlookup] at h₄
  have hrun : serve pf fk s (.call p (.submitEnvelope user k.senderDeviceId dto) :: sched) =
      serve pf fk s₄ sched₄ := by
    exact hrun₁.trans (hrun₂.trans (hrun₃.trans hrun₄))
  rw [hrun]
  exact h₄.finished halone₄

/-- Wherever submissions fail, keys and envelopes stay in bijection, and a
stored key answers its envelope again without a write. -/
theorem idempotency_keys_exact (h : Reachable pf fk s) : s.db.KeysBiject ∧
    ∀ k ∈ s.db.messageIdempotencyKeys, ∀ e ∈ s.db.messageEnvelopes, e.id = k.envelopeId →
      ∀ p user dto sched, s.procs p = none → senderActive user k.senderDeviceId s.db = true →
        s.db.isMember dto.conversationId user = true → dto.idempotencyKey = k.idempotencyKey →
        pf.decodeBase64 dto.opaquePayloadBase64 = e.opaquePayload →
        (∀ ch ∈ sched, ch.RunsAlone p) → 4 ≤ ReadCommitted.Choice.turns p sched →
        let t := serve pf fk s (.call p (.submitEnvelope user k.senderDeviceId dto) :: sched)
        (∃ r, t.Returned p (.submitEnvelope user k.senderDeviceId dto) (.ok (.receipt r)) ∧
          r.envelope.map EnvelopeColumns.id = some k.envelopeId) ∧ t.db = s.db := by
  constructor
  · exact h.holds.transport.keysBiject
  · intro k hk e he hid p user dto sched hp hactive hmember hkey hpayload halone hturns t
    have hat := h.answers_stored hk he hid hp hactive hmember hkey hpayload halone hturns
    refine ⟨⟨storedReceipt e, hat.returned, ?_⟩, hat.db⟩
    rw [← hid]
    rfl

end

theorem sampleSubmission_answered_again :
    let s := serve samplePlatform .atCommit sampleStart sampleSubmission
    let t := serve samplePlatform .atCommit s
      (.call 1 (.submitEnvelope 1 3 sampleMessage) :: Choice.steps 1 4)
    s.db.KeysBiject ∧ (∃ r, t.Returned 1 (.submitEnvelope 1 3 sampleMessage) (.ok (.receipt r)) ∧
      r.envelope.map EnvelopeColumns.id = some 10) ∧ t.db = s.db := by
  intro s t
  obtain ⟨hkeys, hagain⟩ := idempotency_keys_exact
    (sampleStart_reachable samplePlatform .atCommit sampleSubmission)
  have hk : keyOf samplePlatform 3 sampleMessage 11 10 0 ∈ s.db.messageIdempotencyKeys := by decide
  have he : envelopeOf samplePlatform 1 3 sampleMessage 10 0 ∈ s.db.messageEnvelopes := by decide
  have halone : ∀ ch ∈ Choice.steps 1 4, ch.RunsAlone 1 := by
    simp [Choice.steps, ReadCommitted.Choice.RunsAlone]
  exact ⟨hkeys, hagain _ hk _ he rfl 1 1 sampleMessage (Choice.steps 1 4) (by decide) (by decide)
    (by decide) rfl rfl halone (by decide)⟩

end GuffSuff
