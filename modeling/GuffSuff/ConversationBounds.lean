import GuffSuff.MessagingRuns

/-! Which conversation a stored envelope belongs to, and whether its sender and
its recipient are the two users of that conversation. -/

namespace GuffSuff

open ReadCommitted

/-- `a` and `b` are the two distinct participants. -/
def DirectConversation.Joins (c : DirectConversation) (a b : Uuid) : Prop :=
  a ≠ b ∧ ((c.participant1UserId = a ∧ c.participant2UserId = b) ∨
    (c.participant1UserId = b ∧ c.participant2UserId = a))

theorem DirectConversation.joins_of_parties {c : DirectConversation} {a b : Uuid} (hne : b ≠ a)
    (ha : a = c.participant1UserId ∨ a = c.participant2UserId)
    (hb : b = c.participant1UserId ∨ b = c.participant2UserId) : c.Joins a b := by
  refine ⟨Ne.symm hne, ?_⟩
  rcases ha with rfl | rfl <;> rcases hb with rfl | rfl
  · exact absurd rfl hne
  · exact .inl ⟨rfl, rfl⟩
  · exact .inr ⟨rfl, rfl⟩
  · exact absurd rfl hne

namespace Db

def Shared (db : Db) (conversation a b : Uuid) : Prop :=
  ∃ c, lookup db.directConversations conversation = some c ∧ c.Joins a b

def EnvelopesShared (db : Db) : Prop :=
  ∀ e ∈ db.messageEnvelopes, db.Shared e.conversationId e.senderUserId e.recipientUserId

/-- What a user finds pending comes from the other one of a conversation of theirs. -/
def PendingShared (pf : Platform) (db : Db) : Prop :=
  ∀ now user device, ∀ row ∈ MessageEnvelopeService.getPendingEnvelopes pf db now user device,
    db.Shared row.conversationId row.senderUserId user

/-- The request names as recipient the participant other than its sender. -/
def NamesOther (db : Db) (sender : Uuid) (dto : SubmitMessageEnvelope) : Prop :=
  dto.recipientUserId ≠ sender ∧ ∃ c, lookup db.directConversations dto.conversationId = some c ∧
    (dto.recipientUserId = c.participant1UserId ∨ dto.recipientUserId = c.participant2UserId)

theorem EnvelopesShared.pending {db : Db} (h : db.EnvelopesShared) (pf : Platform) :
    db.PendingShared pf := by
  intro now user device row hrow
  obtain ⟨e, he, rd, _, _, _, rfl, _, _, rfl⟩ := mem_getPendingEnvelopes.mp hrow
  exact h e he

end Db

namespace Messaging

namespace Server

def Stored (s : Server) (p : Nat) (user device : Uuid) (dto : SubmitMessageEnvelope) : Prop :=
  (∃ pr, s.procs p = some pr ∧ pr.call.submission = some (user, device, dto)) ∧
    ∃ e k rs, (p, .backend (.envelopeSubmitted e k rs)) ∈ s.log

end Server

section
variable {pf : Platform} {fk : FkCheck} {w₀ : World Db} {s : Server}

/-- A stored submission made exactly the envelope it asked for, and its sender
is a member of the conversation. -/
theorem SoundRun.sent (h : SoundRun pf w₀ s) {p : Nat} {e : MessageEnvelope}
    {k : MessageIdempotencyKey} {rs : List MessageRecipientDevice}
    (hlog : (p, .backend (.envelopeSubmitted e k rs)) ∈ s.log) :
    ∃ pr, s.procs p = some pr ∧ pr.call.Sent s.db.core e := by
  obtain ⟨pr, hp, _, hsent⟩ := h.trace_of_log hlog
  obtain ⟨user, device, dto, hsub, hconv, hsender, hrecipient, hmem⟩ :=
    hsent e k rs (ReadCommitted.Server.mem_eventsOf.mpr hlog)
  obtain ⟨_, _, _, _, _, _, hpath⟩ := h.began p pr hp
  have hkept : s.db.core.isMember dto.conversationId user =
      pr.began.db.core.isMember dto.conversationId user :=
    MessageEnvelopeService.isMember_grows (grows_of_later ⟨_, hpath⟩) dto.conversationId
  exact ⟨pr, hp, user, device, dto, hsub, hconv, hsender, hrecipient, hkept.trans hmem⟩

theorem SoundRun.mem_envelopes (h : SoundRun pf w₀ s) (h₀ : w₀.db.Initial) {e : MessageEnvelope} :
    e ∈ s.db.core.messageEnvelopes ↔
      ∃ p k rs, (p, .backend (.envelopeSubmitted e k rs)) ∈ s.log := by
  have hpath := envelopes_of_path h.path
  rw [h₀.core.envelopes, List.nil_append] at hpath
  rw [show s.db.core.messageEnvelopes = _ from hpath, List.mem_flatMap]
  constructor
  · intro hx
    obtain ⟨ev, hev, hnew⟩ := hx
    obtain ⟨⟨p, ev⟩, hlog, rfl⟩ := List.mem_map.mp hev
    cases ev with
    | backend event =>
      cases event with
      | envelopeSubmitted envelope k rs =>
        obtain rfl := List.mem_singleton.mp hnew
        exact ⟨p, k, rs, hlog⟩
      | _ => exact absurd hnew List.not_mem_nil
    | _ => exact absurd hnew List.not_mem_nil
  · intro hx
    obtain ⟨p, k, rs, hlog⟩ := hx
    exact ⟨_, List.mem_map_of_mem hlog, List.mem_singleton_self e⟩

theorem SoundRun.participant (h : SoundRun pf w₀ s) (h₀ : w₀.db.Initial) {user : Uuid}
    {c : DirectConversation} (hc : c ∈ s.db.core.directConversations)
    (hmem : s.db.core.isMember c.id user = true) :
    user = c.participant1UserId ∨ user = c.participant2UserId := by
  have hgrows := h.grows
  obtain ⟨m, hm, hboth⟩ := List.any_eq_true.mp hmem
  simp only [Bool.and_eq_true, beq_iff_eq] at hboth
  rw [hgrows.conversationMembers] at hm
  rw [hgrows.directConversations] at hc
  obtain ⟨c', hc', hid, hparty⟩ := h₀.members m hm
  obtain rfl : c' = c := eq_of_key_eq h₀.conversations hc' hc (hid.trans hboth.1)
  rw [← hboth.2]
  exact hparty

theorem SoundRun.no_envelopes (h : SoundRun pf w₀ s) (h₀ : w₀.db.Initial)
    (hnone : w₀.db.core.conversationMembers = []) : s.db.core.messageEnvelopes = [] := by
  rw [List.eq_nil_iff_forall_not_mem]
  intro e he
  obtain ⟨p, k, rs, hlog⟩ := (h.mem_envelopes h₀).mp he
  obtain ⟨_, _, _, _, _, _, _, _, _, hmem⟩ := h.sent hlog
  have hmembers := h.grows.conversationMembers
  rw [hnone] at hmembers
  simp [Db.isMember, hmembers] at hmem

theorem envelopes_shared_iff (h : Reachable pf fk s) :
    (s.db.core.EnvelopesShared ∧ s.db.core.PendingShared pf.services) ↔
      ∀ p user device dto, Server.Stored s p user device dto → s.db.core.NamesOther user dto := by
  obtain ⟨w₀, h₀, hs⟩ := h.sound
  constructor
  · intro hshared p user device dto hstored
    obtain ⟨⟨pr, hp, hsub⟩, e, k, rs, hlog⟩ := hstored
    obtain ⟨pr', hp', user', device', dto', hsub', hconv, hsender, hrecipient, _⟩ := hs.sent hlog
    obtain rfl := Option.some.inj (hp'.symm.trans hp)
    obtain ⟨rfl, rfl, rfl⟩ : user' = user ∧ device' = device ∧ dto' = dto := by
      simpa using hsub'.symm.trans hsub
    obtain ⟨c, hc, hne, hparties⟩ := hshared.1 e ((hs.mem_envelopes h₀).mpr ⟨p, k, rs, hlog⟩)
    rw [hconv] at hc
    rw [hsender, hrecipient] at hne hparties
    refine ⟨Ne.symm hne, c, hc, ?_⟩
    rcases hparties with hparties | hparties
    · exact .inr hparties.2.symm
    · exact .inl hparties.1.symm
  · intro hother
    suffices hshared : s.db.core.EnvelopesShared from ⟨hshared, hshared.pending pf.services⟩
    intro e he
    obtain ⟨p, k, rs, hlog⟩ := (hs.mem_envelopes h₀).mp he
    obtain ⟨pr, hp, user, device, dto, hsub, hconv, hsender, hrecipient, hmem⟩ := hs.sent hlog
    obtain ⟨hne, c, hc, hnamed⟩ := hother p user device dto ⟨⟨pr, hp, hsub⟩, e, k, rs, hlog⟩
    have hid : c.id = dto.conversationId := lookup_key hc
    have hparty := hs.participant h₀ (lookup_mem hc) (hid ▸ hmem)
    refine ⟨c, hconv ▸ hc, ?_⟩
    rw [hsender, hrecipient]
    exact DirectConversation.joins_of_parties hne hparty hnamed

end

def sampleAddressed (recipient : Uuid) : SubmitMessageEnvelope :=
  { sampleMessage with recipientUserId := recipient }

def sampleSender : String := "00000000-0000-0000-0000-000000000001"
def sampleReceiver : String := "00000000-0000-0000-0000-000000000002"

/-- User 1 looks up the conversation with user 2, then submits envelope 20 in it
to `recipient`, whose devices get one record each. -/
def sampleSubmission (recipient : Uuid) (devices : List Uuid) : Server :=
  serve samplePlatform .endOfStatement sampleStart
    (.call 0 (.getOrCreateDirectConversation (some sampleSender) sampleReceiver) ::
      (Choice.steps 0 2 ++
        .call 1 (.submitEnvelope (some 1) (some 3) (sampleAddressed recipient)) ::
          (Choice.steps 1 3 ++ [.exec 1 devices, .exec 1 [20], .exec 1 [21]] ++ Choice.steps 1 6 ++
            (devices.flatMap fun d => .exec 1 [d + 100] :: Choice.steps 1 3) ++ Choice.steps 1 1)))

theorem sampleSubmission_shared :
    (sampleSubmission 2 [4, 5]).db.core.NamesOther 1 (sampleAddressed 2) := by
  have henvelopes : (sampleSubmission 2 [4, 5]).db.core.messageEnvelopes =
      [GuffSuff.MessageEnvelopeService.envelopeOf GuffSuff.samplePlatform 1 3 (sampleAddressed 2) 20
        0] := by decide +kernel
  have hrow : lookup (sampleSubmission 2 [4, 5]).db.core.directConversations 6 = some ⟨6, 1, 2⟩ := by
    decide +kernel
  have hshared : (sampleSubmission 2 [4, 5]).db.core.EnvelopesShared := by
    intro e he
    rw [henvelopes] at he
    obtain rfl := List.mem_singleton.mp he
    exact ⟨_, hrow, by decide, .inl ⟨rfl, rfl⟩⟩
  have hcall : ((sampleSubmission 2 [4, 5]).procs 1).map (fun pr => pr.call.submission) =
      some (some (1, 3, sampleAddressed 2)) := by decide +kernel
  have hlog : (1, .backend (.envelopeSubmitted
      (GuffSuff.MessageEnvelopeService.envelopeOf GuffSuff.samplePlatform 1 3 (sampleAddressed 2) 20 0)
      (GuffSuff.MessageEnvelopeService.keyOf GuffSuff.samplePlatform 3 (sampleAddressed 2) 21 20 0)
      [GuffSuff.MessageEnvelopeService.newRecipient 104 20 4 0,
        GuffSuff.MessageEnvelopeService.newRecipient 105 20 5 0])) ∈ (sampleSubmission 2 [4, 5]).log := by
    decide +kernel
  have hreachable : Reachable samplePlatform .endOfStatement (sampleSubmission 2 [4, 5]) := by
    unfold sampleSubmission
    exact sampleStart_reachable _ _
  exact (envelopes_shared_iff hreachable).mp ⟨hshared, hshared.pending _⟩ 1 1 3 _
    ⟨Option.map_eq_some_iff.mp hcall, _, _, _, hlog⟩

/-- User 1 names user 9, who is not in the conversation, and finds a place in
the pending list of that user's device. -/
theorem sampleSubmission_outsider :
    Reachable samplePlatform .endOfStatement (sampleSubmission 9 [10]) ∧
      (sampleSubmission 9 [10]).Returned 0
        (.getOrCreateDirectConversation (some sampleSender) sampleReceiver)
        (.ok (.conversation ⟨6, 1, 2⟩ 0)) ∧
      ¬ (sampleSubmission 9 [10]).db.core.EnvelopesShared ∧
      ¬ (sampleSubmission 9 [10]).db.core.PendingShared samplePlatform.services := by
  have hrow : lookup (sampleSubmission 9 [10]).db.core.directConversations 6 = some ⟨6, 1, 2⟩ := by
    decide +kernel
  have hnot : ¬ (sampleSubmission 9 [10]).db.core.Shared 6 1 9 := by
    intro hx
    obtain ⟨c, hc, _, hparties⟩ := hx
    obtain rfl := Option.some.inj (hc.symm.trans hrow)
    exact absurd hparties (by decide)
  have hstored : GuffSuff.MessageEnvelopeService.envelopeOf GuffSuff.samplePlatform 1 3
      (sampleAddressed 9) 20 0 ∈ (sampleSubmission 9 [10]).db.core.messageEnvelopes := by
    decide +kernel
  have hpending : GuffSuff.MessageEnvelopeService.pendingRow GuffSuff.samplePlatform
      (GuffSuff.MessageEnvelopeService.envelopeOf GuffSuff.samplePlatform 1 3 (sampleAddressed 9) 20 0)
      (GuffSuff.MessageEnvelopeService.newRecipient 110 20 10 0) ∈
        GuffSuff.MessageEnvelopeService.getPendingEnvelopes samplePlatform.services
          (sampleSubmission 9 [10]).db.core 0 9 10 := by
    decide +kernel
  refine ⟨?_, by decide +kernel, fun h => hnot (h _ hstored), fun h => hnot (h _ _ _ _ hpending)⟩
  unfold sampleSubmission
  exact sampleStart_reachable _ _

end Messaging

end GuffSuff
