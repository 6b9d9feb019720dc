import GuffSuff.ConversationService
import GuffSuff.Deliveries
import GuffSuff.Senders

/-! Runs of the messaging system. The backend lives in it with its invariant and
its outlines, and no run ever creates a conversation. -/

namespace GuffSuff

open ReadCommitted

namespace Messaging

inductive Cell where
  | backend (cell : GuffSuff.Cell)
  | other

def Db.cell : Key → Db → Cell
  | .backend key, db => .backend (db.core.cell key)
  | _, _ => .other

namespace Event

def apply (pf : Platform) : Event → Db → Db
  | backend event, db => { db with core := applyAll (event.writes pf.services) db.core }
  | conversationCreated row members now, db =>
    members.foldl (fun db m => db.insertMember m) (db.insertConversation row now)
  | readAcknowledged state, db => db.upsertReadState state

/-- What the code has made sure of when it commits the event. The statement that
would insert the members of a new conversation is always refused. -/
def Allowed (pf : Platform) (clock : Nat) (db : Db) : Event → Prop
  | backend event => event.Allowed pf.services clock db.core
  | conversationCreated .. => False
  | readAcknowledged state => db.core.isMember state.conversationId state.userId = true

def newEnvelopes : Event → List MessageEnvelope
  | backend event => event.newEnvelopes
  | _ => []

end Event

def messaging (pf : Platform) : Spec Db Key Uuid Event Cell where
  moves clock db e db' := e.Allowed pf clock db ∧ db' = e.apply pf db
  holds _ db := db.core.Holds
  cell := Db.cell
  has x db := x ∈ db.core.ids
  holds_move := by
    intro clock db e db' h hm
    obtain ⟨ha, rfl⟩ := hm
    cases e with
    | backend event => exact h.event ha
    | conversationCreated row members now => exact ha.elim
    | readAcknowledged state => exact h
  holds_tick := fun h _ => h

theorem backend_embeds (pf : Platform) : (backend pf.services).Embeds (messaging pf) backendTables where
  view_put := fun _ _ => rfl
  put_view := fun _ => rfl
  put_put := fun _ _ _ => rfl
  holds := fun _ _ h => h
  move := by
    intro c db e d hm
    obtain ⟨ha, rfl⟩ := hm
    exact ⟨ha, rfl⟩
  view_move := by
    intro c db e' db' hm
    obtain ⟨ha, rfl⟩ := hm
    cases e' with
    | backend event => exact .inl ⟨event, ha, rfl⟩
    | conversationCreated row members now => exact ha.elim
    | readAcknowledged state => exact .inr rfl
  cell := fun _ _ _ h => Cell.backend.inj h
  cell_put := by
    intro L d db h key hkey
    cases key with
    | backend key =>
      have hL : key ∉ L := fun hmem => hkey (List.mem_map_of_mem hmem)
      exact congrArg Cell.backend (h key hL)
    | _ => rfl
  has := fun _ _ => Iff.rfl

section
variable {pf : Platform} {v w : World Db}

theorem grows_of_later (h : (messaging pf).Later v w) : v.db.core.Grows w.db.core := by
  obtain ⟨_, hp⟩ := h
  obtain ⟨_, hp⟩ := (backend_embeds pf).path hp
  exact grows_of_path hp

theorem envelopes_of_path {es : List Event} (h : (messaging pf).Path v es w) :
    w.db.core.messageEnvelopes = v.db.core.messageEnvelopes ++ es.flatMap Event.newEnvelopes := by
  induction h with
  | refl => simp
  | tick _ _ ih => exact ih
  | @move es c db db' e _ hm ih =>
    obtain ⟨ha, rfl⟩ := hm
    simp only [List.flatMap_append, List.flatMap_singleton, ← List.append_assoc, ← ih]
    cases e with
    | backend event => exact event.envelopes_writes db.core
    | conversationCreated row members now => exact ha.elim
    | readAcknowledged state => exact (List.append_nil _).symm

end

namespace Call

/-- The call knows for which user it is made. -/
def identified : Call → Bool
  | backend _ => true
  | getOrCreateDirectConversation userId _ => userId.isSome
  | listConversations userId | getConversationById userId _ | getPendingEnvelopes userId _
  | acknowledgeDelivery userId _ _ | acknowledgeRead userId _ _ | getEnvelopeStatus userId _ =>
    userId.isSome
  | submitEnvelope senderUserId _ _ => senderUserId.isSome

/-- The submission that the call makes, with its sender and the device. -/
def submission : Call → Option (Uuid × Uuid × SubmitMessageEnvelope)
  | backend (.submitEnvelope user device dto) => some (user, device, dto)
  | submitEnvelope (some user) (some device) dto => some (user, device, dto)
  | _ => none

/-- The envelope has the conversation and the recipient of the request, and its
sender is a member of that conversation. -/
def Sent (c : Call) (db : GuffSuff.Db) (e : MessageEnvelope) : Prop :=
  ∃ user device dto, c.submission = some (user, device, dto) ∧ e.conversationId = dto.conversationId ∧
    e.senderUserId = user ∧ e.recipientUserId = dto.recipientUserId ∧
    db.isMember dto.conversationId user = true

/-- What a call without a user may answer: a failure, or an empty list if it asks for one. -/
def Blank (c : Call) (r : Answer) : Prop :=
  ∀ v, r = .ok v →
    (∃ userId deviceId, c = .getPendingEnvelopes userId deviceId ∧ v = .pending []) ∨
      ∃ userId, c = .listConversations userId ∧ v = .conversations []

def contract (c : Call) (w : World Db) : Spec.Contract Db Event Answer where
  trace es := (c.identified = false → es = []) ∧
    ∀ e k rs, .backend (.envelopeSubmitted e k rs) ∈ es → c.Sent w.db.core e
  answer r _ _ := c.identified = false → c.Blank r

theorem blank_error (c : Call) (x : Failure) : c.Blank (.error x) := fun _ h => nomatch h

end Call

section
variable {P : Answer → Prop}

theorem quiet_uuidParameter {pf : Platform} (hfail : ∀ x, P (.error x)) (value : Option String)
    {k : Option Uuid → Program} (hk : ∀ id, (k id).Quiet P) : (uuidParameter pf value k).Quiet P := by
  unfold uuidParameter
  split
  · exact hk none
  · split
    · exact hfail _
    · exact hk _

theorem quiet_createConversation (hfail : ∀ x, P (.error x)) (p1 p2 : Option Uuid) :
    (ConversationService.createConversation p1 p2).Quiet P := by
  intro convId now
  unfold ConversationService.insertConversation
  split
  · intro _ db
    dsimp only
    split
    · exact hfail _
    split
    · exact hfail _
    split
    · exact hfail _
    split
    · exact hfail _
    split
    · exact hfail _
    · exact fun mem1Id mem2Id => hfail _
  · exact hfail _
  · exact hfail _

theorem conversationOf_none (db : Db) (p1 : Option Uuid) : db.conversationOf p1 none = none := by
  simp [Db.conversationOf]

theorem conversationsOf_none (db : Db) : db.conversationsOf none = [] := by
  simp [Db.conversationsOf]

theorem membership_none (db : Db) (conversation : Option Uuid) : db.membership conversation none = none := by
  simp [Db.membership]

end

section
variable {pf : Platform} {fk : FkCheck} {w : World Db}

theorem quiet_getOrCreate (userId : Option String) (recipientUserId : String) :
    (ConversationService.getOrCreateDirectConversation pf userId recipientUserId).Quiet
      fun r => userId.isSome = false →
        (Call.getOrCreateDirectConversation userId recipientUserId).Blank r := by
  have hfail : ∀ x, userId.isSome = false →
      (Call.getOrCreateDirectConversation userId recipientUserId).Blank (.error x) :=
    fun x _ => Call.blank_error _ x
  unfold ConversationService.getOrCreateDirectConversation
  split
  · exact hfail _
  refine quiet_uuidParameter hfail _ fun recipient db => ?_
  dsimp only
  split
  · exact hfail _
  refine quiet_uuidParameter hfail _ fun p1 => ?_
  cases userId with
  | none =>
    intro db
    simp only [conversationOf_none]
    exact quiet_createConversation hfail p1 none
  | some user =>
    refine quiet_uuidParameter hfail _ fun p2 db => ?_
    dsimp only
    split
    · exact fun h => absurd h (by simp)
    · exact quiet_createConversation hfail p1 p2

theorem quiet_listConversations (userId : Option Uuid) :
    (ConversationService.listConversations userId).Quiet
      fun r => userId.isSome = false → (Call.listConversations userId).Blank r := by
  intro db h v hv
  obtain rfl := Option.not_isSome_iff_eq_none.mp (ne_true_of_eq_false h)
  obtain rfl := Except.ok.inj hv
  refine .inr ⟨none, rfl, ?_⟩
  rw [conversationsOf_none]
  rfl

theorem quiet_getConversationById (userId : Option Uuid) (conversationId : String) :
    (ConversationService.getConversationById pf userId conversationId).Quiet
      fun r => userId.isSome = false → (Call.getConversationById userId conversationId).Blank r := by
  have hfail : ∀ x, userId.isSome = false →
      (Call.getConversationById userId conversationId).Blank (.error x) := fun x _ => Call.blank_error _ x
  refine quiet_uuidParameter hfail _ fun conversation db => ?_
  cases userId with
  | none =>
    simp only [conversationsOf_none]
    exact hfail _
  | some user =>
    dsimp only
    split
    · exact hfail _
    · exact fun h => nomatch h

theorem quiet_getPendingEnvelopes (userId deviceId : Option Uuid) :
    (MessageEnvelopeService.getPendingEnvelopes pf userId deviceId).Quiet
      fun r => userId.isSome = false → (Call.getPendingEnvelopes userId deviceId).Blank r := by
  intro now db
  dsimp only
  split
  · exact fun h => nomatch h
  · intro _ v hv
    exact .inl ⟨userId, deviceId, rfl, (Except.ok.inj hv).symm⟩

theorem quiet_getEnvelopeStatus (userId : Option Uuid) (envelopeId : String) :
    (MessageEnvelopeService.getEnvelopeStatus pf userId envelopeId).Quiet
      fun r => userId.isSome = false → (Call.getEnvelopeStatus userId envelopeId).Blank r := by
  have hfail : ∀ x, userId.isSome = false →
      (Call.getEnvelopeStatus userId envelopeId).Blank (.error x) := fun x _ => Call.blank_error _ x
  refine quiet_uuidParameter hfail _ fun envelope db => ?_
  dsimp only
  split
  · exact hfail _
  · split
    · exact hfail _
    · rename_i hparty
      intro db' h
      obtain rfl := Option.not_isSome_iff_eq_none.mp (ne_true_of_eq_false h)
      simp at hparty

end

section
variable {pf : Platform} {fk : FkCheck} {w : World Db} {c : Call}

theorem safe_quiet {p : Program} (hp : p.Quiet fun r => c.identified = false → c.Blank r) :
    (messaging pf).Safe (c.contract w) p [] [] id [] w :=
  Spec.Safe.of_quiet hp fun _ _ h => h

theorem safe_failed {v : World Db} {L : List Key} {D : List Uuid} {f : Db → Db} {es : List Event}
    (x : Failure) : (messaging pf).Safe (c.contract v) (throw x) L D f es w :=
  fun _ _ _ _ => Call.blank_error _ x

theorem safe_uuidParameter {v : World Db} {L : List Key} {D : List Uuid} {f : Db → Db}
    {es : List Event} {value : Option String} {k : Option Uuid → Program}
    (hk : ∀ id, (messaging pf).Safe (c.contract v) (k id) L D f es w) :
    (messaging pf).Safe (c.contract v) (uuidParameter pf value k) L D f es w := by
  unfold uuidParameter
  split
  · exact hk none
  · split
    · exact safe_failed _
    · exact hk _

/-- A call of the backend keeps its outline; a submission among them is the one of `c`. -/
theorem safe_ofBackend (fk : FkCheck) (call : GuffSuff.Call) (hid : c.identified = true)
    (hsub : ∀ user device dto, call = .submitEnvelope user device dto →
      c.submission = some (user, device, dto)) (hi : w.db.core.Holds) :
    (messaging pf).Safe (c.contract w) (ofBackend (call.program pf.services fk)) [] [] id [] w := by
  have hcore : (backend pf.services).Safe
      (call.senderContract pf.services fk (backendTables.world w)) (call.program pf.services fk)
      [] [] id [] (backendTables.world w) := call.safe_sender hi
  have hlift := Spec.Safe.lift (backend_embeds pf) (g := ofAnswer) hcore
  refine Spec.Safe.mono ?_ ?_ hlift
  · intro es' ht
    obtain ⟨es, rfl, ht, hmem⟩ := ht
    refine ⟨fun h => absurd (hid.symm.trans h) Bool.noConfusion, fun e k rs he => ?_⟩
    obtain ⟨_, he, heq⟩ := List.mem_map.mp he
    obtain rfl := Event.backend.inj heq
    obtain ⟨user, device, dto, rfl, hes⟩ := GuffSuff.Call.submission_of_trace ht he rfl
    have hby := hes.storedBy he
    refine ⟨user, device, dto, hsub _ _ _ rfl, hby.conversation, hby.sender, hby.recipient, ?_⟩
    rw [← hby.conversation, ← hby.sender]
    exact hmem e k rs he
  · exact fun _ _ _ _ h => absurd (hid.symm.trans h) Bool.noConfusion

theorem safe_submitEnvelope (senderUserId senderDeviceId : Option Uuid) (dto : SubmitMessageEnvelope)
    (hi : w.db.core.Holds) :
    (messaging pf).Safe ((Call.submitEnvelope senderUserId senderDeviceId dto).contract w)
      (MessageEnvelopeService.submitEnvelope pf senderUserId senderDeviceId dto) [] [] id [] w := by
  unfold MessageEnvelopeService.submitEnvelope
  split
  · rename_i user device
    refine safe_ofBackend .endOfStatement (.submitEnvelope user device dto) rfl ?_ hi
    intro _ _ _ h
    obtain ⟨rfl, rfl, rfl⟩ := GuffSuff.Call.submitEnvelope.inj h
    rfl
  · exact safe_quiet fun _ _ => Call.blank_error _ _

theorem safe_acknowledgeDelivery (userId deviceId : Option Uuid) (envelopeId : String)
    (hi : w.db.core.Holds) :
    (messaging pf).Safe ((Call.acknowledgeDelivery userId deviceId envelopeId).contract w)
      (MessageEnvelopeService.acknowledgeDelivery pf userId deviceId envelopeId) [] [] id [] w := by
  refine safe_uuidParameter fun id => ?_
  split
  · rename_i user device envelope
    exact safe_ofBackend .endOfStatement (.acknowledgeDelivery user device envelope) rfl
      (fun _ _ _ h => nomatch h) hi
  · exact safe_quiet fun _ _ => Call.blank_error _ _

theorem isMember_of_membership {db : Db} {conversation userId : Option Uuid} {m : ConversationMember}
    (h : db.membership conversation userId = some m) :
    db.core.isMember m.conversationId m.userId = true := by
  have hm := List.mem_of_find?_eq_some h
  exact List.any_eq_true.mpr ⟨m, hm, by simp⟩

theorem safe_upsertReadState {v : World Db} {L : List Key} {D : List Uuid} {r : MessageReadState}
    {a : Answer} (hid : c.identified = true)
    (hmem : w.db.core.isMember r.conversationId r.userId = true) :
    (messaging pf).Safe (c.contract v) (MessageEnvelopeService.upsertReadState r (.ret a)) L D id []
      w := by
  have hanswer : ∀ (D' : List Uuid) (es : List Event) (u : World Db),
      (messaging pf).Safe (c.contract v) (.ret a) [] D' id es u := fun _ _ _ _ _ _ h =>
    absurd (hid.symm.trans h) Bool.noConfusion
  intro w₁ hr₁ hi₁ w₂ hr₂ hi₂
  dsimp only [id_eq]
  split
  · exact safe_failed _
  split
  · exact safe_failed _
  split
  · exact safe_failed _
  split
  · exact safe_failed _
  intro w₃ hr₃ hi₃
  have hgrows := grows_of_later (hr₁.later.trans (hr₂.later.trans hr₃.later))
  refine ⟨⟨?_, rfl⟩, ?_, ?_, ⟨?_, ?_⟩, hanswer _ _ _⟩
  · have hkept : w₃.db.core.isMember r.conversationId r.userId =
        w.db.core.isMember r.conversationId r.userId :=
      MessageEnvelopeService.isMember_grows hgrows r.conversationId
    exact hkept.trans hmem
  · intro key _
    cases key <;> rfl
  · exact fun _ hx => .inl hx
  · exact fun h => absurd (hid.symm.trans h) Bool.noConfusion
  · simp

theorem safe_acknowledgeRead (userId : Option Uuid) (conversationId lastReadEnvelopeId : String) :
    (messaging pf).Safe ((Call.acknowledgeRead userId conversationId lastReadEnvelopeId).contract w)
      (MessageEnvelopeService.acknowledgeRead pf userId conversationId lastReadEnvelopeId)
      [] [] id [] w := by
  refine safe_uuidParameter fun conversation w₁ hr₁ hi₁ => ?_
  dsimp only [id_eq]
  split
  · exact fun _ _ _ _ => Call.blank_error _ _
  rename_i m hm
  cases userId with
  | none =>
    rw [membership_none] at hm
    exact nomatch hm
  | some user =>
    intro w₂ hr₂ hi₂ readStateId _ _
    refine safe_uuidParameter fun lastRead w₃ hr₃ hi₃ => ?_
    apply safe_upsertReadState rfl
    have hgrows := grows_of_later (hr₂.later.trans hr₃.later)
    exact (MessageEnvelopeService.isMember_grows hgrows _).trans (isMember_of_membership hm)

theorem Call.safe_program (c : Call) (hi : w.db.core.Holds) :
    (messaging pf).Safe (c.contract w) (c.program pf fk) [] [] id [] w := by
  cases c with
  | backend call =>
    refine safe_ofBackend fk call rfl ?_ hi
    intro user device dto h
    rw [h]
    rfl
  | getOrCreateDirectConversation userId recipientUserId =>
    exact safe_quiet (quiet_getOrCreate userId recipientUserId)
  | listConversations userId => exact safe_quiet (quiet_listConversations userId)
  | getConversationById userId conversationId =>
    exact safe_quiet (quiet_getConversationById userId conversationId)
  | submitEnvelope senderUserId senderDeviceId dto =>
    exact safe_submitEnvelope senderUserId senderDeviceId dto hi
  | getPendingEnvelopes userId deviceId => exact safe_quiet (quiet_getPendingEnvelopes userId deviceId)
  | acknowledgeDelivery userId deviceId envelopeId =>
    exact safe_acknowledgeDelivery userId deviceId envelopeId hi
  | acknowledgeRead userId conversationId lastReadEnvelopeId =>
    exact safe_acknowledgeRead userId conversationId lastReadEnvelopeId
  | getEnvelopeStatus userId envelopeId => exact safe_quiet (quiet_getEnvelopeStatus userId envelopeId)

end

abbrev Server := ReadCommitted.Server Db Key Uuid Event Answer Call
abbrev Choice := ReadCommitted.Choice Uuid Call

def serve (pf : Platform) (fk : FkCheck) (s : Server) (sched : List Choice) : Server :=
  s.run (Call.program pf fk) Call.aborted sched

/-- Conversations join two users, and their members are these two. -/
structure Db.Initial (db : Db) : Prop where
  core : db.core.Initial
  conversations : (keys db.core.directConversations).Nodup
  distinct : ∀ c ∈ db.core.directConversations, c.participant1UserId ≠ c.participant2UserId
  members : ∀ m ∈ db.core.conversationMembers, ∃ c ∈ db.core.directConversations,
    c.id = m.conversationId ∧ (m.userId = c.participant1UserId ∨ m.userId = c.participant2UserId)

inductive Reachable (pf : Platform) (fk : FkCheck) : Server → Prop
  | run (db : Db) (clock : Nat) (used : List Uuid) (hdb : db.Initial)
      (hused : ∀ x ∈ db.core.ids, x ∈ used) (sched : List Choice) :
      Reachable pf fk (serve pf fk (.boot db clock used) sched)

abbrev SoundRun (pf : Platform) (w₀ : World Db) (s : Server) : Prop :=
  ReadCommitted.Server.Sound (messaging pf) Call.contract w₀ s

section
variable {pf : Platform} {fk : FkCheck} {w₀ : World Db} {s : Server}

theorem Call.trace_nil (c : Call) (w : World Db) : (c.contract w).trace [] :=
  ⟨fun _ => rfl, fun _ _ _ h => absurd h List.not_mem_nil⟩

theorem Call.blank_aborted {c : Call} (h : c.identified = false) : c.Blank c.aborted := by
  cases c with
  | backend call => exact nomatch h
  | _ => exact blank_error _ _

theorem covers (ch : Choice) : ReadCommitted.Server.Covers (messaging pf) Call.contract
    (Call.program pf fk) Call.aborted ch := by
  cases ch with
  | call p c => exact fun w hi => ⟨c.trace_nil w, c.safe_program hi⟩
  | fail p => exact fun c _ _ _ h => Call.blank_aborted h
  | _ => trivial

theorem SoundRun.run (h : SoundRun pf w₀ s) (sched : List Choice) :
    SoundRun pf w₀ (serve pf fk s sched) :=
  ReadCommitted.Server.Sound.run h fun ch _ => covers ch

theorem Reachable.sound (h : Reachable pf fk s) : ∃ w₀, w₀.db.Initial ∧ SoundRun pf w₀ s := by
  obtain ⟨db, clock, used, hdb, hused, sched⟩ := h
  have hboot : SoundRun pf ⟨clock, db⟩ (ReadCommitted.Server.boot db clock used) :=
    ReadCommitted.Server.sound_boot hdb.core.holds hused
  exact ⟨⟨clock, db⟩, hdb, hboot.run sched⟩

theorem SoundRun.grows (h : SoundRun pf w₀ s) : w₀.db.core.Grows s.db.core :=
  grows_of_later (w := s.world) ⟨_, h.path⟩

end

def sampleUuid (text : String) : Option Uuid :=
  some (text.toList.foldl (fun n c => if c = '-' then n else 10 * n + (c.toNat - '0'.toNat)) 0)

def sampleText (id : Uuid) : String := "00000000-0000-0000-0000-00000000000" ++ toString id

/-- There is no year 0000. -/
def sampleTimestamp (text : String) : Option Nat :=
  if text.toList.take 4 = ['0', '0', '0', '0'] then none else some text.length

def samplePlatform : Platform where
  services := GuffSuff.samplePlatform
  uuid := sampleUuid
  uuidText := sampleText
  datetime := fun _ => true
  timestamptz := sampleTimestamp

/-- User 9 with device 10 has no conversation with the users 1 and 2. -/
def sampleDb : Db where
  core :=
    { GuffSuff.sampleDb with
      users := GuffSuff.sampleDb.users ++ [⟨9, .active⟩]
      devices := GuffSuff.sampleDb.devices ++ [⟨10, 9, "phone", false, none, none⟩] }
  conversationTimes := fun _ => ⟨0, 0⟩
  messageReadStates := []

theorem sampleDb_initial : sampleDb.Initial where
  core := by constructor <;> decide
  conversations := by decide
  distinct := by decide
  members := by decide

def sampleStart : Server := .boot sampleDb 0 (List.range 20)

theorem sampleStart_reachable (fk : FkCheck) (sched : List Choice) :
    Reachable samplePlatform fk (serve samplePlatform fk sampleStart sched) :=
  .run sampleDb 0 (List.range 20) sampleDb_initial (by decide) sched

def Choice.steps (p n : Nat) : List Choice := List.replicate n (.exec p [])

end Messaging

end GuffSuff
