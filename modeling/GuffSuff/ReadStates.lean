import GuffSuff.ReadCommitted.Commits
import GuffSuff.ConversationBounds

/-! Read states over whole runs. `acknowledgeRead` writes the envelope it is given
and compares it neither with the conversation nor with the envelope it replaces. -/

namespace GuffSuff

open ReadCommitted

namespace Messaging

namespace Db

def readState (db : Db) (conversation user : Uuid) : Option MessageReadState :=
  db.messageReadStates.find? fun r => r.conversationId = conversation && r.userId = user

/-- The envelope that a user has read last in a conversation. -/
def lastRead (db : Db) (conversation user : Uuid) : Option MessageEnvelope :=
  (db.readState conversation user).bind fun r =>
    r.lastReadEnvelopeId.bind (lookup db.core.messageEnvelopes)

/-- Every read state names an envelope of its own conversation. -/
def ReadStatesSound (db : Db) : Prop :=
  ∀ r ∈ db.messageReadStates, ∀ id, r.lastReadEnvelopeId = some id →
    ∃ e, lookup db.core.messageEnvelopes id = some e ∧ e.conversationId = r.conversationId

/-- The envelope belongs to the conversation and was not accepted before the one read last. -/
def MayFollow (db : Db) (state : MessageReadState) : Prop :=
  ∀ id, state.lastReadEnvelopeId = some id →
    ∃ e, lookup db.core.messageEnvelopes id = some e ∧ e.conversationId = state.conversationId ∧
      ∀ e', db.lastRead state.conversationId state.userId = some e' →
        e'.serverAcceptedAt ≤ e.serverAcceptedAt

instance (db : Db) (state : MessageReadState) : Decidable (db.MayFollow state) :=
  inferInstanceAs (Decidable (∀ id ∈ state.lastReadEnvelopeId,
    ∃ e ∈ lookup db.core.messageEnvelopes id, e.conversationId = state.conversationId ∧
      ∀ e' ∈ db.lastRead state.conversationId state.userId, e'.serverAcceptedAt ≤ e.serverAcceptedAt))

end Db

def Event.receipt : Event → Option MessageReadState
  | readAcknowledged state => some state
  | _ => none

section
variable (pf : Platform) (fk : FkCheck) (s : Server) (sched : List Choice)

/-- No step of the run moves a read state to an envelope accepted before the one it names. -/
def ReadStatesMonotone : Prop :=
  ∀ first ch rest, sched = first ++ ch :: rest → ∀ conversation user e e',
    (serve pf fk s first).db.lastRead conversation user = some e →
      (serve pf fk s (first ++ [ch])).db.lastRead conversation user = some e' →
        e.serverAcceptedAt ≤ e'.serverAcceptedAt

def ReadStatesKept : Prop :=
  ReadCommitted.Server.Always (Call.program pf fk) Call.aborted Db.ReadStatesSound s sched ∧
    ReadStatesMonotone pf fk s sched

/-- Whenever a read receipt is written, its envelope may follow the one read last. -/
def ReceiptsInOrder : Prop :=
  ∀ s' state, ReadCommitted.Server.Commits (Call.program pf fk) Call.aborted s sched s'
    (.readAcknowledged state) → s'.db.MayFollow state

theorem receiptsInOrder_iff_getElem : ReceiptsInOrder pf fk s sched ↔
    ∀ n < sched.length, ∀ ch ∈ sched[n]?,
      ∀ state ∈ ((serve pf fk s (sched.take n)).committing ch).bind Event.receipt,
        (serve pf fk s (sched.take n)).db.MayFollow state := by
  constructor
  · intro h n hn ch hch state hstate
    obtain ⟨e, he, hreceipt⟩ := Option.bind_eq_some_iff.mp hstate
    obtain rfl : e = .readAcknowledged state := by
      cases e with
      | readAcknowledged state' =>
        obtain rfl := Option.some.inj hreceipt
        rfl
      | _ => exact nomatch hreceipt
    refine h _ state ⟨sched.take n, ch, sched.drop (n + 1), ?_, rfl, he⟩
    obtain ⟨_, hget⟩ := List.getElem?_eq_some_iff.mp hch
    rw [← hget, List.getElem_cons_drop, List.take_append_drop]
  · intro h s' state hcommit
    obtain ⟨first, ch, rest, rfl, rfl, he⟩ := hcommit
    have hn : first.length < (first ++ ch :: rest).length := by simp
    have hch : ch ∈ (first ++ ch :: rest)[first.length]? := by simp
    have hstate := h first.length hn ch hch state
    simp only [List.take_left'] at hstate
    exact hstate (Option.bind_eq_some_iff.mpr ⟨_, he, rfl⟩)

instance : Decidable (ReceiptsInOrder pf fk s sched) :=
  decidable_of_iff _ (receiptsInOrder_iff_getElem pf fk s sched).symm

end

section
variable {db : Db} {state r : MessageReadState} {conversation user : Uuid}

theorem Db.readState_pair (h : db.readState conversation user = some r) :
    r ∈ db.messageReadStates ∧ r.conversationId = conversation ∧ r.userId = user := by
  have hpair := List.find?_some h
  simp only [Bool.and_eq_true, decide_eq_true_eq] at hpair
  exact ⟨List.mem_of_find?_eq_some h, hpair⟩

/-- What the `UPDATE` of an upsert makes of a row. -/
def MessageReadState.overwrite (state r : MessageReadState) : MessageReadState :=
  if r.conversationId = state.conversationId ∧ r.userId = state.userId then
    { r with lastReadEnvelopeId := state.lastReadEnvelopeId, lastReadAt := state.lastReadAt }
  else r

theorem MessageReadState.overwrite_pair (state r : MessageReadState) :
    (state.overwrite r).conversationId = r.conversationId ∧ (state.overwrite r).userId = r.userId := by
  unfold MessageReadState.overwrite
  split <;> exact ⟨rfl, rfl⟩

theorem Db.readStates_upsert (db : Db) (state : MessageReadState) :
    (db.upsertReadState state).messageReadStates =
      if db.readStatePairTaken state.conversationId state.userId then
        db.messageReadStates.map state.overwrite
      else db.messageReadStates ++ [state] := rfl

theorem Db.readState_upsert (db : Db) (state : MessageReadState) (conversation user : Uuid) :
    (db.upsertReadState state).readState conversation user =
      if db.readStatePairTaken state.conversationId state.userId then
        (db.readState conversation user).map state.overwrite
      else (db.readState conversation user).or
        (if state.conversationId = conversation ∧ state.userId = user then some state else none) := by
  simp only [Db.readState, Db.readStates_upsert]
  split
  · have hsame : (fun r : MessageReadState => decide (r.conversationId = conversation) &&
        decide (r.userId = user)) ∘ state.overwrite =
        fun r => decide (r.conversationId = conversation) && decide (r.userId = user) := by
      funext r
      obtain ⟨hc, hu⟩ := state.overwrite_pair r
      simp only [Function.comp_apply, hc, hu]
    rw [List.find?_map, hsame]
  · rw [List.find?_append, List.find?_singleton]
    simp only [Bool.and_eq_true, decide_eq_true_eq]

theorem Db.mem_upsertReadState (h : r ∈ (db.upsertReadState state).messageReadStates) :
    r ∈ db.messageReadStates ∨ (r.conversationId = state.conversationId ∧
      r.lastReadEnvelopeId = state.lastReadEnvelopeId) := by
  rw [Db.readStates_upsert] at h
  split at h
  · obtain ⟨q, hq, rfl⟩ := List.mem_map.mp h
    unfold MessageReadState.overwrite
    split
    · rename_i hpair
      exact .inr ⟨hpair.1, rfl⟩
    · exact .inl hq
  · rcases List.mem_append.mp h with h | h
    · exact .inl h
    · obtain rfl := List.mem_singleton.mp h
      exact .inr ⟨rfl, rfl⟩

theorem Db.readState_upsert_of_ne (hne : ¬ (state.conversationId = conversation ∧ state.userId = user)) :
    (db.upsertReadState state).readState conversation user = db.readState conversation user := by
  rw [Db.readState_upsert, if_neg hne, Option.or_none, ite_eq_right_iff]
  intro _
  cases h : db.readState conversation user with
  | none => rfl
  | some r =>
    obtain ⟨_, hc, hu⟩ := Db.readState_pair h
    have hother : ¬ (r.conversationId = state.conversationId ∧ r.userId = state.userId) := fun hx =>
      hne ⟨hx.1.symm.trans hc, hx.2.symm.trans hu⟩
    simp only [Option.map_some, MessageReadState.overwrite, if_neg hother]

theorem Db.readState_upsert_self (db : Db) (state : MessageReadState) : ∃ r,
    (db.upsertReadState state).readState state.conversationId state.userId = some r ∧
      r.lastReadEnvelopeId = state.lastReadEnvelopeId := by
  rw [Db.readState_upsert]
  cases h : db.readState state.conversationId state.userId with
  | none =>
    have hfree : db.readStatePairTaken state.conversationId state.userId = false := by
      simpa [Db.readState, Db.readStatePairTaken] using h
    simp [hfree]
  | some r =>
    obtain ⟨hr, hc, hu⟩ := Db.readState_pair h
    have htaken : db.readStatePairTaken state.conversationId state.userId = true := by
      simpa [Db.readStatePairTaken] using ⟨r, hr, hc, hu⟩
    simp [htaken, MessageReadState.overwrite, hc, hu]

theorem Db.lastRead_upsert_self : (db.upsertReadState state).lastRead state.conversationId state.userId =
    state.lastReadEnvelopeId.bind (lookup db.core.messageEnvelopes) := by
  obtain ⟨r, hr, hlast⟩ := db.readState_upsert_self state
  rw [Db.lastRead, hr, Option.bind_some, hlast]
  rfl

end

section
variable {pf : Platform} {clock : Nat} {db : Db} {e : Event}

theorem Event.lookup_envelope (ha : e.Allowed pf clock db) {id : Uuid} {envelope : MessageEnvelope}
    (h : lookup db.core.messageEnvelopes id = some envelope) :
    lookup (e.apply pf db).core.messageEnvelopes id = some envelope := by
  cases e with
  | backend event =>
    have hwrites : (Event.apply pf (.backend event) db).core.messageEnvelopes =
        db.core.messageEnvelopes ++ event.newEnvelopes := event.envelopes_writes db.core
    rw [hwrites, lookup_append, h, Option.some_or]
  | conversationCreated row members now => exact ha.elim
  | readAcknowledged state => exact h

theorem Event.readStates_kept (ha : e.Allowed pf clock db) :
    (∃ state, e = .readAcknowledged state) ∨
      (e.apply pf db).messageReadStates = db.messageReadStates := by
  cases e with
  | backend event => exact .inr rfl
  | conversationCreated row members now => exact ha.elim
  | readAcknowledged state => exact .inl ⟨state, rfl⟩

theorem Event.readStatesSound (ha : e.Allowed pf clock db) (h : db.ReadStatesSound)
    (hfollow : ∀ state, e = .readAcknowledged state → db.MayFollow state) :
    (e.apply pf db).ReadStatesSound := by
  intro r hr id hid
  have hold : ∀ r ∈ db.messageReadStates, r.lastReadEnvelopeId = some id →
      ∃ envelope, lookup (e.apply pf db).core.messageEnvelopes id = some envelope ∧
        envelope.conversationId = r.conversationId := by
    intro r hr hid
    obtain ⟨envelope, hlookup, hconv⟩ := h r hr id hid
    exact ⟨envelope, Event.lookup_envelope ha hlookup, hconv⟩
  rcases Event.readStates_kept ha with ⟨state, rfl⟩ | hkept
  · rcases Db.mem_upsertReadState hr with hr | ⟨hconv, hlast⟩
    · exact hold r hr hid
    · obtain ⟨envelope, hlookup, henv, _⟩ := hfollow state rfl id (hlast.symm.trans hid)
      exact ⟨envelope, hlookup, henv.trans hconv.symm⟩
  · rw [hkept] at hr
    exact hold r hr hid

variable {conversation user : Uuid} {read read' : MessageEnvelope}

theorem Event.lastRead_kept (ha : e.Allowed pf clock db)
    (hkept : (e.apply pf db).readState conversation user = db.readState conversation user)
    (h : db.lastRead conversation user = some read) :
    (e.apply pf db).lastRead conversation user = some read := by
  obtain ⟨r, hr, hlast⟩ := Option.bind_eq_some_iff.mp h
  obtain ⟨id, hid, hlookup⟩ := Option.bind_eq_some_iff.mp hlast
  simp only [Db.lastRead, hkept, hr, Option.bind_some, hid]
  exact Event.lookup_envelope ha hlookup

theorem Event.lastRead_monotone (ha : e.Allowed pf clock db)
    (hfollow : ∀ state, e = .readAcknowledged state → db.MayFollow state)
    (h : db.lastRead conversation user = some read)
    (h' : (e.apply pf db).lastRead conversation user = some read') :
    read.serverAcceptedAt ≤ read'.serverAcceptedAt := by
  have hsame (hkept : (e.apply pf db).readState conversation user = db.readState conversation user) :
      read.serverAcceptedAt ≤ read'.serverAcceptedAt := by
    obtain rfl := Option.some.inj ((Event.lastRead_kept ha hkept h).symm.trans h')
    exact Nat.le_refl _
  rcases Event.readStates_kept ha with ⟨state, rfl⟩ | hkept
  · by_cases hpair : state.conversationId = conversation ∧ state.userId = user
    · obtain ⟨rfl, rfl⟩ := hpair
      have hlast : state.lastReadEnvelopeId.bind (lookup db.core.messageEnvelopes) = some read' :=
        Db.lastRead_upsert_self.symm.trans h'
      obtain ⟨id, hid, hlookup⟩ := Option.bind_eq_some_iff.mp hlast
      obtain ⟨envelope, henv, _, hle⟩ := hfollow state rfl id hid
      obtain rfl := Option.some.inj (henv.symm.trans hlookup)
      exact hle read h
    · exact hsame (Db.readState_upsert_of_ne hpair)
  · exact hsame (by simp only [Db.readState, hkept])

end

/-- Read states are sound and monotone in the runs whose read receipts come in order. -/
theorem readStates_kept_iff {pf : Platform} {fk : FkCheck} {db : Db} {clock : Nat} {used : List Uuid}
    (hdb : db.Initial) (hused : ∀ x ∈ db.core.ids, x ∈ used) (hnone : db.messageReadStates = [])
    {sched : List Choice} : ReadStatesKept pf fk (.boot db clock used) sched ↔
      ReceiptsInOrder pf fk (.boot db clock used) sched := by
  have hboot : SoundRun pf ⟨clock, db⟩ (ReadCommitted.Server.boot db clock used) :=
    ReadCommitted.Server.sound_boot hdb.core.holds hused
  constructor
  · intro hkept s' state hcommit
    obtain ⟨hsound, hmono⟩ := hkept
    obtain ⟨first, ch, rest, p, hsched, rfl, _, ha, happly⟩ :=
      hcommit.after hboot fun ch _ => covers ch
    intro id hid
    have hnext : (serve pf fk (.boot db clock used) (first ++ [ch])).db =
        (serve pf fk (.boot db clock used) first).db.upsertReadState state := happly
    obtain ⟨r, hr, hlast⟩ := (serve pf fk (.boot db clock used) first).db.readState_upsert_self state
    obtain ⟨hmem, hconv, _⟩ := Db.readState_pair hr
    have hafter : (serve pf fk (.boot db clock used) (first ++ [ch])).db.ReadStatesSound :=
      hsound (first ++ [ch]) rest hsched
    obtain ⟨e, hlookup, he⟩ := hafter r (hnext ▸ hmem) id (hlast.trans hid)
    rw [hnext] at hlookup
    refine ⟨e, hlookup, he.trans hconv, fun e' he' => ?_⟩
    refine hmono first ch rest (by simp [hsched]) _ _ e' e he' ?_
    rw [hnext, Db.lastRead_upsert_self, hid]
    exact hlookup
  · intro horder
    constructor
    · refine ReadCommitted.Server.Always.of_commits hboot (fun ch _ => covers ch) ?_ ?_
      · intro r hr
        rw [show (ReadCommitted.Server.boot db clock used : Server).db = db from rfl, hnone] at hr
        exact absurd hr List.not_mem_nil
      · intro s' e db' hcommit hm h
        obtain ⟨ha, rfl⟩ := hm
        exact Event.readStatesSound ha h fun state he => horder s' state (he ▸ hcommit)
    · intro first ch rest hsched conversation user e e' he he'
      rw [serve, ReadCommitted.Server.run_concat] at he'
      have hfirst : SoundRun pf ⟨clock, db⟩ (serve pf fk (.boot db clock used) first) := hboot.run first
      cases hc : (serve pf fk (.boot db clock used) first).committing ch with
      | none =>
        have hquiet : ((serve pf fk (.boot db clock used) first).step (Call.program pf fk)
            Call.aborted ch).db = (serve pf fk (.boot db clock used) first).db :=
          ReadCommitted.Server.step_quiet hc
        rw [serve] at hquiet
        rw [hquiet] at he'
        obtain rfl := Option.some.inj (he.symm.trans he')
        exact Nat.le_refl _
      | some event =>
        obtain ⟨_, _, ha, happly⟩ := hfirst.commit_step (Call.program pf fk) Call.aborted hc
        rw [serve] at happly
        rw [happly] at he'
        refine Event.lastRead_monotone ha (fun state hevent => ?_) he he'
        exact horder _ state ⟨first, ch, rest, hsched, rfl, hevent ▸ hc⟩

def sampleSending (p : Nat) (key : String) (envelope : Uuid) : List Choice :=
  .call p (.submitEnvelope (some 1) (some 3) { sampleAddressed 2 with idempotencyKey := key }) ::
    (Choice.steps p 3 ++ [.exec p [4, 5], .exec p [envelope], .exec p [envelope + 10]] ++
      Choice.steps p 6 ++ [.exec p [envelope + 20]] ++ Choice.steps p 3 ++
      [.exec p [envelope + 30]] ++ Choice.steps p 4)

def sampleReceipt (p : Nat) (envelope : Uuid) : List Choice :=
  .call p (.acknowledgeRead (some 2) (sampleText 6) (sampleText envelope)) ::
    (Choice.steps p 1 ++ [.exec p [p + 100]] ++ Choice.steps p 5)

/-- Envelope 20 is accepted at time 0 and envelope 21 at time 5. -/
def sampleReceipts (first second : Uuid) : List Choice :=
  sampleSending 0 "k" 20 ++ .tick 5 :: sampleSending 1 "l" 21 ++
    (sampleReceipt 2 first ++ sampleReceipt 3 second)

theorem sampleReceipts_kept : ReadStatesKept samplePlatform .endOfStatement sampleStart
    (sampleReceipts 20 21) := by
  refine (readStates_kept_iff sampleDb_initial (by decide) rfl).mpr ?_
  decide +kernel

/-- The receipt for envelope 20 arrives late, and the read state goes back from envelope 21. -/
theorem sampleReceipts_moved_back :
    ((serve samplePlatform .endOfStatement sampleStart (sampleReceipts 21 20)).db.lastRead 6 2).map
        (·.id) = some 20 ∧
      ¬ ReadStatesKept samplePlatform .endOfStatement sampleStart (sampleReceipts 21 20) := by
  refine ⟨by decide +kernel, fun hkept => ?_⟩
  have hsched : sampleReceipts 21 20 = (sampleReceipts 21 20).dropLast ++ [.exec 3 []] := rfl
  have hbefore : ((serve samplePlatform .endOfStatement sampleStart
      (sampleReceipts 21 20).dropLast).db.lastRead 6 2).map (·.serverAcceptedAt) = some 5 := by
    decide +kernel
  have hafter : ((serve samplePlatform .endOfStatement sampleStart
      ((sampleReceipts 21 20).dropLast ++ [.exec 3 []])).db.lastRead 6 2).map
        (·.serverAcceptedAt) = some 0 := by
    decide +kernel
  obtain ⟨e, he, hat⟩ := Option.map_eq_some_iff.mp hbefore
  obtain ⟨e', he', hat'⟩ := Option.map_eq_some_iff.mp hafter
  have hle := hkept.2 _ _ [] hsched 6 2 e e' he he'
  rw [hat, hat'] at hle
  exact absurd hle (by decide)

end Messaging

end GuffSuff
