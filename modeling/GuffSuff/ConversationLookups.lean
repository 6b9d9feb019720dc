import GuffSuff.ConversationPairs
import GuffSuff.MessagingControllers
import GuffSuff.ReadCommitted.Alone
import GuffSuff.ReadCommitted.Answers

/-! What `getOrCreateDirectConversation` answers. It returns the conversation
that is stored with the participants in the order of their texts, and fails
where there is none. -/

namespace GuffSuff

open ReadCommitted

open Registration.AuthController (isUuid)

namespace Messaging

/-- The ids of the two users in the order in which their texts come. -/
def orderedIds (pf : Platform) (user recipient : String) : Option Uuid × Option Uuid :=
  let pair := ConversationService.orderedPair (some user) recipient
  (pair.1.bind pf.uuid, pair.2.bind pf.uuid)

def Db.found (pf : Platform) (db : Db) (user recipient : String) : Option DirectConversation :=
  db.conversationOf (orderedIds pf user recipient).1 (orderedIds pf user recipient).2

/-- The texts name the two users, in one order or the other. -/
def Naming (pf : Platform) (a b : Uuid) (user recipient : String) : Prop :=
  (pf.uuid user = some a ∧ pf.uuid recipient = some b) ∨
    (pf.uuid user = some b ∧ pf.uuid recipient = some a)

def Db.Present (db : Db) (user : Uuid) : Prop :=
  ∃ u, lookup db.core.users user = some u ∧ u.accountState ≠ .deleted

/-- The tables that a lookup reads are those of `db`. -/
def Db.SameTables (db db' : Db) : Prop :=
  db'.core.users = db.core.users ∧ db'.core.directConversations = db.core.directConversations

def Answered (row : Option DirectConversation) (r : Answer) : Prop :=
  match row with
  | some row => ∃ createdAt, r = .ok (.conversation row createdAt)
  | none => ∃ x, r = .error x

section
variable {pf : Platform} {db : Db} {a b : Uuid} {user recipient : String}

theorem Answered.isSome {row : Option DirectConversation} {v : Value} (h : Answered row (.ok v)) :
    row.isSome := by
  cases row with
  | some row => rfl
  | none =>
    obtain ⟨_, hx⟩ := h
    exact absurd hx (by simp)

theorem orderedPair_cases (user recipient : String) :
    ConversationService.orderedPair (some user) recipient = (some user, some recipient) ∨
      ConversationService.orderedPair (some user) recipient = (some recipient, some user) := by
  unfold ConversationService.orderedPair
  dsimp only
  split
  · exact .inl rfl
  · exact .inr rfl

theorem Naming.symm (h : Naming pf a b user recipient) : Naming pf b a user recipient := Or.symm h

theorem Naming.ordered (h : Naming pf a b user recipient) :
    ∃ i j texti textj, ConversationService.orderedPair (some user) recipient = (some texti, some textj) ∧
      pf.uuid texti = some i ∧ pf.uuid textj = some j ∧ ((i = a ∧ j = b) ∨ (i = b ∧ j = a)) := by
  rcases orderedPair_cases user recipient with hpair | hpair
  · rcases h with ⟨hu, hr⟩ | ⟨hu, hr⟩
    · exact ⟨a, b, _, _, hpair, hu, hr, .inl ⟨rfl, rfl⟩⟩
    · exact ⟨b, a, _, _, hpair, hu, hr, .inr ⟨rfl, rfl⟩⟩
  · rcases h with ⟨hu, hr⟩ | ⟨hu, hr⟩
    · exact ⟨b, a, _, _, hpair, hr, hu, .inr ⟨rfl, rfl⟩⟩
    · exact ⟨a, b, _, _, hpair, hr, hu, .inl ⟨rfl, rfl⟩⟩

theorem Naming.orderedIds (h : Naming pf a b user recipient) :
    ∃ i j, orderedIds pf user recipient = (some i, some j) ∧ ((i = a ∧ j = b) ∨ (i = b ∧ j = a)) := by
  obtain ⟨i, j, texti, textj, hpair, hi, hj, hij⟩ := h.ordered
  exact ⟨i, j, by simp [Messaging.orderedIds, hpair, hi, hj], hij⟩

theorem Naming.ne (h : Naming pf a b user recipient) (hab : a ≠ b) : user ≠ recipient := by
  rintro rfl
  rcases h with ⟨hu, hr⟩ | ⟨hu, hr⟩
  · exact hab (Option.some.inj (hu.symm.trans hr))
  · exact hab (Option.some.inj (hr.symm.trans hu))

theorem Naming.recipient_present (h : Naming pf a b user recipient) (ha : db.Present a) (hb : db.Present b) :
    ∃ other, pf.uuid recipient = some other ∧ db.Present other := by
  rcases h with ⟨_, hr⟩ | ⟨_, hr⟩
  · exact ⟨b, hr, hb⟩
  · exact ⟨a, hr, ha⟩

theorem getOrCreate_query (h : Naming pf a b user recipient) (hab : a ≠ b) (ha : db.Present a)
    (hb : db.Present b) :
    ∃ k, ConversationService.getOrCreateDirectConversation pf (some user) recipient = .query k ∧
      ∀ db', db.SameTables db' → k db' = .query fun db =>
        match db.found pf user recipient with
        | some c => .ret (.ok (.conversation c (db.conversationTimes c.id).createdAt))
        | none => ConversationService.createConversation (orderedIds pf user recipient).1
            (orderedIds pf user recipient).2 := by
  have hne : ¬ some user = some recipient := fun heq => h.ne hab (Option.some.inj heq)
  obtain ⟨other, hr, u, hlook, hstate⟩ := h.recipient_present ha hb
  obtain ⟨i, j, texti, textj, hpair, hi, hj, _⟩ := h.ordered
  have hids : orderedIds pf user recipient = (some i, some j) := by
    simp [Messaging.orderedIds, hpair, hi, hj]
  simp only [ConversationService.getOrCreateDirectConversation, hne, if_false, uuidParameter, hr, hpair,
    hi, hj]
  refine ⟨_, rfl, fun db' hdb' => ?_⟩
  have hfound : lookup db'.core.users other = some u := by rw [hdb'.1, hlook]
  simp only [Option.bind_some, hfound, Option.all_some, hstate, decide_false, Bool.false_eq_true, if_false]
  refine congrArg Program.query (funext fun db'' => ?_)
  have hrow : db''.found pf user recipient = db''.conversationOf (some i) (some j) := by rw [Db.found, hids]
  cases hc : db''.conversationOf (some i) (some j) with
  | some c => simp only [hrow, hc]
  | none => simp only [hrow, hc, hids]

theorem found_of_sameTables {db' : Db} (h : db.SameTables db') (user recipient : String) :
    db'.found pf user recipient = db.found pf user recipient := by
  simp only [Db.found, Db.conversationOf, h.2]

theorem Db.Present.of_sameTables {db' : Db} (h : db.Present a) (hsame : db.SameTables db') :
    db'.Present a := by
  obtain ⟨u, hu, hstate⟩ := h
  exact ⟨u, hsame.1 ▸ hu, hstate⟩

theorem getOrCreate_answers (h : Naming pf a b user recipient) (hab : a ≠ b) (ha : db.Present a)
    (hb : db.Present b) :
    (ConversationService.getOrCreateDirectConversation pf (some user) recipient).Answers db.SameTables
      (Answered (db.found pf user recipient)) := by
  obtain ⟨k, hprog, hk⟩ := getOrCreate_query h hab ha hb
  rw [hprog]
  intro db₁ h₁
  rw [hk db₁ h₁]
  intro db₂ h₂
  dsimp only
  rw [found_of_sameTables h₂]
  cases hfound : db.found pf user recipient with
  | some row => exact ⟨_, rfl⟩
  | none => exact .of_quiet (quiet_createConversation (fun x => ⟨x, rfl⟩) _ _)

theorem getOrCreate_prompt (h : Naming pf a b user recipient) (hab : a ≠ b) (ha : db.Present a)
    (hb : db.Present b) (hfound : (db.found pf user recipient).isSome) :
    (ConversationService.getOrCreateDirectConversation pf (some user) recipient).Prompt db.SameTables 2 := by
  obtain ⟨k, hprog, hk⟩ := getOrCreate_query h hab ha hb
  rw [hprog]
  intro db₁ h₁
  rw [hk db₁ h₁]
  intro db₂ h₂
  obtain ⟨row, hrow⟩ := Option.isSome_iff_exists.mp hfound
  dsimp only
  rw [found_of_sameTables h₂, hrow]
  trivial

theorem found_isSome_iff {i j : Uuid} (hids : orderedIds pf user recipient = (some i, some j)) :
    (db.found pf user recipient).isSome ↔ ∃ row ∈ db.core.directConversations,
      row.participant1UserId = i ∧ row.participant2UserId = j := by
  simp [Db.found, Db.conversationOf, hids]

theorem participants_of_found {row : DirectConversation} (hrow : db.found pf user recipient = some row) :
    row ∈ db.core.directConversations ∧
      (some row.participant1UserId, some row.participant2UserId) = orderedIds pf user recipient := by
  refine ⟨List.mem_of_find?_eq_some hrow, ?_⟩
  have hboth := List.find?_some hrow
  simp only [Bool.and_eq_true, decide_eq_true_eq] at hboth
  exact Prod.ext hboth.1 hboth.2

end

section
variable {pf : Platform} {fk : FkCheck} {s : Server} {a b : Uuid} {user recipient : String}

theorem Reachable.sameTables (h : Reachable pf fk s) (sched : List Choice) :
    s.db.SameTables (serve pf fk s sched).db := by
  obtain ⟨w₀, _, hs⟩ := h.sound
  have hbefore := hs.grows
  have hrun : SoundRun pf w₀ (serve pf fk s sched) := hs.run sched
  have hafter := hrun.grows
  exact ⟨hafter.users.trans hbefore.users.symm,
    hafter.directConversations.trans hbefore.directConversations.symm⟩

theorem Reachable.more (h : Reachable pf fk s) (sched : List Choice) :
    Reachable pf fk (serve pf fk s sched) := by
  obtain ⟨db, clock, used, hdb, hused, first⟩ := h
  have happ : serve pf fk (serve pf fk (.boot db clock used) first) sched =
      serve pf fk (.boot db clock used) (first ++ sched) := (List.foldl_append ..).symm
  rw [happ]
  exact .run db clock used hdb hused _

/-- A call made after `s` answers the row that the tables hold, or fails for lack of one. -/
theorem Reachable.answered (h : Reachable pf fk s) (hname : Naming pf a b user recipient) (hab : a ≠ b)
    (ha : s.db.Present a) (hb : s.db.Present b) {p : Nat} (hp : s.procs p = none) {sched : List Choice}
    (hfail : .fail p ∉ sched) {pr : Process Db Key Uuid Event Answer Call} {r : Answer}
    (hpr : (serve pf fk s sched).procs p = some pr)
    (hc : pr.call = .getOrCreateDirectConversation (some user) recipient) (hr : pr.Finished r) :
    Answered (s.db.found pf user recipient) r := by
  have hcode : ((Call.getOrCreateDirectConversation (some user) recipient).program pf fk).Answers
      s.db.SameTables (Answered (s.db.found pf user recipient)) := getOrCreate_answers hname hab ha hb
  exact ReadCommitted.Server.answer_of_run (fun first _ _ => h.sameTables first) hp hcode
    (fun hf => absurd hf hfail) hpr hc hr

theorem Reachable.prompt (h : Reachable pf fk s) (hname : Naming pf a b user recipient) (hab : a ≠ b)
    (ha : s.db.Present a) (hb : s.db.Present b) (hfound : (s.db.found pf user recipient).isSome) {p : Nat}
    (hp : s.procs p = none) {sched : List Choice} {pr : Process Db Key Uuid Event Answer Call}
    (hpr : (serve pf fk s sched).procs p = some pr)
    (hc : pr.call = .getOrCreateDirectConversation (some user) recipient) :
    ∃ pr' r, (serve pf fk s (sched ++ Choice.steps p 2)).procs p = some pr' ∧
      pr'.call = .getOrCreateDirectConversation (some user) recipient ∧ pr'.Finished r := by
  have hcode : ((Call.getOrCreateDirectConversation (some user) recipient).program pf fk).Prompt
      s.db.SameTables 2 := getOrCreate_prompt hname hab ha hb hfound
  exact ReadCommitted.Server.prompt_of_run (fun first _ _ => h.sameTables first) hp hcode hpr hc

end

end Messaging

end GuffSuff
