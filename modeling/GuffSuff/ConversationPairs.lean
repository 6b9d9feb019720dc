import GuffSuff.ConversationBounds

/-! The tables of the direct conversations: one conversation for two users, and
two members of it. -/

namespace GuffSuff

open ReadCommitted

structure Db.Paired (db : Db) : Prop where
  ids : (keys db.directConversations).Nodup
  pairs : ∀ c ∈ db.directConversations, ∀ c' ∈ db.directConversations, ∀ a b,
    c.Joins a b → c'.Joins a b → c = c'
  distinct : ∀ c ∈ db.directConversations, c.participant1UserId ≠ c.participant2UserId
  members : ∀ c ∈ db.directConversations,
    ((db.conversationMembers.filter fun m => m.conversationId = c.id).map ConversationMember.userId).Perm
      [c.participant1UserId, c.participant2UserId]
  owned : ∀ m ∈ db.conversationMembers, m.conversationId ∈ keys db.directConversations

theorem Db.Paired.of_tables {db db' : Db} (h : db.Paired)
    (hconv : db'.directConversations = db.directConversations)
    (hmem : db'.conversationMembers = db.conversationMembers) : db'.Paired := by
  constructor
  case ids => exact hconv ▸ h.ids
  case pairs => exact hconv ▸ h.pairs
  case distinct => exact hconv ▸ h.distinct
  case members =>
    rw [hconv, hmem]
    exact h.members
  case owned =>
    rw [hconv, hmem]
    exact h.owned

namespace Messaging

/-- The states of all runs from tables that are paired, such as empty ones. -/
inductive ReachablePaired (pf : Platform) (fk : FkCheck) : Server → Prop
  | run (db : Db) (clock : Nat) (used : List Uuid) (hdb : db.Initial) (hpaired : db.core.Paired)
      (hused : ∀ x ∈ db.core.ids, x ∈ used) (sched : List Choice) :
      ReachablePaired pf fk (serve pf fk (.boot db clock used) sched)

section
variable {pf : Platform} {fk : FkCheck} {s : Server}

theorem ReachablePaired.reachable (h : ReachablePaired pf fk s) : Reachable pf fk s := by
  obtain ⟨db, clock, used, hdb, _, hused, sched⟩ := h
  exact .run db clock used hdb hused sched

/-- A transaction that would create a conversation is refused its members and
rolled back, so no half of one is ever seen. -/
theorem conversations_paired (h : ReachablePaired pf fk s) : s.db.core.Paired := by
  obtain ⟨db, clock, used, hdb, hpaired, hused, sched⟩ := h
  have hboot : SoundRun pf ⟨clock, db⟩ (ReadCommitted.Server.boot db clock used) :=
    ReadCommitted.Server.sound_boot hdb.core.holds hused
  have hrun : SoundRun pf ⟨clock, db⟩ (serve pf fk (.boot db clock used) sched) := hboot.run sched
  have hgrows := hrun.grows
  exact hpaired.of_tables hgrows.directConversations hgrows.conversationMembers

end

theorem sampleDb_paired : sampleDb.core.Paired where
  ids := by decide
  pairs := by
    intro c hc c' hc' a b _ _
    obtain rfl := List.mem_singleton.mp hc
    exact (List.mem_singleton.mp hc').symm
  distinct := by decide
  members := by decide
  owned := by decide

def sampleOutsider : String := "00000000-0000-0000-0000-000000000009"

/-- Users 1 and 9 ask for a conversation with each other at the same time. The
second transaction waits for the first one, which is refused its members. -/
def sampleRace : List Choice :=
  .call 0 (.getOrCreateDirectConversation (some sampleSender) sampleOutsider) ::
    .call 1 (.getOrCreateDirectConversation (some sampleOutsider) sampleSender) ::
      (Choice.steps 0 2 ++ Choice.steps 1 2 ++ [.exec 0 [20], .exec 1 [21]] ++ Choice.steps 0 4 ++
        Choice.steps 1 4 ++ [.exec 0 [22], .exec 0 [23]] ++ Choice.steps 0 1)

theorem sampleRace_paired :
    let s := serve samplePlatform .endOfStatement sampleStart sampleRace
    s.db.core.Paired ∧ (s.procs 0).map (fun pr => pr.program.result) =
      some (some (.error (.protocolViolation
        "bind message supplies 6 parameters, but prepared statement \"\" requires 5"))) := by
  intro s
  have hs : ReachablePaired samplePlatform .endOfStatement s :=
    .run sampleDb 0 (List.range 20) sampleDb_initial sampleDb_paired (by decide) sampleRace
  exact ⟨conversations_paired hs, by decide +kernel⟩

end Messaging

end GuffSuff
