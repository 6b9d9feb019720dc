import GuffSuff.ConnectionPool

/-! The connections of `registerAccount`, which asks for a second one while it
still has its first. All services of the identity module share one pool. -/

namespace GuffSuff

namespace Registration

namespace Connections

open ConnectionPool

/-- `max` of `createDatabasePool`. -/
def poolMax : Nat := 10

/-- The statements of a `try` block. One that fails, or whose rows make the code
throw, is the last one. -/
def statements (sqls : List String) (ok thrown : Usage) : Usage :=
  sqls.foldr (fun sql k => .query sql k thrown) ok

/-- The `catch` block and the `finally` block after it. -/
def rollback (k : Usage) : Usage := .query "ROLLBACK" (.release k) (.release k)

def createSession (returned thrown : Usage) : Usage :=
  .connect
    (statements
      ["BEGIN", "INSERT INTO sessions", "INSERT INTO refresh_token_families", "INSERT INTO refresh_tokens",
        "COMMIT"]
      (.release returned) (rollback thrown))
    thrown

def registerAccount : Usage :=
  .connect
    (statements
      ["BEGIN", "SELECT FROM otp_challenges FOR UPDATE", "SELECT FROM phone_identities",
        "SELECT FROM usernames", "INSERT INTO users", "INSERT INTO phone_identities",
        "INSERT INTO user_profiles", "INSERT INTO usernames", "INSERT INTO devices",
        "INSERT INTO privacy_settings", "INSERT INTO security_events", "INSERT INTO audit_events", "COMMIT"]
      (createSession (.release .done) (rollback .done)) (rollback .done))
    .done

theorem queries_statements (sqls : List String) (ok thrown : Usage) :
    (statements sqls ok thrown).Queries ok := by
  induction sqls with
  | nil => exact .refl
  | cons sql sqls ih => exact .head ⟨sql, thrown, rfl⟩ ih

/-- A registration asks for its second connection while it holds one. -/
theorem asks_registerAccount : registerAccount.Asks 1 0 := by
  simp [registerAccount, createSession, statements, rollback, Usage.Asks]

theorem registrations_deadlock {n : Nat} (hn : poolMax ≤ n) :
    ∃ s : Pool poolMax n, Reachable registerAccount s ∧ s.Deadlocked :=
  deadlock_reachable rfl
    (queries_statements _ (createSession (.release .done) (rollback .done)) (rollback .done)) hn

/-- Registrations can block each other for good just when there are as many of
them at a time as the pool has connections. -/
theorem registrations_deadlock_iff (n : Nat) :
    (∀ s : Pool poolMax n, Reachable registerAccount s → ¬ s.Deadlocked) ↔ n < poolMax := by
  constructor
  · intro h
    by_contra hn
    obtain ⟨s, hs, hdead⟩ := registrations_deadlock (Nat.not_lt.mp hn)
    exact h s hs hdead
  · exact fun hn s hs => hs.not_deadlocked asks_registerAccount (by simpa using hn)

theorem ten_registrations_deadlock : ∃ s : Pool poolMax 10, Reachable registerAccount s ∧ s.Deadlocked ∧
    ∀ t, Relation.ReflTransGen (Step registerAccount) s t → t.Deadlocked := by
  obtain ⟨s, hs, hdead⟩ := registrations_deadlock (n := 10) (by decide)
  exact ⟨s, hs, hdead, fun _ h => hdead.forever h⟩

end Connections

end Registration

end GuffSuff
