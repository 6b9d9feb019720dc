import GuffSuff.FaultyCalls

/-! What a fault leaves of `revokeAllSessionsForUser`, whose three `UPDATE`s are
transactions of their own. -/

namespace GuffSuff

open ReadCommitted SessionService

namespace Db

def SessionsRevoked (db : Db) (user : Uuid) : Prop :=
  ∀ s ∈ db.sessions, s.userId = user → s.revokedAt.isSome = true

def FamiliesCompromised (db : Db) (user : Uuid) : Prop :=
  ∀ f ∈ db.refreshTokenFamilies, f.userId = user → f.isCompromised = true

def TokensRevoked (db : Db) (user : Uuid) : Prop :=
  ∀ t ∈ db.refreshTokens, t.familyId ∈ db.familiesWhere (fun f => f.userId = user) → t.isRevoked = true

/-- None of the user's logins is good for anything any more. -/
structure LoggedOut (db : Db) (user : Uuid) : Prop where
  sessions : db.SessionsRevoked user
  families : db.FamiliesCompromised user
  tokens : db.TokensRevoked user

structure SameLogins (db db' : Db) : Prop where
  sessions : db'.sessions = db.sessions
  families : db'.refreshTokenFamilies = db.refreshTokenFamilies
  tokens : db'.refreshTokens = db.refreshTokens

end Db

def LogoutAtomic (user : Uuid) (db db' : Db) (r : Answer) : Prop :=
  db'.LoggedOut user ∨ (∃ x, r = .error x) ∧ db.SameLogins db'

/-- The `UPDATE` writes the rows of `db` as they are already. -/
def Event.Vacuous (db : Db) : Event → Prop
  | userSessionsRevoked user _ now => ∀ s ∈ db.sessions, s.userId = user → s.revokedAt = some now
  | userFamiliesCompromised user _ now =>
    ∀ f ∈ db.refreshTokenFamilies, f.userId = user → f.isCompromised = true ∧ f.updatedAt = now
  | _ => True

/-- A fault after the `UPDATE`s `es` is harmless if these have changed nothing,
or if those that are still to come have nothing to revoke. -/
def LogoutHarmless (user : Uuid) (db : Db) (es : List Event) : Prop :=
  (∀ e ∈ es, e.Vacuous db) ∨
    ((es.length < 2 → db.FamiliesCompromised user) ∧ db.TokensRevoked user)

/-- What has been committed for the user on the way through the three `UPDATE`s. -/
inductive LogoutProgress (user : Uuid) (db : Db) : List Event → Db → Prop
  | start : LogoutProgress user db [] db
  | sessions {ids : List Uuid} (now : Nat)
      (hids : ∀ i, i ∈ ids ↔ i ∈ db.sessionsWhere fun s => s.userId = user) :
      LogoutProgress user db [.userSessionsRevoked user ids now] ((Write.revokeSessions ids now).apply db)
  | families {ids ids' : List Uuid} (now now' : Nat)
      (hids : ∀ i, i ∈ ids ↔ i ∈ db.sessionsWhere fun s => s.userId = user)
      (hids' : ∀ i, i ∈ ids' ↔ i ∈ db.familiesWhere fun f => f.userId = user) :
      LogoutProgress user db [.userSessionsRevoked user ids now, .userFamiliesCompromised user ids' now']
        ((Write.compromiseFamilies ids' now').apply ((Write.revokeSessions ids now).apply db))

section
variable {db : Db} {user : Uuid} {ids : List Uuid}

theorem mem_sessions_iff (h : (keys db.sessions).Nodup)
    (hids : ∀ i, i ∈ ids ↔ i ∈ db.sessionsWhere fun s => s.userId = user) {s : Session}
    (hs : s ∈ db.sessions) : s.id ∈ ids ↔ s.userId = user :=
  (key_mem_iff h hids hs).trans decide_eq_true_iff

theorem mem_families_iff (h : (keys db.refreshTokenFamilies).Nodup)
    (hids : ∀ i, i ∈ ids ↔ i ∈ db.familiesWhere fun f => f.userId = user) {f : RefreshTokenFamily}
    (hf : f ∈ db.refreshTokenFamilies) : f.id ∈ ids ↔ f.userId = user :=
  (key_mem_iff h hids hf).trans decide_eq_true_iff

theorem sessionsRevoked_revoke (h : (keys db.sessions).Nodup)
    (hids : ∀ i, i ∈ ids ↔ i ∈ db.sessionsWhere fun s => s.userId = user) (now : Nat) :
    ((Write.revokeSessions ids now).apply db).SessionsRevoked user :=
  updated_all (fun _ hs hu => (mem_sessions_iff h hids hs).mpr hu) fun _ => rfl

theorem familiesCompromised_compromise (h : (keys db.refreshTokenFamilies).Nodup)
    (hids : ∀ i, i ∈ ids ↔ i ∈ db.familiesWhere fun f => f.userId = user) (now : Nat) :
    ((Write.compromiseFamilies ids now).apply db).FamiliesCompromised user :=
  updated_all (fun _ hf hu => (mem_families_iff h hids hf).mpr hu) fun _ => rfl

theorem familiesWhere_compromise (ids : List Uuid) (now : Nat) :
    ((Write.compromiseFamilies ids now).apply db).familiesWhere (fun f => f.userId = user) =
      db.familiesWhere fun f => f.userId = user := by
  have hfilter := filter_updateRows db.refreshTokenFamilies ids (RefreshTokenFamily.compromise now)
    (p := fun f => f.userId = user) fun _ => rfl
  simp only [Db.familiesWhere, Write.apply, hfilter]
  exact map_updateRows _ _ _ fun _ => rfl

/-- What has been committed has logged the user out just when nothing is left to revoke. -/
theorem LogoutProgress.loggedOut {db' : Db} {es : List Event} (h : LogoutProgress user db es db')
    (hdb : db.Identity) (hne : es ≠ []) : db'.LoggedOut user ↔
      (es.length < 2 → db.FamiliesCompromised user) ∧ db.TokensRevoked user := by
  cases h with
  | start => exact absurd rfl hne
  | sessions now hids =>
    constructor
    · exact fun h => ⟨fun _ => h.families, h.tokens⟩
    · exact fun h => ⟨sessionsRevoked_revoke hdb.sessions hids now, h.1 (by simp), h.2⟩
  | @families ids ids' now now' hids hids' =>
    have htokens : ((Write.compromiseFamilies ids' now').apply ((Write.revokeSessions ids now).apply
        db)).TokensRevoked user ↔ db.TokensRevoked user := by
      unfold Db.TokensRevoked
      rw [familiesWhere_compromise]
      rfl
    constructor
    · exact fun h => ⟨fun hlt => absurd hlt (by simp), htokens.mp h.tokens⟩
    · intro h
      exact ⟨sessionsRevoked_revoke hdb.sessions hids now,
        familiesCompromised_compromise hdb.families hids' now',
        htokens.mpr h.2⟩

theorem LogoutProgress.sameLogins {db' : Db} {es : List Event} (h : LogoutProgress user db es db')
    (hdb : db.Identity) : db.SameLogins db' ↔ ∀ e ∈ es, e.Vacuous db := by
  have hsessions : ∀ {ids : List Uuid} {now : Nat},
      (∀ i, i ∈ ids ↔ i ∈ db.sessionsWhere fun s => s.userId = user) →
        (updateRows db.sessions ids (Session.revoke now) = db.sessions ↔
          (Event.userSessionsRevoked user ids now).Vacuous db) := by
    intro ids now hids
    rw [updateRows_eq_self]
    refine forall₂_congr fun s hs => imp_congr (mem_sessions_iff hdb.sessions hids hs) ?_
    constructor
    · exact fun h => (congrArg Session.revokedAt h).symm
    · exact fun h => by simp [Session.revoke, ← h]
  have hfamilies : ∀ {ids : List Uuid} {now : Nat},
      (∀ i, i ∈ ids ↔ i ∈ db.familiesWhere fun f => f.userId = user) →
        (updateRows db.refreshTokenFamilies ids (RefreshTokenFamily.compromise now) =
          db.refreshTokenFamilies ↔ (Event.userFamiliesCompromised user ids now).Vacuous db) := by
    intro ids now hids
    rw [updateRows_eq_self]
    refine forall₂_congr fun f hf => imp_congr (mem_families_iff hdb.families hids hf) ?_
    constructor
    · intro h
      exact ⟨(congrArg RefreshTokenFamily.isCompromised h).symm,
        (congrArg RefreshTokenFamily.updatedAt h).symm⟩
    · exact fun h => by simp [RefreshTokenFamily.compromise, ← h.1, ← h.2]
  cases h with
  | start => exact ⟨fun _ e he => absurd he List.not_mem_nil, fun _ => ⟨rfl, rfl, rfl⟩⟩
  | sessions now hids =>
    rw [List.forall_mem_singleton, ← hsessions hids]
    exact ⟨fun h => h.sessions, fun h => ⟨h, rfl, rfl⟩⟩
  | families now now' hids hids' =>
    rw [List.forall_mem_cons, List.forall_mem_singleton, ← hsessions hids, ← hfamilies hids']
    exact ⟨fun h => ⟨h.sessions, h.families⟩, fun h => ⟨h.1, h.2, rfl⟩⟩

end

section
variable {F : Program → List Uuid → List Event → Prop} {Fail : List Uuid → List Event → Db → Prop}
variable {Ret : Answer → List Uuid → List Event → Db → Prop} {d : List Uuid} {es : List Event}

theorem stops_updateAlone {w : World Db} {rows : Db → List Uuid} {key : Uuid → Key}
    {u : List Uuid → Nat → Write} {e : List Uuid → Nat → Event} {k : Program} (hfail : Fail d es w.db)
    (hk : ∀ ids now, (∀ i, i ∈ ids ↔ i ∈ rows w.db) →
      k.Stops F Fail Ret d id (es ++ [e ids now]) ⟨now, (u ids now).apply w.db⟩) :
    (updateAlone rows key u e k).Stops F Fail Ret d id es w :=
  ⟨fun _ => hfail, fun now _ => stops_updateWhere (w := ⟨now, w.db⟩) hfail
    fun ids hids => ⟨fun _ => hfail, hk ids now hids⟩⟩

theorem stops_revokeAllSessionsForUser {w : World Db} (user : Uuid) (hdb : w.db.Identity) :
    (revokeAllSessionsForUser user).Stops F (fun _ => LogoutProgress user w.db)
      (fun _ _ _ db' => db'.LoggedOut user) [] id [] w := by
  refine stops_updateAlone .start fun ids now hids => ?_
  refine stops_updateAlone (.sessions now hids) fun ids' now' hids' => ?_
  refine stops_updateAlone (.families now now' hids hids') fun ids'' now'' hids'' => ?_
  have hs : ((Write.revokeSessions ids now).apply w.db).SessionsRevoked user :=
    sessionsRevoked_revoke hdb.sessions hids now
  have hf : ((Write.compromiseFamilies ids' now').apply ((Write.revokeSessions ids now).apply
      w.db)).FamiliesCompromised user :=
    familiesCompromised_compromise hdb.families hids' now'
  refine ⟨hs, hf, ?_⟩
  refine updated_all (P := fun t : RefreshToken => t.familyId ∈ _) (fun t ht hin => ?_) fun _ => rfl
  exact (hids'' t.id).mpr (List.mem_map_of_mem (List.mem_filter.mpr ⟨ht, decide_eq_true hin⟩))

end

section
variable {pf : Platform} {fk : FkCheck} {s : Server} {p : Nat} {user : Uuid} {sched : List Choice} {r : Answer}

/-- A logout is all or nothing just when no statement fails between its
`UPDATE`s, or the fault is harmless. -/
theorem logout_atomic_iff (h : Reachable pf fk s)
    (hcall : FaultyCall pf fk s p (.revokeAllSessionsForUser user) r sched) :
    LogoutAtomic user s.db (serve pf fk s (.call p (.revokeAllSessionsForUser user) :: sched)).db r ↔
      ∀ qr, struck pf fk s p (.call p (.revokeAllSessionsForUser user) :: sched) = some qr →
        LogoutHarmless user s.db qr.events := by
  have hdb : s.db.Identity := h.holds.identity
  cases hcall.stopped (by simp [Program.isStatement])
    (stops_revokeAllSessionsForUser (w := s.world) user hdb) with
  | returned hstruck _ hret =>
    exact ⟨fun _ qr hq => absurd (hstruck.symm.trans hq) (by simp), fun _ => .inl hret⟩
  | @failed qr hstruck _ hfail hr =>
    have hprogress : LogoutProgress user s.db qr.events (serve pf fk s
      (.call p (.revokeAllSessionsForUser user) :: sched)).db := hfail
    have hsame := hprogress.sameLogins hdb
    constructor
    · intro hatomic qr' hq
      obtain rfl := Option.some.inj (hstruck.symm.trans hq)
      rcases hatomic with hout | ⟨_, hlogins⟩
      · by_cases hne : qr.events = []
        · exact .inl (by simp [hne])
        · exact .inr ((hprogress.loggedOut hdb hne).mp hout)
      · exact .inl (hsame.mp hlogins)
    · intro hharmless
      rcases hharmless qr hstruck with hvacuous | hrevoked
      · exact .inr ⟨⟨_, hr⟩, hsame.mpr hvacuous⟩
      · by_cases hne : qr.events = []
        · exact .inr ⟨⟨_, hr⟩, hsame.mpr (by simp [hne])⟩
        · exact .inl ((hprogress.loggedOut hdb hne).mpr hrevoked)

end

/-- The logout of user 1 up to the first `COMMIT`, which revokes session 10, and a fault right after it. -/
def sampleLogoutAll : List Choice :=
  [.exec 1 [], .exec 1 [10]] ++ Choice.steps 1 4 ++ [.fail 1]

theorem sampleLogoutAll_torn :
    let s := serve samplePlatform .atCommit sampleStart sampleLogin
    FaultyCall samplePlatform .atCommit s 1 (.revokeAllSessionsForUser 1) (.error .database) sampleLogoutAll ∧
      ¬ LogoutAtomic 1 s.db (serve samplePlatform .atCommit s
        (.call 1 (.revokeAllSessionsForUser 1) :: sampleLogoutAll)).db (.error .database) := by
  intro s
  constructor
  · exact ⟨by decide, by decide, (Option.all_eq_true _ _).mp (by decide), by decide⟩
  · intro h
    rcases h with hout | ⟨_, hsame⟩
    · exact absurd (hout.families ⟨11, 1, 3, false, 0, 0⟩ (by decide) rfl) (by decide)
    · exact absurd hsame.sessions (by decide)

theorem sampleLogin_kept :
    let s := serve samplePlatform .atCommit sampleStart sampleLogin
    LogoutAtomic 1 s.db (serve samplePlatform .atCommit s
      (.call 1 (.revokeAllSessionsForUser 1) :: [.exec 1 [], .fail 1])).db (.error .database) := by
  intro s
  refine (logout_atomic_iff (sampleStart_reachable samplePlatform .atCommit sampleLogin)
    ⟨by decide, by decide, (Option.all_eq_true _ _).mp (by decide), by decide⟩).mpr ?_
  intro qr hq
  have hevents : (struck samplePlatform .atCommit s 1 (.call 1 (.revokeAllSessionsForUser 1) ::
      [.exec 1 [], .fail 1])).map Process.events = some [] := by decide
  rw [hq] at hevents
  rw [Option.some.inj hevents]
  exact .inl (by simp)

end GuffSuff
