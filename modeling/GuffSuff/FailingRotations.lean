import GuffSuff.FaultyCalls
import GuffSuff.RefreshDecisions
import GuffSuff.Revocation

/-! What a `rotateRefreshToken` that throws leaves behind: nothing, or the whole
report of a reuse. -/

namespace GuffSuff

open ReadCommitted SessionService

/-- The tables that `rotateRefreshToken` writes are as they were. -/
structure Db.SameTables (db db' : Db) : Prop where
  sessions : db'.sessions = db.sessions
  families : db'.refreshTokenFamilies = db.refreshTokenFamilies
  tokens : db'.refreshTokens = db.refreshTokens
  events : db'.securityEvents = db.securityEvents

/-- The reuse of the token `raw` has been reported, with everything that goes with it. -/
structure Db.ReportedWhole (verifierHash : Digest) (token : RefreshToken) (family : RefreshTokenFamily)
    (db db' : Db) : Prop where
  row : db.refreshRow verifierHash = some (token, family)
  compromised : db'.Barred family.id
  tokens : ∀ t ∈ db'.refreshTokens, t.familyId = family.id → t.isRevoked = true
  sessions : ∀ s ∈ db'.sessions, s.userId = family.userId → s.deviceId = family.deviceId →
    s.revokedAt.isSome = true
  event : ∃ eventId startedAt,
    db'.securityEvents = db.securityEvents ++ [reuseEvent eventId token family startedAt]

def FailsClean (verifierHash : Digest) (db db' : Db) (r : Answer) : Prop :=
  ∀ x, r = .error x → (x ≠ reuseAlert → db.SameTables db') ∧
    (x = reuseAlert → ∃ token family, Db.ReportedWhole verifierHash token family db db')

section
variable {verifierHash : Digest} {db db' : Db}

theorem failsClean_same {x : Failure} (hx : x ≠ reuseAlert) :
    FailsClean verifierHash db db (.error x) := by
  intro y hy
  obtain rfl := Except.error.inj hy
  exact ⟨fun _ => ⟨rfl, rfl, rfl, rfl⟩, fun h => absurd h hx⟩

theorem failsClean_ok (v : Value) : FailsClean verifierHash db db' (.ok v) :=
  fun _ h => absurd h (by simp)

theorem Db.ReportedWhole.not_same {token : RefreshToken} {family : RefreshTokenFamily}
    (h : Db.ReportedWhole verifierHash token family db db') : ¬ db.SameTables db' := by
  intro hsame
  obtain ⟨eventId, startedAt, hevents⟩ := h.event
  rw [hsame.events] at hevents
  simp at hevents

theorem reportedWhole {token : RefreshToken} {family : RefreshTokenFamily} {tokens sessions : List Uuid}
    (eventId : Uuid) (startedAt : Nat) (hrow : db.refreshRow verifierHash = some (token, family))
    (hlookup : lookup db.refreshTokenFamilies token.familyId = some family)
    (ht : ∀ i, i ∈ tokens ↔ i ∈ db.tokensOfFamily token.familyId)
    (hs : ∀ i, i ∈ sessions ↔ i ∈ db.sessionsWhere fun s =>
      s.userId = family.userId && s.deviceId = family.deviceId) :
    Db.ReportedWhole verifierHash token family db
      (applyAll [.compromiseFamilies [family.id] startedAt, .revokeRefreshTokens tokens startedAt,
        .revokeSessions sessions startedAt,
        .insertSecurityEvent (reuseEvent eventId token family startedAt)] db) where
  row := hrow
  compromised := Db.barred_of_mem List.mem_cons_self (List.mem_singleton_self _)
    (key_mem_keys (lookup_mem hlookup))
  tokens := by
    have hid : family.id = token.familyId := lookup_key hlookup
    refine updated_all (P := fun t : RefreshToken => t.familyId = family.id) (fun t htm hf => ?_) fun _ => rfl
    exact (ht t.id).mpr (List.mem_map_of_mem (List.mem_filter.mpr ⟨htm, decide_eq_true (hf.trans hid)⟩))
  sessions := by
    have hall : ∀ s ∈ updateRows db.sessions sessions (Session.revoke startedAt),
        s.userId = family.userId ∧ s.deviceId = family.deviceId → s.revokedAt.isSome = true := by
      refine updated_all (fun s hsm hp => (hs s.id).mpr ?_) fun _ => rfl
      exact List.mem_map_of_mem (List.mem_filter.mpr ⟨hsm, by simp [hp.1, hp.2]⟩)
    exact fun s hsm hu hd => hall s hsm ⟨hu, hd⟩
  event := ⟨eventId, startedAt, rfl⟩

end

section
variable {pf : Platform} {fk : FkCheck} {raw : RawToken} {d : List Uuid} {w : World Db}
variable {token : RefreshToken} {family : RefreshTokenFamily} {verifierHash : Digest}

variable (verifierHash) in
/-- What a fault finds: nothing before the commit, and after it the report. -/
def RotationProgress (db : Db) (_ : List Uuid) (es : List Event) (db' : Db) : Prop :=
  (es = [] ∧ db' = db) ∨
    (es ≠ [] ∧ ∃ token family, Db.ReportedWhole verifierHash token family db db')

abbrev StopsClean (verifierHash : Digest) (db : Db) (prog : Program) (d : List Uuid) (es : List Event)
    (w : World Db) : Prop :=
  prog.Stops (fun p _ _ => p.isStatement = true) (RotationProgress verifierHash db)
    (fun r _ _ db' => FailsClean verifierHash db db' r) d id es w

theorem stops_issueTokens {db : Db} {es : List Event} {refreshToken : RawToken} :
    StopsClean verifierHash db (issueTokens pf family refreshToken) d es w :=
  ⟨Program.not_statement rfl, fun _ => ⟨Program.not_statement rfl, fun _ _ =>
    ⟨Program.not_statement rfl, fun _ => failsClean_ok _⟩⟩⟩

theorem stops_reportReuse {checkedAt now startedAt : Nat}
    (hrow : w.db.refreshRow verifierHash = some (token, family))
    (hlookup : lookup w.db.refreshTokenFamilies token.familyId = some family) :
    StopsClean verifierHash w.db (reportReuse raw token family checkedAt now startedAt) d [] w := by
  have hfail : RotationProgress verifierHash w.db d [] w.db := .inl ⟨rfl, rfl⟩
  refine ⟨fun _ => hfail, fun _ => hfail, ?_⟩
  refine stops_updateWhere hfail fun tokens ht => stops_updateWhere hfail fun sessions hs => ?_
  refine ⟨fun _ => hfail, fun eventId => ?_⟩
  have hnew : RotationProgress verifierHash w.db (eventId :: d) [] w.db := .inl ⟨rfl, rfl⟩
  refine stops_insertSecurityEvent hnew (fun _ => failsClean_same nofun) (fun _ => failsClean_same nofun)
    ⟨fun _ => hnew, ?_⟩
  have hreported := reportedWhole eventId startedAt hrow hlookup ht hs
  refine stops_throw (.inr ⟨by simp, token, family, hreported⟩) ?_
  intro x hx
  exact ⟨fun h => absurd (Except.error.inj hx).symm h, fun _ => ⟨token, family, hreported⟩⟩

theorem stops_rotate {checkedAt : Nat} :
    StopsClean verifierHash w.db (rotate pf fk raw token family checkedAt) d [] w := by
  have hfail : ∀ d, RotationProgress verifierHash w.db d [] w.db := fun _ => .inl ⟨rfl, rfl⟩
  refine ⟨Program.not_statement rfl, fun newRaw => ⟨Program.not_statement rfl, fun new =>
    ⟨Program.not_statement rfl, fun now _ => ?_⟩⟩⟩
  refine ⟨fun _ => hfail _, fun _ => hfail _, fun _ => hfail _, ?_⟩
  dsimp only
  split
  · exact stops_throw (hfail _) (failsClean_same nofun)
  · refine stops_insertRefreshToken (hfail _) (fun _ => failsClean_same nofun)
      (fun _ => failsClean_same nofun) ⟨fun _ => hfail _, stops_issueTokens⟩

theorem stops_selectForUpdate {k : Option (RefreshToken × RefreshTokenFamily) → Program}
    (hk : StopsClean verifierHash w.db (k (w.db.refreshRow verifierHash)) d [] w) :
    StopsClean verifierHash w.db (selectForUpdate verifierHash k) d [] w := by
  have hfail : RotationProgress verifierHash w.db d [] w.db := .inl ⟨rfl, rfl⟩
  unfold Db.refreshRow at hk
  refine ⟨fun _ => hfail, ?_⟩
  simp only [id_eq]
  cases hfound : w.db.tokenByHash verifierHash with
  | none => simpa only [hfound] using hk
  | some found =>
    simp only [hfound] at hk
    refine ⟨fun _ => hfail, fun _ => hfail, ?_⟩
    simp only [id_eq]
    cases ht : lookup w.db.refreshTokens found.id with
    | none => simpa only [ht] using hk
    | some rt =>
      cases hf : lookup w.db.refreshTokenFamilies found.familyId with
      | none => simpa only [ht, hf] using hk
      | some rf => simpa only [ht, hf] using hk

theorem stops_rotateRefreshToken (hdb : w.db.Identity) :
    StopsClean (pf.hashRefreshToken raw) w.db (rotateRefreshToken pf fk raw) [] [] w := by
  have hfail : RotationProgress (pf.hashRefreshToken raw) w.db [] [] w.db := .inl ⟨rfl, rfl⟩
  refine ⟨Program.not_statement rfl, fun startedAt _ => stops_selectForUpdate (w := ⟨startedAt, w.db⟩) ?_⟩
  cases hrow : w.db.refreshRow (pf.hashRefreshToken raw) with
  | none => exact stops_throw hfail (failsClean_same (by simp [reuseAlert]))
  | some row =>
    obtain ⟨token, family⟩ := row
    obtain ⟨_, _, hlookup⟩ := (refreshRow_eq_some hdb).mp hrow
    refine ⟨Program.not_statement rfl, fun checkedAt _ => ?_⟩
    have hreport : ∀ now, StopsClean (pf.hashRefreshToken raw) w.db
        (reportReuse raw token family checkedAt now startedAt) [] [] ⟨now, w.db⟩ :=
      fun now => stops_reportReuse (w := ⟨now, w.db⟩) hrow hlookup
    dsimp only
    split
    · exact stops_throw hfail (failsClean_same (by simp [reuseAlert]))
    · split
      · refine ⟨Program.not_statement rfl, fun now _ => ?_⟩
        cases token.replacementTokenId with
        | none => exact hreport now
        | some replacement =>
          dsimp only
          split
          · refine ⟨fun _ => hfail, ?_⟩
            dsimp only
            split
            · exact ⟨fun _ => hfail, stops_issueTokens⟩
            · exact hreport now
          · exact hreport now
      · exact stops_rotate (w := ⟨checkedAt, w.db⟩)

/-- A rotation that throws changes nothing or reports a reuse as a whole, just
when no statement fails once it has committed; only the `ROLLBACK` comes then. -/
theorem failing_rotation_iff {s : Server} {p : Nat} {sched : List Choice} {r : Answer} (h : Reachable pf fk s)
    (hcall : FaultyCall pf fk s p (.rotateRefreshToken raw) r sched) :
    FailsClean (pf.hashRefreshToken raw) s.db
        (serve pf fk s (.call p (.rotateRefreshToken raw) :: sched)).db r ↔
      ∀ qr, struck pf fk s p (.call p (.rotateRefreshToken raw) :: sched) = some qr → qr.events = [] := by
  cases hcall.stopped (by simp [Program.isStatement])
    (stops_rotateRefreshToken (w := s.world) h.holds.identity) with
  | returned hstruck _ hret =>
    exact ⟨fun _ qr hq => absurd (hstruck.symm.trans hq) (by simp), fun _ => hret⟩
  | @failed qr hstruck _ hfail hr =>
    constructor
    · intro hclean qr' hq
      obtain rfl := Option.some.inj (hstruck.symm.trans hq)
      rcases hfail with ⟨hes, _⟩ | ⟨_, token, family, hreported⟩
      · exact hes
      · exact absurd ((hclean .database hr).1 nofun) hreported.not_same
    · intro hnone
      rcases hfail with ⟨_, hdb⟩ | ⟨hes, _⟩
      · rw [show (serve pf fk s (.call p (.rotateRefreshToken raw) :: sched)).db = s.db from hdb, hr]
        exact failsClean_same nofun
      · exact absurd (hnone qr hstruck) hes

/-- On the key of migration 001 no rotation commits, so that no token of any
state is a rotated one and no call there gets as far as the report of a reuse:
whatever it throws, and wherever it is struck, it has changed nothing. -/
theorem failing_rotation_clean {s : Server} {p : Nat} {sched : List Choice} {r : Answer}
    (h : Reachable pf .endOfStatement s)
    (hcall : FaultyCall pf .endOfStatement s p (.rotateRefreshToken raw) r sched) :
    FailsClean (pf.hashRefreshToken raw) s.db
      (serve pf .endOfStatement s (.call p (.rotateRefreshToken raw) :: sched)).db r := by
  refine (failing_rotation_iff h hcall).mpr fun qr hq => ?_
  obtain ⟨w₀, h₀, hs⟩ := h.sound
  have hs' := hs.run (.call p (.rotateRefreshToken raw) :: sched)
  cases hcall.stopped (by simp [Program.isStatement])
    (stops_rotateRefreshToken (w := s.world) h.holds.identity) with
  | returned hstruck => exact absurd (hstruck.symm.trans hq) (by simp)
  | failed hstruck hp =>
    obtain rfl := Option.some.inj (hstruck.symm.trans hq)
    obtain ⟨pr, hpr, hc, _⟩ := ReadCommitted.Server.returned_iff.mp hcall.returned
    obtain rfl := Option.some.inj (hp.symm.trans hpr)
    have hlog := hs'.events p _ hp
    rw [hs'.rotation_silent h₀ hp hc] at hlog
    exact hlog

end

theorem sampleLoggedIn_kept :
    let s := serve samplePlatform .endOfStatement sampleStart sampleLogin
    FailsClean 12 s.db (serve samplePlatform .endOfStatement s
      (.call 2 (.rotateRefreshToken 12) :: ((sampleRotation 2 12 14 15).tail.take 9 ++ [.fail 2]))).db
        (.error .database) := by
  intro s
  apply failing_rotation_clean (sampleStart_reachable samplePlatform .endOfStatement sampleLogin)
  exact ⟨by decide +kernel, by decide, (Option.all_eq_true _ _).mp (by decide +kernel), by decide +kernel⟩

/-- Everything before the late replay of the token 12, and the replay up to its `ROLLBACK`, which fails. -/
def sampleRotated : List Choice :=
  sampleLogin ++ sampleRotation 1 12 14 15 ++ sampleIssue 1 16 17 ++ [.tick 10001]

def sampleUnreported : List Choice := (sampleReport 2 12 18).tail.dropLast ++ [.fail 2]

/-- On a key that waits for `COMMIT` a fault at that `ROLLBACK` hides the alert. -/
theorem sampleUnreported_unclean :
    let s := serve samplePlatform .atCommit sampleStart sampleRotated
    FaultyCall samplePlatform .atCommit s 2 (.rotateRefreshToken 12) (.error .database) sampleUnreported ∧
      ¬ FailsClean 12 s.db (serve samplePlatform .atCommit s
        (.call 2 (.rotateRefreshToken 12) :: sampleUnreported)).db (.error .database) := by
  intro s
  constructor
  · exact ⟨by decide +kernel, by decide, (Option.all_eq_true _ _).mp (by decide +kernel), by decide +kernel⟩
  · intro h
    exact absurd ((h .database rfl).1 nofun).sessions (by decide +kernel)

end GuffSuff
