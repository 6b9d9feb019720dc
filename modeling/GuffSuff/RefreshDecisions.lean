import GuffSuff.ReadCommitted.Solo
import GuffSuff.Services

/-! What `rotateRefreshToken` decides about a token while no other call is
moving, and what it writes then. -/

namespace GuffSuff

open ReadCommitted SessionService

/-- The rows that a call may write, told by their columns. -/
structure Scope where
  device : Uuid → Bool
  session : Session → Bool
  family : RefreshTokenFamily → Bool

def Write.Within (scope : Scope) (db : Db) : Write → Prop
  | revokeDevices ids _ _ => ∀ i ∈ ids, scope.device i = true
  | revokeSessions ids _ => ∀ i ∈ ids, i ∈ db.sessionsWhere scope.session
  | compromiseFamilies ids _ => ∀ i ∈ ids, i ∈ db.familiesWhere scope.family
  | revokeRefreshTokens ids _ => ∀ i ∈ ids, i ∈ db.tokensOfFamilies scope.family
  | rotateRefreshToken id _ _ => id ∈ db.tokensOfFamilies scope.family
  | insertRefreshToken t => t.familyId ∈ db.familiesWhere scope.family
  | insertSecurityEvent _ | insertAuditEvent _ => True
  | _ => False

def Db.WrittenIn (scope : Scope) (db db' : Db) : Prop :=
  ∃ ws, (∀ w ∈ ws, Write.Within scope db w) ∧ db' = applyAll ws db

/-- The row that `rotateRefreshToken` selects. -/
def Db.refreshRow (db : Db) (verifierHash : Digest) : Option (RefreshToken × RefreshTokenFamily) :=
  match db.tokenByHash verifierHash with
  | none => none
  | some found =>
    match lookup db.refreshTokens found.id, lookup db.refreshTokenFamilies found.familyId with
    | some rt, some rf => some (rt, rf)
    | _, _ => none

namespace SessionService

inductive RefreshDecision where
  | unknown | refused | graceAnswered | reuseDetected | rotated
  deriving DecidableEq, Repr

def RefreshDecision.accepts : RefreshDecision → Bool
  | graceAnswered | rotated => true
  | _ => false

def decideRefresh (db : Db) (verifierHash : Digest) (checkedAt now : Nat) : RefreshDecision :=
  match db.refreshRow verifierHash with
  | none => .unknown
  | some (token, family) =>
    if family.isCompromised || token.isRevoked || token.expiresAt < checkedAt then .refused
    else if token.isRotated then
      match token.replacementTokenId with
      | none => .reuseDetected
      | some replacement =>
        if now ≤ token.rotatedAt.getD 0 + concurrentGraceMs && db.hasUnrevokedToken replacement then
          .graceAnswered
        else .reuseDetected
    else .rotated

/-- The answer of a call that began at `w` is by its decision at some time; a
violated constraint may still refuse what it has accepted. -/
def Decided (verifierHash : Digest) (w : World Db) (r : Answer) : Prop :=
  ∃ checkedAt now, w.clock ≤ checkedAt ∧ checkedAt ≤ now ∧
    match r with
    | .ok _ => (decideRefresh w.db verifierHash checkedAt now).accepts = true
    | .error (.error _) => (decideRefresh w.db verifierHash checkedAt now).accepts = false
    | .error _ => True

section
variable {P : Db → Prop} {Q : Answer → Prop} {f : Db → Db} {w : World Db}

theorem solo_throw {x : Failure} (h : Q (.error x)) : (throw x).Solo P Q f w := h

theorem solo_insertRefreshToken {t : RefreshToken} {k : Program}
    (hu : ∀ name, Q (.error (.uniqueViolation name))) (hf : ∀ name, Q (.error (.foreignKeyViolation name)))
    (hk : k.Solo P Q (fun db => (Write.insertRefreshToken t).apply (f db)) w) :
    (insertRefreshToken t k).Solo P Q f w := by
  simp only [insertRefreshToken, Program.Solo]
  repeat' split
  · exact hu _
  · exact hu _
  · exact hf _
  · exact hf _
  · exact hk

theorem solo_insertSecurityEvent {e : SecurityEvent} {k : Program}
    (hu : ∀ name, Q (.error (.uniqueViolation name))) (hf : ∀ name, Q (.error (.foreignKeyViolation name)))
    (hk : k.Solo P Q (fun db => (Write.insertSecurityEvent e).apply (f db)) w) :
    (insertSecurityEvent e k).Solo P Q f w := by
  simp only [insertSecurityEvent, Program.Solo]
  repeat' split
  · exact hu _
  · exact hf _
  · exact hf _
  · exact hk

theorem solo_updateWhere {rows : Db → List Uuid} {key : Uuid → Key} {u : List Uuid → Write}
    {k : List Uuid → Program} (hk : ∀ ids, (∀ i, i ∈ ids ↔ i ∈ rows (f w.db)) →
      (k ids).Solo P Q (fun db => (u ids).apply (f db)) w) :
    (updateWhere rows key u k).Solo P Q f w := by
  intro ids hids
  exact Program.Solo.lockAll ids (hk ids fun _ => mem_of_exactly hids)

theorem solo_selectForUpdate {verifierHash : Digest}
    {k : Option (RefreshToken × RefreshTokenFamily) → Program}
    (hk : (k (w.db.refreshRow verifierHash)).Solo P Q id w) :
    (selectForUpdate verifierHash k).Solo P Q id w := by
  unfold Db.refreshRow at hk
  simp only [selectForUpdate, Program.Solo, id_eq]
  cases hfound : w.db.tokenByHash verifierHash with
  | none => simpa only [hfound] using hk
  | some found =>
    simp only [hfound] at hk
    simp only [Program.Solo, id_eq]
    cases ht : lookup w.db.refreshTokens found.id with
    | none => simpa only [ht] using hk
    | some rt =>
      cases hf : lookup w.db.refreshTokenFamilies found.familyId with
      | none => simpa only [ht, hf] using hk
      | some rf => simpa only [ht, hf] using hk

end

def rotationScope (db : Db) (verifierHash : Digest) : Scope where
  device _ := false
  session s := (db.refreshRow verifierHash).any fun (_, family) =>
    s.userId = family.userId && s.deviceId = family.deviceId
  family f := (db.refreshRow verifierHash).any fun (_, family) => f.id = family.id

theorem refreshRow_eq_some {db : Db} (h : db.Identity) {verifierHash : Digest} {token : RefreshToken}
    {family : RefreshTokenFamily} : db.refreshRow verifierHash = some (token, family) ↔
      token ∈ db.refreshTokens ∧ token.tokenVerifierHash = verifierHash ∧
        lookup db.refreshTokenFamilies token.familyId = some family := by
  unfold Db.refreshRow
  constructor
  · intro hrow
    split at hrow
    · exact absurd hrow (by simp)
    · rename_i found hfound
      have hmem := List.mem_of_find?_eq_some hfound
      have hhash := List.find?_some hfound
      have hlookup : lookup db.refreshTokens found.id = some found := lookup_of_mem h.tokens hmem
      rw [hlookup] at hrow
      split at hrow
      · rename_i rt rf ht hf
        obtain ⟨rfl, rfl⟩ := Prod.mk.inj (Option.some.inj hrow)
        obtain rfl := Option.some.inj ht
        exact ⟨hmem, by simpa using hhash, hf⟩
      · exact absurd hrow (by simp)
  · intro hrow
    obtain ⟨hmem, hhash, hf⟩ := hrow
    have hfound : db.tokenByHash verifierHash = some token := by
      have hfind : (db.tokenByHash verifierHash).isSome :=
        List.find?_isSome.mpr ⟨token, hmem, beq_iff_eq.mpr hhash⟩
      obtain ⟨t, ht⟩ := Option.isSome_iff_exists.mp hfind
      have hth : t.tokenVerifierHash = verifierHash := beq_iff_eq.mp (List.find?_some ht :)
      rw [ht, h.hash_unique (List.mem_of_find?_eq_some ht) hmem (hth.trans hhash.symm)]
    have htoken : lookup db.refreshTokens token.id = some token := lookup_of_mem h.tokens hmem
    simp only [hfound, htoken, hf]

section
variable {db : Db} {verifierHash : Digest} {token : RefreshToken} {family : RefreshTokenFamily}

theorem family_mem_scope (hrow : db.refreshRow verifierHash = some (token, family))
    (hf : lookup db.refreshTokenFamilies token.familyId = some family) :
    token.familyId ∈ db.familiesWhere (rotationScope db verifierHash).family := by
  have hid : family.id = token.familyId := lookup_key hf
  refine List.mem_map.mpr ⟨family, List.mem_filter.mpr ⟨lookup_mem hf, ?_⟩, hid⟩
  simp [rotationScope, hrow]

theorem token_mem_scope (hfamily : token.familyId ∈ db.familiesWhere (rotationScope db verifierHash).family)
    {t : RefreshToken} (ht : t ∈ db.refreshTokens) (htf : t.familyId = token.familyId) :
    t.id ∈ db.tokensOfFamilies (rotationScope db verifierHash).family :=
  Db.mem_tokensOfFamilies.mpr ⟨t, ht, rfl, htf ▸ hfamily⟩

end

section
variable {pf : Platform} {fk : FkCheck} {raw : RawToken} {w : World Db} {token : RefreshToken}
variable {family : RefreshTokenFamily} {P : Db → Prop} {Q : Answer → Prop}

theorem solo_issueTokens {f : Db → Db} {refreshToken : RawToken} (h : ∀ v, Q (.ok v)) :
    (issueTokens pf family refreshToken).Solo P Q f w := fun _ _ _ _ => h _

theorem solo_reportReuse {checkedAt now startedAt : Nat} {verifierHash : Digest}
    (hrow : w.db.refreshRow verifierHash = some (token, family))
    (hlookup : lookup w.db.refreshTokenFamilies token.familyId = some family)
    (hu : ∀ name, Q (.error (.uniqueViolation name))) (hf : ∀ name, Q (.error (.foreignKeyViolation name)))
    (halert : Q (.error reuseAlert)) :
    (reportReuse raw token family checkedAt now startedAt).Solo
      (w.db.WrittenIn (rotationScope w.db verifierHash)) Q id w := by
  have hfamily := family_mem_scope hrow hlookup
  refine solo_updateWhere fun tokens ht => solo_updateWhere fun sessions hs eventId => ?_
  refine solo_insertSecurityEvent hu hf ⟨?_, halert⟩
  refine ⟨[.compromiseFamilies [family.id] startedAt, .revokeRefreshTokens tokens startedAt,
    .revokeSessions sessions startedAt,
    .insertSecurityEvent (reuseEvent eventId token family startedAt)], ?_, rfl⟩
  simp only [List.forall_mem_cons, List.not_mem_nil, false_implies, implies_true, and_true]
  refine ⟨?_, ?_, ?_, trivial⟩
  · intro i hi
    rw [List.mem_singleton.mp hi, show family.id = token.familyId from lookup_key hlookup]
    exact hfamily
  · intro i hi
    obtain ⟨t, htm, rfl, htf⟩ := Db.mem_tokensOfFamily.mp ((ht i).mp hi)
    exact token_mem_scope hfamily htm htf
  · intro i hi
    have hin : i ∈ w.db.sessionsWhere fun s => s.userId = family.userId && s.deviceId = family.deviceId :=
      (hs i).mp hi
    simpa [rotationScope, hrow] using hin

theorem solo_rotate {checkedAt : Nat} {verifierHash : Digest} (htoken : token ∈ w.db.refreshTokens)
    (hrow : w.db.refreshRow verifierHash = some (token, family))
    (hlookup : lookup w.db.refreshTokenFamilies token.familyId = some family)
    (hu : ∀ name, Q (.error (.uniqueViolation name))) (hf : ∀ name, Q (.error (.foreignKeyViolation name)))
    (hok : ∀ v, Q (.ok v)) :
    (rotate pf fk raw token family checkedAt).Solo
      (w.db.WrittenIn (rotationScope w.db verifierHash)) Q id w := by
  intro newRaw new now _
  simp only [Program.Solo]
  split
  · exact hf _
  · refine solo_insertRefreshToken hu hf ⟨?_, solo_issueTokens hok⟩
    refine ⟨[.rotateRefreshToken token.id new now,
      .insertRefreshToken (childToken token new (pf.hashRefreshToken newRaw) now)], ?_, rfl⟩
    simp only [List.forall_mem_cons, List.not_mem_nil, false_implies, implies_true, and_true]
    have hfamily := family_mem_scope hrow hlookup
    exact ⟨token_mem_scope hfamily htoken rfl, hfamily⟩

/-- Alone, a rotation answers by its decision and writes its own family and sessions. -/
theorem solo_rotateRefreshToken (hdb : w.db.Identity) : (rotateRefreshToken pf fk raw).Solo
    (w.db.WrittenIn (rotationScope w.db (pf.hashRefreshToken raw)))
    (Decided (pf.hashRefreshToken raw) w) id w := by
  intro startedAt hstarted
  refine solo_selectForUpdate ?_
  cases hrow : w.db.refreshRow (pf.hashRefreshToken raw) with
  | none =>
    refine solo_throw ⟨startedAt, startedAt, hstarted, Nat.le_refl _, ?_⟩
    simp [decideRefresh, hrow, RefreshDecision.accepts]
  | some row =>
    obtain ⟨token, family⟩ := row
    obtain ⟨htoken, _, hlookup⟩ := (refreshRow_eq_some hdb).mp hrow
    intro checkedAt hchecked
    have hbegan := Nat.le_trans hstarted hchecked
    have hviolated : ∀ x, (∀ message, x ≠ .error message) →
        Decided (pf.hashRefreshToken raw) w (.error x) := by
      intro x hx
      refine ⟨checkedAt, checkedAt, hbegan, Nat.le_refl _, ?_⟩
      cases x with
      | error message => exact absurd rfl (hx message)
      | _ => trivial
    have hunique := fun name => hviolated (.uniqueViolation name) (by simp)
    have hforeign := fun name => hviolated (.foreignKeyViolation name) (by simp)
    dsimp only
    by_cases hrefused : (family.isCompromised || token.isRevoked || token.expiresAt < checkedAt) = true
    · rw [if_pos hrefused]
      refine solo_throw ⟨checkedAt, checkedAt, hbegan, Nat.le_refl _, ?_⟩
      simp only [decideRefresh, hrow, if_pos hrefused, RefreshDecision.accepts]
    · rw [if_neg hrefused]
      cases hrotated : token.isRotated with
      | false =>
        refine solo_rotate (w := ⟨checkedAt, w.db⟩) htoken hrow hlookup hunique hforeign fun v => ?_
        refine ⟨checkedAt, checkedAt, hbegan, Nat.le_refl _, ?_⟩
        simp [decideRefresh, hrow, hrefused, hrotated, RefreshDecision.accepts]
      | true =>
        intro now hnow
        have hreport : ∀ startedAt, decideRefresh w.db (pf.hashRefreshToken raw) checkedAt now = .reuseDetected →
            (reportReuse raw token family checkedAt now startedAt).Solo
              (w.db.WrittenIn (rotationScope w.db (pf.hashRefreshToken raw)))
              (Decided (pf.hashRefreshToken raw) w) id ⟨now, w.db⟩ := by
          intro startedAt hd
          refine solo_reportReuse (w := ⟨now, w.db⟩) hrow hlookup hunique hforeign
            ⟨checkedAt, now, hbegan, hnow, ?_⟩
          simp [reuseAlert, hd, RefreshDecision.accepts]
        cases hreplacement : token.replacementTokenId with
        | none =>
          refine hreport startedAt ?_
          simp [decideRefresh, hrow, hrefused, hrotated, hreplacement]
        | some replacement =>
          dsimp only
          split
          · rename_i hgrace
            simp only [Program.Solo, id_eq]
            split
            · rename_i hactive
              refine ⟨⟨[], by simp, rfl⟩, solo_issueTokens fun v => ⟨checkedAt, now, hbegan, hnow, ?_⟩⟩
              simp [decideRefresh, hrow, hrefused, hrotated, hreplacement, hgrace, hactive,
                RefreshDecision.accepts]
            · rename_i hactive
              refine hreport startedAt ?_
              simp [decideRefresh, hrow, hrefused, hrotated, hreplacement, hgrace, hactive]
          · rename_i hgrace
            refine hreport startedAt ?_
            simp [decideRefresh, hrow, hrefused, hrotated, hreplacement, hgrace]

theorem decided_aborted (verifierHash : Digest) (w : World Db) :
    Decided verifierHash w (.error .database) :=
  ⟨w.clock, w.clock, Nat.le_refl _, Nat.le_refl _, trivial⟩

theorem refresh_decided {s : Server} (hs : s.db.Identity) {p : Nat} (hp : s.procs p = none)
    {sched : List Choice} (honly : ∀ ch ∈ sched, ch.OnlyMoves p) {r : Answer}
    (hr : (serve pf fk s (.call p (.rotateRefreshToken raw) :: sched)).Returned p
      (.rotateRefreshToken raw) r) : Decided (pf.hashRefreshToken raw) s.world r :=
  (ReadCommitted.Server.solo_run (Call.program pf fk) Call.aborted hp
    ⟨[], by simp, rfl⟩ (solo_rotateRefreshToken (w := s.world) hs) (decided_aborted _ _) honly).2 r hr

end

end SessionService

end GuffSuff
