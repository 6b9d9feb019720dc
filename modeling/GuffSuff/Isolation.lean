import GuffSuff.Owners
import GuffSuff.RefreshDecisions

/-! Revocations reach no further than they should: the credentials of the
others are accepted and refused as before. -/

namespace GuffSuff

open ReadCommitted SessionService JwtAuthGuard

/-- The rows that decide about the access tokens of a user's device are the same. -/
structure Db.SameSessions (user device : Uuid) (db db' : Db) : Prop where
  users : db'.users = db.users
  sessions : db'.sessions.filter (fun s => s.userId = user && s.deviceId = device) =
    db.sessions.filter fun s => s.userId = user && s.deviceId = device
  devices : (∃ s ∈ db.sessions, s.userId = user ∧ s.deviceId = device) →
    db'.devices.filter (fun d => d.id = device) = db.devices.filter fun d => d.id = device

/-- The rows that decide about the refresh tokens of a family are the same. -/
structure Db.SameFamily (family : Uuid) (db db' : Db) : Prop where
  families : lookup db'.refreshTokenFamilies family = lookup db.refreshTokenFamilies family
  tokens : db'.tokensIn family = db.tokensIn family

section
variable {db db' : Db} {payload : AccessClaims}

theorem sessionRows_same (h : db.SameSessions payload.userId payload.deviceId db') :
    sessionRows db' payload = sessionRows db payload := by
  have hsplit : ∀ sessions : List Session, (sessions.filter fun s => s.id = payload.sessionId &&
      s.userId = payload.userId && s.deviceId = payload.deviceId) =
      (sessions.filter fun s => s.userId = payload.userId && s.deviceId = payload.deviceId).filter
        fun s => s.id = payload.sessionId := by
    intro sessions
    rw [List.filter_filter]
    simp only [Bool.and_assoc]
  unfold sessionRows
  rw [hsplit, hsplit, h.sessions, h.users]
  refine List.flatMap_congr fun s hs => ?_
  have hmem := List.mem_filter.mp (List.mem_of_mem_filter hs)
  simp only [Bool.and_eq_true, decide_eq_true_eq] at hmem
  obtain ⟨hs, hu, hd⟩ := hmem
  rw [hd, h.devices ⟨s, hs, hu, hd⟩]

theorem canActivate_same {pf : Platform} {now : Nat} {authHeader : Option (List Char)}
    (h : ∀ header payload, authHeader = some header →
      verifyAccessToken pf (bearerToken header) now = .ok payload →
        db.SameSessions payload.userId payload.deviceId db') :
    canActivate pf db' now authHeader = canActivate pf db now authHeader := by
  cases authHeader with
  | none => rfl
  | some header =>
    cases hv : verifyAccessToken pf (bearerToken header) now with
    | error message => simp [canActivate, hv, bind, Except.bind]
    | ok payload =>
      have hcheck : checkSession db' payload = checkSession db payload := by
        simp only [checkSession, sessionRows_same (h header payload rfl hv)]
      simp [canActivate, hv, bind, Except.bind, hcheck]

theorem hasUnrevokedToken_of_mem (h : db.Identity) {t : RefreshToken} (ht : t ∈ db.refreshTokens) :
    db.hasUnrevokedToken t.id = !t.isRevoked := by
  cases hr : t.isRevoked with
  | false => exact List.any_eq_true.mpr ⟨t, ht, by simp [hr]⟩
  | true =>
    refine List.any_eq_false.mpr fun u hu => ?_
    by_cases hid : u.id = t.id
    · obtain rfl : u = t := eq_of_key_eq h.tokens hu ht hid
      simp [hr]
    · simp [hid]

theorem decideRefresh_same (h : db.Identity) (h' : db'.Identity) (hg : db.Grows db') {verifierHash : Digest}
    (hsame : ∀ token family, db'.refreshRow verifierHash = some (token, family) →
      db.SameFamily family.id db') (checkedAt now : Nat) :
    decideRefresh db' verifierHash checkedAt now = decideRefresh db verifierHash checkedAt now := by
  cases hrow' : db'.refreshRow verifierHash with
  | none =>
    have hrow : db.refreshRow verifierHash = none := by
      rw [Option.eq_none_iff_forall_ne_some]
      intro row hrow
      obtain ⟨token, family⟩ := row
      obtain ⟨ht, hhash, _⟩ := (refreshRow_eq_some h).mp hrow
      obtain ⟨token', ht', hgt⟩ := hg.tokens token.id token (lookup_of_mem h.tokens ht)
      have htm := lookup_mem ht'
      obtain ⟨family', hf'⟩ := Option.isSome_iff_exists.mp
        (lookup_isSome.mpr (h'.familyId token' htm))
      have hsome := (refreshRow_eq_some h').mpr
        ⟨htm, hgt.tokenVerifierHash.trans hhash, hf'⟩
      rw [hrow'] at hsome
      exact absurd hsome (by simp)
    simp only [decideRefresh, hrow, hrow']
  | some row =>
    obtain ⟨token, family⟩ := row
    obtain ⟨ht', hhash, hf'⟩ := (refreshRow_eq_some h').mp hrow'
    have hid : family.id = token.familyId := lookup_key hf'
    have hs := hsame token family hrow'
    rw [hid] at hs
    have htin : token ∈ db.tokensIn token.familyId := hs.tokens ▸ Db.mem_tokensIn.mpr ⟨ht', rfl⟩
    have ht := (Db.mem_tokensIn.mp htin).1
    have hrow : db.refreshRow verifierHash = some (token, family) :=
      (refreshRow_eq_some h).mpr ⟨ht, hhash, hs.families ▸ hf'⟩
    have hreplacement : ∀ i, token.isRotated = true → token.replacementTokenId = some i →
        db'.hasUnrevokedToken i = db.hasUnrevokedToken i := by
      intro i hr hi
      obtain ⟨u, hu, hn, _⟩ :=
        (h.lineage token.familyId (h.familyId token ht)).replacement_of_rotated htin hr
      obtain rfl := Option.some.inj (hi.symm.trans hn)
      have hu' : u ∈ db'.refreshTokens := (Db.mem_tokensIn.mp (hs.tokens.symm ▸ hu)).1
      rw [hasUnrevokedToken_of_mem h (Db.mem_tokensIn.mp hu).1, hasUnrevokedToken_of_mem h' hu']
    simp only [decideRefresh, hrow, hrow']
    cases hr : token.isRotated with
    | false => rfl
    | true =>
      cases hi : token.replacementTokenId with
      | none => rfl
      | some i => simp only [hreplacement i hr hi]

end

section
variable {db db₁ : Db} {scope : Scope} {user device family : Uuid} {w : Write}

theorem mem_sessionsWhere (h : (keys db.sessions).Nodup) {s : Session} (hs : s ∈ db.sessions)
    {p : Session → Bool} (hin : s.id ∈ db.sessionsWhere p) : p s = true := by
  obtain ⟨s', hs', hid⟩ := List.mem_map.mp hin
  obtain ⟨hs', hp⟩ := List.mem_filter.mp hs'
  obtain rfl : s' = s := eq_of_key_eq h hs' hs hid
  exact hp

theorem mem_tokensOfFamilies (h : (keys db.refreshTokens).Nodup) {t : RefreshToken}
    (ht : t ∈ db.refreshTokens) {p : RefreshTokenFamily → Bool} (hin : t.id ∈ db.tokensOfFamilies p) :
    t.familyId ∈ db.familiesWhere p := by
  obtain ⟨t', ht', hid, hf⟩ := Db.mem_tokensOfFamilies.mp hin
  obtain rfl : t' = t := eq_of_key_eq h ht' ht hid
  exact hf

theorem sameSessions_apply (h : db.Identity) (hsame : db.SameSessions user device db₁)
    (hscope : ∀ s ∈ db.sessions, s.userId = user → s.deviceId = device →
      scope.session s = false ∧ scope.device device = false)
    (hw : w.Within scope db) : db.SameSessions user device (w.apply db₁) := by
  cases w with
  | revokeSessions ids now =>
    refine { hsame with sessions := ?_ }
    have hfilter := filter_updateRows db₁.sessions ids (Session.revoke now)
      (p := fun s => s.userId = user && s.deviceId = device) fun _ => rfl
    simp only [Write.apply]
    rw [hfilter, hsame.sessions]
    refine updateRows_of_disjoint _ fun s hs hid => ?_
    obtain ⟨hs, hp⟩ := List.mem_filter.mp hs
    simp only [Bool.and_eq_true, decide_eq_true_eq] at hp
    have hin := mem_sessionsWhere h.sessions hs (hw s.id hid)
    rw [(hscope s hs hp.1 hp.2).1] at hin
    exact absurd hin (by decide)
  | revokeDevices ids reason now =>
    refine { hsame with devices := fun hex => ?_ }
    have hfilter := filter_updateRows db₁.devices ids (Device.revoke reason now)
      (p := fun d => d.id = device) fun _ => rfl
    simp only [Write.apply]
    rw [hfilter, hsame.devices hex]
    refine updateRows_of_disjoint _ fun d hd hid => ?_
    obtain ⟨s, hs, hu, hd'⟩ := hex
    have hdid : d.id = device := by simpa using (List.mem_filter.mp hd).2
    have hin : scope.device device = true := hdid ▸ hw d.id hid
    rw [(hscope s hs hu hd').2] at hin
    exact absurd hin (by decide)
  | compromiseFamilies ids now => exact { hsame with }
  | revokeRefreshTokens ids now => exact { hsame with }
  | rotateRefreshToken id replacement now => exact { hsame with }
  | insertRefreshToken t => exact { hsame with }
  | insertSecurityEvent e => exact { hsame with }
  | insertAuditEvent e => exact { hsame with }
  | _ => exact absurd hw id

theorem sameFamily_apply (h : db.Identity) (hsame : db.SameFamily family db₁)
    (hscope : family ∉ db.familiesWhere scope.family) (hw : w.Within scope db) :
    db.SameFamily family (w.apply db₁) := by
  have hother : ∀ ids, (∀ i ∈ ids, i ∈ db.tokensOfFamilies scope.family) → ∀ f : RefreshToken → RefreshToken,
      updateRows (db.tokensIn family) ids f = db.tokensIn family := by
    intro ids hids f
    refine updateRows_of_disjoint _ fun t ht hid => hscope ?_
    obtain ⟨htm, rfl⟩ := Db.mem_tokensIn.mp ht
    exact mem_tokensOfFamilies h.tokens htm (hids t.id hid)
  cases w with
  | compromiseFamilies ids now =>
    refine { hsame with families := ?_ }
    have hkept : lookup ((Write.compromiseFamilies ids now).apply db₁).refreshTokenFamilies family =
        lookup db₁.refreshTokenFamilies family :=
      lookup_updateRows_of_not_mem (by intro _; rfl) fun hid => hscope (hw family hid)
    exact hkept.trans hsame.families
  | revokeRefreshTokens ids now =>
    refine { hsame with tokens := ?_ }
    have hfilter := filter_updateRows db₁.refreshTokens ids (RefreshToken.revoke now)
      (p := fun t => t.familyId = family) fun _ => rfl
    exact hfilter.trans ((congrArg (updateRows · ids _) hsame.tokens).trans (hother ids hw _))
  | rotateRefreshToken id replacement now =>
    refine { hsame with tokens := ?_ }
    have hfilter := filter_updateRows db₁.refreshTokens [id] (RefreshToken.rotate replacement now)
      (p := fun t => t.familyId = family) fun _ => rfl
    have hid : ∀ i ∈ [id], i ∈ db.tokensOfFamilies scope.family := fun i hi =>
      List.mem_singleton.mp hi ▸ hw
    exact hfilter.trans ((congrArg (updateRows · [id] _) hsame.tokens).trans (hother [id] hid _))
  | insertRefreshToken t =>
    refine { hsame with tokens := ?_ }
    have hne : t.familyId ≠ family := fun heq => hscope (heq ▸ hw)
    have happend : ((Write.insertRefreshToken t).apply db₁).tokensIn family = db₁.tokensIn family := by
      simp [Write.apply, Db.tokensIn, List.filter_append, hne]
    exact happend.trans hsame.tokens
  | revokeDevices ids reason now => exact { hsame with }
  | revokeSessions ids now => exact { hsame with }
  | insertSecurityEvent e => exact { hsame with }
  | insertAuditEvent e => exact { hsame with }
  | _ => exact absurd hw id

theorem Db.WrittenIn.keeps {db' : Db} {R : Db → Prop} (h : db.WrittenIn scope db') (hdb : R db)
    (happly : ∀ db₁ w, R db₁ → Write.Within scope db w → R (w.apply db₁)) : R db' := by
  obtain ⟨ws, hws, rfl⟩ := h
  have hrun : ∀ ws, (∀ w ∈ ws, Write.Within scope db w) → ∀ db₁, R db₁ → R (applyAll ws db₁) := by
    intro ws hws
    induction ws with
    | nil => exact fun _ h => h
    | cons w ws ih =>
      intro db₁ h
      exact ih (fun v hv => hws v (List.mem_cons_of_mem w hv)) _ (happly db₁ w h (hws w List.mem_cons_self))
  exact hrun ws hws db hdb

theorem Db.WrittenIn.sameSessions {db' : Db} (h : db.WrittenIn scope db') (hdb : db.Identity)
    (hscope : ∀ s ∈ db.sessions, s.userId = user → s.deviceId = device →
      scope.session s = false ∧ scope.device device = false) : db.SameSessions user device db' :=
  h.keeps ⟨rfl, rfl, fun _ => rfl⟩ fun _ _ hsame hw => sameSessions_apply hdb hsame hscope hw

theorem Db.WrittenIn.sameFamily {db' : Db} (h : db.WrittenIn scope db') (hdb : db.Identity)
    (hscope : family ∉ db.familiesWhere scope.family) : db.SameFamily family db' :=
  h.keeps ⟨rfl, rfl⟩ fun _ _ hsame hw => sameFamily_apply hdb hsame hscope hw

end

def deviceScope (device : Uuid) : Scope where
  device i := i = device
  session s := s.deviceId = device
  family f := f.deviceId = device

def userScope (user : Uuid) : Scope where
  device _ := false
  session s := s.userId = user
  family f := f.userId = user

/-- What a call makes of the database while no other moves. -/
def Call.Outcome (pf : Platform) (db : Db) : Call → Db → Prop
  | rotateRefreshToken raw, db' => db.WrittenIn (rotationScope db (pf.hashRefreshToken raw)) db'
  | revokeDevice user device _, db' =>
    db' = db ∨ ((∃ d ∈ db.devices, d.id = device ∧ d.userId = user) ∧
      db.WrittenIn (deviceScope device) db')
  | revokeAllSessionsForUser user, db' => db.WrittenIn (userScope user) db'
  | _, _ => True

section
variable {pf : Platform} {P : Db → Prop} {Q : Answer → Prop} {f : Db → Db} {w : World Db}

theorem tokensOfFamilies_compromise {p : RefreshTokenFamily → Bool}
    (hp : ∀ now (f : RefreshTokenFamily), p (f.compromise now) = p f) (ids : List Uuid) (now : Nat) (db : Db) :
    ((Write.compromiseFamilies ids now).apply db).tokensOfFamilies p = db.tokensOfFamilies p := by
  have hfamilies : ((Write.compromiseFamilies ids now).apply db).familiesWhere p = db.familiesWhere p := by
    simp only [Db.familiesWhere, Write.apply]
    rw [filter_updateRows _ _ _ (hp now)]
    exact map_updateRows _ _ _ fun _ => rfl
  simp only [Db.tokensOfFamilies, hfamilies]
  rfl

theorem solo_insertAuditEvent {e : AuditEvent} {k : Program} (hQ : ∀ r, Q r)
    (hk : k.Solo P Q (fun db => (Write.insertAuditEvent e).apply (f db)) w) :
    (DeviceService.insertAuditEvent e k).Solo P Q f w := by
  simp only [DeviceService.insertAuditEvent, Program.Solo]
  split
  · exact hQ _
  · exact hk

theorem solo_updateAlone {rows : Db → List Uuid} {key : Uuid → Key} {u : List Uuid → Nat → Write}
    {e : List Uuid → Nat → Event} {k : Program}
    (hk : ∀ ids now, (∀ i, i ∈ ids ↔ i ∈ rows w.db) → P ((u ids now).apply w.db) ∧
      k.Solo P Q id ⟨now, (u ids now).apply w.db⟩) : (updateAlone rows key u e k).Solo P Q id w := by
  intro now _
  exact solo_updateWhere fun ids hids => hk ids now hids

theorem solo_revokeAllSessionsForUser {user : Uuid} : (revokeAllSessionsForUser user).Solo
    (w.db.WrittenIn (userScope user)) (fun _ => True) id w := by
  refine solo_updateAlone fun sessions t₁ hs => ?_
  have hs₁ : (Write.revokeSessions sessions t₁).Within (userScope user) w.db := fun i hi => (hs i).mp hi
  refine ⟨⟨[_], by simpa using hs₁, rfl⟩, solo_updateAlone fun families t₂ hf => ?_⟩
  have hf₁ : (Write.compromiseFamilies families t₂).Within (userScope user) w.db :=
    fun i hi => (hf i).mp hi
  refine ⟨⟨[_, _], by simpa using ⟨hs₁, hf₁⟩, rfl⟩, solo_updateAlone fun tokens t₃ ht => ?_⟩
  have ht₁ : (Write.revokeRefreshTokens tokens t₃).Within (userScope user) w.db := by
    intro i hi
    have hin := (ht i).mp hi
    rw [tokensOfFamilies_compromise fun _ _ => rfl] at hin
    exact hin
  exact ⟨⟨[_, _, _], by simpa using ⟨hs₁, hf₁, ht₁⟩, rfl⟩, trivial⟩

theorem solo_revokeDevice {user device : Uuid} {reason : String} (hdb : (keys w.db.devices).Nodup) :
    (DeviceService.revokeDevice user device reason).Solo
      ((Call.revokeDevice user device reason).Outcome pf w.db) (fun _ => True) id w := by
  intro now _ found hfound
  have hrevocable : ∀ i ∈ found, ∃ d ∈ w.db.devices, d.id = i ∧
      DeviceService.isRevocable user device d = true := by
    intro i hi
    obtain ⟨d, hd, hid⟩ := List.mem_map.mp ((mem_of_exactly hfound).mp hi)
    obtain ⟨hd, hp⟩ := List.mem_filter.mp hd
    exact ⟨d, hd, hid, hp⟩
  refine Program.Solo.lockEach found [] (fun i hi => ?_) ?_
  · obtain ⟨d, hd, rfl, hp⟩ := hrevocable i hi
    have hlookup : lookup w.db.devices d.id = some d := lookup_of_mem hdb hd
    simp [DeviceService.stillRevocable, hlookup, hp]
  simp only [List.nil_append, Program.Solo]
  split
  · trivial
  rename_i d' hrow
  obtain ⟨i, hi, _⟩ := Option.bind_eq_some_iff.mp hrow
  refine solo_updateWhere fun sessions hs => solo_updateWhere fun families hf =>
    solo_updateWhere fun tokens ht eventId => ?_
  refine solo_insertSecurityEvent (fun _ => trivial) (fun _ => trivial) fun auditId correlationId => ?_
  refine solo_insertAuditEvent (fun _ => trivial) ⟨.inr ⟨?_, ?_⟩, trivial⟩
  · obtain ⟨d, hd, _, hp⟩ := hrevocable i (List.mem_of_head? hi)
    simp only [DeviceService.isRevocable, Bool.and_eq_true, decide_eq_true_eq] at hp
    exact ⟨d, hd, hp.1⟩
  · refine ⟨[.revokeDevices found reason now, .revokeSessions sessions now,
      .compromiseFamilies families now, .revokeRefreshTokens tokens now, .insertSecurityEvent _,
      .insertAuditEvent _], ?_, rfl⟩
    simp only [List.forall_mem_cons, List.not_mem_nil, false_implies, implies_true, and_true]
    refine ⟨fun i hi => ?_, fun i hi => (hs i).mp hi, fun i hi => (hf i).mp hi, fun i hi => ?_,
      trivial, trivial⟩
    · obtain ⟨d, _, rfl, hp⟩ := hrevocable i hi
      simp only [DeviceService.isRevocable, Bool.and_eq_true, decide_eq_true_eq] at hp
      simpa [deviceScope] using hp.1.1
    · have hin := (ht i).mp hi
      rw [tokensOfFamilies_compromise fun _ _ => rfl] at hin
      exact hin

theorem Call.solo_program {fk : FkCheck} (c : Call) (hdb : w.db.Holds) :
    (c.program pf fk).Solo (c.Outcome pf w.db) (fun _ => True) id w := by
  cases c with
  | rotateRefreshToken raw => exact (solo_rotateRefreshToken hdb.identity).mono (fun _ h => h) fun _ _ => trivial
  | revokeAllSessionsForUser user => exact solo_revokeAllSessionsForUser
  | revokeDevice user device reason => exact solo_revokeDevice hdb.devices
  | _ => exact Program.solo_true _ _ _

end

/-- The calls that revoke, a rotation because it may report a reuse. -/
def Call.Revokes : Call → Prop
  | rotateRefreshToken _ | revokeDevice .. | revokeAllSessionsForUser _ => True
  | _ => False

/-- The users and devices whose access tokens a call is about. -/
def Call.Concerns (pf : Platform) (db : Db) : Call → Uuid → Uuid → Prop
  | rotateRefreshToken raw, user, device => ∃ token family,
      db.refreshRow (pf.hashRefreshToken raw) = some (token, family) ∧
        user = family.userId ∧ device = family.deviceId
  | revokeDevice user device _, user', device' => user' = user ∧ device' = device
  | revokeAllSessionsForUser user, user', _ => user' = user
  | _, _, _ => False

/-- The families whose refresh tokens a call is about. -/
def Call.ConcernsFamily (pf : Platform) (db : Db) : Call → RefreshTokenFamily → Prop
  | rotateRefreshToken raw, f => ∃ token family,
      db.refreshRow (pf.hashRefreshToken raw) = some (token, family) ∧ f.id = family.id
  | revokeDevice user device _, f => f.userId = user ∧ f.deviceId = device
  | revokeAllSessionsForUser user, f => f.userId = user
  | _, _ => False

section
variable {pf : Platform} {db db' : Db} {c : Call} {user device : Uuid}

theorem Db.SameSessions.refl (user device : Uuid) (db : Db) : db.SameSessions user device db :=
  ⟨rfl, rfl, fun _ => rfl⟩

theorem Db.SameFamily.refl (family : Uuid) (db : Db) : db.SameFamily family db := ⟨rfl, rfl⟩

theorem outcome_sameSessions (hc : c.Revokes) (h : c.Outcome pf db db') (hdb : db.Identity) (howned : db.Owned)
    (hother : ¬ c.Concerns pf db user device) : db.SameSessions user device db' := by
  cases c with
  | rotateRefreshToken raw =>
    refine Db.WrittenIn.sameSessions h hdb fun s _ hu hd => ⟨?_, rfl⟩
    cases hrow : db.refreshRow (pf.hashRefreshToken raw) with
    | none => simp [rotationScope, hrow]
    | some row =>
      obtain ⟨token, family⟩ := row
      have hne : ¬ (user = family.userId ∧ device = family.deviceId) := fun heq =>
        hother ⟨token, family, hrow, heq⟩
      simpa [rotationScope, hrow, hu, hd] using hne
  | revokeDevice owner revoked reason =>
    rcases h with rfl | ⟨hd, h⟩
    · exact .refl user device db'
    · obtain ⟨d, hdm, hdid, hdu⟩ := hd
      refine Db.WrittenIn.sameSessions h hdb fun s hs hu hsd => ?_
      have hne : device ≠ revoked := by
        intro heq
        refine hother ⟨?_, heq⟩
        rw [← hu, ← hdu]
        exact (howned.sessions s hs d hdm (hdid.trans (heq.symm.trans hsd.symm))).symm
      simp [deviceScope, hsd, hne]
  | revokeAllSessionsForUser owner =>
    refine Db.WrittenIn.sameSessions h hdb fun s _ hu _ => ⟨?_, rfl⟩
    have hne : user ≠ owner := hother
    simp [userScope, hu, hne]
  | _ => exact absurd hc id

theorem outcome_sameFamily (hc : c.Revokes) (h : c.Outcome pf db db') (hdb : db.Identity)
    (howned : db.Owned) {family : Uuid}
    (hother : ∀ f ∈ db.refreshTokenFamilies, f.id = family → ¬ c.ConcernsFamily pf db f) :
    db.SameFamily family db' := by
  cases c with
  | rotateRefreshToken raw =>
    refine Db.WrittenIn.sameFamily h hdb fun hin => ?_
    obtain ⟨f, hf, hid⟩ := List.mem_map.mp hin
    obtain ⟨hf, hscope⟩ := List.mem_filter.mp hf
    cases hrow : db.refreshRow (pf.hashRefreshToken raw) with
    | none => simp [rotationScope, hrow] at hscope
    | some row =>
      obtain ⟨token, rf⟩ := row
      have hsame : f.id = rf.id := by simpa [rotationScope, hrow] using hscope
      exact hother f hf hid ⟨token, rf, hrow, hsame⟩
  | revokeDevice owner revoked reason =>
    rcases h with rfl | ⟨hd, h⟩
    · exact .refl family db'
    · obtain ⟨d, hdm, hdid, hdu⟩ := hd
      refine Db.WrittenIn.sameFamily h hdb fun hin => ?_
      obtain ⟨f, hf, hid⟩ := List.mem_map.mp hin
      obtain ⟨hf, hscope⟩ := List.mem_filter.mp hf
      have hfd : f.deviceId = revoked := by simpa [deviceScope] using hscope
      exact hother f hf hid ⟨(howned.families f hf d hdm (hdid.trans hfd.symm)).symm.trans hdu, hfd⟩
  | revokeAllSessionsForUser owner =>
    refine Db.WrittenIn.sameFamily h hdb fun hin => ?_
    obtain ⟨f, hf, hid⟩ := List.mem_map.mp hin
    obtain ⟨hf, hscope⟩ := List.mem_filter.mp hf
    have hfu : f.userId = owner := by simpa [userScope] using hscope
    exact hother f hf hid hfu
  | _ => exact absurd hc id

theorem outcome_foreignDevice {reason : String}
    (h : (Call.revokeDevice user device reason).Outcome pf db db')
    (hforeign : ∀ d ∈ db.devices, d.id = device → d.userId ≠ user) : db' = db := by
  rcases h with rfl | ⟨hd, _⟩
  · rfl
  · obtain ⟨d, hdm, hid, hu⟩ := hd
    exact absurd hu (hforeign d hdm hid)

end

/-- While a revoking call runs from any reachable state, the access tokens of the
users and devices that it is not about pass and fail as before, and so do the
refresh tokens of the families that it is not about. -/
theorem revocation_isolated {pf : Platform} {fk : FkCheck} {s : Server} (h : ReachableOwned pf fk s)
    {p : Nat} (hp : s.procs p = none) {c : Call} (hc : c.Revokes) {sched : List Choice}
    (honly : ∀ ch ∈ sched, ch.OnlyMoves p) :
    let s' := serve pf fk s (.call p c :: sched)
    (∀ now authHeader, (∀ header payload, authHeader = some header →
        verifyAccessToken pf (bearerToken header) now = .ok payload →
          ¬ c.Concerns pf s.db payload.userId payload.deviceId) →
      canActivate pf s'.db now authHeader = canActivate pf s.db now authHeader) ∧
    (∀ raw checkedAt now, (∀ token family,
        s'.db.refreshRow (pf.hashRefreshToken raw) = some (token, family) →
          ¬ c.ConcernsFamily pf s.db family) →
      decideRefresh s'.db (pf.hashRefreshToken raw) checkedAt now =
        decideRefresh s.db (pf.hashRefreshToken raw) checkedAt now) ∧
    (∀ user device reason, c = .revokeDevice user device reason →
      (∀ d ∈ s.db.devices, d.id = device → d.userId ≠ user) → s'.db = s.db) := by
  intro s'
  have hdb := h.reachable.holds
  have hdb' : s'.db.Holds := (h.reachable.more (.call p c :: sched)).holds
  obtain ⟨w₀, _, hs⟩ := h.reachable.sound
  have hgrows : s.db.Grows s'.db := grows_of_path (hs.solo hp c honly)
  have hself : c.Outcome pf s.db s.db := by
    cases c with
    | rotateRefreshToken raw => exact ⟨[], by simp, rfl⟩
    | revokeDevice user device reason => exact .inl rfl
    | revokeAllSessionsForUser user => exact ⟨[], by simp, rfl⟩
    | _ => exact absurd hc id
  have hout : c.Outcome pf s.db s'.db :=
    (ReadCommitted.Server.solo_run (Q := fun _ => True) (Call.program pf fk) Call.aborted hp hself
      (c.solo_program (w := s.world) hdb) trivial honly).1
  refine ⟨fun now authHeader hother => ?_, fun raw checkedAt now hother => ?_, ?_⟩
  · exact canActivate_same fun header payload hh hv =>
      outcome_sameSessions hc hout hdb.identity h.owned (hother header payload hh hv)
  · refine decideRefresh_same hdb.identity hdb'.identity hgrows (fun token family hrow => ?_) checkedAt now
    refine outcome_sameFamily hc hout hdb.identity h.owned fun f hf hid hconcerns => ?_
    have hlookup' := ((refreshRow_eq_some hdb'.identity).mp hrow).2.2
    obtain ⟨f', hf', hgf⟩ := hgrows.families f.id f (lookup_of_mem hdb.identity.families hf)
    have hmem := lookup_mem hlookup'
    obtain rfl : f' = family :=
      eq_of_key_eq hdb'.identity.families (lookup_mem hf') hmem ((lookup_key hf').trans hid)
    refine hother token f' hrow ?_
    cases c with
    | rotateRefreshToken raw' =>
      obtain ⟨token', family', hrow', hid'⟩ := hconcerns
      exact ⟨token', family', hrow', hid.symm.trans hid'⟩
    | revokeDevice user device reason => exact ⟨hgf.userId.trans hconcerns.1, hgf.deviceId.trans hconcerns.2⟩
    | revokeAllSessionsForUser user => exact hgf.userId.trans hconcerns
    | _ => exact absurd hc id
  · intro user device reason heq hforeign
    subst heq
    exact outcome_foreignDevice hout hforeign

/-- Process 1 revokes device 4 of user 2, which has no session. -/
def sampleRevocation : List Choice :=
  [.exec 1 [], .exec 1 [4]] ++ Choice.steps 1 9 ++ [.exec 1 [20]] ++ Choice.steps 1 2 ++
    [.exec 1 [21], .exec 1 [22]] ++ Choice.steps 1 3

theorem sampleRevocation_isolated :
    let s := serve samplePlatform .atCommit sampleStart sampleLogin
    let s' := serve samplePlatform .atCommit s (.call 1 (.revokeDevice 2 4 "lost") :: sampleRevocation)
    s'.Returned 1 (.revokeDevice 2 4 "lost") (.ok (.deviceRevoked 4)) ∧
      decideRefresh s.db 12 0 0 = .rotated ∧ decideRefresh s'.db 12 0 0 = decideRefresh s.db 12 0 0 := by
  intro s s'
  have howner : ∀ p c, .call p c ∈ sampleLogin → c.LogsInOwner sampleDb := by
    intro p c hc
    obtain ⟨rfl, rfl⟩ : p = 0 ∧ c = .createSession 1 3 := by
      simpa [sampleLogin, Choice.steps] using hc
    simp [Call.LogsInOwner, Db.Owns, sampleDb]
  have hs : ReachableOwned samplePlatform .atCommit s :=
    .run sampleDb 0 (List.range 10) sampleDb_initial (by decide) sampleLogin howner
  refine ⟨by decide +kernel, by decide +kernel,
    (revocation_isolated hs (by rfl) (c := .revokeDevice 2 4 "lost") trivial (by decide)).2.1 12 0 0 ?_⟩
  intro token family hrow hconcerns
  have hother : (s'.db.refreshRow 12).all (fun row => row.2.userId ≠ 2) = true := by decide +kernel
  rw [show s'.db.refreshRow 12 = some (token, family) from hrow] at hother
  simp [hconcerns.1] at hother

end GuffSuff
