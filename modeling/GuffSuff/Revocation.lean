import GuffSuff.Services

/-! Compromise and revocation are final: the marks that end the tokens of a
family and the sessions of a device, and the calls that set them. -/

namespace GuffSuff

open ReadCommitted SessionService DeviceService
open ReadCommitted.Server (eventsOf eventsOf_new)

namespace Db

def Barred (db : Db) (family : Uuid) : Prop :=
  ∃ f, lookup db.refreshTokenFamilies family = some f ∧ f.isCompromised = true

def SessionRevoked (db : Db) (session : Uuid) : Prop :=
  ∃ s, lookup db.sessions session = some s ∧ s.revokedAt.isSome = true

def TokenOf (pf : Platform) (db : Db) (raw : RawToken) (family : Uuid) : Prop :=
  ∃ t ∈ db.refreshTokens, t.tokenVerifierHash = pf.hashRefreshToken raw ∧ t.familyId = family

instance (pf : Platform) (db : Db) (raw : RawToken) (family : Uuid) :
    Decidable (db.TokenOf pf raw family) :=
  inferInstanceAs (Decidable (∃ t ∈ db.refreshTokens, _))

section
variable {db db' : Db} {i : Uuid} {ws : List Write} {ids : List Uuid} {now : Nat}

theorem Barred.grows (h : db.Barred i) (hg : db.Grows db') : db'.Barred i := by
  obtain ⟨f, hf, hc⟩ := h
  obtain ⟨f', hf', hgf⟩ := hg.families i f hf
  exact ⟨f', hf', hgf.compromised hc⟩

theorem SessionRevoked.grows (h : db.SessionRevoked i) (hg : db.Grows db') :
    db'.SessionRevoked i := by
  obtain ⟨s, hs, hr⟩ := h
  obtain ⟨s', hs', hgs⟩ := hg.sessions i s hs
  exact ⟨s', hs', hgs.revoked hr⟩

theorem TokenOf.grows {pf : Platform} {raw : RawToken} {family : Uuid} (h : db.TokenOf pf raw family)
    (hi : db.Holds) (hg : db.Grows db') : db'.TokenOf pf raw family := by
  obtain ⟨t, ht, hh, hf⟩ := h
  obtain ⟨t', ht', hgt⟩ := hg.tokens t.id t (lookup_of_mem hi.identity.tokens ht)
  exact ⟨t', lookup_mem ht', hgt.tokenVerifierHash.trans hh, hgt.familyId.trans hf⟩

theorem barred_of_mem (hw : Write.compromiseFamilies ids now ∈ ws) (hi : i ∈ ids)
    (hf : i ∈ keys db.refreshTokenFamilies) : (applyAll ws db).Barred i := by
  obtain ⟨l, m, rfl⟩ := List.append_of_mem hw
  obtain ⟨f, hf⟩ := Option.isSome_iff_exists.mp (lookup_isSome.mpr hf)
  obtain ⟨f', hf', _⟩ := (grows_applyAll l db).families i f hf
  have hbar : ((Write.compromiseFamilies ids now).apply (applyAll l db)).Barred i := by
    refine ⟨f'.compromise now, ?_, rfl⟩
    simp [Write.apply, lookup_updateRows (f := RefreshTokenFamily.compromise now) (fun _ => rfl),
      hf', hi]
  rw [applyAll_append, applyAll_cons]
  exact hbar.grows (grows_applyAll m _)

theorem sessionRevoked_of_mem (hw : Write.revokeSessions ids now ∈ ws) (hi : i ∈ ids)
    (hs : i ∈ keys db.sessions) : (applyAll ws db).SessionRevoked i := by
  obtain ⟨l, m, rfl⟩ := List.append_of_mem hw
  obtain ⟨s, hs⟩ := Option.isSome_iff_exists.mp (lookup_isSome.mpr hs)
  obtain ⟨s', hs', _⟩ := (grows_applyAll l db).sessions i s hs
  have hrev : ((Write.revokeSessions ids now).apply (applyAll l db)).SessionRevoked i := by
    refine ⟨s'.revoke now, ?_, rfl⟩
    simp [Write.apply, lookup_updateRows (f := Session.revoke now) (fun _ => rfl), hs', hi]
  rw [applyAll_append, applyAll_cons]
  exact hrev.grows (grows_applyAll m _)

theorem Presents.family_eq {pf : Platform} {raw : RawToken} {old : RefreshToken}
    {rf : RefreshTokenFamily} {checkedAt : Nat} (h : db.Presents pf raw old rf checkedAt)
    (hg : db.Grows db') (hi : db'.Identity) {f : Uuid} (ht : db'.TokenOf pf raw f) :
    old.familyId = f := by
  obtain ⟨t, ht, hhash, rfl⟩ := ht
  obtain ⟨t', ht', hgt⟩ := hg.tokens old.id old h.token
  have heq : t' = t := hi.hash_unique (lookup_mem ht') ht
    (hgt.tokenVerifierHash.trans (h.hash.trans hhash.symm))
  rw [← heq, hgt.familyId]

theorem Presents.not_barred {pf : Platform} {raw : RawToken} {old : RefreshToken}
    {rf : RefreshTokenFamily} {checkedAt : Nat} (h : db.Presents pf raw old rf checkedAt) :
    ¬ db.Barred old.familyId := by
  intro hx
  obtain ⟨f, hf, hc⟩ := hx
  obtain rfl := Option.some.inj (hf.symm.trans h.family)
  rw [h.uncompromised] at hc
  exact absurd hc (by decide)

end

end Db

section
variable {pf : Platform} {fk : FkCheck} {w₀ : World Db} {s : Server}

/-- A refresh commits on a row that still passes the checks of step 2. -/
theorem SessionService.RotationEvent.presents {raw : RawToken} {began : World Db} {e : Event}
    (h : RotationEvent fk raw began e) {old : RefreshToken} {refreshToken : RawToken}
    (he : e.refreshed = some (old, refreshToken)) {clock : Nat} {db : Db}
    (ha : e.Allowed pf clock db) :
    ∃ family checkedAt, began.clock ≤ checkedAt ∧ db.Presents pf raw old family checkedAt := by
  cases e with
  | tokenRotated raw' newRaw old' replacement checkedAt now =>
    obtain ⟨_, rfl, hc⟩ := h
    obtain ⟨⟨family, hp⟩, _⟩ := ha
    obtain ⟨rfl, _⟩ := Prod.mk.inj (Option.some.inj he)
    exact ⟨family, checkedAt, hc, hp⟩
  | graceAnswered raw' old' checkedAt now =>
    obtain ⟨rfl, hc⟩ := h
    obtain ⟨⟨family, hp⟩, _⟩ := ha
    obtain ⟨rfl, _⟩ := Prod.mk.inj (Option.some.inj he)
    exact ⟨family, checkedAt, hc, hp⟩
  | _ => exact absurd he (by simp [Event.refreshed])

theorem SoundRun.returned (h : SoundRun pf fk w₀ s) {p : Nat} {c : Call} {r : Answer}
    (hr : s.Returned p c r) : ∃ pr, s.procs p = some pr ∧ pr.call = c ∧
      (r = c.aborted ∨ (c.contract pf fk pr.began).answer r (eventsOf s.log p) s.world) := by
  obtain ⟨pr, hp, rfl, hfin⟩ := ReadCommitted.Server.returned_iff.mp hr
  exact ⟨pr, hp, rfl, h.post hp hfin⟩

theorem SoundRun.trace (h : SoundRun pf fk w₀ s) {p : Nat} {e : Event} (he : e ∈ eventsOf s.log p) :
    ∃ pr, s.procs p = some pr ∧ (pr.call.contract pf fk pr.began).trace (eventsOf s.log p) :=
  h.trace_of_log (ReadCommitted.Server.mem_eventsOf.mp he)

theorem SoundRun.refreshed (h : SoundRun pf fk w₀ s) {q : Nat} {raw : RawToken} {v : Value}
    (hr : s.Returned q (.rotateRefreshToken raw) (.ok v)) : ∃ qr e old refreshToken,
      s.procs q = some qr ∧ qr.call = .rotateRefreshToken raw ∧ eventsOf s.log q = [e] ∧
        e.refreshed = some (old, refreshToken) ∧ RotationEvent fk raw qr.began e ∧
        ∃ family claimed session signedAt,
          v = .tokens (rotatedPair pf refreshToken family claimed session signedAt) ∧
            claimed ∉ s.db.ids ∧ session ∉ s.db.ids ∧ claimed ≠ session := by
  obtain ⟨qr, hq, hc, hans⟩ := h.returned hr
  rcases hans with hans | ⟨e, old, refreshToken, family, claimed, session, signedAt, hes, he, _,
    hclaimed, hsession, hne, hv⟩
  · exact absurd hans (by simp [Call.aborted])
  have hmem : e ∈ eventsOf s.log q := by simp [hes]
  obtain ⟨qr', hq', ht⟩ := h.trace hmem
  obtain rfl := Option.some.inj (hq'.symm.trans hq)
  rw [hc] at ht
  exact ⟨qr', e, old, refreshToken, hq, hc, hes, he, ht.2 e hmem, family, claimed, session, signedAt,
    hv, hclaimed, hsession, hne⟩

/-- A later call that answers a pair for a token of family `f` has refreshed a
token of `f` that passed the checks in a later world. -/
theorem SoundRun.later_refresh (h : SoundRun pf fk w₀ s) {sched : List Choice} {q : Nat}
    {raw : RawToken} {v : Value} {f : Uuid}
    (hr : (serve pf fk s sched).Returned q (.rotateRefreshToken raw) (.ok v))
    (hnew : eventsOf s.log q = []) (hf : (serve pf fk s sched).db.TokenOf pf raw f) :
    ∃ qr e es c db old refreshToken family checkedAt, (serve pf fk s sched).procs q = some qr ∧
      qr.call = .rotateRefreshToken raw ∧ RotationEvent fk raw qr.began e ∧
      (backend pf).Path s.world es ⟨c, db⟩ ∧ db.Holds ∧ e.Allowed pf c db ∧
      e.refreshed = some (old, refreshToken) ∧ old.familyId = f ∧ qr.began.clock ≤ checkedAt ∧
      db.Presents pf raw old family checkedAt ∧ db.Grows (serve pf fk s sched).db := by
  have h' := h.run sched
  obtain ⟨new, hadd, _⟩ := h.added sched
  obtain ⟨qr, e, old, refreshToken, hq, hc, hes, he, hrot, _⟩ := h'.refreshed hr
  have hmem : e ∈ eventsOf (serve pf fk s sched).log q := by simp [hes]
  rw [hadd.log] at hmem
  obtain ⟨l₁, l₂, hl⟩ := List.append_of_mem (eventsOf_new hnew hmem)
  have hpath := hadd.path
  rw [hl, List.map_append, List.map_cons] at hpath
  obtain ⟨c, db, db', h₁, ⟨ha, hdb⟩, h₂⟩ := hpath.cut
  obtain ⟨family, checkedAt, hclock, hp⟩ := hrot.presents he ha
  have hg : db.Grows (serve pf fk s sched).db := by
    have hstep := grows_applyAll (e.writes pf) db
    rw [← hdb] at hstep
    exact hstep.trans (grows_of_path h₂)
  exact ⟨qr, e, _, c, db, old, refreshToken, family, checkedAt, hq, hc, hrot, h₁, h₁.holds h.holds, ha,
    he, hp.family_eq hg h'.holds.identity hf, hclock, hp, hg⟩

variable (pf fk s)

/-- From `s` on, no call that had committed nothing yet gets a token pair for a
token of these families. -/
def FamiliesClosed (F : Uuid → Prop) : Prop :=
  ∀ sched q raw v, (serve pf fk s sched).Returned q (.rotateRefreshToken raw) (.ok v) →
    eventsOf s.log q = [] → ∀ f, F f → ¬ (serve pf fk s sched).db.TokenOf pf raw f

/-- From `s` on, the guard accepts no access token of these sessions. -/
def SessionsClosed (S : Uuid → Prop) : Prop :=
  ∀ sched now header payload, verifyAccessToken pf (JwtAuthGuard.bearerToken header) now = .ok payload →
    S payload.sessionId →
      ∀ user, JwtAuthGuard.canActivate pf (serve pf fk s sched).db now (some header) ≠ .ok user

variable {pf fk s}

theorem SoundRun.grows (h : SoundRun pf fk w₀ s) (sched : List Choice) :
    s.db.Grows (serve pf fk s sched).db := by
  obtain ⟨_, hadd, _⟩ := h.added sched
  exact grows_of_later hadd.later

theorem SoundRun.familiesClosed_of_barred (h : SoundRun pf fk w₀ s) {F : Uuid → Prop}
    (hF : ∀ f, F f → s.db.Barred f) : FamiliesClosed pf fk s F := by
  intro sched q raw v hr hnew f hf ht
  obtain ⟨_, _, _, _, _, _, _, _, _, _, _, _, hpath, _, _, _, hold, _, hp, _⟩ :=
    h.later_refresh hr hnew ht
  apply hp.not_barred
  rw [hold]
  exact (hF f hf).grows (grows_of_path hpath)

theorem SoundRun.sessionsClosed_of_revoked (h : SoundRun pf fk w₀ s) {S : Uuid → Prop}
    (hS : ∀ i, S i → s.db.SessionRevoked i) : SessionsClosed pf fk s S := by
  intro sched now header payload hv hi user hok
  obtain ⟨_, payload', hh, hv', _, session, hs, hid, _, _, hrev⟩ := JwtAuthGuard.canActivate_ok hok
  obtain rfl := Option.some.inj hh
  obtain rfl := Except.ok.inj (hv'.symm.trans hv)
  obtain ⟨row, hrow, hset⟩ := (hS _ hi).grows (h.grows sched)
  have heq : row = session := eq_of_key_eq (h.run sched).holds.identity.sessions
    (lookup_mem hrow) hs ((lookup_key hrow).trans hid.symm)
  rw [heq, hrev] at hset
  exact absurd hset (by decide)

/-- The three ways to end the families `F` and the sessions `S`. -/
inductive Ended (pf : Platform) (s : Server) : (Uuid → Prop) → (Uuid → Prop) → Prop
  | reuse {p : Nat} {raw : RawToken} {pr : Process Db Key Uuid Event Answer Call}
      (hp : s.procs p = some pr) (hc : pr.call = .rotateRefreshToken raw)
      (hr : pr.Finished (.error reuseAlert)) :
      Ended pf s (s.db.TokenOf pf raw) fun i => ∃ f ∈ s.db.refreshTokenFamilies,
        s.db.TokenOf pf raw f.id ∧ ∃ session ∈ pr.began.db.sessions, session.id = i ∧
          session.userId = f.userId ∧ session.deviceId = f.deviceId
  | device {p : Nat} {user device : Uuid} {reason : String}
      {pr : Process Db Key Uuid Event Answer Call} (hp : s.procs p = some pr)
      (hc : pr.call = .revokeDevice user device reason) (hcommitted : eventsOf s.log p ≠ []) :
      Ended pf s (fun i => ∃ f ∈ pr.began.db.refreshTokenFamilies, f.id = i ∧ f.deviceId = device)
        (fun i => ∃ session ∈ pr.began.db.sessions, session.id = i ∧ session.deviceId = device)
  | user {p : Nat} {user : Uuid} {v : Value} {pr : Process Db Key Uuid Event Answer Call}
      (hp : s.procs p = some pr) (hc : pr.call = .revokeAllSessionsForUser user)
      (hr : pr.Finished (.ok v)) :
      Ended pf s (fun i => ∃ f ∈ pr.began.db.refreshTokenFamilies, f.id = i ∧ f.userId = user)
        (fun i => ∃ session ∈ pr.began.db.sessions, session.id = i ∧ session.userId = user)

theorem SoundRun.committed (h : SoundRun pf fk w₀ s) {p : Nat}
    {pr : Process Db Key Uuid Event Answer Call} (hp : s.procs p = some pr) {e : Event}
    (he : e ∈ eventsOf s.log p) : ∃ c db, db.Holds ∧ pr.began.db.Grows db ∧ e.Allowed pf c db ∧
      (applyAll (e.writes pf) db).Grows s.db := by
  obtain ⟨c, db, db', hi, hbegan, ⟨ha, rfl⟩, hlater⟩ := h.entry_since hp he
  exact ⟨c, db, hi, grows_of_later hbegan, ha, grows_of_later hlater⟩

/-- Where the key is checked at the end of each statement, no token was rotated out of another. -/
theorem SoundRun.no_child (h : SoundRun pf .endOfStatement w₀ s)
    (h₀ : w₀.db.Initial) : ∀ t ∈ s.db.refreshTokens, t.parentTokenId = none := by
  apply h.path.keeps_of_mem (P := fun _ (db : Db) => ∀ t ∈ db.refreshTokens, t.parentTokenId = none)
    (fun _ _ _ hp _ => hp) ?_ h₀.holds
  · simp [h₀.tokens]
  · intro c db e _ he _ hp hm t ht
    obtain ⟨_, rfl⟩ := hm
    rcases token_origin ht with ⟨u, hu, _, hg⟩ | ⟨u, hw, _, hg⟩
    · rw [hg.parentTokenId]
      exact hp u hu
    · obtain ⟨⟨q, e'⟩, hq, he'⟩ := List.mem_map.mp he
      obtain rfl : e' = e := he'
      obtain ⟨qr, _, htr⟩ := h.trace (ReadCommitted.Server.mem_eventsOf.mpr hq)
      cases e' with
      | sessionCreated raw user device session family token now =>
        have hu : u = firstToken token family (pf.hashRefreshToken raw) now := by
          simpa [Event.writes] using hw
        rw [hg.parentTokenId, hu]
        rfl
      | tokenRotated raw newRaw old replacement checkedAt now =>
        obtain ⟨_, _, hrot⟩ := Call.rotation_of_trace htr
          (ReadCommitted.Server.mem_eventsOf.mpr hq) rfl
        exact absurd hrot.1 (by decide)
      | envelopeSubmitted envelope record recipients => simp [Event.writes] at hw
      | _ => simp [Event.writes] at hw

theorem SoundRun.unrotated (h : SoundRun pf .endOfStatement w₀ s) (h₀ : w₀.db.Initial) :
    ∀ t ∈ s.db.refreshTokens, t.isRotated = false := by
  intro t ht
  by_contra hrotated
  have hi := h.holds.identity
  obtain ⟨child, hc, _, hparent⟩ := (hi.lineage _ (hi.familyId _ ht)).replacement_of_rotated
    (Db.mem_tokensIn.mpr ⟨ht, rfl⟩) (Bool.eq_true_of_not_eq_false hrotated)
  rw [h.no_child h₀ child (Db.mem_tokensIn.mp hc).1] at hparent
  exact absurd hparent (by simp)

/-- So every refresh there fails before anything of it is committed. -/
theorem SoundRun.rotation_silent (h : SoundRun pf .endOfStatement w₀ s) (h₀ : w₀.db.Initial) {p : Nat}
    {pr : Process Db Key Uuid Event Answer Call} (hp : s.procs p = some pr) {raw : RawToken}
    (hc : pr.call = .rotateRefreshToken raw) : eventsOf s.log p = [] := by
  by_contra hsome
  obtain ⟨e, he⟩ := List.exists_mem_of_ne_nil _ hsome
  obtain ⟨pr', hp', ht⟩ := h.trace he
  obtain rfl := Option.some.inj (hp'.symm.trans hp)
  rw [hc] at ht
  have hrot : RotationEvent .endOfStatement raw pr'.began e := ht.2 e he
  obtain ⟨c, db, _, _, ha, hlater⟩ := h.committed hp he
  have hg : db.Grows s.db := (grows_applyAll (e.writes pf) db).trans hlater
  have hunrotated : ∀ {raw' old family checkedAt}, db.Presents pf raw' old family checkedAt →
      old.isRotated ≠ true := by
    intro raw' old family checkedAt hpres hrotated
    obtain ⟨old', hold', hgo⟩ := hg.tokens _ _ hpres.token
    have hfalse := h.unrotated h₀ old' (lookup_mem hold')
    rw [hgo.rotated hrotated] at hfalse
    exact absurd hfalse (by simp)
  cases e with
  | tokenRotated raw' newRaw old replacement checkedAt now => exact absurd hrot.1 (by decide)
  | graceAnswered raw' old checkedAt now =>
    obtain ⟨⟨family, hpres⟩, hrotated, _⟩ := ha
    exact hunrotated hpres hrotated
  | reuseDetected raw' old family tokens sessions eventId checkedAt now startedAt =>
    obtain ⟨hpres, hrotated, _⟩ := ha
    exact hunrotated hpres hrotated
  | _ => exact hrot

theorem SoundRun.barred_of_event (h : SoundRun pf fk w₀ s) {p : Nat}
    {pr : Process Db Key Uuid Event Answer Call} (hp : s.procs p = some pr) {e : Event}
    (he : e ∈ eventsOf s.log p) {ids : List Uuid} {now : Nat}
    (hw : .compromiseFamilies ids now ∈ e.writes pf) {f : RefreshTokenFamily} (hi : f.id ∈ ids)
    (hf : f ∈ pr.began.db.refreshTokenFamilies) : s.db.Barred f.id := by
  obtain ⟨_, db, _, hbegan, _, hlater⟩ := h.committed hp he
  obtain ⟨row, hrow⟩ := Option.isSome_iff_exists.mp (lookup_isSome.mpr (key_mem_keys hf))
  obtain ⟨row', hrow', _⟩ := hbegan.families _ row hrow
  exact (Db.barred_of_mem hw hi (mem_keys_of_lookup hrow')).grows hlater

theorem SoundRun.sessionRevoked_of_event (h : SoundRun pf fk w₀ s) {p : Nat}
    {pr : Process Db Key Uuid Event Answer Call} (hp : s.procs p = some pr) {e : Event}
    (he : e ∈ eventsOf s.log p) {ids : List Uuid} {now : Nat}
    (hw : .revokeSessions ids now ∈ e.writes pf) {i : Uuid} (hi : i ∈ ids)
    (hs : i ∈ keys pr.began.db.sessions) : s.db.SessionRevoked i := by
  obtain ⟨_, db, _, hbegan, _, hlater⟩ := h.committed hp he
  obtain ⟨row, hrow⟩ := Option.isSome_iff_exists.mp (lookup_isSome.mpr hs)
  obtain ⟨row', hrow', _⟩ := hbegan.sessions _ row hrow
  exact (Db.sessionRevoked_of_mem hw hi (mem_keys_of_lookup hrow')).grows hlater

section
variable {p : Nat} {pr : Process Db Key Uuid Event Answer Call}

theorem SoundRun.ended_by_reuse (h : SoundRun pf fk w₀ s) {raw : RawToken}
    (hp : s.procs p = some pr) (hc : pr.call = .rotateRefreshToken raw)
    (hr : pr.Finished (.error reuseAlert)) {f : Uuid} (ht : s.db.TokenOf pf raw f) :
    s.db.Barred f ∧ ∀ row ∈ s.db.refreshTokenFamilies, row.id = f →
      ∀ session ∈ pr.began.db.sessions, session.userId = row.userId →
        session.deviceId = row.deviceId → s.db.SessionRevoked session.id := by
  obtain ⟨pr', hp', _, hans⟩ := h.returned
    (ReadCommitted.Server.returned_iff.mpr ⟨pr, hp, hc, hr⟩)
  obtain rfl := Option.some.inj (hp'.symm.trans hp)
  rcases hans with hans | hans
  · exact absurd hans (by simp [Call.aborted, reuseAlert])
  obtain ⟨e, he, hreuse⟩ := hans rfl
  obtain ⟨pr'', hp'', htr⟩ := h.trace he
  obtain rfl := Option.some.inj (hp''.symm.trans hp)
  rw [hc] at htr
  have hrot : RotationEvent fk raw pr''.began e := htr.2 e he
  obtain ⟨c, db, hi, hbegan, ha, hlater⟩ := h.committed hp he
  cases e with
  | reuseDetected raw' old family tokens sessions eventId checkedAt now startedAt =>
    obtain ⟨rfl, hall⟩ := hrot
    obtain ⟨hpres, _⟩ := ha
    have hold : old.familyId = f :=
      hpres.family_eq ((grows_applyAll _ db).trans hlater) h.holds.identity ht
    have hfid : family.id = f := (lookup_key hpres.family).trans hold
    constructor
    · have hbar : (applyAll (Event.writes pf (.reuseDetected raw' old family tokens sessions eventId
          checkedAt now startedAt)) db).Barred f :=
        Db.barred_of_mem (show Write.compromiseFamilies [family.id] startedAt ∈ _ by simp [Event.writes])
          (by simp [hfid]) (hold ▸ mem_keys_of_lookup hpres.family)
      exact hbar.grows hlater
    · intro row hrow hid session hs hu hd
      obtain ⟨family', hf', hgf⟩ := ((grows_applyAll _ db).trans hlater).families _ _ hpres.family
      have heq : family' = row := eq_of_key_eq h.holds.identity.families (lookup_mem hf') hrow
        ((lookup_key hf').trans (hold.trans hid.symm))
      apply h.sessionRevoked_of_event hp he
      · exact (show Write.revokeSessions sessions startedAt ∈ _ by simp [Event.writes])
      · apply hall session hs
        · rw [hu, ← heq, hgf.userId]
        · rw [hd, ← heq, hgf.deviceId]
      · exact key_mem_keys hs
  | _ => exact absurd hreuse (by simp [Event.isReuse])

theorem SoundRun.ended_by_device (h : SoundRun pf fk w₀ s) {user device : Uuid} {reason : String}
    (hp : s.procs p = some pr) (hc : pr.call = .revokeDevice user device reason)
    (hcommitted : eventsOf s.log p ≠ []) :
    (∀ f ∈ pr.began.db.refreshTokenFamilies, f.deviceId = device → s.db.Barred f.id) ∧
      ∀ session ∈ pr.began.db.sessions, session.deviceId = device →
        s.db.SessionRevoked session.id := by
  obtain ⟨e, he⟩ := List.exists_mem_of_ne_nil _ hcommitted
  obtain ⟨pr', hp', ht⟩ := h.trace he
  obtain rfl := Option.some.inj (hp'.symm.trans hp)
  rw [hc] at ht
  have hev : RevokeDeviceEvent user device pr'.began e := ht e he
  cases e with
  | deviceRevoked u d reason' deviceName sessions families tokens eventId auditId correlationId now =>
    obtain ⟨_, _, hsess, hfam⟩ := hev
    constructor
    · intro f hf hd
      have hw : Write.compromiseFamilies families now ∈ Event.writes pf (.deviceRevoked u d reason'
          deviceName sessions families tokens eventId auditId correlationId now) := by
        simp [Event.writes]
      exact h.barred_of_event hp he hw (hfam f hf hd) hf
    · intro session hs hd
      have hw : Write.revokeSessions sessions now ∈ Event.writes pf (.deviceRevoked u d reason'
          deviceName sessions families tokens eventId auditId correlationId now) := by
        simp [Event.writes]
      exact h.sessionRevoked_of_event hp he hw (hsess session hs hd) (key_mem_keys hs)
  | _ => exact absurd hev id

theorem SoundRun.ended_by_user (h : SoundRun pf fk w₀ s) {user : Uuid} {v : Value}
    (hp : s.procs p = some pr) (hc : pr.call = .revokeAllSessionsForUser user)
    (hr : pr.Finished (.ok v)) :
    (∀ f ∈ pr.began.db.refreshTokenFamilies, f.userId = user → s.db.Barred f.id) ∧
      ∀ session ∈ pr.began.db.sessions, session.userId = user →
        s.db.SessionRevoked session.id := by
  obtain ⟨pr', hp', _, hans⟩ := h.returned
    (ReadCommitted.Server.returned_iff.mpr ⟨pr, hp, hc, hr⟩)
  obtain rfl := Option.some.inj (hp'.symm.trans hp)
  rcases hans with hans | hans
  · exact absurd hans (by simp [Call.aborted])
  obtain ⟨sessions, families, tokens, t₁, t₂, t₃, hes⟩ := hans v rfl
  have hsess : Event.userSessionsRevoked user sessions t₁ ∈ eventsOf s.log p := by simp [hes]
  have hfam : Event.userFamiliesCompromised user families t₂ ∈ eventsOf s.log p := by simp [hes]
  obtain ⟨pr'', hp'', ht⟩ := h.trace hsess
  obtain rfl := Option.some.inj (hp''.symm.trans hp)
  rw [hc] at ht
  obtain ⟨_, hs'⟩ : RevokeAllEvent user pr''.began _ := ht _ hsess
  obtain ⟨_, hf'⟩ : RevokeAllEvent user pr''.began _ := ht _ hfam
  constructor
  · intro f hf hu
    have hw : Write.compromiseFamilies families t₂ ∈
        (Event.userFamiliesCompromised user families t₂).writes pf := by simp [Event.writes]
    exact h.barred_of_event hp hfam hw (hf' f hf hu) hf
  · intro session hs hu
    have hw : Write.revokeSessions sessions t₁ ∈
        (Event.userSessionsRevoked user sessions t₁).writes pf := by simp [Event.writes]
    exact h.sessionRevoked_of_event hp hsess hw (hs' session hs hu) (key_mem_keys hs)

end

/-- Whatever else is in flight when they end, no token of the families is ever
refreshed again and no access token of the sessions is ever accepted again. -/
theorem revocation_final (h : Reachable pf fk s) {F S : Uuid → Prop} (he : Ended pf s F S) :
    FamiliesClosed pf fk s F ∧ SessionsClosed pf fk s S := by
  obtain ⟨w₀, _, hs⟩ := h.sound
  have hclosed : ∀ {F S : Uuid → Prop}, (∀ f, F f → s.db.Barred f) →
      (∀ i, S i → s.db.SessionRevoked i) → FamiliesClosed pf fk s F ∧ SessionsClosed pf fk s S :=
    fun hF hS => ⟨hs.familiesClosed_of_barred hF, hs.sessionsClosed_of_revoked hS⟩
  cases he with
  | reuse hp hc hr =>
    apply hclosed
    · exact fun f ht => (hs.ended_by_reuse hp hc hr ht).1
    · intro _ hx
      obtain ⟨f, hf, ht, session, hsession, rfl, hu, hd⟩ := hx
      exact (hs.ended_by_reuse hp hc hr ht).2 f hf rfl session hsession hu hd
  | device hp hc hcommitted =>
    obtain ⟨hfam, hsess⟩ := hs.ended_by_device hp hc hcommitted
    apply hclosed
    · intro _ hx
      obtain ⟨f, hf, rfl, hd⟩ := hx
      exact hfam f hf hd
    · intro _ hx
      obtain ⟨session, hsession, rfl, hd⟩ := hx
      exact hsess session hsession hd
  | user hp hc hr =>
    obtain ⟨hfam, hsess⟩ := hs.ended_by_user hp hc hr
    apply hclosed
    · intro _ hx
      obtain ⟨f, hf, rfl, hu⟩ := hx
      exact hfam f hf hu
    · intro _ hx
      obtain ⟨session, hsession, rfl, hu⟩ := hx
      exact hsess session hsession hu

end

def sampleReuse : List Choice :=
  sampleLogin ++ sampleRotation 1 12 14 15 ++ sampleIssue 1 16 17 ++ .tick 10001 ::
    sampleReport 2 12 18

theorem sampleReuse_final :
    let s := serve samplePlatform .atCommit sampleStart sampleReuse
    FamiliesClosed samplePlatform .atCommit s (· = 11) ∧
      SessionsClosed samplePlatform .atCommit s (· = 10) := by
  intro s
  have hr : s.Returned 2 (.rotateRefreshToken 12) (.error reuseAlert) := by decide
  have hbegan : (s.procs 2).map (fun pr => pr.began.db.sessions) =
      some [newSession 10 1 3 0] := by decide
  have hfam : ∃ f ∈ s.db.refreshTokenFamilies, f.id = 11 ∧ f.userId = 1 ∧ f.deviceId = 3 := by decide
  have htok : s.db.TokenOf samplePlatform 12 11 := by decide
  obtain ⟨pr, hp, hc, hfin⟩ := ReadCommitted.Server.returned_iff.mp hr
  obtain ⟨hF, hS⟩ := revocation_final (sampleStart_reachable samplePlatform .atCommit sampleReuse)
    (.reuse hp hc hfin)
  constructor
  · intro sched q raw v hq hnew _ heq
    obtain rfl := heq
    exact hF sched q raw v hq hnew 11 htok
  · intro sched now header payload hv hi
    obtain ⟨f, hf, hid, hu, hd⟩ := hfam
    have hs : pr.began.db.sessions = [newSession 10 1 3 0] := by
      rw [hp] at hbegan
      exact Option.some.inj hbegan
    refine hS sched now header payload hv ⟨f, hf, hid ▸ htok, newSession 10 1 3 0, ?_, hi.symm, ?_, ?_⟩
    · rw [hs]
      exact List.mem_singleton_self _
    · exact hu.symm
    · exact hd.symm

end GuffSuff
