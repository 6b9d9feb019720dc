import GuffSuff.Revocation
import GuffSuff.TokenFamilies

/-! The lifetime of a login is fixed when it is made: no rotation moves the
expiry of a family, and no refresh that is made after it succeeds. -/

namespace GuffSuff

open ReadCommitted SessionService
open ReadCommitted.Server (eventsOf)

/-- A row of the family and one of the session that a login has stored at `now`. -/
structure Db.LoggedIn (db : Db) (session family : Uuid) (now : Nat) : Prop where
  session : ∃ s ∈ db.sessions, s.id = session ∧ s.expiresAt = now + refreshTokenTtlMs
  family : ∃ f ∈ db.refreshTokenFamilies, f.id = family ∧ f.createdAt = now

structure Db.Lifetimes (es : List Event) (db : Db) : Prop where
  token : ∀ t ∈ db.refreshTokens, ∃ f ∈ db.refreshTokenFamilies,
    f.id = t.familyId ∧ t.expiresAt = f.createdAt + refreshTokenTtlMs
  family : ∀ f ∈ db.refreshTokenFamilies, ∃ raw user device session token,
    Event.sessionCreated raw user device session f.id token f.createdAt ∈ es
  login : ∀ raw user device session family token now,
    Event.sessionCreated raw user device session family token now ∈ es → db.LoggedIn session family now

/-- What a statement must make sure of to keep the expiry of each token. -/
def Write.Expires (db : Db) : Write → Prop
  | insertRefreshToken t => ∃ f ∈ db.refreshTokenFamilies,
      f.id = t.familyId ∧ t.expiresAt = f.createdAt + refreshTokenTtlMs
  | _ => True

section
variable {pf : Platform} {fk : FkCheck} {db : Db} {es : List Event} {w : Write}

theorem Write.families_kept (w : Write) {f : RefreshTokenFamily} (hf : f ∈ db.refreshTokenFamilies) :
    ∃ f' ∈ (w.apply db).refreshTokenFamilies, f'.id = f.id ∧ f'.createdAt = f.createdAt := by
  cases w with
  | insertRefreshTokenFamily g => exact ⟨f, List.mem_append_left _ hf, rfl, rfl⟩
  | compromiseFamilies ids now =>
    refine ⟨_, mem_updateRows.mpr ⟨f, hf, rfl⟩, ?_⟩
    split <;> exact ⟨rfl, rfl⟩
  | _ => exact ⟨f, hf, rfl, rfl⟩

theorem Write.sessions_kept (w : Write) {s : Session} (hs : s ∈ db.sessions) :
    ∃ s' ∈ (w.apply db).sessions, s'.id = s.id ∧ s'.expiresAt = s.expiresAt := by
  cases w with
  | insertSession g => exact ⟨s, List.mem_append_left _ hs, rfl, rfl⟩
  | revokeSessions ids now =>
    refine ⟨_, mem_updateRows.mpr ⟨s, hs, rfl⟩, ?_⟩
    split <;> exact ⟨rfl, rfl⟩
  | _ => exact ⟨s, hs, rfl, rfl⟩

theorem Write.families_from (w : Write) {f' : RefreshTokenFamily}
    (hf' : f' ∈ (w.apply db).refreshTokenFamilies) :
    (∃ f ∈ db.refreshTokenFamilies, f'.id = f.id ∧ f'.createdAt = f.createdAt) ∨
      w = .insertRefreshTokenFamily f' := by
  cases w with
  | insertRefreshTokenFamily g =>
    rcases List.mem_append.mp hf' with hf' | hf'
    · exact .inl ⟨f', hf', rfl, rfl⟩
    · exact .inr (by rw [List.mem_singleton.mp hf'])
  | compromiseFamilies ids now =>
    obtain ⟨f, hf, rfl⟩ := mem_updateRows.mp hf'
    refine .inl ⟨f, hf, ?_⟩
    split <;> exact ⟨rfl, rfl⟩
  | _ => exact .inl ⟨f', hf', rfl, rfl⟩

theorem Write.tokens_from (w : Write) {t' : RefreshToken} (ht' : t' ∈ (w.apply db).refreshTokens) :
    (∃ t ∈ db.refreshTokens, t'.familyId = t.familyId ∧ t'.expiresAt = t.expiresAt) ∨
      w = .insertRefreshToken t' := by
  cases w with
  | insertRefreshToken u =>
    rcases List.mem_append.mp ht' with ht' | ht'
    · exact .inl ⟨t', ht', rfl, rfl⟩
    · exact .inr (by rw [List.mem_singleton.mp ht'])
  | revokeRefreshTokens ids now =>
    obtain ⟨t, ht, rfl⟩ := mem_updateRows.mp ht'
    refine .inl ⟨t, ht, ?_⟩
    split <;> exact ⟨rfl, rfl⟩
  | rotateRefreshToken id replacement now =>
    obtain ⟨t, ht, rfl⟩ := mem_updateRows.mp ht'
    refine .inl ⟨t, ht, ?_⟩
    split <;> exact ⟨rfl, rfl⟩
  | _ => exact .inl ⟨t', ht', rfl, rfl⟩

theorem Db.LoggedIn.apply {session family : Uuid} {now : Nat} (h : db.LoggedIn session family now)
    (w : Write) : (w.apply db).LoggedIn session family now := by
  obtain ⟨s, hs, rfl, he⟩ := h.session
  obtain ⟨f, hf, rfl, hc⟩ := h.family
  obtain ⟨s', hs', hsid, hse⟩ := w.sessions_kept hs
  obtain ⟨f', hf', hfid, hfc⟩ := w.families_kept hf
  exact ⟨⟨s', hs', hsid, hse.trans he⟩, ⟨f', hf', hfid, hfc.trans hc⟩⟩

theorem Db.LoggedIn.applyEach {session family : Uuid} {now : Nat} (h : db.LoggedIn session family now)
    (ws : List Write) : (applyAll ws db).LoggedIn session family now := by
  induction ws generalizing db with
  | nil => exact h
  | cons v ws ih => exact ih (h.apply v)

theorem Db.Lifetimes.apply (h : db.Lifetimes es) (hw : w.Expires db)
    (hnone : ∀ f, w ≠ .insertRefreshTokenFamily f) : (w.apply db).Lifetimes es where
  token := by
    intro t' ht'
    have hold : ∃ f ∈ db.refreshTokenFamilies,
        f.id = t'.familyId ∧ t'.expiresAt = f.createdAt + refreshTokenTtlMs := by
      rcases w.tokens_from ht' with ⟨t, ht, hfam, hexp⟩ | rfl
      · obtain ⟨f, hf, hid, he⟩ := h.token t ht
        exact ⟨f, hf, hid.trans hfam.symm, hexp.trans he⟩
      · exact hw
    obtain ⟨f, hf, hid, he⟩ := hold
    obtain ⟨f', hf', hfid, hfc⟩ := w.families_kept hf
    exact ⟨f', hf', hfid.trans hid, by rw [he, hfc]⟩
  family := by
    intro f' hf'
    rcases w.families_from hf' with ⟨f, hf, hid, hc⟩ | heq
    · rw [hid, hc]
      exact h.family f hf
    · exact absurd heq (hnone f')
  login raw user device session family token now he := (h.login raw user device session family token now he).apply w

theorem Db.Lifetimes.applyEach (h : db.Lifetimes es) {ws : List Write}
    (hws : ∀ v ∈ ws, (∀ t, v ≠ .insertRefreshToken t) ∧ ∀ f, v ≠ .insertRefreshTokenFamily f) :
    (applyAll ws db).Lifetimes es := by
  induction ws generalizing db with
  | nil => exact h
  | cons v ws ih =>
    obtain ⟨htok, hfam⟩ := hws v List.mem_cons_self
    have hexp : v.Expires db := by
      cases v with
      | insertRefreshToken t => exact absurd rfl (htok t)
      | _ => trivial
    exact ih (h.apply hexp hfam) fun u hu => hws u (List.mem_cons_of_mem v hu)

theorem Db.Lifetimes.snoc (h : db.Lifetimes es) {e : Event}
    (he : ∀ raw user device session family token now,
      e ≠ .sessionCreated raw user device session family token now) : db.Lifetimes (es ++ [e]) where
  token := h.token
  family := by
    intro f hf
    obtain ⟨raw, user, device, session, token, hmem⟩ := h.family f hf
    exact ⟨raw, user, device, session, token, List.mem_append_left _ hmem⟩
  login := by
    intro raw user device session family token now hmem
    rcases List.mem_append.mp hmem with hmem | hmem
    · exact h.login raw user device session family token now hmem
    · exact absurd (List.mem_singleton.mp hmem).symm (he _ _ _ _ _ _ _)

theorem Db.Lifetimes.created (h : db.Lifetimes es) (raw : RawToken)
    (user device session family token : Uuid) (now : Nat) :
    (applyAll (Event.writes pf (.sessionCreated raw user device session family token now)) db).Lifetimes
      (es ++ [.sessionCreated raw user device session family token now]) where
  token := by
    intro t ht
    rcases List.mem_append.mp ht with ht | ht
    · obtain ⟨f, hf, hid, he⟩ := h.token t ht
      exact ⟨f, List.mem_append_left _ hf, hid, he⟩
    · obtain rfl := List.mem_singleton.mp ht
      exact ⟨_, List.mem_append_right _ (List.mem_singleton_self _), rfl, rfl⟩
  family := by
    intro f hf
    rcases List.mem_append.mp hf with hf | hf
    · obtain ⟨raw', user', device', session', token', hmem⟩ := h.family f hf
      exact ⟨raw', user', device', session', token', List.mem_append_left _ hmem⟩
    · obtain rfl := List.mem_singleton.mp hf
      exact ⟨raw, user, device, session, token, List.mem_append_right _ (List.mem_singleton_self _)⟩
  login := by
    intro raw' user' device' session' family' token' now' hmem
    rcases List.mem_append.mp hmem with hmem | hmem
    · exact (h.login _ _ _ _ _ _ _ hmem).applyEach _
    · obtain ⟨rfl, rfl, rfl, rfl, rfl, rfl, rfl⟩ := Event.sessionCreated.inj (List.mem_singleton.mp hmem)
      exact ⟨⟨_, List.mem_append_right _ (List.mem_singleton_self _), rfl, rfl⟩,
        ⟨_, List.mem_append_right _ (List.mem_singleton_self _), rfl, rfl⟩⟩

/-- The step lemma: a rotation hands the expiry of the old token on. -/
theorem Db.Lifetimes.event (h : db.Lifetimes es) {clock : Nat} {e : Event} (ha : e.Allowed pf clock db) :
    (applyAll (e.writes pf) db).Lifetimes (es ++ [e]) := by
  cases e with
  | sessionCreated raw user device session family token now => exact h.created ..
  | tokenRotated raw newRaw old replacement checkedAt now =>
    obtain ⟨⟨family, hp⟩, _⟩ := ha
    obtain ⟨f, hf, hid, hexp⟩ := h.token old (lookup_mem hp.token)
    have hrotated := h.apply (w := .rotateRefreshToken old.id replacement now) trivial (by simp)
    have hchild := hrotated.apply
      (w := .insertRefreshToken (childToken old replacement (pf.hashRefreshToken newRaw) now))
      ⟨f, hf, hid, hexp⟩ (by simp)
    exact hchild.snoc (by simp)
  | envelopeSubmitted envelope record recipients =>
    refine Db.Lifetimes.snoc (h.applyEach fun v hv => ?_) (by simp)
    simp only [Event.writes, List.mem_cons, List.mem_map] at hv
    rcases hv with rfl | rfl | ⟨r, _, rfl⟩ <;> simp
  | _ =>
    refine Db.Lifetimes.snoc (h.applyEach ?_) (by simp)
    simp [Event.writes]

theorem SoundRun.lifetimes {w₀ : World Db} {s : Server} (h : SoundRun pf fk w₀ s)
    (h₀ : w₀.db.Initial) : s.db.Lifetimes (s.log.map Prod.snd) := by
  refine h.path.keeps_log (P := fun es db => db.Lifetimes es) ?_ h₀.holds ?_
  · intro es c db e db' _ hp hm
    obtain ⟨ha, rfl⟩ := hm
    exact hp.event ha
  · constructor <;> simp [h₀.tokens, h₀.families]

end

/-- The time at which a call looked at the expiry of the token it was asked for. -/
def Event.checkedAt : Event → Option Nat
  | tokenRotated _ _ _ _ checkedAt _ => some checkedAt
  | graceAnswered _ _ checkedAt _ => some checkedAt
  | reuseDetected _ _ _ _ _ _ checkedAt _ _ => some checkedAt
  | _ => none

def Server.CreatedWith (s : Server) (family session : Uuid) : Prop :=
  ∃ p raw user device token now, (p, Event.sessionCreated raw user device session family token now) ∈ s.log

section
variable {pf : Platform} {fk : FkCheck} {s : Server}

theorem SoundRun.createdWith {w₀ : World Db} (h : SoundRun pf fk w₀ s) (h₀ : w₀.db.Initial)
    {f : RefreshTokenFamily} (hf : f ∈ s.db.refreshTokenFamilies) {session : Uuid}
    (hs : s.CreatedWith f.id session) : s.db.LoggedIn session f.id f.createdAt := by
  obtain ⟨p, raw, user, device, token, now, hlog⟩ := hs
  have hmem := List.mem_map_of_mem (f := Prod.snd) hlog
  have hin := (h.lifetimes h₀).login raw user device session f.id token now hmem
  obtain ⟨f', hf', hid, hc⟩ := hin.family
  obtain rfl := eq_of_key_eq h.holds.identity.families hf' hf hid
  rw [hc]
  exact hin

/-- The row that a refresh answers for had not expired when the call looked at the clock. -/
theorem SessionService.RotationEvent.checked {raw : RawToken} {began : World Db} {e : Event}
    (h : RotationEvent fk raw began e) {old : RefreshToken} {refreshToken : RawToken}
    (he : e.refreshed = some (old, refreshToken)) {clock : Nat} {db : Db} (ha : e.Allowed pf clock db) :
    ∃ checkedAt, e.checkedAt = some checkedAt ∧ began.clock ≤ checkedAt ∧ checkedAt ≤ old.expiresAt ∧
      lookup db.refreshTokens old.id = some old := by
  cases e with
  | tokenRotated raw' newRaw old' replacement checkedAt now =>
    obtain ⟨rfl, _⟩ := Prod.mk.inj (Option.some.inj he)
    obtain ⟨⟨family, hp⟩, _⟩ := ha
    exact ⟨checkedAt, rfl, h.2.2, hp.unexpired, hp.token⟩
  | graceAnswered raw' old' checkedAt now =>
    obtain ⟨rfl, _⟩ := Prod.mk.inj (Option.some.inj he)
    obtain ⟨⟨family, hp⟩, _⟩ := ha
    exact ⟨checkedAt, rfl, h.2, hp.unexpired, hp.token⟩
  | _ => exact absurd he (by simp [Event.refreshed])

/-- Process `p` has checked an expiry of the family at a time after it began, and in time. -/
def Server.CheckedInTime (s : Server) (p : Nat) (family : Uuid) (latest : Nat) : Prop :=
  ∃ pr e checkedAt, s.procs p = some pr ∧ e ∈ eventsOf s.log p ∧ e.checkedAt = some checkedAt ∧
    pr.began.clock ≤ checkedAt ∧ checkedAt ≤ latest ∧
    ∃ old, e.presented = some old ∧ old.familyId = family

theorem SoundRun.refreshed_in_time {w₀ : World Db} (h : SoundRun pf fk w₀ s) (h₀ : w₀.db.Initial)
    {p : Nat} {raw : RawToken} {v : Value} (hr : s.Returned p (.rotateRefreshToken raw) (.ok v)) :
    ∃ pair, v = .tokens pair ∧ ∃ f ∈ s.db.refreshTokenFamilies, f.id = pair.familyId ∧
      s.CheckedInTime p f.id (f.createdAt + refreshTokenTtlMs) := by
  obtain ⟨pr, hp, hc, hans⟩ := h.returned hr
  rcases hans with hans | ⟨e, old, refreshToken, family, claimed, session, signedAt, hes, he, hfid,
    _, _, _, hv⟩
  · exact absurd hans (by simp [Call.aborted])
  have hmem : e ∈ eventsOf s.log p := by simp [hes]
  obtain ⟨pr', hp', ht⟩ := h.trace hmem
  obtain rfl := Option.some.inj (hp'.symm.trans hp)
  rw [hc] at ht
  obtain ⟨c, db, _, _, ha, hgrows⟩ := h.committed hp hmem
  have hrot : RotationEvent fk raw pr'.began e := ht.2 e hmem
  obtain ⟨checkedAt, hat, hclock, hunexpired, hrow⟩ := hrot.checked he ha
  obtain ⟨t, ht, hgt⟩ := ((grows_applyAll _ db).trans hgrows).tokens _ _ hrow
  obtain ⟨f, hf, hid, hexp⟩ := (h.lifetimes h₀).token t (lookup_mem ht)
  have hfold : f.id = old.familyId := hid.trans hgt.familyId
  refine ⟨_, hv, f, hf, hfold.trans hfid.symm, pr', e, checkedAt, hp, hmem, hat, hclock, ?_, old, ?_,
    hfold.symm⟩
  · rw [← hexp, hgt.expiresAt]
    exact hunexpired
  · cases e with
    | tokenRotated | graceAnswered => exact congrArg (Option.map Prod.fst) he
    | _ => exact absurd he (by simp [Event.refreshed])

/-- Every token of a family expires 30 days after the login that made it, with
its session, and a refresh that checks the expiry later does not succeed. -/
theorem absolute_lifetime (h : Reachable pf fk s) :
    (∀ f ∈ s.db.refreshTokenFamilies,
      (∀ t ∈ s.db.refreshTokens, t.familyId = f.id → t.expiresAt = f.createdAt + refreshTokenTtlMs) ∧
      (∃ session ∈ s.db.sessions, s.CreatedWith f.id session.id) ∧
      ∀ session ∈ s.db.sessions, s.CreatedWith f.id session.id →
        session.expiresAt = f.createdAt + refreshTokenTtlMs) ∧
    ∀ p raw v, s.Returned p (.rotateRefreshToken raw) (.ok v) →
      ∃ pair, v = .tokens pair ∧ ∃ f ∈ s.db.refreshTokenFamilies, f.id = pair.familyId ∧
        s.CheckedInTime p f.id (f.createdAt + refreshTokenTtlMs) := by
  obtain ⟨w₀, h₀, hs⟩ := h.sound
  have hlife := hs.lifetimes h₀
  refine ⟨fun f hf => ⟨?_, ?_, ?_⟩, fun p raw v hr => hs.refreshed_in_time h₀ hr⟩
  · intro t ht hfam
    obtain ⟨f', hf', hid, hexp⟩ := hlife.token t ht
    obtain rfl := eq_of_key_eq hs.holds.identity.families hf' hf (hid.trans hfam)
    exact hexp
  · obtain ⟨raw, user, device, session, token, hmem⟩ := hlife.family f hf
    obtain ⟨⟨p, e⟩, hlog, rfl⟩ := List.mem_map.mp hmem
    have hwith : s.CreatedWith f.id session := ⟨p, raw, user, device, token, f.createdAt, hlog⟩
    obtain ⟨row, hrow, rfl, _⟩ := (hs.createdWith h₀ hf hwith).session
    exact ⟨row, hrow, hwith⟩
  · intro session hsession hwith
    obtain ⟨row, hrow, hid, hexp⟩ := (hs.createdWith h₀ hf hwith).session
    obtain rfl := eq_of_key_eq hs.holds.identity.sessions hrow hsession hid
    exact hexp

end

/-- A login at 0, refreshed at once: the new token expires with the old one. -/
theorem sampleRefreshes_lifetime :
    let s := serve samplePlatform .atCommit sampleStart sampleRefreshes
    s.db.refreshTokens.map RefreshToken.expiresAt = [2592000000, 2592000000, 2592000000] ∧
      ∀ f ∈ s.db.refreshTokenFamilies, ∀ t ∈ s.db.refreshTokens, t.familyId = f.id →
        t.expiresAt = f.createdAt + refreshTokenTtlMs := by
  intro s
  have h := absolute_lifetime (sampleStart_reachable samplePlatform .atCommit sampleRefreshes)
  exact ⟨by decide, fun f hf => (h.1 f hf).1⟩

end GuffSuff
