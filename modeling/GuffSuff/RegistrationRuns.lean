import GuffSuff.ReadCommitted.Runs
import GuffSuff.AccountService

/-! Runs of the registration: what its statements do to the tables, and what each
call records on the way. -/

namespace GuffSuff

open ReadCommitted

namespace Registration

/-- What the lock on a challenge and the entry of the unique index protect. -/
inductive Cell where
  | otpChallenge (row : Option OtpChallenge)
  | blindIndex (rows : List PhoneIdentity)
  | other

namespace Db

def cell : Key → Db → Cell
  | .otpChallenge id, db => .otpChallenge (lookup db.otpChallenges id)
  | .blindIndex digest, db =>
    .blindIndex (db.phoneIdentities.filter fun r => r.phoneBlindIndex = digest)
  | _, _ => .other

def blindIndexes (db : Db) : List Digest := db.phoneIdentities.map PhoneIdentity.phoneBlindIndex

structure Holds (db : Db) : Prop where
  challenges : (keys db.otpChallenges).Nodup
  indexes : db.blindIndexes.Nodup

/-- Two databases with the same rows outside the tables of the session service. -/
def SameIdentities (db db' : Db) : Prop :=
  ∃ sessions refreshTokenFamilies refreshTokens,
    db' = { db with sessions, refreshTokenFamilies, refreshTokens }

end Db

namespace Event

def apply : Event → Db → Db
  | challengeRequested r _, db => db.insertOtpChallenge r
  | deliveryRecorded r, db => db.insertOtpDeliveryAttempt r
  | attemptCounted id isMatch, db => db.countAttempt id isMatch
  | accountRegistered _ _ a, db => db.insertAccount a
  | _, db => db

/-- What an event does to the tables; one of the session service writes its own only. -/
def Effect (db db' : Db) : Event → Prop
  | session _ => db.SameIdentities db'
  | e => db' = e.apply db

def touches : Event → List Key
  | challengeRequested r _ => [.otpChallenge r.id]
  | attemptCounted id _ => [.otpChallenge id]
  | accountRegistered _ _ a => [.blindIndex a.phoneIdentity.phoneBlindIndex]
  | _ => []

end Event

/-- The phone number, the challenge and the rows of a registration agree. -/
structure RegisteredFrom (pf : Platform) (challenge : OtpChallenge) (phoneNumber : String)
    (a : Account) : Prop where
  verified : challenge.isVerified = true
  index : a.phoneIdentity.phoneBlindIndex = challenge.phoneBlindIndex
  user : a.phoneIdentity.userId = a.user.id
  encrypted : ∃ iv normalized, iv.length = PhoneNumberService.ivLength ∧
    PhoneNumberService.normalizeToE164 pf phoneNumber "NP" = .ok normalized ∧
    a.phoneIdentity.phoneEncrypted = PhoneNumberService.encryptPhoneNumber pf iv normalized

/-- What the code has read or computed when the event happens. -/
def Event.Allowed (pf : Platform) (db : Db) : Event → Prop
  | challengeRequested r rawOtp => r.id ∉ keys db.otpChallenges ∧
      ∃ index cooldown now, r = OtpService.newChallenge pf r.id index rawOtp cooldown now
  | attemptCounted id _ => id ∈ keys db.otpChallenges
  | challengeSelected id challenge _ => challenge = lookup db.otpChallenges id
  | accountRegistered challengeId phoneNumber a =>
    a.phoneIdentity.phoneBlindIndex ∉ db.blindIndexes ∧
      ∃ challenge, lookup db.otpChallenges challengeId = some challenge ∧
        RegisteredFrom pf challenge phoneNumber a
  | _ => True

section
variable {db db' : Db} {e : Event}

theorem Db.SameIdentities.refl (db : Db) : db.SameIdentities db := ⟨_, _, _, rfl⟩

theorem Event.effect_of_apply (h : db' = e.apply db) : e.Effect db db' := by
  cases e with
  | session g => exact h ▸ Db.SameIdentities.refl db
  | _ => exact h

theorem Db.cell_sameIdentities (h : db.SameIdentities db') (k : Key) : db'.cell k = db.cell k := by
  obtain ⟨_, _, _, rfl⟩ := h
  cases k <;> rfl

theorem OtpChallenge.key_count (isMatch : Bool) (r : OtpChallenge) :
    (Keyed.key (r.count isMatch) : Uuid) = Keyed.key r := rfl

theorem Event.cell_apply {k : Key} (h : k ∉ e.touches) (db : Db) : (e.apply db).cell k = db.cell k := by
  cases e with
  | challengeRequested r rawOtp =>
    cases k with
    | otpChallenge id =>
      have hne : id ≠ r.id := by simpa [Event.touches] using h
      exact congrArg Cell.otpChallenge (lookup_insert_of_ne (by simpa using hne))
    | _ => rfl
  | attemptCounted other isMatch =>
    cases k with
    | otpChallenge id =>
      have hne : id ∉ [other] := by simpa [Event.touches] using h
      exact congrArg Cell.otpChallenge
        (lookup_updateRows_of_not_mem (OtpChallenge.key_count isMatch) hne)
    | _ => rfl
  | accountRegistered challengeId phoneNumber a =>
    cases k with
    | blindIndex digest =>
      have hne : a.phoneIdentity.phoneBlindIndex ≠ digest := by
        simpa [Event.touches, eq_comm] using h
      simp [Event.apply, Db.cell, Db.insertAccount, Db.insertAuditEvent, Db.insertSecurityEvent,
        Db.insertPrivacySettings, Db.insertDevice, Db.insertUsername, Db.insertUserProfile,
        Db.insertPhoneIdentity, Db.insertUser, List.filter_append, hne]
    | _ => rfl
  | _ => cases k <;> rfl

theorem Event.cell_effect {k : Key} (h : k ∉ e.touches) (heff : e.Effect db db') :
    db'.cell k = db.cell k := by
  cases e with
  | session g => exact Db.cell_sameIdentities heff k
  | _ =>
    rw [show db' = _ from heff]
    exact Event.cell_apply h db

theorem Db.blindIndexes_insertAccount (a : Account) (db : Db) :
    (db.insertAccount a).blindIndexes = db.blindIndexes ++ [a.phoneIdentity.phoneBlindIndex] :=
  List.map_append

theorem Db.Holds.event {pf : Platform} (h : db.Holds) (ha : e.Allowed pf db)
    (heff : e.Effect db db') : db'.Holds := by
  cases e with
  | challengeRequested r rawOtp =>
    obtain rfl : db' = db.insertOtpChallenge r := heff
    refine { h with challenges := ?_ }
    simp only [Db.insertOtpChallenge, keys_append, keys_singleton]
    exact h.challenges.append (List.nodup_singleton _) (by simpa using ha.1)
  | attemptCounted id isMatch =>
    obtain rfl : db' = db.countAttempt id isMatch := heff
    refine { h with challenges := ?_ }
    rw [Db.countAttempt, keys_updateRows _ _ (OtpChallenge.key_count isMatch)]
    exact h.challenges
  | accountRegistered challengeId phoneNumber a =>
    obtain rfl : db' = db.insertAccount a := heff
    refine { h with indexes := ?_ }
    rw [Db.blindIndexes_insertAccount]
    exact h.indexes.append (List.nodup_singleton _) (by simpa using ha.1)
  | session g =>
    obtain ⟨_, _, _, rfl⟩ := heff
    exact { h with }
  | _ =>
    obtain rfl := show db' = _ from heff
    exact { h with }

end

/-- Registration as a specification of its single statements. -/
def registration (pf : Platform) : Spec Db Key Uuid Event Cell where
  moves _ db e db' := e.Allowed pf db ∧ e.Effect db db'
  holds _ db := db.Holds
  cell := Db.cell
  has _ _ := False
  holds_move := fun h hm => h.event hm.1 hm.2
  holds_tick := fun h _ => h

/-- What later statements may change of a challenge. -/
structure OtpChallenge.Evolves (r r' : OtpChallenge) : Prop where
  phoneBlindIndex : r'.phoneBlindIndex = r.phoneBlindIndex
  verifierHash : r'.verifierHash = r.verifierHash
  maxAttempts : r'.maxAttempts = r.maxAttempts
  expiresAt : r'.expiresAt = r.expiresAt
  isVerified : r.isVerified = true → r'.isVerified = true

theorem OtpChallenge.Evolves.refl (r : OtpChallenge) : r.Evolves r :=
  ⟨rfl, rfl, rfl, rfl, fun h => h⟩

theorem OtpChallenge.evolves_count (isMatch : Bool) (r : OtpChallenge) : r.Evolves (r.count isMatch) :=
  ⟨rfl, rfl, rfl, rfl, fun h => by simp [OtpChallenge.count, h]⟩

theorem OtpChallenge.Evolves.trans {a b c : OtpChallenge} (h : a.Evolves b) (h' : b.Evolves c) :
    a.Evolves c :=
  ⟨h'.phoneBlindIndex.trans h.phoneBlindIndex, h'.verifierHash.trans h.verifierHash,
    h'.maxAttempts.trans h.maxAttempts, h'.expiresAt.trans h.expiresAt,
    fun hr => h'.isVerified (h.isVerified hr)⟩

def Db.ChallengesEvolve (db db' : Db) : Prop :=
  Extends OtpChallenge.Evolves db.otpChallenges db'.otpChallenges

theorem Event.challenges_evolve {db db' : Db} {e : Event} (heff : e.Effect db db') :
    db.ChallengesEvolve db' := by
  cases e with
  | challengeRequested r rawOtp =>
    obtain rfl : db' = db.insertOtpChallenge r := heff
    exact Extends.append OtpChallenge.Evolves.refl _ _
  | attemptCounted id isMatch =>
    obtain rfl : db' = db.countAttempt id isMatch := heff
    exact Extends.updateRows OtpChallenge.Evolves.refl (OtpChallenge.evolves_count isMatch)
      (OtpChallenge.key_count isMatch) _ _
  | session g =>
    obtain ⟨_, _, _, rfl⟩ := heff
    exact Extends.refl OtpChallenge.Evolves.refl _
  | _ =>
    obtain rfl := show db' = _ from heff
    exact Extends.refl OtpChallenge.Evolves.refl _

theorem challenges_evolve {pf : Platform} {v w : World Db} (h : (registration pf).Later v w) :
    v.db.ChallengesEvolve w.db := by
  obtain ⟨_, h⟩ := h
  apply h.keeps (P := fun _ db => v.db.ChallengesEvolve db)
  · exact fun _ _ _ hp _ => hp
  · intro _ db _ _ hp hm
    exact hp.trans (fun _ _ _ => OtpChallenge.Evolves.trans) (Event.challenges_evolve hm.2)
  · exact Extends.refl OtpChallenge.Evolves.refl _

/-- A challenge that a code may be compared with. -/
structure OtpChallenge.Open (challenge : OtpChallenge) (now : Nat) : Prop where
  unverified : challenge.isVerified = false
  unexpired : now ≤ challenge.expiresAt
  budget : challenge.attemptsCount < challenge.maxAttempts

/-- What a verification of a code records. -/
inductive Verifying (pf : Platform) (challengeId candidateOtp : String) : List Event → Prop
  | start : Verifying pf challengeId candidateOtp []
  | selected {id : Uuid} (hid : pf.uuid challengeId = some id) (challenge : Option OtpChallenge)
      (readAt : Nat) :
      Verifying pf challengeId candidateOtp [.challengeSelected id challenge readAt]
  | compared {id : Uuid} (hid : pf.uuid challengeId = some id) {challenge : OtpChallenge}
      {readAt comparedAt : Nat} (hopen : challenge.Open comparedAt) (hread : readAt ≤ comparedAt) :
      Verifying pf challengeId candidateOtp [.challengeSelected id (some challenge) readAt,
        .codeCompared id challengeId candidateOtp challenge comparedAt]
  | counted {id : Uuid} (hid : pf.uuid challengeId = some id) {challenge : OtpChallenge}
      {readAt comparedAt : Nat} (hopen : challenge.Open comparedAt) (hread : readAt ≤ comparedAt) :
      Verifying pf challengeId candidateOtp [.challengeSelected id (some challenge) readAt,
        .codeCompared id challengeId candidateOtp challenge comparedAt,
        .attemptCounted id (OtpService.isMatch pf challengeId candidateOtp challenge)]

inductive Requesting : List Event → Prop
  | start : Requesting []
  | requested (r : OtpChallenge) (rawOtp : String) : Requesting [.challengeRequested r rawOtp]
  | delivered (r : OtpChallenge) (rawOtp : String) (d : OtpDeliveryAttempt) :
      Requesting [.challengeRequested r rawOtp, .deliveryRecorded d]

inductive Registering (params : RegisterParams) : List Event → Prop
  | start : Registering params []
  | registered (challengeId : Uuid) (a : Account) (rest : List Event)
      (hrest : ∀ e ∈ rest, ∃ g, e = .session g) :
      Registering params (.accountRegistered challengeId params.phoneNumber a :: rest)

theorem Registering.events {params : RegisterParams} {es : List Event} (h : Registering params es)
    {e : Event} (he : e ∈ es) :
    (∃ i a, e = .accountRegistered i params.phoneNumber a) ∨ ∃ g, e = .session g := by
  cases h with
  | start => exact absurd he List.not_mem_nil
  | registered i a rest hrest =>
    rcases List.mem_cons.mp he with rfl | he
    · exact .inl ⟨i, a, rfl⟩
    · exact .inr (hrest e he)

theorem Registering.append_session {params : RegisterParams} {es : List Event}
    (h : Registering params es) (hne : es ≠ []) (g : GuffSuff.Event) :
    Registering params (es ++ [.session g]) := by
  cases h with
  | start => exact absurd rfl hne
  | registered challengeId a rest hrest =>
    rw [List.cons_append]
    refine .registered challengeId a _ fun e he => ?_
    rcases List.mem_append.mp he with he | he
    · exact hrest e he
    · exact ⟨g, List.mem_singleton.mp he⟩

def Call.trace (pf : Platform) : Call → List Event → Prop
  | .requestOtpChallenge _ => Requesting
  | .verifyOtpChallenge challengeId candidateOtp => Verifying pf challengeId candidateOtp
  | .registerAccount params => Registering params

/-- A verification answers what it has counted. -/
def Call.answer (r : Answer) (es : List Event) : Call → Prop
  | .verifyOtpChallenge _ _ => ∀ isMatch, r = .ok (.verified isMatch) →
      ∃ id, .attemptCounted id isMatch ∈ es
  | _ => True

def Call.contract (pf : Platform) (c : Call) (_ : World Db) : Spec.Contract Db Event Answer where
  trace := c.trace pf
  answer r es _ := c.answer r es

section
variable {Cell : Type} {S : Spec Db Key Uuid Event Cell} {C : Spec.Contract Db Event Answer}
variable {L : List Key} {D : List Uuid} {f : Db → Db} {es : List Event} {w : World Db}

theorem safe_answer {r : Answer} (h : ∀ w, C.answer r es w) : S.Safe C (.ret r) L D f es w :=
  fun w' _ _ => h w'

theorem safe_throw {x : Failure} (h : ∀ w, C.answer (.error x) es w) : S.Safe C (throw x) L D f es w :=
  fun w' _ _ => h w'

theorem safe_checked {checks : List (Bool × Failure)} {k : Program}
    (hfail : ∀ x w, C.answer (.error x) es w)
    (hk : (∀ c ∈ checks, c.1 = false) → S.Safe C k L D f es w) :
    S.Safe C (checked checks k) L D f es w := by
  induction checks with
  | nil => exact hk (by simp)
  | cons c checks ih =>
    by_cases hc : c.1 = true
    · simp only [checked, hc, if_true]
      exact safe_throw (hfail _)
    · simp only [checked, hc]
      refine ih fun hall => hk ?_
      simpa [hc] using hall

theorem safe_insertRow {locks : List Key} {checks : Db → List (Bool × Failure)} {write : Db → Db}
    {k : Program} (hfail : ∀ x w, C.answer (.error x) es w)
    (hk : ∀ w' L', S.Onward D L w L' w' → S.holds w'.clock w'.db → locks ⊆ L' →
      (∀ c ∈ checks (f w'.db), c.1 = false) → S.Safe C k L' D (fun db => write (f db)) es w') :
    S.Safe C (insertRow locks checks write k) L D f es w := by
  induction locks generalizing L w with
  | nil =>
    intro w' hr hi
    exact safe_checked hfail fun hall =>
      hk w' L ⟨List.Subset.refl L, hr⟩ hi (List.nil_subset L) hall
  | cons key locks ih =>
    intro v hv hiv
    apply ih
    intro w' L' hon hi hlocks hall
    have hsub := List.Subset.trans (List.subset_cons_self key L) hon.locks
    refine hk w' L' ⟨hsub, hv.trans hon.rely.of_cons⟩ hi ?_ hall
    exact List.cons_subset.mpr ⟨hon.locks List.mem_cons_self, hlocks⟩

theorem safe_drawIds {k : AccountService.AccountIds → Program}
    (hk : ∀ ids D' w', S.Rely L D w w' → S.Safe C (k ids) L D' f es w') :
    S.Safe C (AccountService.drawIds k) L D f es w := by
  intro w₁ h₁ _ userId _ _ w₂ h₂ _ phoneId _ _ w₃ h₃ _ usernameId _ _ w₄ h₄ _ deviceId _ _
    w₅ h₅ _ securityEventId _ _ w₆ h₆ _ auditEventId _ _ w₇ h₇ _ correlationId _ _
  have hdrop : ∀ D' u v, D ⊆ D' → S.Rely L D' u v → S.Rely L D u v :=
    fun _ _ _ hD h => h.mono (List.Subset.refl L) hD
  refine hk _ _ w₇ (h₁.trans ((hdrop _ _ _ ?_ h₂).trans ((hdrop _ _ _ ?_ h₃).trans
    ((hdrop _ _ _ ?_ h₄).trans ((hdrop _ _ _ ?_ h₅).trans ((hdrop _ _ _ ?_ h₆).trans
      (hdrop _ _ _ ?_ h₇)))))))
  all_goals exact fun x hx => by simp [hx]

end

section
variable {pf : Platform} {C : Spec.Contract Db Event Answer} {L : List Key} {D : List Uuid}
variable {f : Db → Db} {es : List Event} {w : World Db}

theorem safe_commit {e : Event} {k : Program} (hL : ∀ k ∈ e.touches, k ∈ L)
    (h : ∀ w', (registration pf).Rely L D w w' → w'.db.Holds →
      e.Allowed pf w'.db ∧ C.trace (es ++ [e]) ∧
        (registration pf).Safe C k [] D id (es ++ [e]) ⟨w'.clock, e.apply w'.db⟩) :
    (registration pf).Safe C (.commit e k) L D e.apply es w := by
  intro w' hr hi
  obtain ⟨ha, ht, hk⟩ := h w' hr hi
  refine ⟨⟨ha, Event.effect_of_apply rfl⟩, fun key hkey => ?_, fun _ hx => hx.elim, ht, hk⟩
  exact Event.cell_apply (fun hmem => hkey (hL key hmem)) w'.db

theorem rely_challenge {w' : World Db} {id : Uuid} (h : (registration pf).Rely L D w w')
    (hL : .otpChallenge id ∈ L) :
    lookup w'.db.otpChallenges id = lookup w.db.otpChallenges id :=
  Cell.otpChallenge.inj (h.same _ hL)

theorem rely_blindIndexes {w' : World Db} {digest : Digest} (h : (registration pf).Rely L D w w')
    (hL : .blindIndex digest ∈ L) (hfree : digest ∉ w.db.blindIndexes) :
    digest ∉ w'.db.blindIndexes := by
  have hcell := Cell.blindIndex.inj (h.same _ hL)
  intro hin
  obtain ⟨r, hr, hdigest⟩ := List.mem_map.mp hin
  have hmem : r ∈ w'.db.phoneIdentities.filter fun r => r.phoneBlindIndex = digest :=
    List.mem_filter.mpr ⟨hr, by simpa using hdigest⟩
  rw [hcell] at hmem
  exact hfree (List.mem_map.mpr ⟨r, (List.mem_filter.mp hmem).1, hdigest⟩)

theorem safe_insertAccount {a : Account} {k : Program} (hfail : ∀ x w, C.answer (.error x) es w)
    (hk : ∀ w' L', (registration pf).Onward D L w L' w' → w'.db.Holds →
      .blindIndex a.phoneIdentity.phoneBlindIndex ∈ L' →
      a.phoneIdentity.phoneBlindIndex ∉ w'.db.blindIndexes →
        (registration pf).Safe C k L' D (Db.insertAccount a.kept) es w') :
    (registration pf).Safe C (AccountService.insertAccount a k) L D id es w := by
  refine safe_insertRow hfail fun w₁ L₁ h₁ _ _ _ => ?_
  refine safe_insertRow hfail fun w₂ L₂ h₂ _ hlocks hall => ?_
  refine safe_insertRow hfail fun w₃ L₃ h₃ _ _ _ => ?_
  refine safe_insertRow hfail fun w₄ L₄ h₄ _ _ _ => ?_
  refine safe_insertRow hfail fun w₅ L₅ h₅ _ _ _ => ?_
  refine safe_insertRow hfail fun w₆ L₆ h₆ _ _ _ => ?_
  refine safe_insertRow hfail fun w₇ L₇ h₇ _ _ _ => ?_
  refine safe_insertRow hfail fun w₈ L₈ h₈ hi₈ _ _ => ?_
  have hindex : .blindIndex a.phoneIdentity.phoneBlindIndex ∈ L₂ := hlocks (by simp)
  have hfree : a.phoneIdentity.phoneBlindIndex ∉ w₂.db.blindIndexes := by
    simpa [Db.blindIndexes, Db.insertUser] using hall _ (List.mem_cons_of_mem _ List.mem_cons_self)
  have hsince := h₃.trans (h₄.trans (h₅.trans (h₆.trans (h₇.trans h₈))))
  exact hk w₈ L₈ (h₁.trans (h₂.trans hsince)) hi₈ (hsince.locks hindex)
    (rely_blindIndexes hsince.rely hindex hfree)

theorem sameIdentities_framed (pf : Platform) : (registration pf).Framed
    AccountService.sessionTables Db.SameIdentities where
  refl := Db.SameIdentities.refl
  put := by
    intro db db' d h
    obtain ⟨_, _, _, rfl⟩ := h
    exact ⟨_, _, _, rfl⟩
  moves := fun _ _ _ _ h => ⟨trivial, h⟩
  cell := fun k _ _ h => Db.cell_sameIdentities h k
  has := fun _ _ _ _ h => h

/-- The commit of a registration: its challenge has been locked since it was found verified. -/
theorem safe_register {params : RegisterParams} {challengeId : Uuid} {challenge : OtpChallenge}
    {normalized : String} {drawn : List Uuid} {w₀ : World Db}
    (hrow : lookup w.db.otpChallenges challengeId = some challenge)
    (hverified : challenge.isVerified = true)
    (hnorm : PhoneNumberService.normalizeToE164 pf params.phoneNumber "NP" = .ok normalized)
    (hdrawn : AccountService.isIv drawn = true) (hL : .otpChallenge challengeId ∈ L)
    (ids : AccountService.AccountIds) (now : Nat) :
    (registration pf).Safe ((Call.registerAccount params).contract pf w₀)
      (AccountService.insertAccount
        (AccountService.accountOf params (pf.toLowerCase params.username) challenge.phoneBlindIndex
          (PhoneNumberService.encryptPhoneNumber pf (AccountService.ivBytes drawn) normalized) ids now)
        (.commit (.accountRegistered challengeId params.phoneNumber
            (AccountService.accountOf params (pf.toLowerCase params.username)
              challenge.phoneBlindIndex
              (PhoneNumberService.encryptPhoneNumber pf (AccountService.ivBytes drawn) normalized) ids
              now).kept)
          ((SessionService.createSession pf.services ids.userId ids.deviceId).embed
            AccountService.sessionTables
            (AccountService.answerRegistered params (pf.toLowerCase params.username) ids))))
      L D id [] w := by
  refine safe_insertAccount (fun _ _ => trivial) fun w₁ L' hon _ hindex hfree => ?_
  refine safe_commit (e := .accountRegistered challengeId params.phoneNumber _)
    (by simpa [Event.touches] using hindex) fun w₂ hr₂ _ => ⟨⟨?_, challenge, ?_, ?_⟩, ?_, ?_⟩
  · exact rely_blindIndexes hr₂ hindex hfree
  · exact (rely_challenge hr₂ (hon.locks hL)).trans ((rely_challenge hon.rely hL).trans hrow)
  · refine ⟨hverified, rfl, rfl, AccountService.ivBytes drawn, normalized, ?_, hnorm, rfl⟩
    simpa [AccountService.isIv, AccountService.ivBytes] using hdrawn
  · exact .registered _ _ [] (by simp)
  · refine Spec.Safe.embed (sameIdentities_framed pf) (T := fun es => Registering params es ∧ es ≠ [])
      (fun _ h => h.1) ?_ ?_ _ Db.SameIdentities.refl ⟨.registered _ _ [] (by simp), by simp⟩
    · intro es e h
      exact ⟨h.1.append_session h.2 e, by simp⟩
    · intro r L D f es w _ _
      cases r with
      | error e => exact safe_throw fun _ => trivial
      | ok tokenPair => exact safe_answer fun _ => trivial

theorem safe_registerAccount (params : RegisterParams) :
    (registration pf).Safe ((Call.registerAccount params).contract pf w)
      (AccountService.registerAccount pf params) [] [] id [] w := by
  have hfail : ∀ es r w', ((Call.registerAccount params).contract pf w).answer r es w' :=
    fun _ _ _ => trivial
  unfold AccountService.registerAccount
  cases hid : pf.uuid params.challengeId with
  | none => exact safe_throw (hfail _ _)
  | some challengeId =>
    intro w₁ hr₁ hi₁
    simp only [id_eq]
    cases hrow : lookup w₁.db.otpChallenges challengeId with
    | none => exact safe_throw (hfail _ _)
    | some challenge =>
      by_cases hverified : challenge.isVerified = true
      · simp only [hverified, Bool.not_true, Bool.false_eq_true, if_false]
        cases hnorm : PhoneNumberService.normalizeToE164 pf params.phoneNumber "NP" with
        | error message => exact safe_throw (hfail _ _)
        | ok normalized =>
          intro w₂ hr₂ hi₂ drawn hdrawn w₃ hr₃ hi₃
          dsimp only
          split
          · exact safe_throw (hfail _ _)
          split
          · exact safe_throw (hfail _ _)
          intro w₄ hr₄ hi₄
          dsimp only
          split
          · exact safe_throw (hfail _ _)
          refine safe_drawIds fun ids D w₅ hr₅ w₆ hr₆ hi₆ => ?_
          have hlock : .otpChallenge challengeId ∈ [Key.otpChallenge challengeId] := List.mem_cons_self
          have hsince := hr₂.trans (hr₃.trans (hr₄.trans hr₅))
          have hkept := (rely_challenge hr₆ hlock).trans ((rely_challenge hsince hlock).trans hrow)
          exact safe_register hkept hverified hnorm hdrawn hlock ids w₆.clock
      · simp only [hverified]
        exact safe_throw (hfail _ _)

theorem safe_requestOtpChallenge (phoneBlindIndex : Digest) :
    (registration pf).Safe ((Call.requestOtpChallenge phoneBlindIndex).contract pf w)
      (OtpService.requestOtpChallenge pf phoneBlindIndex) [] [] id [] w := by
  have hanswer : ∀ es r w', ((Call.requestOtpChallenge phoneBlindIndex).contract pf w).answer r es w' :=
    fun _ _ _ => trivial
  intro w₁ hr₁ hi₁ w₂ hr₂ hi₂ w₃ hr₃ hi₃
  dsimp only
  split
  · exact safe_answer (hanswer _ _)
  intro w₄ hr₄ hi₄ drawn _ w₅ hr₅ hi₅ challengeId _ _ w₆ hr₆ hi₆
  refine safe_insertRow (fun _ => hanswer _ _) fun w₇ L h₇ hi₇ hlocks hall => ?_
  have hlock := hlocks List.mem_cons_self
  have hfree := hall _ List.mem_cons_self
  refine safe_commit (e := .challengeRequested _ _) (by simpa [Event.touches] using hlock)
    fun w₈ hr₈ hi₈ => ⟨⟨?_, _, _, _, rfl⟩, .requested _ _, ?_⟩
  · exact lookup_eq_none.mp
      ((rely_challenge hr₈ hlock).trans (lookup_eq_none.mpr (by simpa using hfree)))
  · split
    · exact safe_answer (hanswer _ _)
    · intro w₉ hr₉ hi₉ id _ _
      refine safe_insertRow (fun _ => hanswer _ _) fun w₁₀ L h₁₀ hi₁₀ _ _ => ?_
      exact safe_commit (e := .deliveryRecorded _) (by simp [Event.touches])
        fun w₁₁ _ _ => ⟨trivial, .delivered _ _ _, safe_answer (hanswer _ _)⟩

theorem safe_verifyOtpChallenge (challengeId candidateOtp : String) :
    (registration pf).Safe ((Call.verifyOtpChallenge challengeId candidateOtp).contract pf w)
      (OtpService.verifyOtpChallenge pf challengeId candidateOtp) [] [] id [] w := by
  have hfail : ∀ es x w', ((Call.verifyOtpChallenge challengeId candidateOtp).contract pf w).answer
      (.error x) es w' := fun _ _ _ _ h => nomatch h
  unfold OtpService.verifyOtpChallenge
  cases hid : pf.uuid challengeId with
  | none => exact safe_answer (hfail _ _)
  | some id =>
    intro w₁ hr₁ hi₁ w₂ hr₂ hi₂
    refine safe_commit (e := .challengeSelected id _ _) (by simp [Event.touches])
      fun w₃ hr₃ hi₃ => ⟨?_, .selected hid _ _, ?_⟩
    · exact (rely_challenge (hr₂.trans hr₃) List.mem_cons_self).symm
    simp only [id_eq]
    cases hrow : lookup w₁.db.otpChallenges id with
    | none => exact safe_answer (hfail _ _)
    | some challenge =>
      by_cases hverified : challenge.isVerified = true
      · simp only [hverified, if_true]
        exact safe_answer (hfail _ _)
      · simp only [hverified]
        intro w₄ hr₄ hi₄
        dsimp only
        split
        · exact safe_answer (hfail _ _)
        rename_i hexpired
        split
        · exact safe_answer (hfail _ _)
        rename_i hbudget
        have hopen : challenge.Open w₄.clock :=
          ⟨eq_false_of_ne_true hverified, Nat.not_lt.mp hexpired, Nat.not_le.mp hbudget⟩
        have hread : w₂.clock ≤ w₄.clock := (hr₃.later.trans hr₄.later).clock_le
        intro w₅ hr₅ hi₅ _ _
        refine ⟨⟨trivial, rfl⟩, .compared hid hopen hread, ?_⟩
        intro w₆ hr₆ hi₆
        refine safe_commit (e := .attemptCounted id _) (by simp [Event.touches])
          fun w₇ hr₇ _ => ⟨?_, .counted hid hopen hread, ?_⟩
        · have hlater := hr₂.later.trans (hr₃.later.trans (hr₄.later.trans (hr₅.later.trans
            (hr₆.later.trans hr₇.later))))
          obtain ⟨_, hkept, _⟩ := challenges_evolve hlater id challenge hrow
          exact mem_keys_of_lookup hkept
        refine safe_answer fun _ isMatch heq => ⟨id, ?_⟩
        cases heq
        simp

end

abbrev Server := ReadCommitted.Server Db Key Uuid Event Answer Call
abbrev Choice := ReadCommitted.Choice Uuid Call

def serve (pf : Platform) (s : Server) (sched : List Choice) : Server :=
  s.run (Call.program pf) Call.aborted sched

abbrev SoundRun (pf : Platform) (w₀ : World Db) (s : Server) : Prop :=
  ReadCommitted.Server.Sound (registration pf) (Call.contract pf) w₀ s

section
variable {pf : Platform}

theorem Call.trace_nil (c : Call) : c.trace pf [] := by
  cases c with
  | requestOtpChallenge phoneBlindIndex => exact .start
  | verifyOtpChallenge challengeId candidateOtp => exact .start
  | registerAccount params => exact .start

theorem Call.safe_program (c : Call) (w : World Db) :
    (registration pf).Safe (c.contract pf w) (c.program pf) [] [] id [] w := by
  cases c with
  | requestOtpChallenge phoneBlindIndex => exact safe_requestOtpChallenge phoneBlindIndex
  | verifyOtpChallenge challengeId candidateOtp =>
    exact safe_verifyOtpChallenge challengeId candidateOtp
  | registerAccount params => exact safe_registerAccount params

theorem covers (ch : Choice) : ReadCommitted.Server.Covers (registration pf) (Call.contract pf)
    (Call.program pf) Call.aborted ch := by
  cases ch with
  | call p c => exact fun w _ => ⟨c.trace_nil, c.safe_program w⟩
  | fail p =>
    intro c es w w'
    cases c with
    | verifyOtpChallenge challengeId candidateOtp => exact fun _ h => nomatch h
    | _ => trivial
  | _ => trivial

theorem soundRun_boot {db : Db} {clock : Nat} (used : List Uuid) (hdb : db.Holds) (sched : List Choice) :
    SoundRun pf ⟨clock, db⟩ (serve pf (.boot db clock used) sched) :=
  (ReadCommitted.Server.sound_boot (S := registration pf) hdb fun _ h => absurd h not_false).run
    fun ch _ => covers ch

end

end Registration

end GuffSuff
