import GuffSuff.ReadCommitted.Faults
import GuffSuff.StoredPhones

/-! What a fault leaves of `registerAccount`, which commits the account before
it asks the session service for a session. -/

namespace GuffSuff

open ReadCommitted

namespace Registration

/-- The call is about to ask the pool for the connection of `createSession`. -/
def AsksForSession (pf : Platform) (prog : Program) : Prop :=
  ∃ user device k, prog =
    (SessionService.createSession pf.services user device).embed AccountService.sessionTables k

/-- Where the database may fail: at a statement, or when a connection is requested. -/
def MayFail (pf : Platform) (prog : Program) (_ : List Uuid) (_ : List Event) : Prop :=
  prog.isStatement = true ∨ AsksForSession pf prog

/-- The rows of the account, and those of the session whose tokens the caller gets. -/
structure Db.Complete (pf : Platform) (params : RegisterParams) (reg : Registered) (db db' : Db) : Prop where
  account : ∃ index encrypted ids now, ids.userId = reg.userId ∧ ids.deviceId = reg.deviceId ∧
    (db.insertAccount (AccountService.accountOf params (pf.toLowerCase params.username) index encrypted
      ids now).kept).SameIdentities db'
  session : ∃ pair, reg.tokenPair = .tokens pair ∧
    (∃ s ∈ db'.sessions, s.id = pair.sessionId ∧ s.userId = reg.userId ∧ s.deviceId = reg.deviceId ∧
      s.revokedAt = none) ∧
    (∃ f ∈ db'.refreshTokenFamilies, f.id = pair.familyId ∧ f.userId = reg.userId ∧
      f.deviceId = reg.deviceId ∧ f.isCompromised = false) ∧
    ∃ t ∈ db'.refreshTokens, t.familyId = pair.familyId ∧
      t.tokenVerifierHash = pf.services.hashRefreshToken pair.refreshToken ∧
      t.isRevoked = false ∧ t.isRotated = false

def AllOrNothing (pf : Platform) (params : RegisterParams) (db db' : Db) : Answer → Prop
  | .ok v => ∃ reg, v = .registered reg ∧ Db.Complete pf params reg db db'
  | .error _ => db' = db

/-- An identifier or the token that the session service draws, after the seven
identifiers of the account, is taken in its table. -/
def Collides (pf : Platform) (db : Db) (drawn : List Uuid) : Prop :=
  match drawn.reverse.drop 7 with
  | [session, family] => session ∈ keys db.sessions ∨ family ∈ keys db.refreshTokenFamilies
  | [session, family, rawRefreshToken, token] =>
    session ∈ keys db.sessions ∨ family ∈ keys db.refreshTokenFamilies ∨
      token ∈ keys db.refreshTokens ∨
      (AccountService.sessionTables.view db).hashTaken (pf.services.hashRefreshToken rawRefreshToken) = true
  | _ => False

/-- What a fault finds: nothing, or an account without a session. -/
def AccountProgress (db : Db) (drawn : List Uuid) (es : List Event) (db' : Db) : Prop :=
  (es = [] ∧ db' = db ∧ drawn.length ≤ 7) ∨ (es ≠ [] ∧ ∃ a, db' = db.insertAccount a)

def AccountAnswer (pf : Platform) (params : RegisterParams) (db : Db) (r : Answer) (drawn : List Uuid)
    (_ : List Event) (db' : Db) : Prop :=
  (AllOrNothing pf params db db' r ∧ ¬ Collides pf db drawn) ∨
    (∃ x a, r = .error x ∧ db' = db.insertAccount a ∧ Collides pf db drawn)

abbrev StopsWhole (pf : Platform) (params : RegisterParams) (db : Db) (prog : Program) (d : List Uuid)
    (f : Db → Db) (es : List Event) (w : World Db) : Prop :=
  prog.Stops (MayFail pf) (AccountProgress db) (AccountAnswer pf params db) d f es w

section
variable {F : Program → List Uuid → List Event → Prop} {Fail : List Uuid → List Event → Db → Prop}
variable {Ret : Answer → List Uuid → List Event → Db → Prop} {d : List Uuid} {es : List Event}
variable {f : Db → Db} {w : World Db}

theorem stops_throw {x : Failure} (hfail : Fail d es w.db) (hret : Ret (.error x) d es w.db) :
    (throw x).Stops F Fail Ret d f es w := ⟨fun _ => hfail, hret⟩

theorem stops_checked {checks : List (Bool × Failure)} {k : Program} (hfail : Fail d es w.db)
    (hret : ∀ x, Ret (.error x) d es w.db) (hk : k.Stops F Fail Ret d f es w) :
    (checked checks k).Stops F Fail Ret d f es w := by
  induction checks with
  | nil => exact hk
  | cons c checks ih =>
    simp only [checked]
    split
    · exact stops_throw hfail (hret _)
    · exact ih

theorem stops_insertRow {locks : List Key} {checks : Db → List (Bool × Failure)} {write : Db → Db}
    {k : Program} (hfail : Fail d es w.db) (hret : ∀ x, Ret (.error x) d es w.db)
    (hk : k.Stops F Fail Ret d (fun db => write (f db)) es w) :
    (insertRow locks checks write k).Stops F Fail Ret d f es w := by
  induction locks with
  | nil => exact ⟨fun _ => hfail, stops_checked hfail hret ⟨fun _ => hfail, hk⟩⟩
  | cons key locks ih => exact ⟨fun _ => hfail, ih⟩

theorem stops_insertAccount {a : Account} {k : Program} (hfail : Fail d es w.db)
    (hret : ∀ x, Ret (.error x) d es w.db)
    (hk : k.Stops F Fail Ret d (Db.insertAccount a.kept) es w) :
    (AccountService.insertAccount a k).Stops F Fail Ret d id es w := by
  refine stops_insertRow hfail hret ?_
  refine stops_insertRow hfail hret ?_
  refine stops_insertRow hfail hret ?_
  refine stops_insertRow hfail hret ?_
  refine stops_insertRow hfail hret ?_
  refine stops_insertRow hfail hret ?_
  refine stops_insertRow hfail hret ?_
  exact stops_insertRow hfail hret hk

variable {k : GuffSuff.Answer → Program}

theorem stops_embed_throw {x : Failure} (hfail : Fail d es w.db)
    (hk : (k (.error x)).Stops F Fail Ret d id es w) :
    ((GuffSuff.throw x).embed AccountService.sessionTables k).Stops F Fail Ret d f es w :=
  ⟨fun _ => hfail, hk⟩

/-- An `UPDATE` or `INSERT` of the session service, on the tables of the registration. -/
def embedded (write : Write) (db : Db) : Db :=
  AccountService.sessionTables.put (write.apply (AccountService.sessionTables.view db)) db

theorem mem_viewed_users {db : Db} {i : Uuid} (hi : i ∈ keys db.users) :
    i ∈ keys (AccountService.sessionTables.view db).users := by
  simpa [AccountService.sessionTables, keys, Keyed.key] using hi

theorem mem_viewed_devices {db : Db} {i : Uuid} (hi : i ∈ keys db.devices) :
    i ∈ keys (AccountService.sessionTables.view db).devices := by
  simpa [AccountService.sessionTables, keys, Keyed.key] using hi

theorem stops_insertSession {r : Session} {next : GuffSuff.Program} (hfail : Fail d es w.db)
    (huser : r.userId ∈ keys (f w.db).users) (hdevice : r.deviceId ∈ keys (f w.db).devices)
    (htaken : r.id ∈ keys (f w.db).sessions → ∀ x, (k (.error x)).Stops F Fail Ret d id es w)
    (hk : r.id ∉ keys (f w.db).sessions → (next.embed AccountService.sessionTables k).Stops F Fail Ret d
      (fun db => embedded (.insertSession r) (f db)) es w) :
    ((SessionService.insertSession r next).embed AccountService.sessionTables k).Stops F Fail Ret d f es w := by
  refine ⟨fun _ => hfail, ?_⟩
  simp only [mem_viewed_users huser, mem_viewed_devices hdevice, not_true_eq_false, if_false]
  split
  · exact stops_embed_throw hfail (htaken ‹_› _)
  · exact ⟨fun _ => hfail, hk ‹_›⟩

theorem stops_insertFamily {r : RefreshTokenFamily} {next : GuffSuff.Program} (hfail : Fail d es w.db)
    (huser : r.userId ∈ keys (f w.db).users) (hdevice : r.deviceId ∈ keys (f w.db).devices)
    (htaken : r.id ∈ keys (f w.db).refreshTokenFamilies → ∀ x, (k (.error x)).Stops F Fail Ret d id es w)
    (hk : r.id ∉ keys (f w.db).refreshTokenFamilies →
      (next.embed AccountService.sessionTables k).Stops F Fail Ret d
        (fun db => embedded (.insertRefreshTokenFamily r) (f db)) es w) :
    ((SessionService.insertFamily r next).embed AccountService.sessionTables k).Stops F Fail Ret d f es w := by
  refine ⟨fun _ => hfail, ?_⟩
  simp only [mem_viewed_users huser, mem_viewed_devices hdevice, not_true_eq_false, if_false]
  split
  · exact stops_embed_throw hfail (htaken ‹_› _)
  · exact ⟨fun _ => hfail, hk ‹_›⟩

theorem stops_insertRefreshToken {t : RefreshToken} {next : GuffSuff.Program} (hfail : Fail d es w.db)
    (hfamily : t.familyId ∈ keys (f w.db).refreshTokenFamilies) (hparent : t.parentTokenId = none)
    (htaken : t.id ∈ keys (f w.db).refreshTokens ∨
      (AccountService.sessionTables.view (f w.db)).hashTaken t.tokenVerifierHash = true →
        ∀ x, (k (.error x)).Stops F Fail Ret d id es w)
    (hk : ¬ (t.id ∈ keys (f w.db).refreshTokens ∨
      (AccountService.sessionTables.view (f w.db)).hashTaken t.tokenVerifierHash = true) →
        (next.embed AccountService.sessionTables k).Stops F Fail Ret d
          (fun db => embedded (.insertRefreshToken t) (f db)) es w) :
    ((SessionService.insertRefreshToken t next).embed AccountService.sessionTables k).Stops F Fail Ret d f
      es w := by
  have hf : t.familyId ∈ keys (AccountService.sessionTables.view (f w.db)).refreshTokenFamilies := hfamily
  refine ⟨fun _ => hfail, fun _ => hfail, ?_⟩
  simp only [hf, not_true_eq_false, if_false]
  split
  · exact stops_embed_throw hfail (htaken (.inl ‹_›) _)
  · split
    · exact stops_embed_throw hfail (htaken (.inr ‹_›) _)
    · rw [if_neg (by simp [hparent])]
      exact ⟨fun _ => hfail, hk (not_or_intro ‹_› ‹_›)⟩

end

section
variable {pf : Platform} {params : RegisterParams} {db : Db} {d : List Uuid} {es : List Event} {w : World Db}

theorem not_collides_of_le (h : d.length ≤ 7) : ¬ Collides pf db d := by
  have hdrop : d.reverse.drop 7 = [] := List.drop_eq_nil_of_le (by simpa using h)
  simp [Collides, hdrop]

theorem collides_two (h : d.length = 7) (session family : Uuid) :
    Collides pf db (family :: session :: d) ↔
      session ∈ keys db.sessions ∨ family ∈ keys db.refreshTokenFamilies := by
  have hdrop : (family :: session :: d).reverse.drop 7 = [session, family] := by
    rw [List.reverse_cons, List.reverse_cons, List.append_assoc]
    exact List.drop_left' (by simpa using h)
  rw [Collides, hdrop]

theorem collides_four (h : d.length = 7) (session family rawRefreshToken token : Uuid) :
    Collides pf db (token :: rawRefreshToken :: family :: session :: d) ↔
      session ∈ keys db.sessions ∨ family ∈ keys db.refreshTokenFamilies ∨ token ∈ keys db.refreshTokens ∨
        (AccountService.sessionTables.view db).hashTaken (pf.services.hashRefreshToken rawRefreshToken) =
          true := by
  have hdrop : (token :: rawRefreshToken :: family :: session :: d).reverse.drop 7 =
      [session, family, rawRefreshToken, token] := by
    rw [List.reverse_cons, List.reverse_cons, List.reverse_cons, List.reverse_cons, List.append_assoc,
      List.append_assoc, List.append_assoc]
    exact List.drop_left' (by simpa using h)
  rw [Collides, hdrop]

theorem user_mem_insertAccount (db : Db) (a : Account) : a.user.id ∈ keys (db.insertAccount a).users := by
  have hrows : (db.insertAccount a).users = db.users ++ [a.user] := rfl
  rw [hrows, keys_append]
  exact List.mem_append_right _ (List.mem_singleton_self _)

theorem device_mem_insertAccount (db : Db) (a : Account) :
    a.device.id ∈ keys (db.insertAccount a).devices := by
  have hrows : (db.insertAccount a).devices = db.devices ++ [a.device] := rfl
  rw [hrows, keys_append]
  exact List.mem_append_right _ (List.mem_singleton_self _)

theorem not_mayFail_now {k : Nat → Program} {es : List Event} : ¬ MayFail pf (.now k) d es := by
  rintro (h | ⟨user, device, k', h⟩)
  · exact Program.not_statement rfl h
  · exact absurd h (by simp [SessionService.createSession, Program.embed])

theorem stops_createSession {index : Digest} {encrypted : Bytes} {ids : AccountService.AccountIds}
    {now : Nat} (hw : w.db = db.insertAccount
      (AccountService.accountOf params (pf.toLowerCase params.username) index encrypted ids now).kept)
    (hd : d.length = 7) (hes : es ≠ []) :
    StopsWhole pf params db ((SessionService.createSession pf.services ids.userId ids.deviceId).embed
      AccountService.sessionTables
      (AccountService.answerRegistered params (pf.toLowerCase params.username) ids)) d id es w := by
  have hfail : ∀ d, AccountProgress db d es w.db := fun _ => .inr ⟨hes, _, hw⟩
  have hthrow : ∀ {d x}, Collides pf db d → AccountAnswer pf params db (.error x) d es w.db :=
    fun hc => .inr ⟨_, _, rfl, hw, hc⟩
  have hrefused : ∀ {d : List Uuid}, Collides pf db d → ∀ x, StopsWhole pf params db
      (AccountService.answerRegistered params (pf.toLowerCase params.username) ids (.error x)) d id es w :=
    fun hc _ => stops_throw (hfail _) (hthrow hc)
  have huser : ids.userId ∈ keys w.db.users := hw ▸ user_mem_insertAccount db _
  have hdevice : ids.deviceId ∈ keys w.db.devices := hw ▸ device_mem_insertAccount db _
  have hsessions : w.db.sessions = db.sessions := by rw [hw]; rfl
  have hfamilies : w.db.refreshTokenFamilies = db.refreshTokenFamilies := by rw [hw]; rfl
  have htokens : w.db.refreshTokens = db.refreshTokens := by rw [hw]; rfl
  refine ⟨fun _ => hfail _, fun session => ⟨fun _ => hfail _, fun family => ⟨fun _ => hfail _, fun t _ => ?_⟩⟩⟩
  refine stops_insertSession (w := ⟨t, w.db⟩) (hfail _) huser hdevice (fun htaken => ?_) fun hsession => ?_
  · exact hrefused ((collides_two hd session family).mpr (.inl (hsessions ▸ htaken)))
  refine stops_insertFamily (w := ⟨t, w.db⟩) (hfail _) huser hdevice (fun htaken => ?_) fun hfamily => ?_
  · exact hrefused ((collides_two hd session family).mpr (.inr (hfamilies ▸ htaken)))
  refine ⟨fun _ => hfail _, fun raw => ⟨fun _ => hfail _, fun token => ?_⟩⟩
  have hcollides : Collides pf db (token :: raw :: family :: session :: d) ↔
      (token ∈ keys w.db.refreshTokens ∨ (AccountService.sessionTables.view w.db).hashTaken
        (pf.services.hashRefreshToken raw) = true) := by
    have hs : session ∉ keys db.sessions := hsessions ▸ hsession
    have hf : family ∉ keys db.refreshTokenFamilies := hfamilies ▸ hfamily
    rw [collides_four hd, GuffSuff.Db.hashTaken, GuffSuff.Db.hashTaken]
    simp only [AccountService.sessionTables, htokens, hs, hf, false_or]
  refine stops_insertRefreshToken (w := ⟨t, w.db⟩) (hfail _) ?_ rfl (fun htaken => ?_) fun htoken => ?_
  · simp [embedded, AccountService.sessionTables, Write.apply, SessionService.firstToken,
      SessionService.newFamily, keys, Keyed.key]
  · exact hrefused (hcollides.mpr htaken)
  · refine ⟨fun _ => hfail _, ⟨fun h => absurd h not_mayFail_now, fun signedAt _ => .inl ⟨⟨_, rfl, ?_, ?_⟩, ?_⟩⟩⟩
    · exact ⟨index, encrypted, ids, now, rfl, rfl, hw ▸ ⟨_, _, _, rfl⟩⟩
    · exact ⟨_, rfl, ⟨_, List.mem_append_right _ (List.mem_singleton_self _), rfl, rfl, rfl, rfl⟩,
        ⟨_, List.mem_append_right _ (List.mem_singleton_self _), rfl, rfl, rfl, rfl⟩,
        ⟨_, List.mem_append_right _ (List.mem_singleton_self _), rfl, rfl, rfl, rfl⟩⟩
    · exact fun hc => htoken (hcollides.mp hc)

theorem stops_registerAccount (pf : Platform) (params : RegisterParams) (w : World Db) :
    StopsWhole pf params w.db (AccountService.registerAccount pf params) [] id [] w := by
  have hfail : ∀ d : List Uuid, d.length ≤ 7 → AccountProgress w.db d [] w.db := fun _ hd => .inl ⟨rfl, rfl, hd⟩
  have hclean : ∀ (d : List Uuid) x, d.length ≤ 7 → AccountAnswer pf params w.db (.error x) d [] w.db :=
    fun _ _ hd => .inl ⟨rfl, not_collides_of_le hd⟩
  have hstart : AccountProgress w.db [] [] w.db := hfail [] (by simp)
  have hthrow : ∀ {x : Failure} {f : Db → Db}, StopsWhole pf params w.db (throw x) [] f [] w :=
    fun {x} {f} => stops_throw hstart (hclean [] x (by simp))
  unfold AccountService.registerAccount
  cases pf.uuid params.challengeId with
  | none => exact hthrow
  | some challengeId =>
    refine ⟨fun _ => hstart, ?_⟩
    simp only [id_eq]
    cases lookup w.db.otpChallenges challengeId with
    | none => exact hthrow
    | some challenge =>
      by_cases hverified : challenge.isVerified = true
      · simp only [hverified, Bool.not_true, Bool.false_eq_true, if_false]
        cases PhoneNumberService.normalizeToE164 pf params.phoneNumber "NP" with
        | error message => exact hthrow
        | ok normalized =>
          refine ⟨fun _ => hstart, fun drawn _ => ⟨fun _ => hstart, ?_⟩⟩
          dsimp only
          split
          · exact hthrow
          split
          · exact hthrow
          · refine ⟨fun _ => hstart, ?_⟩
            dsimp only
            split
            · exact hthrow
            · refine ⟨fun _ => hstart, fun userId => ⟨fun _ => hfail _ (by simp), fun phoneId =>
                ⟨fun _ => hfail _ (by simp), fun usernameId => ⟨fun _ => hfail _ (by simp), fun deviceId =>
                  ⟨fun _ => hfail _ (by simp), fun securityEventId => ⟨fun _ => hfail _ (by simp),
                    fun auditEventId => ⟨fun _ => hfail _ (by simp), fun correlationId => ?_⟩⟩⟩⟩⟩⟩⟩
              refine ⟨fun _ => hfail _ (by simp), fun now _ => ?_⟩
              refine stops_insertAccount (w := ⟨now, w.db⟩) (hfail _ (by simp))
                (fun x => hclean _ x (by simp)) ⟨fun _ => hfail _ (by simp), ?_⟩
              exact stops_createSession rfl rfl (by simp)
      · simp only [hverified]
        exact hthrow

end

section
variable {pf : Platform} {params : RegisterParams} {s : Server} {p : Nat} {sched : List Choice} {r : Answer}

abbrev FaultyRegistration (pf : Platform) (s : Server) (p : Nat) (params : RegisterParams) (r : Answer)
    (sched : List Choice) : Prop :=
  ReadCommitted.Server.FaultyCall (Call.program pf) Call.aborted s p (.registerAccount params) r
    (MayFail pf) sched

theorem insertAccount_ne (a : Account) (db : Db) : db.insertAccount a ≠ db := by
  intro h
  have hlen := congrArg (fun db => db.users.length) h
  simp [Db.insertAccount, Db.insertUser, Db.insertPhoneIdentity, Db.insertUserProfile, Db.insertUsername,
    Db.insertDevice, Db.insertPrivacySettings, Db.insertSecurityEvent, Db.insertAuditEvent] at hlen

/-- A registration is all or nothing just when nothing fails after the account
has been committed and the session service draws nothing that is taken. -/
theorem registration_atomic_iff (hcall : FaultyRegistration pf s p params r sched) :
    let s' := serve pf s (.call p (.registerAccount params) :: sched)
    AllOrNothing pf params s.db s'.db r ↔
      (∀ qr, s.struck (Call.program pf) Call.aborted p (.call p (.registerAccount params) :: sched) = some qr →
        qr.events = []) ∧
      ∀ pr, s'.procs p = some pr → ¬ Collides pf s.db pr.drawn := by
  intro s'
  have hret : ∀ r (d : List Uuid) (es : List Event), ¬ MayFail pf (.ret r) d es := by
    intro r d es h
    rcases h with h | ⟨_, _, _, h⟩
    · exact absurd h (by simp [Program.isStatement])
    · exact nomatch h
  cases hcall.stopped hret (stops_registerAccount pf params s.world) with
  | @returned pr hstruck hp hans =>
    have hproc : ∀ qr, s'.procs p = some qr → qr = pr := fun qr hq => Option.some.inj (hq.symm.trans hp)
    rcases hans with ⟨hatomic, hfree⟩ | ⟨x, a, rfl, hdb, htaken⟩
    · refine iff_of_true hatomic ⟨fun qr hq => absurd (hstruck.symm.trans hq) (by simp), ?_⟩
      exact fun qr hq => hproc qr hq ▸ hfree
    · refine iff_of_false (fun h => insertAccount_ne a s.db (hdb.symm.trans h)) fun h => ?_
      exact h.2 pr hp htaken
  | @failed qr hstruck hp hfail hr =>
    subst hr
    rcases hfail with ⟨hes, hdb, hlen⟩ | ⟨hes, a, hdb⟩
    · refine iff_of_true hdb ⟨fun qr' hq => ?_, fun pr hq => ?_⟩
      · exact Option.some.inj (hstruck.symm.trans hq) ▸ hes
      · obtain rfl := Option.some.inj (hp.symm.trans hq)
        exact not_collides_of_le hlen
    · refine iff_of_false (fun h => insertAccount_ne a s.db (hdb.symm.trans h)) fun h => ?_
      exact hes (h.1 qr hstruck)

end

def sampleProven : Server :=
  serve samplePlatform (.boot Db.empty 0 []) (sampleRequested (.requestOtpChallenge
    (sampleHmac "+9779811111111")) ++ sampleVerified (.verifyOtpChallenge sampleText "111111"))

/-- The registration up to the `INSERT INTO sessions`, which fails. -/
def sampleTorn : List Choice :=
  (sampleRegistered (.registerAccount (sampleParams "+9779811111111"))).tail ++
    [.exec 2 [27], .exec 2 [28], .exec 2 [], .fail 2]

theorem sampleTorn_half :
    let params := sampleParams "+9779811111111"
    FaultyRegistration samplePlatform sampleProven 2 params (.error .database) sampleTorn ∧
      ¬ AllOrNothing samplePlatform params sampleProven.db
        (serve samplePlatform sampleProven (.call 2 (.registerAccount params) :: sampleTorn)).db
        (.error .database) := by
  intro params
  have hstatement : (sampleProven.struck (Call.program samplePlatform) Call.aborted 2
      (.call 2 (.registerAccount params) :: sampleTorn)).all (fun qr => qr.program.isStatement) = true := by
    decide +kernel
  constructor
  · exact ⟨by decide +kernel, by decide +kernel,
      fun qr hq => .inl ((Option.all_eq_true _ _).mp hstatement qr hq), by decide +kernel⟩
  · intro h
    exact absurd (congrArg (fun db => db.users.length) h) (by decide +kernel)

theorem sampleProven_kept :
    let params := sampleParams "+9779811111111"
    AllOrNothing samplePlatform params sampleProven.db
      (serve samplePlatform sampleProven (.call 2 (.registerAccount params) :: [.fail 2])).db
      (.error .database) := by
  intro params
  have hstatement : (sampleProven.struck (Call.program samplePlatform) Call.aborted 2
      (.call 2 (.registerAccount params) :: [.fail 2])).all (fun qr => qr.program.isStatement) = true := by
    decide +kernel
  refine (registration_atomic_iff (p := 2) ⟨by decide +kernel, by decide,
    fun qr hq => .inl ((Option.all_eq_true _ _).mp hstatement qr hq), by decide +kernel⟩).mpr
      ⟨fun qr hq => ?_, fun pr hp => ?_⟩
  · have hevents : (sampleProven.struck (Call.program samplePlatform) Call.aborted 2
        (.call 2 (.registerAccount params) :: [.fail 2])).map Process.events = some [] := by decide +kernel
    rw [hq] at hevents
    exact Option.some.inj hevents
  · have hdrawn : ((serve samplePlatform sampleProven (.call 2 (.registerAccount params) ::
        [.fail 2])).procs 2).map Process.drawn = some [] := by decide +kernel
    rw [hp] at hdrawn
    exact not_collides_of_le (by simp [Option.some.inj hdrawn])

end Registration

end GuffSuff
