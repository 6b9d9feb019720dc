import GuffSuff.StoredPhones

/-! The tables of an account: each user has one row in each of them. A
registration writes them together, under the entries of the unique indexes that
it has claimed. -/

namespace GuffSuff

open ReadCommitted

namespace Registration

/-- The index entries that two accounts cannot share. -/
def Db.Taken : Key → Db → Prop
  | .user id, db => id ∈ keys db.users
  | .blindIndex digest, db => digest ∈ db.blindIndexes
  | .canonical name, db => name ∈ db.usernames.map Username.usernameCanonical
  | _, _ => False

def Account.claims (a : Account) : List Key :=
  [.user a.user.id, .blindIndex a.phoneIdentity.phoneBlindIndex, .canonical a.username.usernameCanonical]

structure Account.Owned (a : Account) : Prop where
  phoneIdentity : a.phoneIdentity.userId = a.user.id
  userProfile : a.userProfile.userId = a.user.id
  username : a.username.userId = a.user.id
  device : a.device.userId = a.user.id
  privacySettings : a.privacySettings.userId = a.user.id

/-- Each user owns exactly one of the rows, and nobody else owns one. -/
def Db.OneEach (db : Db) (owners : List Uuid) : Prop := owners.Perm (keys db.users)

structure Db.Accounts (db : Db) : Prop where
  users : (keys db.users).Nodup
  phoneIdentities : db.OneEach (db.phoneIdentities.map PhoneIdentity.userId)
  userProfiles : db.OneEach (db.userProfiles.map UserProfile.userId)
  usernames : db.OneEach (db.usernames.map Username.userId)
  devices : db.OneEach (db.devices.map Device.userId)
  privacySettings : db.OneEach (db.privacySettings.map PrivacySettings.userId)
  indexes : db.blindIndexes.Nodup
  names : (db.usernames.map Username.usernameCanonical).Nodup

def Db.accountTables (db : Db) :=
  (db.users, db.phoneIdentities, db.userProfiles, db.usernames, db.devices, db.privacySettings)

def Db.SameAccounts (db db' : Db) : Prop := db'.accountTables = db.accountTables

section
variable {db db' : Db} {a : Account}

theorem Db.SameAccounts.tables (h : db.SameAccounts db') :
    db'.users = db.users ∧ db'.phoneIdentities = db.phoneIdentities ∧
      db'.userProfiles = db.userProfiles ∧ db'.usernames = db.usernames ∧ db'.devices = db.devices ∧
      db'.privacySettings = db.privacySettings := by
  simpa only [Db.SameAccounts, Db.accountTables, Prod.mk.injEq] using h

theorem Db.taken_sameAccounts (h : db.SameAccounts db') (k : Key) : db'.Taken k = db.Taken k := by
  obtain ⟨hu, hp, _, hn, _⟩ := h.tables
  cases k <;> simp only [Db.Taken, Db.blindIndexes, hu, hp, hn]

theorem Db.Accounts.of_same (hdb : db.Accounts) (h : db.SameAccounts db') : db'.Accounts := by
  obtain ⟨hu, hp, hprofiles, hn, hd, hsettings⟩ := h.tables
  constructor
  case users => exact hu ▸ hdb.users
  case phoneIdentities => simpa only [Db.OneEach, hu, hp] using hdb.phoneIdentities
  case userProfiles => simpa only [Db.OneEach, hu, hprofiles] using hdb.userProfiles
  case usernames => simpa only [Db.OneEach, hu, hn] using hdb.usernames
  case devices => simpa only [Db.OneEach, hu, hd] using hdb.devices
  case privacySettings => simpa only [Db.OneEach, hu, hsettings] using hdb.privacySettings
  case indexes => simpa only [Db.blindIndexes, hp] using hdb.indexes
  case names => exact hn ▸ hdb.names

theorem Db.keys_insertAccount (a : Account) (db : Db) :
    keys (db.insertAccount a).users = keys db.users ++ [a.user.id] := by
  simp [Db.insertAccount, Db.insertAuditEvent, Db.insertSecurityEvent, Db.insertPrivacySettings,
    Db.insertDevice, Db.insertUsername, Db.insertUserProfile, Db.insertPhoneIdentity, Db.insertUser]

theorem Db.names_insertAccount (a : Account) (db : Db) :
    (db.insertAccount a).usernames.map Username.usernameCanonical =
      db.usernames.map Username.usernameCanonical ++ [a.username.usernameCanonical] := List.map_append

theorem Db.taken_insertAccount {k : Key} (h : k ∉ a.claims) (db : Db) :
    (db.insertAccount a).Taken k = db.Taken k := by
  simp only [Account.claims, List.mem_cons, List.not_mem_nil, or_false, not_or] at h
  obtain ⟨hu, hp, hn⟩ := h
  cases k with
  | user id =>
    have hne : id ≠ a.user.id := fun heq => hu (heq ▸ rfl)
    simp [Db.Taken, Db.keys_insertAccount, hne]
  | blindIndex digest =>
    have hne : digest ≠ a.phoneIdentity.phoneBlindIndex := fun heq => hp (heq ▸ rfl)
    simp [Db.Taken, Db.blindIndexes_insertAccount, hne]
  | canonical name =>
    have hne : name ≠ a.username.usernameCanonical := fun heq => hn (heq ▸ rfl)
    rw [Db.Taken, Db.names_insertAccount]
    simp [Db.Taken, hne]
  | _ => rfl

theorem Db.OneEach.insert {owners : List Uuid} {owner : Uuid} (h : db.OneEach owners)
    (howner : owner = a.user.id) : (db.insertAccount a).OneEach (owners ++ [owner]) := by
  rw [Db.OneEach, Db.keys_insertAccount, howner]
  exact List.Perm.append_right _ h

theorem Db.Accounts.insertAccount (hdb : db.Accounts) (ha : a.Owned)
    (hfree : ∀ k ∈ a.claims, ¬ db.Taken k) : (db.insertAccount a).Accounts := by
  constructor
  case users =>
    rw [Db.keys_insertAccount]
    have hid := hfree (.user a.user.id) (by simp [Account.claims])
    refine hdb.users.append (List.nodup_singleton _) ?_
    rw [List.disjoint_singleton]
    exact hid
  case indexes =>
    rw [Db.blindIndexes_insertAccount]
    have hindex := hfree (.blindIndex a.phoneIdentity.phoneBlindIndex) (by simp [Account.claims])
    refine hdb.indexes.append (List.nodup_singleton _) ?_
    rw [List.disjoint_singleton]
    exact hindex
  case names =>
    rw [Db.names_insertAccount]
    have hname := hfree (.canonical a.username.usernameCanonical) (by simp [Account.claims])
    refine hdb.names.append (List.nodup_singleton _) ?_
    rw [List.disjoint_singleton]
    exact hname
  case phoneIdentities => exact (congrArg _ List.map_append).mpr (hdb.phoneIdentities.insert ha.phoneIdentity)
  case userProfiles => exact (congrArg _ List.map_append).mpr (hdb.userProfiles.insert ha.userProfile)
  case usernames => exact (congrArg _ List.map_append).mpr (hdb.usernames.insert ha.username)
  case devices => exact (congrArg _ List.map_append).mpr (hdb.devices.insert ha.device)
  case privacySettings =>
    exact (congrArg _ List.map_append).mpr (hdb.privacySettings.insert ha.privacySettings)

end

/-- What a move does to the tables of the accounts. -/
def Event.Enters (db db' : Db) : Event → Prop
  | accountRegistered _ _ a => a.Owned ∧ (∀ k ∈ a.claims, ¬ db.Taken k) ∧ db' = db.insertAccount a
  | _ => db.SameAccounts db'

def Event.IsRegistration : Event → Prop
  | accountRegistered .. => True
  | _ => False

/-- What a verification of a code records. -/
def Event.IsVerification : Event → Prop
  | challengeSelected .. | codeCompared .. | attemptCounted .. => True
  | _ => False

theorem Event.not_registration {e : Event} (h : e.IsVerification) : ¬ e.IsRegistration := by
  cases e <;> exact fun hreg => by first | exact hreg | exact h

theorem sameAccounts_of_identities (db db' : Db) (h : db.SameIdentities db') : db.SameAccounts db' := by
  obtain ⟨_, _, _, rfl⟩ := h
  rfl

theorem Db.Accounts.event {db db' : Db} {e : Event} (hdb : db.Accounts) (h : e.Enters db db') :
    db'.Accounts := by
  cases e with
  | accountRegistered challengeId phoneNumber a =>
    obtain ⟨ha, hfree, rfl⟩ := h
    exact hdb.insertAccount ha hfree
  | _ => exact hdb.of_same h

/-- The tables of the accounts as a specification of single statements: an index
entry that a transaction has claimed stays free until it commits. -/
def accounts : Spec Db Key Uuid Event Prop where
  moves _ db e db' := e.Enters db db'
  holds _ db := db.Accounts
  cell := Db.Taken
  has _ _ := False
  holds_move := fun h hm => h.event hm
  holds_tick := fun h _ => h

theorem accounts_frames : accounts.Frames Db.SameAccounts fun e => ¬ e.IsRegistration where
  refl := fun _ => rfl
  trans := fun h h' => h'.trans h
  moves := by
    intro _ db e db' he h
    cases e with
    | accountRegistered => exact absurd trivial he
    | _ => exact h
  cell := fun k _ _ h => Db.taken_sameAccounts h k
  has := fun _ _ _ _ h => h

theorem keeps_throw {x : Failure} {R : Db → Db → Prop} {E : Event → Prop} : (throw x).Keeps R E := trivial

theorem keeps_checked {checks : List (Bool × Failure)} {R : Db → Db → Prop} {E : Event → Prop}
    {k : Program} (hk : k.Keeps R E) : (checked checks k).Keeps R E := by
  induction checks with
  | nil => exact hk
  | cons c checks ih =>
    unfold checked
    split
    · exact keeps_throw
    · exact ih

theorem keeps_insertRow {locks : List Key} {checks : Db → List (Bool × Failure)} {write : Db → Db}
    {R : Db → Db → Prop} {E : Event → Prop} {k : Program} (hwrite : ∀ db, R db (write db))
    (hk : k.Keeps R E) : (insertRow locks checks write k).Keeps R E := by
  induction locks with
  | nil => exact fun _ => keeps_checked ⟨hwrite, hk⟩
  | cons key locks ih => exact fun _ => ih

section
variable {pf : Platform}

theorem keeps_requestOtpChallenge (phoneBlindIndex : Digest) :
    (OtpService.requestOtpChallenge pf phoneBlindIndex).Keeps Db.SameAccounts
      fun e => ¬ e.IsRegistration := by
  intro selectedAt db checkedAt
  dsimp only
  split
  · trivial
  intro drawn challengeId now
  refine keeps_insertRow (fun _ => rfl) ⟨id, ?_⟩
  split
  · trivial
  · exact fun id => keeps_insertRow (fun _ => rfl) ⟨fun h => h, trivial⟩

theorem keeps_verifyOtpChallenge {R : Db → Db → Prop} {E : Event → Prop}
    (hcount : ∀ id isMatch db, R db (db.countAttempt id isMatch)) (hE : ∀ e, e.IsVerification → E e)
    (challengeId candidateOtp : String) :
    (OtpService.verifyOtpChallenge pf challengeId candidateOtp).Keeps R E := by
  unfold OtpService.verifyOtpChallenge
  split
  · trivial
  intro db readAt
  refine ⟨hE _ trivial, ?_⟩
  split
  · trivial
  split
  · trivial
  intro comparedAt
  dsimp only
  split
  · trivial
  split
  · trivial
  · exact fun _ _ => ⟨hE _ trivial, fun _ => ⟨hcount _ _, hE _ trivial, trivial⟩⟩

theorem keeps_createSession {R : Db → Db → Prop} {E : Event → Prop}
    (hsession : ∀ db db', Db.SameIdentities db db' → R db db') (hE : ∀ g, E (.session g))
    (params : RegisterParams) (canonicalUsername : String) (ids : AccountService.AccountIds) :
    ((SessionService.createSession pf.services ids.userId ids.deviceId).embed
      AccountService.sessionTables
      (AccountService.answerRegistered params canonicalUsername ids)).Keeps R E := by
  refine Program.keeps_embed (fun _ db => hsession db _ ⟨_, _, _, rfl⟩) hE (fun r => ?_) _
  cases r with
  | error e => exact keeps_throw
  | ok tokenPair => trivial

end

section
variable {C : Spec.Contract Db Event Answer} {L : List Key} {D : List Uuid} {es : List Event}
variable {w : World Db}

theorem rely_free {w' : World Db} {k : Key} (h : accounts.Rely L D w w') (hL : k ∈ L)
    (hfree : ¬ w.db.Taken k) : ¬ w'.db.Taken k := by
  have hsame : w'.db.Taken k = w.db.Taken k := h.same k hL
  rwa [hsame]

theorem enters_insertAccount {a : Account} {k : Program} (hfail : ∀ x w, C.answer (.error x) es w)
    (hk : ∀ w' L', w'.db.Accounts → a.kept.claims ⊆ L' → (∀ k ∈ a.kept.claims, ¬ w'.db.Taken k) →
      wellFormedUsername a.kept.username.usernameCanonical = true → accounts.Safe C k L' D
        (Db.insertAccount a.kept) es w') :
    accounts.Safe C (AccountService.insertAccount a k) L D id es w := by
  refine safe_insertRow hfail fun w₁ L₁ h₁ _ husers hu => ?_
  refine safe_insertRow hfail fun w₂ L₂ h₂ _ hphones hp => ?_
  refine safe_insertRow hfail fun w₃ L₃ h₃ _ _ _ => ?_
  refine safe_insertRow hfail fun w₄ L₄ h₄ _ hnames hn => ?_
  refine safe_insertRow hfail fun w₅ L₅ h₅ _ _ _ => ?_
  refine safe_insertRow hfail fun w₆ L₆ h₆ _ _ _ => ?_
  refine safe_insertRow hfail fun w₇ L₇ h₇ _ _ _ => ?_
  refine safe_insertRow hfail fun w₈ L₈ h₈ hi₈ _ _ => ?_
  have hafter₄ := h₅.trans (h₆.trans (h₇.trans h₈))
  have hafter₂ := h₃.trans (h₄.trans hafter₄)
  have hafter₁ := h₂.trans hafter₂
  simp only [List.forall_mem_cons] at hu hp hn
  obtain ⟨_, _, hu, _⟩ := hu
  obtain ⟨_, hp, _⟩ := hp
  obtain ⟨_, _, hform, _, hn, _⟩ := hn
  have huser : ¬ w₁.db.Taken (.user a.user.id) := decide_eq_false_iff_not.mp hu
  have hindex : ¬ w₂.db.Taken (.blindIndex a.phoneIdentity.phoneBlindIndex) := decide_eq_false_iff_not.mp hp
  have hname : ¬ w₄.db.Taken (.canonical a.username.kept.usernameCanonical) := decide_eq_false_iff_not.mp hn
  have huserLock : .user a.user.id ∈ L₁ := husers List.mem_cons_self
  have hindexLock : .blindIndex a.phoneIdentity.phoneBlindIndex ∈ L₂ := hphones (by simp)
  have hnameLock : .canonical a.username.kept.usernameCanonical ∈ L₄ := hnames (by simp)
  refine hk w₈ L₈ hi₈ ?_ ?_ (by simpa [Account.kept] using hform)
  · simp [Account.claims, Account.kept, User.kept, hafter₁.locks huserLock, hafter₂.locks hindexLock,
      hafter₄.locks hnameLock]
  · simp only [Account.claims, Account.kept, List.forall_mem_cons, List.not_mem_nil, false_implies,
      implies_true, and_true]
    exact ⟨rely_free hafter₁.rely huserLock huser, rely_free hafter₂.rely hindexLock hindex,
      rely_free hafter₄.rely hnameLock hname⟩

theorem enters_registerAccount {pf : Platform} (hC : ∀ es, C.trace es) (hans : ∀ r es w, C.answer r es w)
    (params : RegisterParams) :
    accounts.Safe C (AccountService.registerAccount pf params) [] [] id [] w := by
  unfold AccountService.registerAccount
  split
  · exact safe_throw (hans _ _)
  intro w₁ _ _
  dsimp only
  split
  · exact safe_throw (hans _ _)
  split
  · exact safe_throw (hans _ _)
  split
  · exact safe_throw (hans _ _)
  intro w₂ _ _ drawn _ w₃ _ _
  dsimp only
  split
  · exact safe_throw (hans _ _)
  split
  · exact safe_throw (hans _ _)
  intro w₄ _ _
  dsimp only
  split
  · exact safe_throw (hans _ _)
  refine safe_drawIds fun ids D w₅ _ w₆ _ _ => ?_
  refine enters_insertAccount (fun _ => hans _ _) fun w₇ L' hw₇ hclaims hfree _ w₈ hr₈ _ => ?_
  refine ⟨⟨⟨rfl, rfl, rfl, rfl, rfl⟩, ?_, rfl⟩, ?_, fun _ hx => hx.elim, hC _, ?_⟩
  · exact fun k hk => rely_free hr₈ (hclaims hk) (hfree k hk)
  · exact fun k hk => Db.taken_insertAccount (fun hmem => hk (hclaims hmem)) w₈.db
  · exact Spec.Safe.of_keeps accounts_frames hC hans (keeps_createSession
      sameAccounts_of_identities (fun _ => id) params _ ids) fun _ => rfl

end

/-- Nothing is asked of a call but to keep to the tables of the accounts. -/
def Call.silent (_ : Call) (_ : World Db) : Spec.Contract Db Event Answer where
  trace _ := True
  answer _ _ _ := True

theorem Call.enters (pf : Platform) (c : Call) (w : World Db) :
    accounts.Safe (c.silent w) (c.program pf) [] [] id [] w := by
  cases c with
  | requestOtpChallenge phoneBlindIndex =>
    exact .of_keeps accounts_frames (fun _ => trivial) (fun _ _ _ => trivial)
      (keeps_requestOtpChallenge phoneBlindIndex) fun _ => rfl
  | verifyOtpChallenge challengeId candidateOtp =>
    exact .of_keeps accounts_frames (fun _ => trivial) (fun _ _ _ => trivial)
      (keeps_verifyOtpChallenge (fun _ _ _ => rfl) (fun e he => Event.not_registration he) challengeId
        candidateOtp) fun _ => rfl
  | registerAccount params =>
    exact enters_registerAccount (fun _ => trivial) (fun _ _ _ => trivial) params

theorem accounts_run {pf : Platform} {db : Db} {clock : Nat} (used : List Uuid) (hdb : db.Accounts)
    (sched : List Choice) : (serve pf (.boot db clock used) sched).db.Accounts := by
  have hboot : ReadCommitted.Server.Sound accounts Call.silent ⟨clock, db⟩
      (ReadCommitted.Server.boot db clock used) :=
    ReadCommitted.Server.sound_boot hdb fun _ h => absurd h not_false
  refine (hboot.run fun ch _ => ?_).holds
  cases ch with
  | call p c => exact fun w _ => ⟨trivial, c.enters pf w⟩
  | fail p => exact fun _ _ _ _ => trivial
  | _ => trivial

section
variable {db : Db} {u : User}

theorem Db.OneEach.row {Row : Type} {rows : List Row} {owner : Row → Uuid} (hdb : db.Accounts)
    (h : db.OneEach (rows.map owner)) (hu : u ∈ db.users) :
    ∃ r, rows.filter (fun r => owner r = u.id) = [r] := by
  have hmem : u.id ∈ rows.map owner := h.mem_iff.mpr (List.mem_map_of_mem hu)
  have hcount := List.count_eq_one_of_mem (h.nodup_iff.mpr hdb.users) hmem
  rw [List.count_eq_countP, List.countP_map, List.countP_eq_length_filter] at hcount
  obtain ⟨r, hr⟩ := List.length_eq_one_iff.mp hcount
  exact ⟨r, hr⟩

theorem Db.Accounts.user (hdb : db.Accounts) (hu : u ∈ db.users) :
    db.users.filter (fun v => v.id = u.id) = [u] := by
  have hself : db.OneEach (db.users.map User.id) := List.Perm.refl _
  obtain ⟨v, hv⟩ := hself.row hdb hu
  have hmem : u ∈ db.users.filter fun v => v.id = u.id := List.mem_filter.mpr ⟨hu, by simp⟩
  rw [hv] at hmem ⊢
  rw [List.mem_singleton.mp hmem]

theorem Db.Accounts.profileRows (hdb : db.Accounts) (hu : u ∈ db.users) :
    ∃ row, AccountService.profileRows db u.id = [row] := by
  obtain ⟨up, hup⟩ := hdb.userProfiles.row hdb hu
  obtain ⟨un, hun⟩ := hdb.usernames.row hdb hu
  refine ⟨AccountService.profileRow u up (some un), ?_⟩
  simp [AccountService.profileRows, AccountService.leftJoined, hdb.user hu, hup, hun]

end

/-- Whatever registrations race for, and wherever they fail, each user has one
row in each table of its account, and one profile. -/
theorem accounts_complete (pf : Platform) {db : Db} {clock : Nat} (used : List Uuid) (hdb : db.Accounts)
    (sched : List Choice) :
    let s := serve pf (.boot db clock used) sched
    s.db.Accounts ∧ ∀ u ∈ s.db.users, ∃ row, AccountService.profileRows s.db u.id = [row] ∧
      AccountService.getProfile s.db u.id = .ok row := by
  intro s
  have hs : s.db.Accounts := accounts_run used hdb sched
  refine ⟨hs, fun u hu => ?_⟩
  obtain ⟨row, hrow⟩ := hs.profileRows hu
  exact ⟨row, hrow, by simp [AccountService.getProfile, hrow]⟩

theorem empty_accounts : Db.empty.Accounts := by
  constructor <;> first | exact List.nodup_nil | exact List.Perm.refl _

theorem sampleStored_complete :
    (sampleStored "+9779811111111" "+9779811111111").db.users.length = 1 ∧
      (sampleStored "+9779811111111" "+9779811111111").db.Accounts :=
  ⟨by decide +kernel, (accounts_complete samplePlatform [] empty_accounts _).1⟩

end Registration

end GuffSuff
