import GuffSuff.Accounts
import GuffSuff.ReadCommitted.Objects
import GuffSuff.ReadCommitted.Reads

/-! `AccountService.isUsernameAvailable`, `getProfile` and `getPrivacySettings`
beside the calls of registration, and the accounts as a directory that is
extended and asked by one caller at a time. -/

namespace GuffSuff

open ReadCommitted

namespace Registration

namespace AccountService

/-- The columns of `getPrivacySettings`. -/
structure PrivacyColumns where
  lastSeenVisibility : String
  onlineStatusVisibility : String
  profilePhotoVisibility : String
  phoneNumberVisibility : String
  readReceipts : Bool
  phoneDiscoverability : Bool
  securityNotifications : Bool
  notificationPreviews : Bool
  deriving DecidableEq, Repr

def privacyColumns (r : PrivacySettings) : PrivacyColumns :=
  { lastSeenVisibility := r.lastSeenVisibility, onlineStatusVisibility := r.onlineStatusVisibility,
    profilePhotoVisibility := r.profilePhotoVisibility,
    phoneNumberVisibility := r.phoneNumberVisibility, readReceipts := r.readReceipts,
    phoneDiscoverability := r.phoneDiscoverability, securityNotifications := r.securityNotifications,
    notificationPreviews := r.notificationPreviews }

def isUsernameAvailable (pf : Platform) (db : Db) (username : String) : Bool :=
  pf.toLowerCase username ∉ db.usernames.map Username.usernameCanonical

def getPrivacySettings (db : Db) (userId : Uuid) : Except Failure PrivacyColumns :=
  match lookup db.privacySettings userId with
  | none => .error (.error "Privacy settings not found")
  | some r => .ok (privacyColumns r)

end AccountService

namespace UsernamesController

/-- What `CheckUsernameSchema` lets through. -/
structure CheckUsername where
  username : String
  wellFormed : wellFormedUsername username = true
  deriving DecidableEq

def checkUsernameSchema (username : String) : Option CheckUsername :=
  if h : wellFormedUsername username = true then some ⟨username, h⟩ else none

end UsernamesController

inductive Query where
  | isUsernameAvailable (check : UsernamesController.CheckUsername)
  | getProfile (userId : Uuid)
  | getPrivacySettings (userId : Uuid)
  deriving DecidableEq

inductive Found where
  | available (isAvailable : Bool)
  | profile (row : AccountService.Profile)
  | privacySettings (row : AccountService.PrivacyColumns)
  deriving DecidableEq, Repr

abbrev Reply := Except Failure Found

namespace Db

def usernameIds (db : Db) (userId : Uuid) : List Uuid :=
  (db.usernames.filter fun un => un.userId = userId).map Username.id

/-- The same rows, the usernames in the order of their ids in the list. -/
def inOrder (db : Db) (ids : List Uuid) : Db :=
  { db with usernames := ids.flatMap fun id => db.usernames.filter fun un => un.id = id }

end Db

namespace Query

/-- The rows of the join come in any order. -/
def accept : Query → Db → List Uuid → Bool
  | getProfile userId, db, ids => ids.isPerm (db.usernameIds userId)
  | _, _, _ => true

def reply (pf : Platform) : Query → Db → List Uuid → Reply
  | isUsernameAvailable check, db, _ =>
    .ok (.available (AccountService.isUsernameAvailable pf db check.username))
  | getProfile userId, db, ids => (AccountService.getProfile (db.inOrder ids) userId).map .profile
  | getPrivacySettings userId, db, _ => (AccountService.getPrivacySettings db userId).map .privacySettings

end Query

def accountQueries (pf : Platform) : Queries Db Uuid Query Reply := ⟨Query.accept, Query.reply pf⟩

structure Entry where
  profile : AccountService.Profile
  privacySettings : AccountService.PrivacyColumns
  deriving DecidableEq, Repr

abbrev Directory := Uuid → Option Entry

inductive Operation where
  | register (e : Entry)
  | ask (q : Query) (r : Reply)
  deriving DecidableEq

namespace Directory

def Free (dir : Directory) (name : Option String) : Prop :=
  ∀ id e, dir id = some e → e.profile.usernameCanonical ≠ name

/-- What the directory has to say to a query. -/
def Answers (pf : Platform) (dir : Directory) : Query → Reply → Prop
  | .isUsernameAvailable check, r =>
    ∃ b, r = .ok (.available b) ∧ (b = true ↔ dir.Free (some (pf.toLowerCase check.username)))
  | .getProfile userId, r => r = match dir userId with
    | none => .error (.error "User profile not found")
    | some e => .ok (.profile e.profile)
  | .getPrivacySettings userId, r => r = match dir userId with
    | none => .error (.error "Privacy settings not found")
    | some e => .ok (.privacySettings e.privacySettings)

def Allows (pf : Platform) (dir : Directory) : Operation → Prop
  | .register e => dir e.profile.userId = none ∧ dir.Free e.profile.usernameCanonical
  | .ask q r => dir.Answers pf q r

def apply (dir : Directory) : Operation → Directory
  | .register e => Function.update dir e.profile.userId (some e)
  | .ask .. => dir

end Directory

def directory (pf : Platform) : Object Directory Operation where
  allows := Directory.Allows pf
  apply := Directory.apply

def Db.entry (db : Db) (u : User) : Option Entry :=
  match db.userProfiles.find? fun up => up.userId = u.id, db.usernames.find? fun un => un.userId = u.id,
    db.privacySettings.find? fun s => s.userId = u.id with
  | some up, some un, some s =>
    some ⟨AccountService.profileRow u up (some un), AccountService.privacyColumns s⟩
  | _, _, _ => none

def Db.directory (db : Db) : Directory := fun id => (lookup db.users id).bind db.entry

def Account.entry (a : Account) : Entry :=
  ⟨AccountService.profileRow a.user a.userProfile (some a.username),
    AccountService.privacyColumns a.privacySettings⟩

abbrev Log := Queries.Entry Event Query Reply

/-- The operation that an entry of the log stands for. -/
def operation : Log → Option Operation
  | .base (.accountRegistered _ _ a) => some (.register a.entry)
  | .base _ => none
  | .answered q r => some (.ask q r)

section
variable {db db' : Db} {a : Account}

theorem find?_of_filter {Row : Type} {rows : List Row} {p : Row → Bool} {r : Row}
    (h : rows.filter p = [r]) : rows.find? p = some r := by
  rw [← List.head?_filter, h]
  rfl

/-- The rows of an account, of which each table has one. -/
structure Db.RowsOf (db : Db) (u : User) (up : UserProfile) (un : Username) (s : PrivacySettings) :
    Prop where
  users : db.users.filter (fun v => v.id = u.id) = [u]
  userProfiles : db.userProfiles.filter (fun r => r.userId = u.id) = [up]
  usernames : db.usernames.filter (fun r => r.userId = u.id) = [un]
  privacySettings : db.privacySettings.filter (fun r => r.userId = u.id) = [s]

theorem Db.Accounts.rowsOf (hdb : db.Accounts) {u : User} (hu : u ∈ db.users) :
    ∃ up un s, db.RowsOf u up un s := by
  obtain ⟨up, hup⟩ := hdb.userProfiles.row hdb hu
  obtain ⟨un, hun⟩ := hdb.usernames.row hdb hu
  obtain ⟨s, hs⟩ := hdb.privacySettings.row hdb hu
  exact ⟨up, un, s, hdb.user hu, hup, hun, hs⟩

theorem Db.RowsOf.directory {u : User} {up : UserProfile} {un : Username} {s : PrivacySettings}
    (h : db.RowsOf u up un s) :
    db.directory u.id =
      some ⟨AccountService.profileRow u up (some un), AccountService.privacyColumns s⟩ := by
  have hu : lookup db.users u.id = some u := find?_of_filter h.users
  simp only [Db.directory, hu, Option.bind_some, Db.entry, find?_of_filter h.userProfiles,
    find?_of_filter h.usernames, find?_of_filter h.privacySettings]

theorem Db.directory_eq_none {id : Uuid} (h : id ∉ keys db.users) : db.directory id = none := by
  simp only [Db.directory, lookup_eq_none.mpr h, Option.bind_none]

theorem Db.Accounts.directory_cases (hdb : db.Accounts) (id : Uuid) :
    (id ∉ keys db.users ∧ db.directory id = none) ∨
      ∃ u up un s, u.id = id ∧ u ∈ db.users ∧ db.RowsOf u up un s := by
  by_cases h : id ∈ keys db.users
  · obtain ⟨u, hu, rfl⟩ := mem_keys.mp h
    obtain ⟨up, un, s, hrows⟩ := hdb.rowsOf hu
    exact .inr ⟨u, up, un, s, rfl, hu, hrows⟩
  · exact .inl ⟨h, Db.directory_eq_none h⟩

theorem Db.directory_same (h : db.SameAccounts db') : db'.directory = db.directory := by
  obtain ⟨hu, _, hprofiles, hn, _, hsettings⟩ := h.tables
  funext id
  simp only [Db.directory, hu]
  congr 1
  funext u
  simp only [Db.entry, hprofiles, hn, hsettings]

theorem Db.Accounts.free_iff (hdb : db.Accounts) {name : String} :
    db.directory.Free (some name) ↔ name ∉ db.usernames.map Username.usernameCanonical := by
  constructor
  · intro hfree hmem
    obtain ⟨un, hun, hname⟩ := List.mem_map.mp hmem
    have huser : un.userId ∈ keys db.users :=
      hdb.usernames.mem_iff.mp (List.mem_map_of_mem hun)
    obtain ⟨u, hu, hid⟩ := mem_keys.mp huser
    obtain ⟨up, un', s, hrows⟩ := hdb.rowsOf hu
    have hmem' : un ∈ db.usernames.filter fun r => r.userId = u.id :=
      List.mem_filter.mpr ⟨hun, decide_eq_true hid.symm⟩
    rw [hrows.usernames] at hmem'
    obtain rfl := List.mem_singleton.mp hmem'
    exact hfree _ _ hrows.directory (congrArg some hname)
  · intro hnot id e he hname
    obtain ⟨_, hnone⟩ | ⟨u, up, un, s, rfl, _, hrows⟩ := hdb.directory_cases id
    · exact absurd (he.symm.trans hnone) (by simp)
    · obtain rfl := Option.some.inj (hrows.directory.symm.trans he)
      have hun : un ∈ db.usernames.filter fun r => r.userId = u.id := hrows.usernames ▸ List.mem_cons_self
      exact hnot (List.mem_map.mpr ⟨un, (List.mem_filter.mp hun).1, Option.some.inj hname⟩)

theorem Db.OneEach.owner_free {Row : Type} {rows : List Row} {owner : Row → Uuid} {id : Uuid}
    (h : db.OneEach (rows.map owner)) (hid : id ∉ keys db.users) :
    rows.filter (fun r => owner r = id) = [] := by
  refine List.filter_eq_nil_iff.mpr fun r hr howner => hid ?_
  exact h.mem_iff.mp (List.mem_map.mpr ⟨r, hr, by simpa using howner⟩)

theorem Db.users_insertAccount : (db.insertAccount a).users = db.users ++ [a.user] := rfl

theorem Db.userProfiles_insertAccount :
    (db.insertAccount a).userProfiles = db.userProfiles ++ [a.userProfile] := rfl

theorem Db.usernames_insertAccount : (db.insertAccount a).usernames = db.usernames ++ [a.username] := rfl

theorem Db.privacySettings_insertAccount :
    (db.insertAccount a).privacySettings = db.privacySettings ++ [a.privacySettings] := rfl

theorem Db.rowsOf_insertAccount (hdb : db.Accounts) (ha : a.Owned) (hid : a.user.id ∉ keys db.users) :
    (db.insertAccount a).RowsOf a.user a.userProfile a.username a.privacySettings where
  users := by
    have hself : db.OneEach (db.users.map User.id) := List.Perm.refl _
    simp [Db.users_insertAccount, List.filter_append, hself.owner_free hid]
  userProfiles := by
    simp [Db.userProfiles_insertAccount, List.filter_append, hdb.userProfiles.owner_free hid,
      ha.userProfile]
  usernames := by
    simp [Db.usernames_insertAccount, List.filter_append, hdb.usernames.owner_free hid, ha.username]
  privacySettings := by
    simp [Db.privacySettings_insertAccount, List.filter_append, hdb.privacySettings.owner_free hid,
      ha.privacySettings]

theorem Db.RowsOf.insertAccount {u : User} {up : UserProfile} {un : Username} {s : PrivacySettings}
    (h : db.RowsOf u up un s) (ha : a.Owned) (hne : a.user.id ≠ u.id) :
    (db.insertAccount a).RowsOf u up un s where
  users := by simp [Db.users_insertAccount, List.filter_append, h.users, hne]
  userProfiles := by
    simp [Db.userProfiles_insertAccount, List.filter_append, h.userProfiles, ha.userProfile, hne]
  usernames := by simp [Db.usernames_insertAccount, List.filter_append, h.usernames, ha.username, hne]
  privacySettings := by
    simp [Db.privacySettings_insertAccount, List.filter_append, h.privacySettings, ha.privacySettings, hne]

theorem Db.directory_insertAccount (hdb : db.Accounts) (ha : a.Owned) (hid : a.user.id ∉ keys db.users) :
    (db.insertAccount a).directory = Function.update db.directory a.user.id (some a.entry) := by
  funext id
  by_cases heq : id = a.user.id
  · subst heq
    rw [Function.update_self]
    exact (Db.rowsOf_insertAccount hdb ha hid).directory
  · rw [Function.update_of_ne heq]
    obtain ⟨hnot, hnone⟩ | ⟨u, up, un, s, rfl, _, hrows⟩ := hdb.directory_cases id
    · rw [hnone]
      exact Db.directory_eq_none (by simpa [Db.keys_insertAccount] using ⟨hnot, heq⟩)
    · rw [hrows.directory]
      exact (hrows.insertAccount ha (Ne.symm heq)).directory

theorem Db.RowsOf.profileRows {u : User} {up : UserProfile} {un : Username} {s : PrivacySettings}
    (h : db.RowsOf u up un s) {ids : List Uuid} (hids : ids.Perm (db.usernameIds u.id)) :
    AccountService.profileRows (db.inOrder ids) u.id = [AccountService.profileRow u up (some un)] := by
  have hone : ids = [un.id] := List.perm_singleton.mp (by simpa [Db.usernameIds, h.usernames] using hids)
  have hmem : un ∈ db.usernames.filter fun r => r.userId = u.id := h.usernames ▸ List.mem_cons_self
  have hun : (db.inOrder ids).usernames.filter (fun r => r.userId = u.id) = [un] := by
    have hswap : (db.usernames.filter fun r => r.id = un.id).filter (fun r => r.userId = u.id) =
        (db.usernames.filter fun r => r.userId = u.id).filter fun r => r.id = un.id := by
      simp only [List.filter_filter, Bool.and_comm]
    simp [Db.inOrder, hone, hswap, h.usernames]
  have hu : (db.inOrder ids).users.filter (fun v => v.id = u.id) = [u] := h.users
  have hup : (db.inOrder ids).userProfiles.filter (fun r => r.userId = u.id) = [up] := h.userProfiles
  simp [AccountService.profileRows, AccountService.leftJoined, hu, hup, hun]

/-- Whatever order its rows come in, a query is answered by what the directory says. -/
theorem Db.Accounts.answers {pf : Platform} (hdb : db.Accounts) {q : Query} {r : Reply}
    (h : (accountQueries pf).Replies q db r) : db.directory.Answers pf q r := by
  obtain ⟨ids, hids, rfl⟩ := h
  cases q with
  | isUsernameAvailable check =>
    refine ⟨_, rfl, ?_⟩
    rw [hdb.free_iff]
    exact decide_eq_true_iff
  | getProfile userId =>
    obtain ⟨hnot, hnone⟩ | ⟨u, up, un, s, rfl, _, hrows⟩ := hdb.directory_cases userId
    · have hself : db.OneEach (db.users.map User.id) := List.Perm.refl _
      have hrows : AccountService.profileRows (db.inOrder ids) userId = [] := by
        simp [AccountService.profileRows, Db.inOrder, hself.owner_free hnot]
      simp [Directory.Answers, hnone, accountQueries, Query.reply, AccountService.getProfile, hrows,
        Except.map]
    · have hone := hrows.profileRows (List.isPerm_iff.mp hids)
      simp [Directory.Answers, hrows.directory, accountQueries, Query.reply, AccountService.getProfile, hone,
        Except.map]
  | getPrivacySettings userId =>
    obtain ⟨hnot, hnone⟩ | ⟨u, up, un, s, rfl, _, hrows⟩ := hdb.directory_cases userId
    · have hrow : lookup db.privacySettings userId = none := by
        refine lookup_eq_none.mpr fun hmem => hnot ?_
        exact hdb.privacySettings.mem_iff.mp hmem
      simp [Directory.Answers, hnone, accountQueries, Query.reply, AccountService.getPrivacySettings, hrow,
        Except.map]
    · have hrow : lookup db.privacySettings u.id = some s := find?_of_filter hrows.privacySettings
      simp [Directory.Answers, hrows.directory, accountQueries, Query.reply,
        AccountService.getPrivacySettings, hrow, Except.map]

end

theorem accounts_show (pf : Platform) :
    ((accountQueries pf).spec accounts).Shows (directory pf) Db.directory operation where
  silent := by
    intro _ db e db' _ h hop
    cases e with
    | base e =>
      cases e with
      | accountRegistered => exact absurd hop (by simp [operation])
      | _ => exact Db.directory_same h
    | answered q r => exact absurd hop (by simp [operation])
  acts := by
    intro _ db e db' op hdb h hop
    cases e with
    | base e =>
      cases e with
      | accountRegistered challengeId phoneNumber a =>
        obtain ⟨ha, hfree, rfl⟩ := h
        obtain rfl := Option.some.inj hop
        have hid : a.user.id ∉ keys db.users := hfree (.user a.user.id) (by simp [Account.claims])
        have hname := hfree (.canonical a.username.usernameCanonical) (by simp [Account.claims])
        exact ⟨⟨Db.directory_eq_none hid, (Db.Accounts.free_iff hdb).mpr hname⟩,
          Db.directory_insertAccount hdb ha hid⟩
      | _ => exact absurd hop (by simp [operation])
    | answered q r =>
      obtain ⟨rfl, hreply⟩ := h
      obtain rfl := Option.some.inj hop
      exact ⟨Db.Accounts.answers hdb hreply, rfl⟩

end Registration

end GuffSuff
