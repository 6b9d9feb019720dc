import GuffSuff.AccountReads

/-! Registrations and readings of accounts in any interleaving: the directory
that they are, and what is read of an account once it has been registered. -/

namespace GuffSuff

open ReadCommitted

namespace Registration

open AccountService (AccountIds accountOf)

/-- The event enters the account of these parameters, with the identifiers drawn for it, as its
columns keep them. -/
def Registers (pf : Platform) (params : RegisterParams) (ids : AccountIds) (e : Event) : Prop :=
  wellFormedUsername (pf.toLowerCase params.username) = true ∧ ∃ challengeId phoneBlindIndex encryptedPhone now,
    e = .accountRegistered challengeId params.phoneNumber
      (accountOf params (pf.toLowerCase params.username) phoneBlindIndex encryptedPhone ids now).kept

def registeredOf (pf : Platform) (params : RegisterParams) (ids : AccountIds) (tokenPair : GuffSuff.Value) :
    Value :=
  .registered
    { userId := ids.userId, username := pf.toLowerCase params.username,
      displayName := params.displayName, deviceId := ids.deviceId, tokenPair }

namespace Call

def Records (pf : Platform) : Call → List Event → Prop
  | registerAccount params, es => ∀ e ∈ es, e.IsRegistration → ∃ ids, Registers pf params ids e
  | _, es => ∀ e ∈ es, ¬ e.IsRegistration

def Returns (pf : Platform) : Call → Answer → List Event → Prop
  | registerAccount params, r, es => ∀ v, r = .ok v → ∃ ids tokenPair, v = registeredOf pf params ids tokenPair ∧
      ∃ e ∈ es, Registers pf params ids e
  | _, _, _ => True

def entering (pf : Platform) (c : Call) (_ : World Db) : Spec.Contract Db Event Answer where
  trace := c.Records pf
  answer r es _ := c.Returns pf r es

end Call

theorem accounts_framed : accounts.Framed AccountService.sessionTables Db.SameAccounts where
  refl := fun _ => rfl
  put := fun _ _ _ h => h
  moves := fun _ _ _ _ h => h
  cell := fun k _ _ h => Db.taken_sameAccounts h k
  has := fun _ _ _ _ h => h

section
variable {pf : Platform} {w : World Db}

theorem entering_registerAccount (params : RegisterParams) (v : World Db) :
    accounts.Safe ((Call.registerAccount params).entering pf v) (AccountService.registerAccount pf params)
      [] [] id [] w := by
  have hfail : ∀ es x w', ((Call.registerAccount params).entering pf v).answer (.error x) es w' :=
    fun _ _ _ _ h => nomatch h
  unfold AccountService.registerAccount
  split
  · exact safe_throw (hfail _ _)
  intro w₁ _ _
  dsimp only
  split
  · exact safe_throw (hfail _ _)
  split
  · exact safe_throw (hfail _ _)
  split
  · exact safe_throw (hfail _ _)
  intro w₂ _ _ drawn _ w₃ _ _
  dsimp only
  split
  · exact safe_throw (hfail _ _)
  split
  · exact safe_throw (hfail _ _)
  intro w₄ _ _
  dsimp only
  split
  · exact safe_throw (hfail _ _)
  refine safe_drawIds fun ids D w₅ _ w₆ _ _ => ?_
  have hregisters : ∀ {index : Digest} {encrypted : Bytes} {now : Nat} {challengeId : Uuid},
      wellFormedUsername (keptText 32 (pf.toLowerCase params.username)) = true → Registers pf params ids
        (.accountRegistered challengeId params.phoneNumber
          (accountOf params (pf.toLowerCase params.username) index encrypted ids now).kept) := by
    intro index encrypted now challengeId hform
    refine ⟨?_, challengeId, index, encrypted, now, rfl⟩
    rwa [wellFormedUsername_of_kept hform] at hform
  refine enters_insertAccount (hfail _) fun w₇ L' hw₇ hclaims hfree hform w₈ hr₈ _ => ?_
  refine ⟨⟨⟨rfl, rfl, rfl, rfl, rfl⟩, ?_, rfl⟩, ?_, fun _ hx => hx.elim, ?_, ?_⟩
  · exact fun k hk => rely_free hr₈ (hclaims hk) (hfree k hk)
  · exact fun k hk => Db.taken_insertAccount (fun hmem => hk (hclaims hmem)) w₈.db
  · intro e he _
    obtain rfl := List.mem_singleton.mp he
    exact ⟨ids, hregisters hform⟩
  · refine Spec.Safe.embed accounts_framed
      (T := fun es => (Call.registerAccount params).Records pf es ∧ ∃ e ∈ es, Registers pf params ids e)
      (fun _ h => h.1) ?_ ?_ _ (fun _ => rfl) ⟨?_, ?_⟩
    · intro es e h
      refine ⟨fun e' he' => ?_, ?_⟩
      · rcases List.mem_append.mp he' with he' | he'
        · exact h.1 e' he'
        · obtain rfl := List.mem_singleton.mp he'
          exact fun hreg => hreg.elim
      · obtain ⟨e', he', hreg⟩ := h.2
        exact ⟨e', List.mem_append_left _ he', hreg⟩
    · intro r L D f es w _ hes
      cases r with
      | error e => exact safe_throw (hfail _ _)
      | ok tokenPair =>
        refine safe_answer fun _ value hv => ?_
        obtain rfl := Except.ok.inj hv
        exact ⟨ids, tokenPair, rfl, hes.2⟩
    · intro e he _
      obtain rfl := List.mem_singleton.mp he
      exact ⟨ids, hregisters hform⟩
    · exact ⟨_, List.mem_singleton_self _, hregisters hform⟩

theorem Call.records_nil (c : Call) : c.Records pf [] := by
  cases c <;> exact fun _ he => absurd he List.not_mem_nil

theorem Call.keeps_entering : Queries.Keep accounts (Call.program pf) (Call.entering pf) := by
  intro c w _
  refine ⟨c.records_nil, ?_⟩
  cases c with
  | requestOtpChallenge phoneBlindIndex =>
    exact .of_keeps_trace accounts_frames (fun _ hes => hes) (fun _ _ _ => trivial)
      (keeps_requestOtpChallenge phoneBlindIndex) (fun _ => rfl) fun _ he => absurd he List.not_mem_nil
  | verifyOtpChallenge challengeId candidateOtp =>
    exact .of_keeps_trace accounts_frames (fun _ hes => hes) (fun _ _ _ => trivial)
      (keeps_verifyOtpChallenge (fun _ _ _ => rfl) (fun e he => Event.not_registration he) challengeId
        candidateOtp) (fun _ => rfl) fun _ he => absurd he List.not_mem_nil
  | registerAccount params => exact entering_registerAccount params w

end

namespace Accounts

abbrev Request := Queries.Request Call Query
abbrev Answer := Queries.Answer Registration.Answer Reply
abbrev Server := ReadCommitted.Server Db Key Uuid Log Answer Request
abbrev Choice := ReadCommitted.Choice Uuid Request

def serve (pf : Platform) (s : Server) (sched : List Choice) : Server :=
  s.run ((accountQueries pf).program (Call.program pf)) (Queries.aborted Call.aborted) sched

abbrev SoundRun (pf : Platform) (w₀ : World Db) (s : Server) : Prop :=
  ReadCommitted.Server.Sound ((accountQueries pf).spec accounts)
    (Queries.contract Call.aborted (Call.entering pf)) w₀ s

theorem soundRun {pf : Platform} {db : Db} {clock : Nat} (used : List Uuid) (hdb : db.Accounts)
    (sched : List Choice) : SoundRun pf ⟨clock, db⟩ (serve pf (.boot db clock used) sched) := by
  refine ReadCommitted.Server.Sound.run ?_ fun ch _ => (accountQueries pf).covers Call.keeps_entering ch
  exact ReadCommitted.Server.sound_boot hdb fun _ h => absurd h not_false

def operations (log : List (Nat × Log)) : List Operation := log.filterMap fun x => operation x.2

section
variable {pf : Platform} {w₀ : World Db} {s : Server} {p : Nat}

theorem SoundRun.registered (h : SoundRun pf w₀ s) {e : Event} (he : (p, .base e) ∈ s.log)
    (hreg : e.IsRegistration) : ∃ pr params ids, s.procs p = some pr ∧
      pr.call = .base (.registerAccount params) ∧ Registers pf params ids e := by
  obtain ⟨pr, c, es, hp, hcall, hmem, _, hrecords⟩ := (accountQueries pf).trace_base h he
  cases c with
  | registerAccount params =>
    obtain ⟨ids, hids⟩ := hrecords e hmem hreg
    exact ⟨pr, params, ids, hp, hcall, hids⟩
  | requestOtpChallenge phoneBlindIndex => exact absurd hreg (hrecords e hmem)
  | verifyOtpChallenge challengeId candidateOtp => exact absurd hreg (hrecords e hmem)

theorem SoundRun.returned (h : SoundRun pf w₀ s) {params : RegisterParams} {v : Value}
    (hret : s.Returned p (.base (.registerAccount params)) (.base (.ok v))) :
    ∃ ids tokenPair e, v = registeredOf pf params ids tokenPair ∧ (p, .base e) ∈ s.log ∧
      Registers pf params ids e := by
  obtain habort | ⟨pr, es, _, hes, hreturns⟩ := (accountQueries pf).returned_base h hret
  · exact absurd habort (by simp [Call.aborted])
  · obtain ⟨ids, tokenPair, hv, e, he, hids⟩ := hreturns v rfl
    exact ⟨ids, tokenPair, e, hv, ReadCommitted.Server.mem_eventsOf.mp (hes ▸ List.mem_map_of_mem he), hids⟩

end

/-- However registrations and readings interleave, the accounts are a directory that is used by one
caller at a time: nobody takes a name or an identifier that is in it, each reading is what it says at
its turn, and each call answers what it has entered or read. -/
theorem accounts_linearize (pf : Platform) {db : Db} {clock : Nat} (used : List Uuid) (hdb : db.Accounts)
    (sched : List Choice) :
    let s := serve pf (.boot db clock used) sched
    (directory pf).Legal db.directory (operations s.log) s.db.directory ∧
      (∀ p e, (p, .base e) ∈ s.log → e.IsRegistration → ∃ pr params ids, s.procs p = some pr ∧
        pr.call = .base (.registerAccount params) ∧ Registers pf params ids e) ∧
      (∀ p params v, s.Returned p (.base (.registerAccount params)) (.base (.ok v)) →
        ∃ ids tokenPair e, v = registeredOf pf params ids tokenPair ∧ (p, .base e) ∈ s.log ∧
          Registers pf params ids e) ∧
      ∀ p q r, s.Returned p (.ask q) (.reply r) → (p, .answered q r) ∈ s.log := by
  intro s
  have hs : SoundRun pf ⟨clock, db⟩ s := soundRun used hdb sched
  refine ⟨?_, fun _ _ => hs.registered, fun _ _ _ => hs.returned, fun _ _ _ =>
    (accountQueries pf).reply_recorded hs⟩
  have hlegal := (accounts_show pf).legal hs.path hdb
  rwa [List.filterMap_map] at hlegal

/-- The profile and the settings that an account starts with, as their columns keep them. -/
def entryOf (pf : Platform) (params : RegisterParams) (ids : AccountIds) : Entry where
  profile :=
    { userId := ids.userId, accountState := .active
      locale := keptText 10 (orDefault params.locale "ne")
      timezone := keptText 64 (orDefault params.timezone "Asia/Kathmandu")
      displayName := keptText 100 params.displayName
      avatarObjectKey := none, bio := none, profileVisibility := "contacts_only",
      usernameCanonical := some (pf.toLowerCase params.username),
      usernameDisplay := some (keptText 32 params.username) }
  privacySettings :=
    { lastSeenVisibility := "contacts_only", onlineStatusVisibility := "contacts_only",
      profilePhotoVisibility := "contacts_only", phoneNumberVisibility := "nobody",
      readReceipts := true, phoneDiscoverability := false, securityNotifications := true,
      notificationPreviews := true }

def sampleStart : Server := .boot Db.empty 0 []

/-- Process 2 enters Asha's account, with the identifiers from 20 on. -/
def sampleEntering : List Choice :=
  (sampleRegistration (.requestOtpChallenge (sampleHmac "+9779811111111"))
    (.verifyOtpChallenge sampleText "111111")
    (.registerAccount (sampleParams "+9779811111111"))).map Queries.beside

def sampleCheck : UsernamesController.CheckUsername := ⟨"asha", by decide⟩

def sampleReading : List Choice :=
  [.call 3 (.ask (.getProfile 20)), .call 4 (.ask (.isUsernameAvailable sampleCheck)), .exec 4 [],
    .exec 3 [22]]

def sampleIds : AccountIds := ⟨20, 21, 22, 23, 24, 25, 26⟩

def sampleEntry : Entry := entryOf samplePlatform (sampleParams "+9779811111111") sampleIds

theorem sampleReading_linearizes :
    operations (serve samplePlatform sampleStart (sampleEntering ++ sampleReading)).log =
        [.register sampleEntry, .ask (.isUsernameAvailable sampleCheck) (.ok (.available false)),
          .ask (.getProfile 20) (.ok (.profile sampleEntry.profile))] ∧
      (directory samplePlatform).Legal Db.empty.directory
        (operations (serve samplePlatform sampleStart (sampleEntering ++ sampleReading)).log)
        (serve samplePlatform sampleStart (sampleEntering ++ sampleReading)).db.directory :=
  ⟨by decide +kernel, (accounts_linearize samplePlatform [] empty_accounts _).1⟩

def sampleEvent : Event :=
  .accountRegistered 5 "+9779811111111"
    (accountOf (sampleParams "+9779811111111") "asha" (sampleHmac "+9779811111111")
      (PhoneNumberService.encryptPhoneNumber samplePlatform (List.replicate 12 0) "+9779811111111")
      sampleIds 0).kept

end Accounts

end Registration

end GuffSuff
