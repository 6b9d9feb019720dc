import GuffSuff.OtpGuesses

/-! Which phone number an account stores: the one of the registration request,
beside the blind index of the verified challenge. -/

namespace GuffSuff

open ReadCommitted
open Registration.PhoneNumberService

namespace Registration

/-- `phone_blind_index = generateBlindIndex(decryptPhoneNumber(phone_encrypted))`. -/
def PhoneIdentity.Consistent (pf : Platform) (r : PhoneIdentity) : Prop :=
  (decryptPhoneNumber pf r.phoneEncrypted).map (generateBlindIndex pf) = some r.phoneBlindIndex

instance (pf : Platform) (r : PhoneIdentity) : Decidable (r.Consistent pf) :=
  inferInstanceAs (Decidable (_ = _))

/-- The phone number of a registration is one that its challenge was requested for. -/
def NumberOfChallenge (pf : Platform) (db : Db) (challengeId : Uuid) (phoneNumber : String) : Prop :=
  ∃ challenge normalized, lookup db.otpChallenges challengeId = some challenge ∧
    normalizeToE164 pf phoneNumber "NP" = .ok normalized ∧
    generateBlindIndex pf normalized = challenge.phoneBlindIndex

def NumbersMatch (pf : Platform) (s : Server) : Prop :=
  ∀ p challengeId phoneNumber a, (p, .accountRegistered challengeId phoneNumber a) ∈ s.log →
    NumberOfChallenge pf s.db challengeId phoneNumber

def Event.account : Event → Option Account
  | accountRegistered _ _ a => some a
  | _ => none

section
variable {pf : Platform} {w₀ : World Db} {s : Server} {v w : World Db} {es : List Event}

theorem accounts_of_path (h : (registration pf).Path v es w) :
    w.db.users = v.db.users ++ (es.filterMap Event.account).map Account.user ∧
      w.db.phoneIdentities =
        v.db.phoneIdentities ++ (es.filterMap Event.account).map Account.phoneIdentity := by
  induction h with
  | refl => simp
  | tick _ _ ih => exact ih
  | @move es c db db' e _ hm ih =>
    obtain ⟨_, heff⟩ := hm
    obtain ⟨hu, hp⟩ := ih
    rw [List.filterMap_append, List.map_append, List.map_append, ← List.append_assoc,
      ← List.append_assoc, ← hu, ← hp]
    cases e with
    | accountRegistered challengeId phoneNumber a =>
      obtain rfl : db' = db.insertAccount a := heff
      exact ⟨rfl, rfl⟩
    | session g =>
      obtain ⟨_, _, _, rfl⟩ := heff
      simp [Event.account]
    | _ =>
      obtain rfl := show db' = _ from heff
      simp [Event.account, Event.apply, Db.insertOtpChallenge, Db.insertOtpDeliveryAttempt,
        Db.countAttempt]

theorem mem_accounts {a : Account} :
    a ∈ es.filterMap Event.account ↔ ∃ challengeId phoneNumber,
      .accountRegistered challengeId phoneNumber a ∈ es := by
  rw [List.mem_filterMap]
  constructor
  · intro h
    obtain ⟨e, he, hacc⟩ := h
    cases e with
    | accountRegistered challengeId phoneNumber b =>
      obtain rfl := Option.some.inj hacc
      exact ⟨challengeId, phoneNumber, he⟩
    | _ => exact nomatch hacc
  · intro h
    obtain ⟨_, _, he⟩ := h
    exact ⟨_, he, rfl⟩

theorem SoundRun.registration (h : SoundRun pf w₀ s) (h₀ : w₀.db.Holds) {p : Nat} {challengeId : Uuid}
    {phoneNumber : String} {a : Account}
    (he : (p, .accountRegistered challengeId phoneNumber a) ∈ s.log) :
    ∃ challenge, lookup s.db.otpChallenges challengeId = some challenge ∧
      RegisteredFrom pf challenge phoneNumber a ∧ a.phoneIdentity ∈ s.db.phoneIdentities := by
  obtain ⟨l₁, l₂, hlog⟩ := List.append_of_mem he
  obtain ⟨c, db, db', _, _, ⟨⟨_, challenge, hrow, hfrom⟩, heff⟩, hrest⟩ := h.cut h₀ hlog
  have hsame : lookup db'.otpChallenges challengeId = some challenge := by
    rw [show db' = db.insertAccount a from heff]
    exact hrow
  obtain ⟨now, hnow, hev⟩ := challenges_evolve ⟨_, hrest⟩ challengeId challenge hsame
  refine ⟨now, hnow, { hfrom with verified := hev.isVerified hfrom.verified, index := ?_ }, ?_⟩
  · rw [hfrom.index, hev.phoneBlindIndex]
  · rw [show s.db.phoneIdentities = _ from (accounts_of_path h.path).2]
    refine List.mem_append_right _ (List.mem_map.mpr ⟨a, mem_accounts.mpr ?_, rfl⟩)
    exact ⟨challengeId, phoneNumber, List.mem_map.mpr ⟨_, he, rfl⟩⟩

theorem RegisteredFrom.consistent_iff (hpf : pf.Lawful) {challenge : OtpChallenge} {phoneNumber : String}
    {a : Account} (h : RegisteredFrom pf challenge phoneNumber a) :
    a.phoneIdentity.Consistent pf ↔ ∃ normalized,
      normalizeToE164 pf phoneNumber "NP" = .ok normalized ∧
        generateBlindIndex pf normalized = challenge.phoneBlindIndex := by
  obtain ⟨iv, normalized, hiv, hnorm, henc⟩ := h.encrypted
  rw [PhoneIdentity.Consistent, henc, decrypt_encrypt hpf hiv, h.index]
  simp [hnorm]

/-- The stored numbers agree with their blind indexes exactly when every
registration was for the number of its challenge. -/
theorem stored_numbers_verified_iff {db : Db} {clock : Nat} (used : List Uuid) (hpf : pf.Lawful)
    (hdb : db.Holds) (hstart : ∀ r ∈ db.phoneIdentities, r.Consistent pf) (sched : List Choice) :
    let s := serve pf (.boot db clock used) sched
    (∀ r ∈ s.db.phoneIdentities, r.Consistent pf) ↔ NumbersMatch pf s := by
  intro s
  have hs : SoundRun pf ⟨clock, db⟩ s := soundRun_boot used hdb sched
  constructor
  · intro hall p challengeId phoneNumber a he
    obtain ⟨challenge, hrow, hfrom, hmem⟩ := hs.registration hdb he
    obtain ⟨normalized, hnorm, hindex⟩ := (hfrom.consistent_iff hpf).mp (hall _ hmem)
    exact ⟨challenge, normalized, hrow, hnorm, hindex⟩
  · intro hmatch r hr
    rw [show s.db.phoneIdentities = _ from (accounts_of_path hs.path).2] at hr
    rcases List.mem_append.mp hr with hr | hr
    · exact hstart r hr
    · obtain ⟨a, ha, rfl⟩ := List.mem_map.mp hr
      obtain ⟨challengeId, phoneNumber, he⟩ := mem_accounts.mp ha
      obtain ⟨⟨p, e⟩, hx, rfl⟩ := List.mem_map.mp he
      obtain ⟨challenge, hrow, hfrom, _⟩ := hs.registration hdb hx
      obtain ⟨challenge', normalized, hrow', hnorm, hindex⟩ := hmatch p challengeId phoneNumber a hx
      obtain rfl := Option.some.inj (hrow'.symm.trans hrow)
      exact (hfrom.consistent_iff hpf).mpr ⟨normalized, hnorm, hindex⟩

end

/-- Process 0 requests a code, which is 111111 for the challenge 5. -/
def sampleRequested (c : Call) : List Choice :=
  .call 0 c :: (List.replicate 3 (.exec 0 []) ++ [.exec 0 [111111], .exec 0 [5]] ++
    List.replicate 5 (.exec 0 []) ++ .exec 0 [6] :: List.replicate 4 (.exec 0 []))

def sampleVerified (c : Call) : List Choice := .call 1 c :: List.replicate 8 (.exec 1 [])

/-- Process 2 registers an account with the identifiers from 20 on, up to the commit. -/
def sampleRegistered (c : Call) : List Choice :=
  .call 2 c :: .exec 2 [] :: .exec 2 (List.replicate 12 0) :: (List.replicate 2 (.exec 2 []) ++
    (List.range 7).map (fun i => .exec 2 [20 + i]) ++ List.replicate 28 (.exec 2 []))

def sampleRegistration (request verify register : Call) : List Choice :=
  sampleRequested request ++ sampleVerified verify ++ sampleRegistered register

def sampleOtpRequest (phoneNumber : String) : AuthController.OtpRequest :=
  { phoneNumber, installationId := "installation", deviceName := "phone", platform := "android",
    appVersion := "1.0.0", osVersion := "Android 14" }

def sampleBody (phoneNumber : Option String) : AuthController.RegisterBody :=
  { challengeId := sampleText, displayName := "Asha", username := "asha", locale := none,
    timezone := none, termsAccepted := true, privacyAccepted := true, phoneNumber,
    installationId := none, deviceName := none, platform := none, appVersion := none,
    osVersion := none }

def sampleParams (phoneNumber : String) : RegisterParams :=
  { challengeId := sampleText, phoneNumber, displayName := "Asha", username := "asha",
    installationId := "inst_default", deviceName := "Mobile Device", platform := "android",
    appVersion := "1.0.0", osVersion := "Android 14", locale := some "ne",
    timezone := some "Asia/Kathmandu" }

def sampleStored (requested registered : String) : Server :=
  serve samplePlatform (.boot Db.empty 0 []) (sampleRegistration
    (.requestOtpChallenge (sampleHmac requested)) (.verifyOtpChallenge sampleText "111111")
    (.registerAccount (sampleParams registered)))

theorem empty_holds : Db.empty.Holds := ⟨List.nodup_nil, List.nodup_nil⟩

theorem sampleStored_matches :
    (sampleStored "+9779811111111" "+9779811111111").db.phoneIdentities.length = 1 ∧
      NumbersMatch samplePlatform (sampleStored "+9779811111111" "+9779811111111") :=
  ⟨by decide +kernel, (stored_numbers_verified_iff [] samplePlatform_lawful empty_holds
    (by simp [Db.empty]) _).mp (by decide +kernel)⟩

/-- A request without a phone number registers the number of its challenge under
the encrypted default number. -/
theorem sampleDefault_differs :
    AuthController.requestOtp samplePlatform (sampleOtpRequest "+9779811111111") =
      some (.requestOtpChallenge (sampleHmac "+9779811111111")) ∧
    AuthController.verifyOtp sampleText "111111" = some (.verifyOtpChallenge sampleText "111111") ∧
    AuthController.registerAccount (sampleBody none) =
      some (.registerAccount (sampleParams "+9779800000000")) ∧
    ∃ r ∈ (sampleStored "+9779811111111" "+9779800000000").db.phoneIdentities,
      ¬ r.Consistent samplePlatform := by
  decide +kernel

end Registration

end GuffSuff
