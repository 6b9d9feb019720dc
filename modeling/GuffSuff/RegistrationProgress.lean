import GuffSuff.Accounts
import GuffSuff.TransportProgress

/-! Registrations, requests for a code and verifications take their locks in one
order: the challenge, the blind index of the phone number, the username. -/

namespace GuffSuff

open ReadCommitted

namespace Registration

def Key.ident : Key → Option Uuid
  | .user i | .phoneIdentity i | .userProfile i | .username i | .device i | .privacySettings i
  | .otpChallenge i | .otpDeliveryAttempt i | .securityEvent i | .auditEvent i => some i
  | .blindIndex _ | .canonical _ => none
  | .session k => k.ident

/-- The order in which a registration takes its locks. -/
def Key.rank : Key → Nat
  | .otpChallenge _ | .otpDeliveryAttempt _ => 0
  | .user _ => 1
  | .phoneIdentity _ => 2
  | .blindIndex _ => 3
  | .userProfile _ => 4
  | .username _ => 5
  | .canonical _ => 6
  | .device _ => 7
  | .privacySettings _ => 8
  | .securityEvent _ => 9
  | .auditEvent _ => 10
  | .session k => k.rank

section
variable {D : List Uuid} {level : Nat} {k : Program}

theorem ranked_throw {e : Failure} : (throw e).Ranked (fun _ => True) Key.rank Key.ident D level := rfl

theorem ranked_checked {checks : List (Bool × Failure)}
    (hk : k.Ranked (fun _ => True) Key.rank Key.ident D level) :
    (checked checks k).Ranked (fun _ => True) Key.rank Key.ident D level := by
  induction checks with
  | nil => exact hk
  | cons c checks ih =>
    unfold checked
    split
    · exact ranked_throw
    · exact ih

theorem ranked_insertRow {key : Key} {checks : Db → List (Bool × Failure)} {write : Db → Db} {i : Uuid}
    (hi : i ∈ D) (hkey : key.ident = some i) (hlevel : level ≤ 2 * key.rank + 1)
    (hk : k.Ranked (fun _ => True) Key.rank Key.ident D (2 * key.rank + 1)) :
    (insertRow [key] checks write k).Ranked (fun _ => True) Key.rank Key.ident D level :=
  Program.ranked_own hi hkey hlevel fun _ _ => ranked_checked ⟨Nat.succ_pos _, hk⟩

/-- An insert that also claims an entry of a unique index. -/
theorem ranked_insertRow_unique {key entry : Key} {checks : Db → List (Bool × Failure)}
    {write : Db → Db} {i : Uuid} (hi : i ∈ D) (hkey : key.ident = some i)
    (hlevel : level ≤ 2 * key.rank + 1) (hentry : 2 * key.rank + 1 ≤ 2 * entry.rank)
    (hk : k.Ranked (fun _ => True) Key.rank Key.ident D (2 * entry.rank + 2)) :
    (insertRow [key, entry] checks write k).Ranked (fun _ => True) Key.rank Key.ident D level :=
  Program.ranked_own hi hkey hlevel fun _ =>
    Program.ranked_shared hentry fun _ _ => ranked_checked ⟨Nat.succ_pos _, hk⟩

theorem ranked_insertAccount {a : Account} (huser : a.user.id ∈ D) (howned : a.Owned)
    (hphone : a.phoneIdentity.id ∈ D) (hname : a.username.id ∈ D) (hdevice : a.device.id ∈ D)
    (hsecurity : a.securityEvent.id ∈ D) (haudit : a.auditEvent.id ∈ D) (hlevel : level ≤ 3)
    (hk : ∀ level, k.Ranked (fun _ => True) Key.rank Key.ident D level) :
    (AccountService.insertAccount a k).Ranked (fun _ => True) Key.rank Key.ident D level := by
  refine ranked_insertRow huser rfl hlevel ?_
  refine ranked_insertRow_unique hphone rfl (by simp [Key.rank]) (by simp [Key.rank]) ?_
  refine ranked_insertRow (howned.userProfile ▸ huser) rfl (by simp [Key.rank]) ?_
  refine ranked_insertRow_unique hname rfl (by simp [Key.rank]) (by simp [Key.rank]) ?_
  refine ranked_insertRow hdevice rfl (by simp [Key.rank]) ?_
  refine ranked_insertRow (howned.privacySettings ▸ huser) rfl (by simp [Key.rank]) ?_
  refine ranked_insertRow hsecurity rfl (by simp [Key.rank]) ?_
  exact ranked_insertRow haudit rfl (by simp [Key.rank]) (hk _)

theorem ranked_requestOtpChallenge (pf : Platform) (phoneBlindIndex : Digest) :
    (OtpService.requestOtpChallenge pf phoneBlindIndex).Ranked (fun _ => True) Key.rank Key.ident [] 0 := by
  intro selectedAt db checkedAt
  dsimp only
  split
  · rfl
  · refine ⟨fun _ _ => ⟨[OtpService.minCode], rfl⟩, fun drawn challengeId now => ?_⟩
    refine ranked_insertRow (i := challengeId) (by simp) rfl (Nat.zero_le _) ?_
    dsimp only [Program.Ranked]
    split
    · rfl
    · intro id
      exact ranked_insertRow (i := id) (by simp) rfl (Nat.zero_le _) rfl

theorem ranked_verifyOtpChallenge (pf : Platform) (challengeId candidateOtp : String) :
    (OtpService.verifyOtpChallenge pf challengeId candidateOtp).Ranked (fun _ => True) Key.rank Key.ident [] 0 := by
  unfold OtpService.verifyOtpChallenge
  split
  · rfl
  · refine Program.ranked_shared (Nat.zero_le _) fun db readAt => ?_
    dsimp only [Program.Ranked]
    split
    · rfl
    · split
      · rfl
      · intro comparedAt
        dsimp only
        split
        · rfl
        · split
          · rfl
          · refine ⟨fun _ _ => ⟨[], rfl⟩, fun _ _ => ?_⟩
            exact Program.ranked_shared (Nat.zero_le _) fun _ => ⟨Nat.succ_pos _, rfl⟩

theorem ranked_registerAccount (pf : Platform) (params : RegisterParams) :
    (AccountService.registerAccount pf params).Ranked (fun _ => True) Key.rank Key.ident [] 0 := by
  unfold AccountService.registerAccount
  split
  · exact ranked_throw
  refine Program.ranked_shared (Nat.zero_le _) fun db => ?_
  dsimp only
  split
  · exact ranked_throw
  split
  · exact ranked_throw
  split
  · exact ranked_throw
  refine ⟨fun _ _ => ⟨List.replicate PhoneNumberService.ivLength 0, by simp [AccountService.isIv]⟩, ?_⟩
  intro drawn db
  dsimp only
  split
  · exact ranked_throw
  split
  · exact ranked_throw
  intro db
  dsimp only
  split
  · exact ranked_throw
  intro userId phoneId usernameId deviceId securityEventId auditEventId correlationId now
  refine ranked_insertAccount (by simp [AccountService.accountOf]) ⟨rfl, rfl, rfl, rfl, rfl⟩
    (by simp [AccountService.accountOf]) (by simp [AccountService.accountOf])
    (by simp [AccountService.accountOf]) (by simp [AccountService.accountOf])
    (by simp [AccountService.accountOf]) (by simp [Key.rank]) fun level => ?_
  refine Program.Ranked.embed (I := fun _ => True) (fun _ _ => trivial) (fun r D => ?_)
    (GuffSuff.ranked_createSession pf.services userId deviceId)
  cases r with
  | error e => exact ranked_throw
  | ok pair => rfl

end

theorem Call.ranked_program (pf : Platform) (c : Call) :
    (c.program pf).Ranked (fun _ => True) Key.rank Key.ident [] 0 := by
  cases c with
  | requestOtpChallenge phoneBlindIndex => exact ranked_requestOtpChallenge pf phoneBlindIndex
  | verifyOtpChallenge challengeId candidateOtp =>
    exact ranked_verifyOtpChallenge pf challengeId candidateOtp
  | registerAccount params => exact ranked_registerAccount pf params

/-- The locks of registrations, requests for a code and verifications never close a circle. Every
call has a connection here whenever it asks for one: from wherever a run has got to, statements alone
lead to the answers of all its calls. -/
theorem registrations_never_stuck (pf : Platform) (db : Db) (clock : Nat) (used : List Uuid)
    (sched : List Choice) :
    ∃ more : List Choice, ReadCommitted.Server.OnlyExecs more ∧ ∀ p pr,
      (serve pf (serve pf (.boot db clock used) sched) more).procs p = some pr →
        ∃ r, pr.Finished r :=
  ReadCommitted.Server.finish_ranked (fun _ c _ => c.ranked_program pf) fun _ _ => trivial

end Registration

end GuffSuff
