import GuffSuff.Accounts
import GuffSuff.ReadCommitted.Results

/-! The challenges of a phone number in time: when they were created, and what
the cooldown makes of those times. -/

namespace GuffSuff

open ReadCommitted

namespace Registration

/-- The times at which the challenges for the index were created. -/
def Db.requestTimes (db : Db) (phoneBlindIndex : Digest) : List Nat :=
  (db.otpChallenges.filter fun r => r.phoneBlindIndex = phoneBlindIndex).map OtpChallenge.createdAt

def Db.SameRequests (db db' : Db) : Prop := ∀ i, db'.requestTimes i = db.requestTimes i

/-- No challenge is dated ahead. -/
def Db.Dated (now : Nat) (db : Db) : Prop := ∀ i, ∀ t ∈ db.requestTimes i, t ≤ now

namespace Event

def Requests (i : Digest) : Event → Prop
  | challengeRequested r _ => r.phoneBlindIndex = i
  | _ => False

instance (i : Digest) (e : Event) : Decidable (e.Requests i) :=
  match e with
  | challengeRequested r _ => inferInstanceAs (Decidable (r.phoneBlindIndex = i))
  | deliveryRecorded _ | challengeSelected .. | codeCompared .. | attemptCounted .. | accountRegistered ..
  | session _ => isFalse id

def IsRequest (e : Event) : Prop := ∃ i, e.Requests i

/-- What a move does to the times of the challenges. -/
def Dates (now : Nat) (db db' : Db) : Event → Prop
  | challengeRequested r _ => r.createdAt ≤ now ∧ db' = db.insertOtpChallenge r
  | _ => db.SameRequests db'

end Event

namespace OtpService

/-- Those of the last 24 hours. -/
def recentTimes (times : List Nat) (now : Nat) : List Nat := times.filter fun t => now < t + dayMs

def cooldownActive (seconds : Nat) : Answer :=
  .error (.error ("OTP resend cooldown active. Try again in " ++ toString seconds ++ " seconds."))

theorem recentChallenges_eq (db : Db) (i : Digest) (now : Nat) :
    recentChallenges db i now = recentTimes (db.requestTimes i) now := by
  simp only [recentChallenges, recentTimes, Db.requestTimes, List.filter_map, List.filter_filter,
    Function.comp_def, Bool.and_comm]

theorem mem_recentTimes {times : List Nat} {now t : Nat} :
    t ∈ recentTimes times now ↔ t ∈ times ∧ now < t + dayMs := by
  simp [recentTimes]

theorem recentTimes_append (l m : List Nat) (now : Nat) :
    recentTimes (l ++ m) now = recentTimes l now ++ recentTimes m now := List.filter_append ..

theorem recentTimes_length_le (times : List Nat) {now now' : Nat} (h : now ≤ now') :
    (recentTimes times now').length ≤ (recentTimes times now).length := by
  rw [recentTimes, recentTimes, ← List.countP_eq_length_filter, ← List.countP_eq_length_filter]
  refine List.countP_mono_left fun t _ ht => ?_
  simp only [decide_eq_true_eq] at ht ⊢
  omega

theorem cooldownSeconds_mono {l m : List Nat} (h : l.length ≤ m.length) :
    cooldownSeconds l ≤ cooldownSeconds m := by
  unfold cooldownSeconds
  split <;> split <;> (try split) <;> (try split) <;> omega

/-- A request is let through once the cooldown after each of the recent ones is over. -/
theorem secondsRemaining_eq_none {recent : List Nat} {now : Nat} :
    secondsRemaining recent now = none ↔ ∀ t ∈ recent, t + cooldownSeconds recent * 1000 ≤ now := by
  unfold secondsRemaining
  cases hmax : recent.max? with
  | none =>
    rw [List.max?_eq_none_iff] at hmax
    simp [hmax]
  | some last =>
    obtain ⟨hlast, hle⟩ := List.max?_eq_some_iff.mp hmax
    simp only [ite_eq_right_iff, reduceCtorEq, imp_false, Nat.not_lt]
    constructor
    · intro h t ht
      exact Nat.le_trans (Nat.add_le_add_right (hle t ht) _) h
    · exact fun h => h last hlast

end OtpService

section
variable {db db' : Db} {e : Event} {i : Digest} {t : Nat}

theorem Db.requestTimes_insert (r : OtpChallenge) (db : Db) (i : Digest) :
    (db.insertOtpChallenge r).requestTimes i =
      db.requestTimes i ++ if r.phoneBlindIndex = i then [r.createdAt] else [] := by
  by_cases hi : r.phoneBlindIndex = i <;>
    simp [Db.insertOtpChallenge, Db.requestTimes, List.filter_append, hi]

theorem Db.sameRequests_countAttempt (id : Uuid) (isMatch : Bool) (db : Db) :
    db.SameRequests (db.countAttempt id isMatch) := by
  intro i
  simp only [Db.requestTimes, Db.countAttempt, updateRows, List.filter_map, List.map_map]
  have hindex : ((fun r : OtpChallenge => decide (r.phoneBlindIndex = i)) ∘
      fun r => if Keyed.key r ∈ [id] then r.count isMatch else r) = fun r => decide (r.phoneBlindIndex = i) := by
    funext r
    dsimp only [Function.comp_apply]
    split <;> rfl
  have htime : (OtpChallenge.createdAt ∘ fun r : OtpChallenge =>
      if Keyed.key r ∈ [id] then r.count isMatch else r) = OtpChallenge.createdAt := by
    funext r
    dsimp only [Function.comp_apply]
    split <;> rfl
  rw [hindex, htime]

theorem Db.sameRequests_identities (db db' : Db) (h : db.SameIdentities db') : db.SameRequests db' := by
  obtain ⟨_, _, _, rfl⟩ := h
  exact fun _ => rfl

theorem Event.not_isRequest (h : e.IsVerification) : ¬ e.IsRequest := by
  intro hreq
  obtain ⟨i, hi⟩ := hreq
  cases e <;> first | exact hi | exact h

theorem Event.sameRequests (h : e.Dates t db db') (hi : ¬ e.Requests i) :
    db'.requestTimes i = db.requestTimes i := by
  cases e with
  | challengeRequested r rawOtp =>
    obtain ⟨_, rfl⟩ := h
    have hne : ¬ r.phoneBlindIndex = i := hi
    rw [Db.requestTimes_insert, if_neg hne, List.append_nil]
  | _ => exact h i

theorem Db.Dated.event {now : Nat} (hdb : db.Dated now) (h : e.Dates now db db') : db'.Dated now := by
  intro i t ht
  cases e with
  | challengeRequested r rawOtp =>
    obtain ⟨hnow, rfl⟩ := h
    rw [Db.requestTimes_insert] at ht
    rcases List.mem_append.mp ht with ht | ht
    · exact hdb i t ht
    · split at ht
      · exact List.mem_singleton.mp ht ▸ hnow
      · exact absurd ht List.not_mem_nil
  | _ =>
    rw [h i] at ht
    exact hdb i t ht

end

/-- The challenges as a specification of single statements. -/
def dating : Spec Db Key Uuid Event Unit where
  moves now db e db' := e.Dates now db db'
  holds now db := db.Dated now
  cell _ _ := ()
  has _ _ := False
  holds_move := fun h hm => h.event hm
  holds_tick := fun h hc i t ht => Nat.le_trans (h i t ht) hc

theorem dating_frames : dating.Frames Db.SameRequests fun e => ¬ e.IsRequest where
  refl := fun _ _ => rfl
  trans := fun h h' i => (h' i).trans (h i)
  moves := by
    intro _ db e db' he h
    cases e with
    | challengeRequested r rawOtp => exact absurd ⟨_, rfl⟩ he
    | _ => exact h
  cell := fun _ _ _ _ => rfl
  has := fun _ _ _ _ h => h

section
variable {pf : Platform}

theorem keeps_registerAccount (params : RegisterParams) :
    (AccountService.registerAccount pf params).Keeps Db.SameRequests fun e => ¬ e.IsRequest := by
  have hsession : ∀ g, ¬ (Event.session g).IsRequest := fun _ h => h.choose_spec
  unfold AccountService.registerAccount
  split
  · exact keeps_throw
  intro db
  dsimp only
  split
  · exact keeps_throw
  split
  · exact keeps_throw
  split
  · exact keeps_throw
  intro drawn db
  dsimp only
  split
  · exact keeps_throw
  split
  · exact keeps_throw
  intro db
  dsimp only
  split
  · exact keeps_throw
  intro userId phoneId usernameId deviceId securityEventId auditEventId correlationId now
  have hrow : ∀ {locks : List Key} {checks : Db → List (Bool × Failure)} {write : Db → Db} {k : Program},
      (∀ db, Db.SameRequests db (write db)) →
      k.Keeps Db.SameRequests (fun e => ¬ e.IsRequest) →
      (insertRow locks checks write k).Keeps Db.SameRequests fun e => ¬ e.IsRequest :=
    fun hwrite hk => keeps_insertRow hwrite hk
  refine hrow (fun _ _ => rfl) (hrow (fun _ _ => rfl) (hrow (fun _ _ => rfl) (hrow (fun _ _ => rfl) ?_)))
  refine hrow (fun _ _ => rfl) (hrow (fun _ _ => rfl) (hrow (fun _ _ => rfl) (hrow (fun _ _ => rfl) ?_)))
  exact ⟨fun h => h.choose_spec, keeps_createSession Db.sameRequests_identities hsession params _ _⟩

theorem dates_requestOtpChallenge (phoneBlindIndex : Digest) (w : World Db) :
    dating.Safe (Call.silent (.requestOtpChallenge phoneBlindIndex) w)
      (OtpService.requestOtpChallenge pf phoneBlindIndex) [] [] id [] w := by
  intro w₁ _ _ w₂ _ _ w₃ _ _
  dsimp only
  split
  · exact safe_answer fun _ => trivial
  intro w₄ _ _ drawn _ w₅ _ _ challengeId _ _ w₆ _ _
  refine safe_insertRow (fun _ _ => trivial) fun w₇ L₇ h₇ _ _ _ => ?_
  intro w₈ h₈ _
  have hnow : w₆.clock ≤ w₈.clock := Nat.le_trans h₇.rely.later.clock_le h₈.later.clock_le
  refine ⟨⟨hnow, rfl⟩, fun _ _ => rfl, fun _ hx => hx.elim, trivial, ?_⟩
  split
  · exact safe_answer fun _ => trivial
  refine .of_keeps dating_frames (fun _ => trivial) (fun _ _ _ => trivial) ?_ fun _ _ => rfl
  exact fun id => keeps_insertRow (fun _ _ => rfl) ⟨fun h => h.choose_spec, trivial⟩

theorem Call.dates (pf : Platform) (c : Call) (w : World Db) :
    dating.Safe (c.silent w) (c.program pf) [] [] id [] w := by
  cases c with
  | requestOtpChallenge phoneBlindIndex => exact dates_requestOtpChallenge phoneBlindIndex w
  | verifyOtpChallenge challengeId candidateOtp =>
    exact .of_keeps dating_frames (fun _ => trivial) (fun _ _ _ => trivial)
      (keeps_verifyOtpChallenge Db.sameRequests_countAttempt (fun _ => Event.not_isRequest) challengeId
        candidateOtp) fun _ _ => rfl
  | registerAccount params =>
    exact .of_keeps dating_frames (fun _ => trivial) (fun _ _ _ => trivial) (keeps_registerAccount params)
      fun _ _ => rfl

theorem dating_covers (ch : Choice) : ReadCommitted.Server.Covers dating Call.silent
    (Call.program pf) Call.aborted ch := by
  cases ch with
  | call p c => exact fun w _ => ⟨trivial, c.dates pf w⟩
  | fail p => exact fun _ _ _ _ => trivial
  | _ => trivial

abbrev DatedRun (w₀ : World Db) (s : Server) : Prop :=
  ReadCommitted.Server.Sound dating Call.silent w₀ s

theorem datedRun_boot {db : Db} {clock : Nat} (used : List Uuid) (hdb : db.Dated clock)
    (sched : List Choice) : DatedRun ⟨clock, db⟩ (serve pf (.boot db clock used) sched) :=
  (ReadCommitted.Server.sound_boot (S := dating) hdb fun _ h => absurd h not_false).run
    fun ch _ => dating_covers ch

end

def sampleRequest (p : Nat) : List Choice :=
  List.replicate 3 (.exec p []) ++ [.exec p [111111], .exec p [10 + 2 * p]] ++
    List.replicate 5 (.exec p []) ++ .exec p [11 + 2 * p] :: List.replicate 4 (.exec p [])

end Registration

end GuffSuff
