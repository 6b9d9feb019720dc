import GuffSuff.ReadCommitted.Exclusive
import GuffSuff.RegistrationRuns

/-! The guess budget of a one-time password: as many codes as the challenge
allows, if each one is counted before the next one is let through. -/

namespace GuffSuff

open ReadCommitted
open ReadCommitted.Server (eventsOf Performs Exclusive)

namespace Registration

namespace Event

def selects (id : Uuid) : Event → Bool
  | challengeSelected i _ _ => i = id
  | _ => false

def comparesWith (id : Uuid) : Event → Bool
  | codeCompared i _ _ _ _ => i = id
  | _ => false

def counts (id : Uuid) : Event → Bool
  | attemptCounted i _ => i = id
  | _ => false

end Event

def comparisons (id : Uuid) (s : Server) : List (Nat × Event) :=
  s.log.filter fun x => x.2.comparesWith id

/-- Of two calls that compare a code with the challenge, one has counted its
attempt before the other selects the row. -/
def VerificationsInTurn (id : Uuid) (s : Server) : Prop :=
  Exclusive (fun e => e.selects id = true) (fun e => e.comparesWith id = true)
    (fun e => e.counts id = true) s.log

instance (id : Uuid) (s : Server) : Decidable (VerificationsInTurn id s) :=
  inferInstanceAs (Decidable (Exclusive ..))

/-- What the other events of a call say about its comparison. -/
structure Comparison (pf : Platform) (id : Uuid) (challengeId candidateOtp : String)
    (challenge : OtpChallenge) (comparedAt : Nat) (es : List Event) : Prop where
  uuid : pf.uuid challengeId = some id
  opened : challenge.Open comparedAt
  selected : ∃ readAt, readAt ≤ comparedAt ∧ ∀ i c r,
    .challengeSelected i c r ∈ es ↔ i = id ∧ c = some challenge ∧ r = readAt
  counted : ∀ i b, .attemptCounted i b ∈ es →
    i = id ∧ b = OtpService.isMatch pf challengeId candidateOtp challenge
  once : ∀ i, es.countP (Event.comparesWith i) ≤ 1

section
variable {pf : Platform} {w₀ : World Db} {s : Server} {id : Uuid} {es : List Event}
variable {challengeId candidateOtp : String} {challenge : OtpChallenge} {comparedAt : Nat}

theorem Verifying.comparison {a b : String} (h : Verifying pf a b es)
    (he : .codeCompared id challengeId candidateOtp challenge comparedAt ∈ es) :
    a = challengeId ∧ b = candidateOtp ∧
      Comparison pf id challengeId candidateOtp challenge comparedAt es := by
  cases h with
  | start => exact absurd he List.not_mem_nil
  | selected hid c r => simp at he
  | @compared i hid c readAt t hopen hread =>
    obtain ⟨rfl, rfl, rfl, rfl, rfl⟩ : id = i ∧ challengeId = a ∧ candidateOtp = b ∧ challenge = c ∧
      comparedAt = t := by simpa using he
    refine ⟨rfl, rfl, hid, hopen, ⟨readAt, hread, by simp⟩, by simp, fun i => ?_⟩
    by_cases hi : id = i <;> simp [Event.comparesWith, hi]
  | @counted i hid c readAt t hopen hread =>
    obtain ⟨rfl, rfl, rfl, rfl, rfl⟩ : id = i ∧ challengeId = a ∧ candidateOtp = b ∧ challenge = c ∧
      comparedAt = t := by simpa using he
    refine ⟨rfl, rfl, hid, hopen, ⟨readAt, hread, by simp⟩, by simp, fun i => ?_⟩
    by_cases hi : id = i <;> simp [Event.comparesWith, hi]

theorem Call.comparison {c : Call} (h : c.trace pf es)
    (he : .codeCompared id challengeId candidateOtp challenge comparedAt ∈ es) :
    c = .verifyOtpChallenge challengeId candidateOtp ∧
      Comparison pf id challengeId candidateOtp challenge comparedAt es := by
  cases c with
  | requestOtpChallenge phoneBlindIndex => cases (show Requesting es from h) <;> simp at he
  | verifyOtpChallenge a b =>
    obtain ⟨rfl, rfl, hcmp⟩ := Verifying.comparison h he
    exact ⟨rfl, hcmp⟩
  | registerAccount params =>
    rcases Registering.events h he with ⟨_, _, heq⟩ | ⟨_, heq⟩ <;> exact absurd heq (by simp)

theorem SoundRun.comparison (h : SoundRun pf w₀ s) {p : Nat}
    (he : (p, .codeCompared id challengeId candidateOtp challenge comparedAt) ∈ s.log) :
    Comparison pf id challengeId candidateOtp challenge comparedAt (eventsOf s.log p) := by
  obtain ⟨pr, _, ht⟩ := h.trace_of_log he
  exact (Call.comparison ht (ReadCommitted.Server.mem_eventsOf.mpr he)).2

theorem Call.compared_of_counted {c : Call} (h : c.trace pf es) {b : Bool}
    (he : .attemptCounted id b ∈ es) : ∃ challengeId candidateOtp challenge comparedAt,
      c = .verifyOtpChallenge challengeId candidateOtp ∧
      .codeCompared id challengeId candidateOtp challenge comparedAt ∈ es ∧
      b = OtpService.isMatch pf challengeId candidateOtp challenge := by
  cases c with
  | requestOtpChallenge phoneBlindIndex => cases (show Requesting es from h) <;> simp at he
  | verifyOtpChallenge a b =>
    cases (show Verifying pf a b es from h) with
    | start => exact absurd he List.not_mem_nil
    | selected hid c r => simp at he
    | compared hid hopen hread => simp at he
    | counted hid hopen hread =>
      obtain ⟨rfl, rfl⟩ : id = _ ∧ _ = _ := by simpa using he
      exact ⟨a, b, _, _, rfl, List.mem_cons_of_mem _ List.mem_cons_self, rfl⟩
  | registerAccount params =>
    rcases Registering.events h he with ⟨_, _, heq⟩ | ⟨_, heq⟩ <;> exact absurd heq (by simp)

def Db.attempts (db : Db) (id : Uuid) : Nat :=
  ((lookup db.otpChallenges id).map OtpChallenge.attemptsCount).getD 0

theorem Db.attempts_countAttempt {db : Db} (hmem : id ∈ keys db.otpChallenges) (b : Bool) :
    (db.countAttempt id b).attempts id = db.attempts id + 1 := by
  obtain ⟨r, hr⟩ := Option.isSome_iff_exists.mp (lookup_isSome.mpr hmem)
  simp [Db.attempts, Db.countAttempt, lookup_updateRows (OtpChallenge.key_count b), hr,
    OtpChallenge.count]

theorem counted_le {v w : World Db} (h : (registration pf).Path v es w) (id : Uuid) :
    es.countP (Event.counts id) ≤ w.db.attempts id := by
  induction h with
  | refl => exact Nat.zero_le _
  | tick _ _ ih => exact ih
  | @move es c db db' e _ hm ih =>
    obtain ⟨ha, heff⟩ := hm
    rw [List.countP_append, List.countP_singleton]
    simp only at ih ⊢
    by_cases hcell : .otpChallenge id ∈ e.touches
    · cases e with
      | challengeRequested r rawOtp =>
        obtain rfl : id = r.id := by simpa [Event.touches] using hcell
        rw [Db.attempts, lookup_eq_none.mpr ha.1] at ih
        simp only [Event.counts, Bool.false_eq_true, if_false]
        exact Nat.le_trans ih (Nat.zero_le _)
      | attemptCounted i b =>
        obtain rfl : id = i := by simpa [Event.touches] using hcell
        obtain rfl : db' = db.countAttempt id b := heff
        rw [Db.attempts_countAttempt ha]
        simpa [Event.counts] using ih
      | _ => simp [Event.touches] at hcell
    · have hsame := Cell.otpChallenge.inj (Event.cell_effect hcell heff)
      have hzero : Event.counts id e = false := by
        cases e with
        | attemptCounted i b =>
          simpa [Event.counts, Event.touches, eq_comm] using hcell
        | _ => rfl
      rw [Db.attempts, hsame, hzero]
      exact ih

theorem verified_of_counted {v w : World Db} (h : (registration pf).Path v es w)
    (he : .attemptCounted id true ∈ es) :
    ∃ r, lookup w.db.otpChallenges id = some r ∧ r.isVerified = true := by
  obtain ⟨es₁, es₂, rfl⟩ := List.append_of_mem he
  obtain ⟨c, db, db', _, ⟨ha, rfl⟩, hrest⟩ := h.cut
  obtain ⟨r, hr⟩ := Option.isSome_iff_exists.mp (lookup_isSome.mpr ha)
  have hnew : lookup (db.countAttempt id true).otpChallenges id = some (r.count true) := by
    simp [Db.countAttempt, lookup_updateRows (OtpChallenge.key_count true), hr]
  obtain ⟨r', hr', hev⟩ := challenges_evolve ⟨_, hrest⟩ id _ hnew
  exact ⟨r', hr', hev.isVerified (by simp [OtpChallenge.count])⟩

theorem SoundRun.compared_once (h : SoundRun pf w₀ s) (id : Uuid) (p : Nat) :
    ((eventsOf s.log p).filter (fun e => e.comparesWith id)).length ≤ 1 := by
  rw [← List.countP_eq_length_filter]
  by_cases hany : ∃ e ∈ eventsOf s.log p, e.comparesWith id = true
  · obtain ⟨e, he, hcmp⟩ := hany
    cases e with
    | codeCompared i a b c t => exact (h.comparison (ReadCommitted.Server.mem_eventsOf.mp he)).once id
    | _ => exact absurd hcmp Bool.false_ne_true
  · have hnone : (eventsOf s.log p).countP (fun e => e.comparesWith id) = 0 := by
      rw [List.countP_eq_zero]
      exact fun e he hcmp => hany ⟨e, he, hcmp⟩
    omega

/-- Of some calls that compare in turn, one selects the challenge open and after
the attempts of all the others. -/
theorem SoundRun.last_selection (h : SoundRun pf w₀ s) (h₀ : w₀.db.Holds)
    (hturn : VerificationsInTurn id s) {ps : List Nat} (hne : ps ≠ [])
    (hps : ∀ p ∈ ps, Performs (fun e => e.comparesWith id = true) s.log p) :
    ∃ q ∈ ps, ∃ l₁ l₂ challenge readAt comparedAt,
      s.log = l₁ ++ (q, .challengeSelected id (some challenge) readAt) :: l₂ ∧
        challenge.Open comparedAt ∧
        (∃ c db, (registration pf).Path w₀ (l₁.map Prod.snd) ⟨c, db⟩ ∧
          lookup db.otpChallenges id = some challenge ∧ (registration pf).Later ⟨c, db⟩ s.world) ∧
        ∀ p ∈ ps, p ≠ q → Performs (fun e => e.counts id = true) l₁ p := by
  have hcmp : ∀ p ∈ ps, ∃ a b c t, (p, .codeCompared id a b c t) ∈ s.log := by
    intro p hp
    obtain ⟨e, he, hc⟩ := hps p hp
    cases e with
    | codeCompared i a b c t =>
      obtain rfl : i = id := by simpa [Event.comparesWith] using hc
      exact ⟨a, b, c, t, he⟩
    | _ => exact absurd hc Bool.false_ne_true
  have henter : ∀ p ∈ ps, Performs (fun e => e.selects id = true) s.log p := by
    intro p hp
    obtain ⟨a, b, c, t, he⟩ := hcmp p hp
    obtain ⟨readAt, _, hall⟩ := (h.comparison he).selected
    have hsel := (hall id (some c) readAt).mpr ⟨rfl, rfl, rfl⟩
    exact ⟨_, ReadCommitted.Server.mem_eventsOf.mp hsel, by simp [Event.selects]⟩
  obtain ⟨q, hmem, l₁, e, l₂, hlog, hsel, hleft⟩ := hturn.last_entrant hne henter hps
  cases e with
  | challengeSelected i row readAt =>
    obtain rfl : i = id := by simpa [Event.selects] using hsel
    obtain ⟨a, b, challenge, t, he⟩ := hcmp q hmem
    have hcompared := h.comparison he
    obtain ⟨_, _, hall⟩ := hcompared.selected
    have hin : .challengeSelected i row readAt ∈ eventsOf s.log q := by
      rw [ReadCommitted.Server.mem_eventsOf, hlog]
      simp
    obtain ⟨_, rfl, _⟩ := (hall i row readAt).mp hin
    obtain ⟨c, db, db', hpath, _, ⟨ha, heff⟩, hrest⟩ := h.cut h₀ hlog
    rw [show db' = db from heff] at hrest
    exact ⟨q, hmem, l₁, l₂, challenge, readAt, t, hlog, hcompared.opened,
      ⟨c, db, hpath, ha.symm, _, hrest⟩, hleft⟩
  | _ => exact absurd hsel Bool.false_ne_true

theorem SoundRun.comparisons_le (h : SoundRun pf w₀ s) (h₀ : w₀.db.Holds)
    (hturn : VerificationsInTurn id s)
    (hrow : lookup s.db.otpChallenges id = some challenge) :
    (comparisons id s).length ≤ challenge.maxAttempts := by
  let ps := (comparisons id s).map Prod.fst
  have hnd : ps.Nodup := ReadCommitted.Server.nodup_performers (h.compared_once id)
  have hlen : (comparisons id s).length = ps.length := (List.length_map ..).symm
  have hps : ∀ p ∈ ps, Performs (fun e => e.comparesWith id = true) s.log p := by
    intro p hp
    obtain ⟨x, hx, rfl⟩ := List.mem_map.mp hp
    obtain ⟨hmem, hc⟩ := List.mem_filter.mp hx
    exact ⟨x.2, hmem, hc⟩
  by_cases hnil : ps = []
  · rw [hlen, hnil]
    exact Nat.zero_le _
  · obtain ⟨q, hq, l₁, l₂, seen, _, _, hlog, hopen, ⟨c, db, hpath, hseen, hlater⟩, hleft⟩ :=
      h.last_selection h₀ hturn hnil hps
    have hothers : (ps.erase q).length ≤ (l₁.filter (fun x => x.2.counts id)).length := by
      apply ReadCommitted.Server.length_le_of_performs (hnd.erase q)
      intro p hp
      obtain ⟨hpq, hp⟩ := hnd.mem_erase_iff.mp hp
      exact hleft p hp hpq
    have hcounted : (l₁.filter (fun x => x.2.counts id)).length ≤ seen.attemptsCount := by
      have hle := counted_le hpath id
      rw [List.countP_map, Db.attempts, hseen] at hle
      rw [← List.countP_eq_length_filter]
      exact hle
    have hbudget : seen.attemptsCount < challenge.maxAttempts := by
      obtain ⟨r, hr, hev⟩ := challenges_evolve hlater id seen hseen
      obtain rfl := Option.some.inj (hr.symm.trans hrow)
      rw [hev.maxAttempts]
      exact hopen.budget
    rw [List.length_erase_of_mem hq] at hothers
    rw [hlen]
    omega

theorem SoundRun.matched (h : SoundRun pf w₀ s) {p : Nat} {a b : String} (hid : pf.uuid a = some id)
    (hret : s.Returned p (.verifyOtpChallenge a b) (.ok (.verified true))) :
    (p, .attemptCounted id true) ∈ s.log ∧
      Performs (fun e => e.comparesWith id = true) s.log p ∧
      ∀ e, (p, e) ∈ s.log → e.counts id = true → e = .attemptCounted id true := by
  obtain ⟨pr, hp, hcall, hfin⟩ := ReadCommitted.Server.returned_iff.mp hret
  have hans : Call.answer (.ok (.verified true)) (eventsOf s.log p) pr.call := h.post hp hfin
  rw [hcall] at hans
  obtain ⟨i, he⟩ := hans true rfl
  obtain ⟨pr', hp', ht⟩ := h.trace_of_log (ReadCommitted.Server.mem_eventsOf.mp he)
  obtain rfl := Option.some.inj (hp'.symm.trans hp)
  obtain ⟨a', b', c, t, hc, hcmp, hmatch⟩ := Call.compared_of_counted ht he
  obtain ⟨rfl, rfl⟩ := Call.verifyOtpChallenge.inj (hcall.symm.trans hc)
  have hcompared := h.comparison (ReadCommitted.Server.mem_eventsOf.mp hcmp)
  obtain rfl : i = id := Option.some.inj (hcompared.uuid.symm.trans hid)
  refine ⟨ReadCommitted.Server.mem_eventsOf.mp he, ?_, ?_⟩
  · exact ⟨_, ReadCommitted.Server.mem_eventsOf.mp hcmp, by simp [Event.comparesWith]⟩
  · intro e hin hcount
    cases e with
    | attemptCounted j d =>
      obtain ⟨rfl, rfl⟩ := hcompared.counted j d (ReadCommitted.Server.mem_eventsOf.mpr hin)
      rw [hmatch]
    | _ => exact absurd hcount Bool.false_ne_true

theorem SoundRun.matched_once (h : SoundRun pf w₀ s) (h₀ : w₀.db.Holds)
    (hturn : VerificationsInTurn id s) {p q : Nat} {a b a' b' : String}
    (hid : pf.uuid a = some id) (hid' : pf.uuid a' = some id)
    (hp : s.Returned p (.verifyOtpChallenge a b) (.ok (.verified true)))
    (hq : s.Returned q (.verifyOtpChallenge a' b') (.ok (.verified true))) : p = q := by
  by_contra hne
  obtain ⟨_, hcmp, honly⟩ := h.matched hid hp
  obtain ⟨_, hcmp', honly'⟩ := h.matched hid' hq
  have hps : ∀ r ∈ [p, q], Performs (fun e => e.comparesWith id = true) s.log r := by
    simp [hcmp, hcmp']
  have hall : ∀ r ∈ [p, q], ∀ e, (r, e) ∈ s.log → e.counts id = true → e = .attemptCounted id true := by
    simp only [List.mem_cons, List.not_mem_nil, or_false]
    intro r hr
    rcases hr with rfl | rfl
    · exact honly
    · exact honly'
  obtain ⟨r, hr, l₁, l₂, seen, _, _, hlog, hopen, ⟨c, db, hpath, hseen, _⟩, hleft⟩ :=
    h.last_selection h₀ hturn (by simp) hps
  have hother : ∃ r' ∈ [p, q], r' ≠ r := by
    by_cases hpr : p = r
    · exact ⟨q, by simp, fun heq => hne (hpr.trans heq.symm)⟩
    · exact ⟨p, by simp, hpr⟩
  obtain ⟨r', hr', hne'⟩ := hother
  obtain ⟨e, he, hcount⟩ := hleft r' hr' hne'
  obtain rfl := hall r' hr' e (by rw [hlog]; exact List.mem_append_left _ he) hcount
  obtain ⟨row, hrow, hverified⟩ := verified_of_counted hpath (List.mem_map.mpr ⟨_, he, rfl⟩)
  obtain rfl := Option.some.inj (hrow.symm.trans hseen)
  rw [hopen.unverified] at hverified
  exact Bool.false_ne_true hverified

/-- At most `max_attempts` codes are compared with a challenge whose
verifications come in turn, and at most one call answers `true`. -/
theorem otp_guess_budget {db : Db} {clock : Nat} (used : List Uuid) (hdb : db.Holds)
    (sched : List Choice) (id : Uuid)
    (hturn : VerificationsInTurn id (serve pf (.boot db clock used) sched)) :
    let s := serve pf (.boot db clock used) sched
    (∀ challenge, lookup s.db.otpChallenges id = some challenge →
      (comparisons id s).length ≤ challenge.maxAttempts) ∧
    ∀ p q a b a' b', pf.uuid a = some id → pf.uuid a' = some id →
      s.Returned p (.verifyOtpChallenge a b) (.ok (.verified true)) →
        s.Returned q (.verifyOtpChallenge a' b') (.ok (.verified true)) → p = q := by
  intro s
  have hs : SoundRun pf ⟨clock, db⟩ s := soundRun_boot used hdb sched
  constructor
  · exact fun challenge hrow => hs.comparisons_le hdb hturn hrow
  · exact fun p q a b a' b' ha ha' hp hq => hs.matched_once hdb hturn ha ha' hp hq

end

/-- The challenge 5, whose code is 111111. -/
def sampleChallenge : OtpChallenge :=
  OtpService.newChallenge samplePlatform 5 7 "111111" 60 0

def sampleDb : Db := { Db.empty with otpChallenges := [sampleChallenge] }

theorem sampleDb_holds : sampleDb.Holds := ⟨List.nodup_singleton _, List.nodup_nil⟩

def sampleStart : Server := .boot sampleDb 0 []

def sampleText : String := "11111000-0000-0000-0000-000000000000"

/-- A verification by process `p`, as far as `steps` statements go. -/
def sampleCode (code : String) (steps p : Nat) : List Choice :=
  .call p (.verifyOtpChallenge sampleText code) :: List.replicate steps (.exec p [])

def sampleCodes : List Choice := (List.range 5).flatMap (sampleCode "222222" 8)

theorem sampleCodes_bounded :
    (comparisons 5 (serve samplePlatform sampleStart sampleCodes)).length ≤ 3 :=
  (otp_guess_budget [] sampleDb_holds sampleCodes 5 (by decide +kernel)).1
    { sampleChallenge with attemptsCount := 3 } (by decide +kernel)

/-- Four codes that are all compared before the first of them is counted, and
two calls that both answer `true`. -/
theorem sampleCodes_exceed :
    3 < (comparisons 5 (serve samplePlatform sampleStart
      ((List.range 4).flatMap (sampleCode "222222" 5)))).length ∧
    let s := serve samplePlatform sampleStart (sampleCode "111111" 5 0 ++ sampleCode "111111" 5 1 ++
      List.replicate 3 (.exec 0 []) ++ List.replicate 3 (.exec 1 []))
    s.Returned 0 (.verifyOtpChallenge sampleText "111111") (.ok (.verified true)) ∧
      s.Returned 1 (.verifyOtpChallenge sampleText "111111") (.ok (.verified true)) := by
  decide +kernel

end Registration

end GuffSuff
