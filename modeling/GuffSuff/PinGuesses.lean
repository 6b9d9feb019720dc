import GuffSuff.ReadCommitted.Exclusive
import GuffSuff.RegistrationLockRuns

/-! The guess budget of the registration lock: five wrong PINs in 30 minutes, if
each guess is on record before the next one is let through. -/

namespace GuffSuff

open ReadCommitted
open ReadCommitted.Server (eventsOf Performs Exclusive)

namespace RegistrationLock

namespace Event

def counts (user : Uuid) : Event → Bool
  | failuresCounted u _ _ => u = user
  | _ => false

def comparesWrong (pf : Platform) (user : Uuid) : Event → Bool
  | pinCompared u pin hash _ => u = user && !pinMatches pf hash pin
  | _ => false

def records (user : Uuid) : Event → Bool
  | attemptRecorded a => a.userId = user
  | _ => false

/-- A wrong PIN of `user` is compared in the 30 minutes from `since` on. -/
def guesses (pf : Platform) (user : Uuid) (since : Nat) : Event → Bool
  | pinCompared u pin hash now =>
    u = user && !pinMatches pf hash pin && since ≤ now && now < since + lockoutMs
  | _ => false

def compares : Event → Bool
  | pinCompared .. => true
  | _ => false

def ofVerification : Event → Bool
  | failuresCounted .. | hashRead .. | pinCompared .. | attemptRecorded _ => true
  | _ => false

end Event

def wrongGuesses (pf : Platform) (user : Uuid) (since : Nat) (s : Server) : List (Nat × Event) :=
  s.log.filter fun x => x.2.guesses pf user since

/-- Of two verifications that compare a wrong PIN of the user, one has recorded
its attempt before the other checks the lockout. -/
def AttemptsInTurn (pf : Platform) (user : Uuid) (s : Server) : Prop :=
  Exclusive (fun e => e.counts user = true) (fun e => e.comparesWrong pf user = true)
    (fun e => e.records user = true) s.log

instance (pf : Platform) (user : Uuid) (s : Server) : Decidable (AttemptsInTurn pf user s) :=
  inferInstanceAs (Decidable (Exclusive ..))

/-- What the other events of a call say about its comparison. -/
structure Comparison (pf : Platform) (user : Uuid) (pin : String) (hash : Digest) (comparedAt : Nat)
    (es : List Event) : Prop where
  counted : ∃ now failures, failures < maxFailures ∧ now ≤ comparedAt ∧
    ∀ u n f, .failuresCounted u n f ∈ es ↔ u = user ∧ n = now ∧ f = failures
  recorded : ∀ a, .attemptRecorded a ∈ es →
    a.userId = user ∧ a.isSuccessful = pinMatches pf hash pin ∧ comparedAt ≤ a.createdAt
  once : es.countP Event.compares ≤ 1

section
variable {pf : Platform} {w₀ : World Db} {s : Server} {user : Uuid} {es : List Event}

theorem Verifies.comparison {pin : String} {more : Digest → List Event → Prop}
    (h : Verifies pf user pin more es)
    (hmore : ∀ hash rest, more hash rest → ∀ e ∈ rest, e.ofVerification = false)
    {u : Uuid} {q : String} {hash : Digest} {t : Nat} (he : .pinCompared u q hash t ∈ es) :
    Comparison pf u q hash t es := by
  rcases h with h | ⟨now, failures, comparedAt, hash', a, rest, hv, hrest, rfl⟩
  · cases h with
    | start => exact absurd he List.not_mem_nil
    | counted now failures => simp at he
    | read now failures hash hn => simp at he
    | compared now failures comparedAt hash' hn hc =>
      obtain ⟨rfl, rfl, rfl, rfl⟩ : u = user ∧ q = pin ∧ hash = hash' ∧ t = comparedAt := by
        simpa using he
      constructor
      case counted => exact ⟨now, failures, hn, hc, by simp⟩
      case recorded => simp
      case once => simp [Event.compares]
  · have hmem : ∀ e, e.ofVerification = true →
        (e ∈ verifiedEvents user pin now failures comparedAt hash' a ++ rest ↔
          e ∈ verifiedEvents user pin now failures comparedAt hash' a) := by
      intro e hkind
      have hnot : e ∉ rest := fun hin => by simp [hmore hash' rest hrest e hin] at hkind
      simp [hnot]
    obtain ⟨rfl, rfl, rfl, rfl⟩ : u = user ∧ q = pin ∧ hash = hash' ∧ t = comparedAt := by
      simpa [verifiedEvents] using (hmem _ rfl).mp he
    constructor
    case counted =>
      refine ⟨now, failures, hv.unlocked, hv.counted, fun v n f => ?_⟩
      rw [hmem _ rfl]
      simp [verifiedEvents]
    case recorded =>
      intro b hb
      obtain rfl : b = a := by simpa [verifiedEvents] using (hmem _ rfl).mp hb
      exact ⟨hv.user, hv.outcome, hv.recorded⟩
    case once =>
      have hrest₀ : rest.countP Event.compares = 0 := by
        rw [List.countP_eq_zero]
        intro e hin hcmp
        have hno := hmore hash rest hrest e hin
        cases e <;> simp [Event.compares, Event.ofVerification] at hcmp hno
      rw [List.countP_append, hrest₀]
      simp [verifiedEvents, Event.compares, List.countP_cons]

theorem Deletion.not_verification {pin : String} {hash : Digest} (h : Deletion pf user pin hash es) :
    ∀ e ∈ es, e.ofVerification = false := by
  cases h <;> simp [Event.ofVerification]

theorem Call.comparison {c : Call} (h : c.trace pf es) {pin : String} {hash : Digest} {t : Nat}
    (he : .pinCompared user pin hash t ∈ es) : Comparison pf user pin hash t es := by
  cases c with
  | setPin u q => cases (show Setting u q es from h) <;> simp at he
  | verifyPin u q ip =>
    refine Verifies.comparison h (fun hash rest hrest => ?_) he
    rw [show rest = [] from hrest]
    simp
  | disablePin u q => exact Verifies.comparison h (fun _ _ hrest => hrest.not_verification) he

theorem SoundRun.comparison (h : SoundRun pf w₀ s) {p : Nat} {pin : String} {hash : Digest} {t : Nat}
    (he : (p, .pinCompared user pin hash t) ∈ s.log) :
    Comparison pf user pin hash t (eventsOf s.log p) := by
  obtain ⟨pr, _, ht⟩ := h.trace_of_log he
  exact Call.comparison ht (ReadCommitted.Server.mem_eventsOf.mpr he)

theorem Event.guesses_eq {e : Event} {since : Nat} (h : e.guesses pf user since = true) :
    ∃ pin hash t, e = .pinCompared user pin hash t ∧ pinMatches pf hash pin = false ∧
      since ≤ t ∧ t < since + lockoutMs := by
  cases e with
  | pinCompared u pin hash t =>
    simp only [Event.guesses, Bool.and_eq_true, Bool.not_eq_true', decide_eq_true_eq] at h
    obtain ⟨⟨⟨rfl, hwrong⟩, hsince⟩, hbefore⟩ := h
    exact ⟨pin, hash, t, rfl, hwrong, hsince, hbefore⟩
  | _ => exact absurd h Bool.false_ne_true

theorem SoundRun.guess_once (h : SoundRun pf w₀ s) (user : Uuid) (since p : Nat) :
    ((eventsOf s.log p).filter (fun e => e.guesses pf user since)).length ≤ 1 := by
  rw [← List.countP_eq_length_filter]
  by_cases hany : ∃ e ∈ eventsOf s.log p, e.guesses pf user since = true
  · obtain ⟨e, he, hguess⟩ := hany
    obtain ⟨pin, hash, t, rfl, _⟩ := Event.guesses_eq hguess
    have hcmp := h.comparison (ReadCommitted.Server.mem_eventsOf.mp he)
    refine Nat.le_trans (List.countP_mono_left fun e _ hg => ?_) hcmp.once
    obtain ⟨_, _, _, rfl, _⟩ := Event.guesses_eq hg
    rfl
  · have hnone : (eventsOf s.log p).countP (fun e => e.guesses pf user since) = 0 := by
      rw [List.countP_eq_zero]
      exact fun e he hg => hany ⟨e, he, hg⟩
    omega

def Event.failed (user : Uuid) (now : Nat) : Event → Bool
  | attemptRecorded a => a.userId = user && now < a.createdAt + lockoutMs && !a.isSuccessful
  | _ => false

theorem failures_ge {v w : World Db} {es : List Event} (h : (lock pf).Path v es w) (user : Uuid)
    (now : Nat) : es.countP (Event.failed user now) ≤ w.db.failures user now := by
  have hcount : es.countP (Event.failed user now) = (es.filterMap Event.attempt).countP
      fun a => !a.isSuccessful && (a.userId = user && now < a.createdAt + lockoutMs) := by
    rw [List.countP_filterMap]
    congr 1
    funext e
    cases e with
    | attemptRecorded a => simp [Event.failed, Event.attempt, Bool.and_comm]
    | _ => rfl
  rw [Db.failures, attempts_of_path h, List.filter_filter, List.filter_append, List.length_append,
    ← List.countP_eq_length_filter, ← List.countP_eq_length_filter, hcount]
  exact Nat.le_add_left _ _

/-- Five wrong guesses in any 30 minutes, if the attempts are recorded in turn. -/
theorem SoundRun.guesses_le (h : SoundRun pf w₀ s) (h₀ : w₀.db.Holds) (hturn : AttemptsInTurn pf user s)
    (since : Nat) : (wrongGuesses pf user since s).length ≤ maxFailures := by
  let ps := (wrongGuesses pf user since s).map Prod.fst
  have hnd : ps.Nodup := ReadCommitted.Server.nodup_performers (h.guess_once user since)
  have hlen : (wrongGuesses pf user since s).length = ps.length := (List.length_map ..).symm
  have hguess : ∀ p ∈ ps, ∃ pin hash t, (p, .pinCompared user pin hash t) ∈ s.log ∧
      pinMatches pf hash pin = false ∧ since ≤ t ∧ t < since + lockoutMs := by
    intro p hp
    obtain ⟨x, hx, rfl⟩ := List.mem_map.mp hp
    obtain ⟨hmem, hg⟩ := List.mem_filter.mp hx
    obtain ⟨pin, hash, t, heq, hwrong⟩ := Event.guesses_eq hg
    exact ⟨pin, hash, t, heq ▸ hmem, hwrong⟩
  by_cases hnil : ps = []
  · rw [hlen, hnil]
    exact Nat.zero_le _
  · have henter : ∀ p ∈ ps, Performs (fun e => e.counts user = true) s.log p := by
      intro p hp
      obtain ⟨pin, hash, t, hmem, _⟩ := hguess p hp
      obtain ⟨now, failures, _, _, hall⟩ := (h.comparison hmem).counted
      have hc := (hall user now failures).mpr ⟨rfl, rfl, rfl⟩
      exact ⟨_, ReadCommitted.Server.mem_eventsOf.mp hc, by simp [Event.counts]⟩
    have hact : ∀ p ∈ ps, Performs (fun e => e.comparesWrong pf user = true) s.log p := by
      intro p hp
      obtain ⟨pin, hash, t, hmem, hwrong, _⟩ := hguess p hp
      exact ⟨_, hmem, by simp [Event.comparesWrong, hwrong]⟩
    obtain ⟨q, hq, l₁, e, l₂, hlog, hcount, hleft⟩ := hturn.last_entrant hnil henter hact
    obtain ⟨pin, hash, t, hmem, _, _, hbefore⟩ := hguess q hq
    obtain ⟨now, failures, hunlocked, hnow, hall⟩ := (h.comparison hmem).counted
    have hsame : e = .failuresCounted user now failures := by
      cases e with
      | failuresCounted u n f =>
        have hin : .failuresCounted u n f ∈ eventsOf s.log q := by
          rw [ReadCommitted.Server.mem_eventsOf, hlog]
          simp
        obtain ⟨rfl, rfl, rfl⟩ := (hall u n f).mp hin
        rfl
      | _ => exact absurd hcount Bool.false_ne_true
    obtain ⟨c, db, _, hpath, _, ⟨ha, _⟩, _⟩ := h.cut h₀ hlog
    rw [hsame] at ha
    have hread : failures = db.failures user now := ha
    -- Every other guess is a failed attempt that the last call counted.
    have hothers : (ps.erase q).length ≤
        (l₁.filter (fun x => x.2.failed user now)).length := by
      apply ReadCommitted.Server.length_le_of_performs (hnd.erase q)
      intro p hp
      obtain ⟨hpq, hp⟩ := hnd.mem_erase_iff.mp hp
      obtain ⟨e', he', hrec⟩ := hleft p hp hpq
      obtain ⟨pin', hash', t', hmem', hwrong', hsince', _⟩ := hguess p hp
      cases e' with
      | attemptRecorded a =>
        have hin : .attemptRecorded a ∈ eventsOf s.log p := by
          rw [ReadCommitted.Server.mem_eventsOf, hlog]
          exact List.mem_append_left _ he'
        obtain ⟨hu, hs, ht⟩ := (h.comparison hmem').recorded a hin
        have hcounts : now < a.createdAt + lockoutMs := by omega
        exact ⟨_, he', by simp [Event.failed, hu, hs, hwrong', hcounts]⟩
      | _ => exact absurd hrec Bool.false_ne_true
    have hfailed : (l₁.filter (fun x => x.2.failed user now)).length ≤ failures := by
      rw [hread, ← List.countP_eq_length_filter]
      have hge := failures_ge hpath user now
      rw [List.countP_map] at hge
      exact hge
    rw [List.length_erase_of_mem hq] at hothers
    rw [hlen]
    omega

theorem wrong_guesses_bounded {db : Db} {clock : Nat} {used : List Uuid} (hdb : db.Holds)
    (hused : ∀ x ∈ db.ids, x ∈ used) (sched : List Choice) (user : Uuid)
    (hturn : AttemptsInTurn pf user (serve pf (.boot db clock used) sched)) :
    ∀ since, (wrongGuesses pf user since (serve pf (.boot db clock used) sched)).length ≤ 5 := by
  intro since
  exact (soundRun_boot hdb hused sched).guesses_le hdb hturn since

end

def samplePlatform : Platform where
  argon2Hash _ text := text.length
  argon2Verify hash text := hash = text.length
  pinPepper := "pepper"

def sampleDb : Db :=
  { users := [⟨1, .active⟩]
    registrationLockCredentials := [⟨1, samplePlatform.argon2Hash [] "123456:pepper", 0, 0⟩]
    registrationLockAttempts := [], securityEvents := [] }

theorem sampleDb_holds : sampleDb.Holds := List.nodup_singleton _

def sampleStart : Server := .boot sampleDb 0 []

/-- A wrong guess up to its comparison. -/
def sampleGuess (p : Nat) : List Choice :=
  .call p (.verifyPin 1 "1234567" none) :: List.replicate 5 (.exec p [])

/-- A guess that is recorded in row `row` before anything else happens. -/
def sampleAttempt (p : Nat) (row : Uuid) : List Choice :=
  sampleGuess p ++ .exec p [row] :: List.replicate 4 (.exec p [])

def sampleAttempts : List Choice := (List.range 7).flatMap fun p => sampleAttempt p (p + 10)

theorem sampleAttempts_bounded :
    (wrongGuesses samplePlatform 1 0 (serve samplePlatform sampleStart sampleAttempts)).length ≤ 5 :=
  wrong_guesses_bounded sampleDb_holds (by decide) sampleAttempts 1 (by decide +kernel) 0

/-- Six guesses that all check the lockout before the first of them is recorded. -/
theorem sampleGuesses_exceed : 5 < (wrongGuesses samplePlatform 1 0
    (serve samplePlatform sampleStart ((List.range 6).flatMap sampleGuess))).length := by
  decide

end RegistrationLock

end GuffSuff
