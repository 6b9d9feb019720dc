import GuffSuff.OtpRequests
import GuffSuff.ReadCommitted.Turns
import GuffSuff.SlidingWindow

/-! The codes that a phone number gets in a day, when its requests do not overlap:
the cooldown of each one counts all those before it in any window it falls into. -/

namespace GuffSuff

open ReadCommitted
open SlidingWindow (Throttled inside)

namespace Registration

open OtpService

def gapMs (recent : Nat) : Nat := (if recent = 1 then 120 else if 2 ≤ recent then 300 else 60) * 1000

/-- The challenges for the index since the first ones keep their distance. -/
def Kept (i : Digest) (first : List Nat) (w : World Db) : Prop :=
  ∃ created, w.db.requestTimes i = first ++ created ∧ Throttled dayMs gapMs created

theorem gapMs_mono : Monotone gapMs := by
  intro m n h
  unfold gapMs
  split <;> split <;> (try split) <;> (try split) <;> omega

section
variable {pf : Platform} {i : Digest} {first : List Nat} {w : World Db}

theorem Kept.of_same {db : Db} (h : Kept i first w) (hsame : w.db.SameRequests db) (c : Nat) :
    Kept i first ⟨c, db⟩ := by
  obtain ⟨created, htimes, hthrottled⟩ := h
  exact ⟨created, (hsame i).trans htimes, hthrottled⟩

/-- The step lemma: a request that the cooldown lets through. -/
theorem Kept.request (h : Kept i first w) {selectedAt checkedAt : Nat} {r : OtpChallenge}
    (hselected : selectedAt ≤ checkedAt) (hchecked : checkedAt ≤ r.createdAt)
    (hover : secondsRemaining (recentChallenges w.db r.phoneBlindIndex selectedAt) checkedAt = none)
    (c : Nat) : Kept i first ⟨c, w.db.insertOtpChallenge r⟩ := by
  obtain ⟨created, htimes, hthrottled⟩ := h
  rw [Kept, Db.requestTimes_insert, htimes]
  split
  · rename_i hindex
    rw [recentChallenges_eq, hindex, htimes, recentTimes_append, secondsRemaining_eq_none] at hover
    refine ⟨created ++ [r.createdAt], by rw [List.append_assoc], ?_⟩
    refine hthrottled.concat (Nat.le_trans hselected hchecked) fun x hx hrecent => ?_
    have hmem : x ∈ recentTimes first selectedAt ++ recentTimes created selectedAt :=
      List.mem_append_right _ (mem_recentTimes.mpr ⟨hx, hrecent⟩)
    have hcount : created.countP (selectedAt < · + dayMs) ≤
        (recentTimes first selectedAt ++ recentTimes created selectedAt).length := by
      rw [List.length_append, List.countP_eq_length_filter]
      exact Nat.le_add_left _ _
    calc x + gapMs (created.countP (selectedAt < · + dayMs))
        ≤ x + gapMs (recentTimes first selectedAt ++ recentTimes created selectedAt).length :=
          Nat.add_le_add_left (gapMs_mono hcount) x
      _ ≤ checkedAt := hover x hmem
      _ ≤ r.createdAt := hchecked
  · exact ⟨created, List.append_nil _, hthrottled⟩

theorem ends_insertRow {J : List Event → World Db → Prop} {locks : List Key}
    {checks : Db → List (Bool × Failure)} {write f : Db → Db} {k : Program} {es : List Event}
    (hk : k.Ends J (fun _ _ _ => True) (fun db => write (f db)) es w) :
    (insertRow locks checks write k).Ends J (fun _ _ _ => True) f es w := by
  have hchecked : ∀ l : List (Bool × Failure),
      (checked l (.write write k)).Ends J (fun _ _ _ => True) f es w := by
    intro l
    induction l with
    | nil => exact hk
    | cons c l ih =>
      rw [checked]
      split
      · trivial
      · exact ih
  induction locks with
  | nil => exact hchecked _
  | cons key locks ih => exact ih

theorem ends_requestOtpChallenge (index : Digest) (h : Kept i first w) :
    (requestOtpChallenge pf index).Ends (fun _ => Kept i first) (fun _ _ _ => True) id [] w := by
  intro selectedAt _ checkedAt hchecked
  dsimp only
  split
  · trivial
  · rename_i hover
    intro drawn _ challengeId now hnow
    let r := newChallenge pf challengeId index (codeText drawn)
      (cooldownSeconds (recentChallenges w.db index selectedAt)) now
    have hinserted : Kept i first ⟨now, w.db.insertOtpChallenge r⟩ :=
      Kept.request (r := r) h hchecked hnow hover now
    refine ends_insertRow ⟨hinserted, ?_⟩
    split
    · trivial
    · exact fun id => ends_insertRow ⟨hinserted.of_same (fun _ => rfl) now, trivial⟩

theorem Call.ends (c : Call) (h : Kept i first w) :
    (c.program pf).Ends (fun _ => Kept i first) (fun _ _ _ => True) id [] w := by
  have hlast : Lasting fun _ : List Event => Kept i first := fun _ _ _ _ hkept _ => hkept
  have hquiet : ∀ {p : Program}, p.Keeps Db.SameRequests (fun e => ¬ e.IsRequest) →
      p.Ends (fun _ => Kept i first) (fun _ _ _ => True) id [] w := fun hp =>
    .of_keeps hlast (fun _ _ => rfl) (fun _ _ _ hab hbc i => (hbc i).trans (hab i))
      (fun _ _ c _ _ _ hsame hkept => hkept.of_same hsame c) hp (fun _ _ => rfl) h
  cases c with
  | requestOtpChallenge phoneBlindIndex => exact ends_requestOtpChallenge phoneBlindIndex h
  | verifyOtpChallenge challengeId candidateOtp =>
    exact hquiet (keeps_verifyOtpChallenge Db.sameRequests_countAttempt (fun _ => Event.not_isRequest)
      challengeId candidateOtp)
  | registerAccount params => exact hquiet (keeps_registerAccount params)

end

abbrev Turns (pf : Platform) (s : Server) (turns : List (Call × Answer × List Event)) (s' : Server) : Prop :=
  ReadCommitted.Server.Turns (Call.program pf) Call.aborted s turns s'

section
variable {pf : Platform} {s s' : Server} {turns : List (Call × Answer × List Event)}

theorem Turns.kept (h : Turns pf s turns s') (i : Digest) : Kept i (s.db.requestTimes i) s'.world := by
  induction h with
  | nil => exact ⟨[], (List.append_nil _).symm, SlidingWindow.throttled_nil⟩
  | @snoc turns s' p c r es sched _ turn _ ih =>
    have hlast : Lasting fun _ : List Event => Kept i (s.db.requestTimes i) := fun _ _ _ _ hkept _ => hkept
    obtain ⟨_, _, hkept⟩ := ReadCommitted.Server.kept_run (Call.program pf) Call.aborted c hlast turn.idle
      ih (c.ends ih) turn.only
    exact hkept

/-- 289 codes in any 24 hours, two minutes between the first two of them and five minutes between the
others. -/
theorem daily_requests_bounded {db : Db} {clock : Nat} {used : List Uuid}
    (h : Turns pf (.boot db clock used) turns s') (i : Digest) :
    ∃ created, s'.db.requestTimes i = db.requestTimes i ++ created ∧
      ∀ since, (inside since 86400000 created).length ≤ 289 ∧
        ∀ first x y rest, inside since 86400000 created = first ++ x :: y :: rest →
          x + 120000 ≤ y ∧ (first ≠ [] → x + 300000 ≤ y) := by
  obtain ⟨created, htimes, hthrottled⟩ := h.kept i
  refine ⟨created, htimes, fun since => ⟨?_, fun first x y rest hsplit => ?_⟩⟩
  · exact hthrottled.length_inside gapMs_mono (by decide +kernel) since
  · have hgap := hthrottled.spaced gapMs_mono since first x y rest hsplit
    cases first with
    | nil => exact ⟨hgap, fun hne => absurd rfl hne⟩
    | cons z first =>
      have hlong : gapMs ((z :: first).length + 1) = 300000 := by simp [gapMs]
      rw [hlong] at hgap
      exact ⟨by omega, fun _ => hgap⟩

end

def sampleDay : Nat → Server
  | 0 => .boot Db.empty 0 []
  | n + 1 => serve samplePlatform (sampleDay n)
      (.call n (.requestOtpChallenge 7) :: .tick 120000 :: sampleRequest n)

theorem sampleDay_bounded :
    (sampleDay 2).db.requestTimes 7 = [120000, 240000] ∧
      (inside 0 86400000 ((sampleDay 2).db.requestTimes 7)).length ≤ 289 := by
  have hnext : ∀ {n turns r} {es : List Event}, Turns samplePlatform (.boot Db.empty 0 []) turns (sampleDay n) →
      (sampleDay n).procs n = none → (sampleDay (n + 1)).Returned n (.requestOtpChallenge 7) r →
        (sampleDay (n + 1)).log = (sampleDay n).log ++ es.map (Prod.mk n) →
          ∃ turns, Turns samplePlatform (.boot Db.empty 0 []) turns (sampleDay (n + 1)) := by
    intro n turns r es hturns hidle hret hlog
    refine ⟨_, hturns.snoc ⟨hidle, ?_, hret⟩ hlog⟩
    simp [sampleRequest, ReadCommitted.Choice.OnlyMoves]
  obtain ⟨_, hfirst⟩ : ∃ turns, Turns samplePlatform (.boot Db.empty 0 []) turns (sampleDay 1) :=
    hnext (r := .ok (.challenge ⟨10, 180000, 420000⟩)) (n := 0) .nil rfl (by decide +kernel)
      (show (sampleDay 1).log = _ ++ ((sampleDay 1).log.map Prod.snd).map (Prod.mk 0) by decide +kernel)
  obtain ⟨turns, hturns⟩ : ∃ turns, Turns samplePlatform (.boot Db.empty 0 []) turns (sampleDay 2) :=
    hnext (r := .ok (.challenge ⟨12, 360000, 540000⟩)) hfirst
      (Option.isNone_iff_eq_none.mp (by decide +kernel)) (by decide +kernel)
      (show (sampleDay 2).log = _ ++ (((sampleDay 2).log.drop 2).map Prod.snd).map (Prod.mk 1) by
        decide +kernel)
  obtain ⟨created, htimes, hall⟩ := daily_requests_bounded hturns 7
  rw [htimes]
  exact ⟨by rw [← htimes]; decide +kernel, (hall 0).1⟩

end Registration

end GuffSuff
