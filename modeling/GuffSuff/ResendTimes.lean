import GuffSuff.OtpRequests
import GuffSuff.ReadCommitted.Answers
import GuffSuff.RegistrationFailures

/-! The resend time that a request for a code promises, against the cooldown that
meets the next request: the promise counts the challenges before the new one,
the cooldown counts the new one too. -/

namespace GuffSuff

open ReadCommitted

namespace Registration

open OtpService

/-- Time goes on, and nobody creates a challenge for the index. -/
def Unrequested (i : Digest) (w w' : World Db) : Prop :=
  w.clock ≤ w'.clock ∧ w'.db.requestTimes i = w.db.requestTimes i

/-- What a request answers that has found, at `selectedAt`, challenges of these times. -/
structure Answered (i : Digest) (selectedAt : Nat) (times : List Nat) (r : Answer) (w : World Db) :
    Prop where
  accepted : ∀ c, r = .ok (.challenge c) → ∃ created, selectedAt ≤ created ∧ created ≤ w.clock ∧
    c.resendAvailableAt = created + cooldownSeconds (recentTimes times selectedAt) * 1000 ∧
    w.db.requestTimes i = times ++ [created]
  rejected : (∃ seconds, r = cooldownActive seconds) → ∃ checkedAt, selectedAt ≤ checkedAt ∧
    secondsRemaining (recentTimes times selectedAt) checkedAt ≠ none

theorem Unrequested.refl {i : Digest} (w : World Db) : Unrequested i w w := ⟨Nat.le_refl _, rfl⟩

theorem Unrequested.trans {i : Digest} {u v w : World Db} (h : Unrequested i u v)
    (h' : Unrequested i v w) : Unrequested i u w := ⟨Nat.le_trans h.1 h'.1, h'.2.trans h.2⟩

section
variable {pf : Platform} {i : Digest} {selectedAt : Nat} {times : List Nat} {w : World Db}

theorem answered_refused {x : Failure} (hx : ∀ text, x = .error text → text.toList.head? = some '[')
    (w : World Db) : Answered i selectedAt times (.error x) w where
  accepted _ h := nomatch h
  rejected h := by
    obtain ⟨seconds, h⟩ := h
    have hhead := hx _ (Except.error.inj h)
    simp [String.toList_append] at hhead

/-- The request once it has read the time: it answers for the challenges it finds. -/
theorem results_requestOtpChallenge (pf : Platform) (i : Digest) :
    ∃ k, requestOtpChallenge pf i = .now k ∧ ∀ selectedAt (w : World Db), selectedAt ≤ w.clock →
      ∀ P : Answer → World Db → Prop,
        (∀ r w', Answered i selectedAt (w.db.requestTimes i) r w' → P r w') →
          (k selectedAt).Results (Unrequested i) P id w := by
  refine ⟨_, rfl, fun selectedAt w hw P hP => ?_⟩
  intro w₁ hw₁ w₂ hw₂
  have htimes : recentChallenges (id w₁.db) i selectedAt = recentTimes (w.db.requestTimes i) selectedAt := by
    rw [recentChallenges_eq, id_eq, hw₁.2]
  rw [htimes]
  dsimp only
  cases hseconds : secondsRemaining (recentTimes (w.db.requestTimes i) selectedAt) w₂.clock with
  | some seconds =>
    intro w' _
    refine hP _ _ ⟨fun _ h => (nomatch h), fun _ => ⟨w₂.clock, ?_, ?_⟩⟩
    · exact Nat.le_trans hw (Nat.le_trans hw₁.1 hw₂.1)
    · simp [hseconds]
  | none =>
    intro w₃ hw₃ drawn hdrawn challengeId w₄ hw₄
    have h₄ := hw₁.trans (hw₂.trans (hw₃.trans hw₄))
    refine results_insertRow (fun _ _ _ => .trans) (fun w' _ => ?_) fun w₅ hw₅ w₆ hw₆ => ?_
    · simp only [List.Forall]
      refine fun _ v => hP _ _ (answered_refused ?_ v)
      exact fun _ h => nomatch h
    have h₆ := hw₅.trans hw₆
    cases hsend : sendOtp pf (pf.uuidText challengeId) with
    | error message =>
      refine fun w' _ => hP _ _ (answered_refused (fun text htext => ?_) w')
      obtain rfl := Failure.error.inj htext
      unfold sendOtp at hsend
      split at hsend
      · obtain rfl := Except.error.inj hsend
        simp
      · exact nomatch hsend
    | ok result =>
      intro id
      refine results_insertRow (fun _ _ _ => .trans) (fun w' _ => ?_) fun w₇ hw₇ w₈ hw₈ w₉ hw₉ => hP _ _ ?_
      · simp only [List.Forall]
        refine ⟨fun _ v => ?_, fun _ v => ?_, fun _ v => ?_⟩ <;> refine hP _ _ (answered_refused ?_ v) <;>
          exact fun _ h => nomatch h
      refine ⟨fun c hc => ?_, fun h => nomatch h.choose_spec⟩
      obtain rfl := Value.challenge.inj (Except.ok.inj hc)
      have hlast := (hw₇.trans hw₈).trans hw₉
      refine ⟨w₄.clock, Nat.le_trans hw h₄.1, ?_, rfl, ?_⟩
      · exact Nat.le_trans h₆.1 hlast.1
      · have hsame : w₆.db.requestTimes i = w.db.requestTimes i := (h₄.trans h₆).2
        rw [hlast.2]
        show (Db.insertOtpChallenge _ w₆.db).requestTimes i = _
        rw [Db.requestTimes_insert, hsame]
        simp [newChallenge]

end

/-- The other processes create no challenge for the index in the part of the run from `s` to `s'`. -/
def UnrequestedBy (i : Digest) (p : Nat) (s s' : Server) : Prop :=
  ∃ new, s'.log = s.log ++ new ∧ ∀ x ∈ new, x.1 ≠ p → ¬ x.2.Requests i

/-- Whoever asks for a code once `resendAvailableAt` has come is not turned away by the cooldown. -/
def ResendHonoured (pf : Platform) (i : Digest) (resendAvailableAt : Nat) (s : Server) : Prop :=
  ∀ before after q r, (serve pf s before).procs q = none →
    resendAvailableAt ≤ (serve pf s before).clock →
    UnrequestedBy i q s (serve pf s (before ++ .call q (.requestOtpChallenge i) :: after)) →
    (serve pf s (before ++ .call q (.requestOtpChallenge i) :: after)).Returned q
      (.requestOtpChallenge i) r →
    ∀ seconds, r ≠ cooldownActive seconds

/-- Two challenges of the last 24 hours make the cooldown as long as it gets; a single one has to be
over by the time it promises; otherwise the call answers only after the cooldown. -/
def ResendSettled (recent : List Nat) (created returned : Nat) : Prop :=
  2 ≤ recent.length ∨ (recent.length = 1 ∧ ∀ t ∈ recent, t + dayMs ≤ max (created + 120000) returned) ∨
    (recent.length = 1 ∧ created + 300000 ≤ returned) ∨ (recent = [] ∧ created + 120000 ≤ returned)

/-- The cooldown over the challenges of these times is over, and stays so. -/
def Settled (times : List Nat) (now : Nat) : Prop :=
  ∀ t ∈ recentTimes times now, t + cooldownSeconds (recentTimes times now) * 1000 ≤ now

theorem Settled.later {times : List Nat} {now selectedAt checkedAt : Nat} (h : Settled times now)
    (hselected : now ≤ selectedAt) (hchecked : selectedAt ≤ checkedAt) :
    secondsRemaining (recentTimes times selectedAt) checkedAt = none := by
  rw [secondsRemaining_eq_none]
  intro t ht
  obtain ⟨hmem, hrecent⟩ := mem_recentTimes.mp ht
  have hshorter := cooldownSeconds_mono (recentTimes_length_le times hselected)
  calc t + cooldownSeconds (recentTimes times selectedAt) * 1000
      ≤ t + cooldownSeconds (recentTimes times now) * 1000 :=
        Nat.add_le_add_left (Nat.mul_le_mul_right 1000 hshorter) t
    _ ≤ now := h t (mem_recentTimes.mpr ⟨hmem, Nat.lt_of_le_of_lt hselected hrecent⟩)
    _ ≤ checkedAt := Nat.le_trans hselected hchecked

theorem recentTimes_later (times : List Nat) {now later : Nat} (h : now ≤ later) :
    recentTimes times later = recentTimes (recentTimes times now) later := by
  rw [recentTimes, recentTimes, recentTimes, List.filter_filter]
  refine List.filter_congr fun t _ => ?_
  by_cases hlater : later < t + dayMs
  · simp [hlater, Nat.lt_of_le_of_lt h hlater]
  · simp [hlater]

theorem settled_append {times : List Nat} {created now : Nat} (hdated : ∀ t ∈ times, t ≤ created) :
    Settled (times ++ [created]) now ↔ (now < created + dayMs →
      created + (if recentTimes times now = [] then 120 else 300) * 1000 ≤ now) := by
  rw [Settled, recentTimes_append]
  by_cases hrecent : now < created + dayMs
  · have hnew : recentTimes [created] now = [created] := by simp [recentTimes, hrecent]
    have hcooldown : cooldownSeconds (recentTimes times now ++ [created]) =
        if recentTimes times now = [] then 120 else 300 := by
      cases recentTimes times now <;> simp [cooldownSeconds]
    rw [hnew, hcooldown]
    constructor
    · exact fun h _ => h created (List.mem_append_right _ (List.mem_singleton_self _))
    · intro h t ht
      have hle : t ≤ created := by
        rcases List.mem_append.mp ht with ht | ht
        · exact hdated t (mem_recentTimes.mp ht).1
        · exact Nat.le_of_eq (List.mem_singleton.mp ht)
      exact Nat.le_trans (Nat.add_le_add_right hle _) (h hrecent)
  · have hnone : recentTimes times now ++ recentTimes [created] now = [] := by
      rw [List.append_eq_nil_iff, List.eq_nil_iff_forall_not_mem, List.eq_nil_iff_forall_not_mem]
      constructor
      · intro t ht
        obtain ⟨hmem, hlt⟩ := mem_recentTimes.mp ht
        exact hrecent (Nat.lt_of_lt_of_le hlt (Nat.add_le_add_right (hdated t hmem) _))
      · intro t ht
        obtain ⟨hmem, hlt⟩ := mem_recentTimes.mp ht
        exact hrecent (List.mem_singleton.mp hmem ▸ hlt)
    rw [hnone]
    simp [hrecent]

/-- The promise against the cooldown, for a challenge created after all the others. -/
theorem settled_iff {times : List Nat} {selectedAt created returned : Nat}
    (hdated : ∀ t ∈ times, t ≤ created) (hcreated : selectedAt ≤ created) :
    Settled (times ++ [created])
        (max (created + cooldownSeconds (recentTimes times selectedAt) * 1000) returned) ↔
      ResendSettled (recentTimes times selectedAt) created returned := by
  have hday : 300000 < dayMs := by decide
  have hafter : selectedAt ≤
      max (created + cooldownSeconds (recentTimes times selectedAt) * 1000) returned := by omega
  rw [settled_append hdated, recentTimes_later times hafter, ResendSettled]
  generalize recentTimes times selectedAt = recent
  match recent with
  | [] =>
    have hnone (now : Nat) : recentTimes [] now = [] := rfl
    simp only [hnone, cooldownSeconds, List.length_nil, if_true]
    generalize dayMs = day at hday ⊢
    simp
    omega
  | [t] =>
    have hone (now : Nat) : recentTimes [t] now = [] ↔ t + dayMs ≤ now := by simp [recentTimes]
    simp only [hone, cooldownSeconds, List.length_singleton, List.mem_singleton, forall_eq]
    generalize dayMs = day at hday ⊢
    simp
    split <;> omega
  | t :: u :: rest =>
    have hlength : (t :: u :: rest).length = rest.length + 2 := rfl
    have hcooldown : cooldownSeconds (t :: u :: rest) = 300 := by simp [cooldownSeconds]
    rw [hcooldown, hlength]
    generalize dayMs = day at hday ⊢
    simp
    split <;> omega

section
variable {pf : Platform} {i : Digest} {w₀ : World Db} {s : Server}

theorem requestTimes_of_path {v w : World Db} {es : List Event} (h : dating.Path v es w)
    (hes : ∀ e ∈ es, ¬ e.Requests i) : w.db.requestTimes i = v.db.requestTimes i := by
  induction h with
  | refl => rfl
  | tick _ _ ih => exact ih hes
  | move _ hm ih =>
    have hbefore := ih fun e he => hes e (List.mem_append_left _ he)
    exact (Event.sameRequests hm (hes _ (List.mem_append_right _ List.mem_cons_self))).trans hbefore

theorem serve_append (s : Server) (first rest : List Choice) :
    serve pf s (first ++ rest) = serve pf (serve pf s first) rest :=
  ReadCommitted.Server.run_append ..

theorem DatedRun.added (pf : Platform) (h : DatedRun w₀ s) (sched : List Choice) :
    ∃ new, ReadCommitted.Server.Added dating s (serve pf s sched) new ∧
      ∀ p, (∀ ch ∈ sched, ch.OnlyMoves p) → ∀ x ∈ new, x.1 = p :=
  h.run_added fun ch _ => dating_covers ch

theorem DatedRun.stays (h : DatedRun w₀ s) {p : Nat} {sched : List Choice}
    (halone : UnrequestedBy i p s (serve pf s sched)) :
    ReadCommitted.Server.StaysWithin (Call.program pf) Call.aborted (Unrequested i) s p sched := by
  obtain ⟨new, hlog, hothers⟩ := halone
  exact .of_others (R := fun db db' => db'.requestTimes i = db.requestTimes i) h
    (fun ch _ => dating_covers ch) hlog hothers (fun _ => rfl) fun _ _ _ _ he hm => Event.sameRequests hm he

/-- What a request answers that nobody else interferes with. -/
theorem DatedRun.answered (h : DatedRun w₀ s) {q : Nat} (hidle : s.procs q = none) {after : List Choice}
    (halone : UnrequestedBy i q s (serve pf s (.call q (.requestOtpChallenge i) :: after))) {r : Answer}
    (hret : (serve pf s (.call q (.requestOtpChallenge i) :: after)).Returned q (.requestOtpChallenge i) r) :
    ∃ selectedAt, s.clock ≤ selectedAt ∧ Answered i selectedAt (s.db.requestTimes i) r
      (serve pf s (.call q (.requestOtpChallenge i) :: after)).world := by
  obtain ⟨k, hk, hresults⟩ := results_requestOtpChallenge pf i
  let P (r : Answer) (w : World Db) : Prop :=
    ∃ selectedAt, s.clock ≤ selectedAt ∧ Answered i selectedAt (s.db.requestTimes i) r w
  have hcode : (Call.program pf (.requestOtpChallenge i)).Results (Unrequested i) P id s.world := by
    have hprogram : Call.program pf (.requestOtpChallenge i) = .now k := hk
    rw [hprogram]
    intro w hw
    refine hresults w.clock w (Nat.le_refl _) P fun r w' hr => ⟨w.clock, hw.1, ?_⟩
    rw [hw.2] at hr
    exact hr
  have hat : s.ResultsAt (Call.program pf) (Unrequested i) P q (.requestOtpChallenge i) :=
    ⟨fun _ => hcode, fun _ hp => absurd (hidle.symm.trans hp) (by simp)⟩
  have hfail : ∀ w, P (Call.aborted (.requestOtpChallenge i)) w := fun w =>
    ⟨s.clock, Nat.le_refl _, answered_refused (x := .database) (fun _ h => nomatch h) w⟩
  exact hat.run Unrequested.refl (fun _ _ _ => .trans) (fun _ => hfail) (h.stays halone) hret

theorem DatedRun.created (h : DatedRun w₀ s) {p : Nat} {w : World Db}
    (hbegun : s.procs p = some (.start w (.requestOtpChallenge i) (requestOtpChallenge pf i)))
    {ids : List Uuid} {during : List Choice}
    (halone : UnrequestedBy i p s (serve pf s (.exec p ids :: during))) {r : Answer}
    (hret : (serve pf s (.exec p ids :: during)).Returned p (.requestOtpChallenge i) r) :
    Answered i s.clock (s.db.requestTimes i) r (serve pf s (.exec p ids :: during)).world := by
  obtain ⟨k, hk, hresults⟩ := results_requestOtpChallenge pf i
  rw [hk] at hbegun
  let P : Answer → World Db → Prop := Answered i s.clock (s.db.requestTimes i)
  let s₁ : Server := s.step (Call.program pf) Call.aborted (.exec p ids)
  have hstep : s₁ = s.setProc p { ReadCommitted.Process.start w (Call.requestOtpChallenge i) (.now k) with
      program := k s.clock } := by
    simp only [s₁, ReadCommitted.Server.step, hbegun]
    rfl
  have hat : s₁.ResultsAt (Call.program pf) (Unrequested i) P p (.requestOtpChallenge i) := by
    rw [hstep]
    exact .of_setProc fun _ => hresults s.clock s.world (Nat.le_refl _) P fun _ _ hr => hr
  have halone₁ : UnrequestedBy i p s₁ (serve pf s₁ during) := by
    obtain ⟨new, hlog, hothers⟩ := halone
    have hquiet : s₁.log = s.log := by rw [hstep]; rfl
    exact ⟨new, hquiet ▸ hlog, hothers⟩
  have hfail : ∀ w, P (Call.aborted (.requestOtpChallenge i)) w :=
    answered_refused (x := .database) fun _ h => absurd h (by simp)
  have hs₁ : DatedRun w₀ s₁ := h.step (dating_covers _)
  exact hat.run Unrequested.refl (fun _ _ _ => .trans) (fun _ => hfail) (hs₁.stays halone₁) hret

/-- Until process `q` makes its call, it creates no challenge either. -/
theorem DatedRun.unrequested (h : DatedRun w₀ s) {q : Nat} {before rest : List Choice}
    (hidle : (serve pf s before).procs q = none)
    (halone : UnrequestedBy i q s (serve pf s (before ++ rest))) :
    (serve pf s before).db.requestTimes i = s.db.requestTimes i ∧
      UnrequestedBy i q (serve pf s before) (serve pf (serve pf s before) rest) := by
  have hbefore : DatedRun w₀ (serve pf s before) := h.run fun ch _ => dating_covers ch
  obtain ⟨new, hlog, hothers⟩ := halone
  obtain ⟨l, hl, _⟩ := h.added pf before
  obtain ⟨m, hm, _⟩ := hbefore.added pf rest
  have hsplit : new = l ++ m := by
    rw [serve_append, hm.log, hl.log, List.append_assoc] at hlog
    exact (List.append_cancel_left hlog).symm
  subst hsplit
  refine ⟨requestTimes_of_path hl.path fun e he => ?_, m, hm.log, fun x hx hne => ?_⟩
  · obtain ⟨x, hx, rfl⟩ := List.mem_map.mp he
    refine hothers x (List.mem_append_left _ hx) fun hxq => ?_
    have hmem : x.2 ∈ ReadCommitted.Server.eventsOf (serve pf s before).log q := by
      rw [ReadCommitted.Server.mem_eventsOf, ← hxq, hl.log]
      exact List.mem_append_right _ hx
    rw [hbefore.idle q hidle] at hmem
    exact absurd hmem List.not_mem_nil
  · exact hothers x (List.mem_append_right _ hx) hne

variable (pf) in
theorem exists_rejected {now : Nat} (hidle : ∃ q, s.procs q = none) (hs : DatedRun w₀ s)
    (hclock : s.clock ≤ now) (hactive : ¬ Settled (s.db.requestTimes i) now) :
    ∃ before after q r, (serve pf s before).procs q = none ∧ (serve pf s before).clock = now ∧
      UnrequestedBy i q s (serve pf s (before ++ .call q (.requestOtpChallenge i) :: after)) ∧
      (serve pf s (before ++ .call q (.requestOtpChallenge i) :: after)).Returned q
        (.requestOtpChallenge i) r ∧ ∃ seconds, r = cooldownActive seconds := by
  obtain ⟨q, hq⟩ := hidle
  let s₁ : Server := s.step (Call.program pf) Call.aborted (.tick (now - s.clock))
  have hnow : s₁.clock = now := Nat.add_sub_cancel' hclock
  have hs₁ : DatedRun w₀ s₁ := hs.step (dating_covers (.tick _))
  have hreach : (Call.program pf (.requestOtpChallenge i)).Reaches (fun _ => False)
      (fun r => ∃ seconds, r = cooldownActive seconds) id s₁.world := by
    have hworld : s₁.world = ⟨now, s.db⟩ := by rw [← hnow]; rfl
    rw [hworld]
    show (requestOtpChallenge pf i).Reaches _ _ id ⟨now, s.db⟩
    obtain ⟨seconds, hseconds⟩ := Option.ne_none_iff_exists'.mp
      (mt secondsRemaining_eq_none.mp hactive)
    simp only [requestOtpChallenge, Program.Reaches, id_eq, recentChallenges_eq, hseconds]
    exact ⟨seconds, rfl⟩
  have hidle : s₁.procs q = none := hq
  obtain ⟨after, honly, r, hret, hactive⟩ := ReadCommitted.Server.reaches_run (Call.program pf)
    Call.aborted hidle (fun _ h => h.elim) hreach
  refine ⟨[.tick (now - s.clock)], after, q, r, hq, hnow, ?_, hret, hactive⟩
  let s₂ : Server := s₁.step (Call.program pf) Call.aborted (.call q (.requestOtpChallenge i))
  have hs₂ : DatedRun w₀ s₂ := hs₁.step (dating_covers (.call q _))
  obtain ⟨new, hnew, hby⟩ := DatedRun.added pf hs₂ after
  have hquiet : s₂.log = s.log := by
    simp only [s₂, ReadCommitted.Server.step, hidle]
    rfl
  refine ⟨new, hquiet ▸ hnew.log, fun x hx hne => absurd (hby q (fun ch hch => ?_) x hx) hne⟩
  obtain ⟨ids, rfl⟩ := honly ch hch
  exact rfl

/-- What a request promises holds exactly when the challenges of the last 24 hours leave the cooldown
at what it has counted. -/
theorem resend_honoured_iff {db : Db} {clock : Nat} (used : List Uuid) (hdb : db.Dated clock)
    {before during : List Choice} {p : Nat} {w : World Db} {ids : List Uuid} {c : Challenge} :
    let s := serve pf (.boot db clock used) before
    let s' := serve pf s (.exec p ids :: during)
    s.procs p = some (.start w (.requestOtpChallenge i) (requestOtpChallenge pf i)) →
    UnrequestedBy i p s s' → s'.Returned p (.requestOtpChallenge i) (.ok (.challenge c)) →
    ∃ created, s'.db.requestTimes i = s.db.requestTimes i ++ [created] ∧
      (ResendHonoured pf i c.resendAvailableAt s' ↔
        ResendSettled (recentChallenges s.db i s.clock) created s'.clock) := by
  intro s s' hbegun halone hret
  have hs : DatedRun ⟨clock, db⟩ s := datedRun_boot used hdb before
  have hs' : DatedRun ⟨clock, db⟩ s' := hs.run fun ch _ => dating_covers ch
  obtain ⟨created, hselected, hcreated, hpromise, htimes⟩ :=
    (hs.created hbegun halone hret).accepted c rfl
  have hdated : ∀ t ∈ s.db.requestTimes i, t ≤ created :=
    fun t ht => Nat.le_trans (hs.holds i t ht) hselected
  refine ⟨created, htimes, ?_⟩
  rw [recentChallenges_eq, ← settled_iff hdated hselected, ← hpromise, ← htimes]
  constructor
  · intro hhonoured
    by_contra hactive
    have hidle : ∃ q, (serve pf (.boot db clock used) (before ++ .exec p ids :: during)).procs q = none :=
      ReadCommitted.Server.exists_idle db clock used _
    rw [serve_append] at hidle
    obtain ⟨before', after, q, r, hidle, hclock, halone', hret', seconds, rfl⟩ :=
      exists_rejected pf hidle hs' (Nat.le_max_right _ _) hactive
    exact hhonoured before' after q _ hidle (hclock ▸ Nat.le_max_left _ _) halone' hret' seconds rfl
  · intro hsettled before' after q r hidle hclock halone' hret' seconds hactive
    have hbefore : DatedRun ⟨clock, db⟩ (serve pf s' before') := hs'.run fun ch _ => dating_covers ch
    obtain ⟨hsame, hrest⟩ := hs'.unrequested hidle halone'
    rw [serve_append] at hret'
    obtain ⟨selectedAt, hselectedAt, hanswered⟩ := hbefore.answered hidle hrest hret'
    obtain ⟨checkedAt, hchecked, hrejected⟩ := hanswered.rejected ⟨seconds, hactive⟩
    rw [hsame] at hrejected
    have hlater : s'.clock ≤ (serve pf s' before').clock := ReadCommitted.Server.run_clock_le ..
    exact hrejected (hsettled.later (Nat.max_le.mpr ⟨Nat.le_trans hclock hselectedAt,
      Nat.le_trans hlater hselectedAt⟩) hchecked)

end

def sampleRequests : List Choice :=
  .call 0 (.requestOtpChallenge 7) :: sampleRequest 0 ++ .tick 120000 ::
    .call 1 (.requestOtpChallenge 7) :: sampleRequest 1 ++ [.tick 300000, .call 2 (.requestOtpChallenge 7)]

def sampleResend : Server := serve samplePlatform (.boot Db.empty 0 []) sampleRequests

theorem sampleResend_honoured :
    ResendHonoured samplePlatform 7 720000 (serve samplePlatform sampleResend (sampleRequest 2)) := by
  have hdated : Db.empty.Dated 0 := fun _ _ h => absurd h List.not_mem_nil
  have hbegun : ∃ w, sampleResend.procs 2 =
      some (.start w (.requestOtpChallenge 7) (requestOtpChallenge samplePlatform 7)) := ⟨_, rfl⟩
  have halone : UnrequestedBy 7 2 sampleResend (serve samplePlatform sampleResend (sampleRequest 2)) :=
    ⟨(serve samplePlatform sampleResend (sampleRequest 2)).log.drop 4, by decide +kernel, by decide +kernel⟩
  have hret : (serve samplePlatform sampleResend (sampleRequest 2)).Returned 2 (.requestOtpChallenge 7)
      (.ok (.challenge ⟨14, 720000, 720000⟩)) := by decide +kernel
  obtain ⟨w, hbegun⟩ := hbegun
  obtain ⟨created, _, hhonoured⟩ := resend_honoured_iff [] hdated hbegun halone hret
  refine hhonoured.mpr (.inl ?_)
  decide +kernel

theorem sampleResend_refused :
    (serve samplePlatform (.boot Db.empty 0 []) (.call 0 (.requestOtpChallenge 7) :: sampleRequest 0)).Returned 0
        (.requestOtpChallenge 7) (.ok (.challenge ⟨10, 60000, 300000⟩)) ∧
      ¬ ResendHonoured samplePlatform 7 60000 (serve samplePlatform (.boot Db.empty 0 [])
        (.call 0 (.requestOtpChallenge 7) :: sampleRequest 0)) := by
  refine ⟨by decide +kernel, fun h => ?_⟩
  exact h [.tick 60000] (List.replicate 3 (.exec 1 [])) 1 (cooldownActive 60) rfl (by decide +kernel)
    ⟨[], rfl, by simp⟩ (by decide +kernel) 60 rfl

end Registration

end GuffSuff
