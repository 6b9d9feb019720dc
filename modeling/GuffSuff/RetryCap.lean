import GuffSuff.DeliveryRuns

/-! The cap on delivery attempts. A pass tests it in its `SELECT` and increments
the counter in a later `UPDATE`, so what counts is how stale its selection is. -/

namespace GuffSuff

open ReadCommitted TransportProcessor
open ReadCommitted.Server (eventsOf mem_eventsOf)

def Db.attempts (db : Db) (record : Uuid) : Nat :=
  ((lookup db.messageRecipientDevices record).map
    MessageRecipientDevice.deliveryAttemptsCount).getD 0

def Event.isRetryOf (record : Uuid) : Event → Bool
  | deliveryRetried i _ => i = record
  | _ => false

def retriesBetween (s₁ s₂ : Server) (record : Uuid) : Nat :=
  (s₂.log.drop s₁.log.length).countP fun x => x.2.isRetryOf record

section
variable (pf : Platform) (fk : FkCheck) (s : Server) (sched : List Choice)

def AttemptsCapped : Prop :=
  Always pf fk (fun db => ∀ r ∈ db.messageRecipientDevices, r.deliveryAttemptsCount ≤ maxAttempts)
    s sched

def AttemptsNeverDecrease : Prop :=
  ∀ record n, Stays pf fk (fun db => ∃ r, lookup db.messageRecipientDevices record = some r ∧
    n ≤ r.deliveryAttemptsCount) s sched

/-- Pass `q` selects the record in `s₁`, and in `s₂` its `UPDATE` of it commits. -/
inductive Retries (q : Nat) (record : Uuid) : Server → Server → Prop
  | intro (first mid rest : List Choice) (select update : Choice) (ids : List Uuid) (now : Nat)
      (hsched : sched = first ++ [select] ++ mid ++ [update] ++ rest)
      (hselect : (serve pf fk s (first ++ [select])).log =
        (serve pf fk s first).log ++ [(q, .retriesSelected ids)])
      (hmem : record ∈ ids)
      (hupdate : (serve pf fk s (first ++ [select] ++ mid ++ [update])).log =
        (serve pf fk s (first ++ [select] ++ mid)).log ++ [(q, .deliveryRetried record now)]) :
      Retries q record (serve pf fk s first) (serve pf fk s (first ++ [select] ++ mid))

/-- Whenever a pass writes a record, the attempts that its `SELECT` saw and those
that other passes have made since are fewer than the cap. -/
def SelectionsHold : Prop :=
  ∀ q record s₁ s₂, Retries pf fk s sched q record s₁ s₂ →
    s₁.db.attempts record + retriesBetween s₁ s₂ record < maxAttempts

/-- No pass writes a record between the `SELECT` and the `UPDATE` of another one. -/
def PassesDisjoint : Prop :=
  ∀ q record s₁ s₂, Retries pf fk s sched q record s₁ s₂ → retriesBetween s₁ s₂ record = 0

end

section
variable {pf : Platform} {fk : FkCheck} {w₀ : World Db} {s s' : Server} {sched : List Choice}
variable {db : Db} {e : Event} {record : Uuid} {r : MessageRecipientDevice}

theorem Event.attempts_onRecipient (hid : r.id = record) : (e.onRecipient r).deliveryAttemptsCount =
    r.deliveryAttemptsCount + [e].countP (Event.isRetryOf record) := by
  subst hid
  cases e with
  | deliveryRetried retried now =>
    by_cases h : r.id = retried
    · simp [Event.onRecipient, Event.isRetryOf, h, MessageRecipientDevice.retry]
    · have hne : retried ≠ r.id := fun heq => h heq.symm
      simp [Event.onRecipient, Event.isRetryOf, h, hne]
  | deliveryAcknowledged | deliveriesExpired =>
    simp only [Event.onRecipient]
    split <;> rfl
  | _ => rfl

theorem Db.attempts_eq (h : lookup db.messageRecipientDevices record = some r) :
    db.attempts record = r.deliveryAttemptsCount := by
  rw [Db.attempts, h]
  rfl

theorem attempts_path {v w : World Db} {es : List Event} (h : (backend pf).Path v es w)
    (hv : v.db.Holds) (hr : lookup v.db.messageRecipientDevices record = some r) :
    ∃ r', lookup w.db.messageRecipientDevices record = some r' ∧ r'.deliveryAttemptsCount =
      r.deliveryAttemptsCount + es.countP (Event.isRetryOf record) := by
  refine h.keeps_log (P := fun es db => ∃ r', lookup db.messageRecipientDevices record = some r' ∧
    r'.deliveryAttemptsCount = r.deliveryAttemptsCount + es.countP (Event.isRetryOf record))
      ?_ hv ⟨r, hr, by simp⟩
  rintro es c db e _ _ ⟨r', hr', hcount⟩ ⟨_, rfl⟩
  refine ⟨e.onRecipient r', e.lookup_recipient pf hr', ?_⟩
  rw [Event.attempts_onRecipient (lookup_key hr'), hcount, List.countP_append, Nat.add_assoc]

/-- Between the `SELECT` and the `UPDATE` of a pass, the counter has moved by what the others did. -/
theorem Retries.attempts (hs : SoundRun pf fk w₀ s) {q : Nat} {s₁ s₂ : Server}
    (h : Retries pf fk s sched q record s₁ s₂) :
    s₂.db.attempts record = s₁.db.attempts record + retriesBetween s₁ s₂ record := by
  obtain ⟨first, mid, rest, select, update, ids, now, rfl, hselect, hmem, _⟩ := h
  have hfirst := hs.run first
  obtain ⟨l, hl, _⟩ := hfirst.added [select]
  rw [← serve_append] at hl
  obtain rfl := List.append_cancel_left (hselect.symm.trans hl.log)
  obtain ⟨_, _, ha, _⟩ := hl.path.of_singleton
  obtain ⟨r, hr, _⟩ := ha record hmem
  obtain ⟨new, hnew, _⟩ := hfirst.added ([select] ++ mid)
  rw [← serve_append, ← List.append_assoc] at hnew
  obtain ⟨r', hr', hcount⟩ := attempts_path hnew.path hfirst.holds hr
  have hsince : retriesBetween (serve pf fk s first) (serve pf fk s (first ++ [select] ++ mid)) record =
      (new.map Prod.snd).countP (Event.isRetryOf record) := by
    rw [retriesBetween, hnew.log, List.drop_left, List.countP_map]
    rfl
  have hfrom : (serve pf fk s first).db.attempts record = r.deliveryAttemptsCount := Db.attempts_eq hr
  have hto : (serve pf fk s (first ++ [select] ++ mid)).db.attempts record = r'.deliveryAttemptsCount :=
    Db.attempts_eq hr'
  rw [hto, hfrom, hsince, hcount]

/-- Every `UPDATE` that commits belongs to a pass that has selected the record. -/
theorem SoundRun.retry_selected (hs : SoundRun pf fk w₀ s) (hlog : s.log = []) {now : Nat}
    (hc : Commits pf fk s sched s' (.deliveryRetried record now)) :
    ∃ q s₁, Retries pf fk s sched q record s₁ s' := by
  obtain ⟨first, update, rest, q, hsched, rfl, hupdate, _, _⟩ := hs.commit_step hc
  have hafter := hs.run (first ++ [update])
  have hin : (q, .deliveryRetried record now) ∈ (serve pf fk s (first ++ [update])).log := by
    rw [hupdate]
    simp
  obtain ⟨pr, _, ht⟩ := hafter.trace_of_log hin
  obtain ⟨ids, hselected, hmem⟩ :=
    (Call.retryPass_of_trace ht (mem_eventsOf.mpr hin) rfl).selected (mem_eventsOf.mpr hin)
  have hbefore : (q, .retriesSelected ids) ∈ (serve pf fk s first).log := by
    have hx := mem_eventsOf.mp hselected
    rw [hupdate] at hx
    simpa using hx
  obtain ⟨l₁, l₂, hl⟩ := List.append_of_mem hbefore
  obtain ⟨sched₁, select, mid, rfl, h₁, h₂⟩ := hs.run_entry (show _ = s.log ++ l₁ ++ _ by rw [hlog]; exact hl)
  rw [← h₁] at h₂
  have hsplit : sched₁ ++ select :: mid = sched₁ ++ [select] ++ mid := by simp
  rw [hsplit] at hsched hupdate ⊢
  exact ⟨q, _, .intro sched₁ mid rest select update ids now hsched h₂ hmem hupdate⟩

theorem Retries.selected_below (hs : SoundRun pf fk w₀ s) (hidle : ∀ q, s.procs q = none) {q : Nat}
    {s₁ s₂ : Server} (h : Retries pf fk s sched q record s₁ s₂) :
    s₁.db.attempts record < maxAttempts := by
  obtain ⟨first, mid, rest, select, update, ids, now, rfl, hselect, hmem, _⟩ := h
  have hin : (q, .retriesSelected ids) ∈ (serve pf fk s (first ++ [select])).log := by
    rw [hselect]
    simp
  obtain ⟨pr', hp', ht⟩ := (hs.run (first ++ [select])).trace_of_log hin
  rw [serve_append] at hselect hp'
  obtain ⟨ids', pr, rfl, hp, hrec⟩ := ReadCommitted.Server.step_records hselect
  rw [serve_exec hp] at hp'
  have hcall : pr.call = .processOfflineMessageRetries := by
    rw [← ReadCommitted.Server.call_of_exec hp hp']
    have hop := Call.operation_of_trace ht (mem_eventsOf.mpr hin)
    cases hpr : pr'.call with
    | processOfflineMessageRetries => rfl
    | _ => simp [hpr, Event.operation, Call.operation] at hop
  obtain ⟨t, _, hbatch⟩ := (atSelection_of_run (hidle q) hp hcall).records hrec
  obtain ⟨r, hr, hid, hdue⟩ := selectsBatch_due hbatch hmem
  have hlook : lookup (serve pf fk s first).db.messageRecipientDevices record = some r := by
    rw [← hid]
    exact lookup_of_mem (hs.run first).holds.transport.recipients hr
  simp only [isRetryable, Bool.and_eq_true, decide_eq_true_eq] at hdue
  rw [Db.attempts_eq hlook]
  exact hdue.2

theorem holding_of_disjoint (hs : SoundRun pf fk w₀ s) (hidle : ∀ q, s.procs q = none)
    (h : PassesDisjoint pf fk s sched) : SelectionsHold pf fk s sched := by
  intro q record s₁ s₂ hretries
  rw [h q record s₁ s₂ hretries]
  exact hretries.selected_below hs hidle

theorem never_decrease (hs : SoundRun pf fk w₀ s) (sched : List Choice) :
    AttemptsNeverDecrease pf fk s sched := by
  intro record n
  refine hs.stays (P := fun db => ∃ r, lookup db.messageRecipientDevices record = some r ∧
    n ≤ r.deliveryAttemptsCount) ?_
  rintro s' e _ _ _ ⟨r, hr, hle⟩
  refine ⟨e.onRecipient r, e.lookup_recipient pf hr, ?_⟩
  rw [Event.attempts_onRecipient (lookup_key hr)]
  omega

/-- As the counters never decrease, the end of a run tells whether the cap has held. -/
theorem capped_of_end (hs : SoundRun pf fk w₀ s)
    (h : ∀ r ∈ (serve pf fk s sched).db.messageRecipientDevices,
      r.deliveryAttemptsCount ≤ maxAttempts) : AttemptsCapped pf fk s sched := by
  intro first rest hsplit r hr
  have hlook := lookup_of_mem (hs.run first).holds.transport.recipients hr
  obtain ⟨r', hr', hle⟩ := never_decrease hs sched r.id r.deliveryAttemptsCount first rest []
    (by simpa using hsplit) ⟨r, hlook, Nat.le_refl _⟩
  rw [← hsplit] at hr'
  exact Nat.le_trans hle (h r' (lookup_mem hr'))

theorem holding_of_capped (hs : SoundRun pf fk w₀ s) (h : AttemptsCapped pf fk s sched) :
    SelectionsHold pf fk s sched := by
  intro q record s₁ s₂ hretries
  rw [← hretries.attempts hs]
  obtain ⟨first, mid, rest, select, update, ids, now, hsched, _, _, hupdate⟩ := hretries
  have hbefore := hs.run (first ++ [select] ++ mid)
  obtain ⟨l, hl, _⟩ := hbefore.added [update]
  rw [← serve_append] at hl
  obtain rfl := List.append_cancel_left (hupdate.symm.trans hl.log)
  have hcap := h (first ++ [select] ++ mid ++ [update]) rest hsched
  cases hr : lookup (serve pf fk s (first ++ [select] ++ mid)).db.messageRecipientDevices record with
  | none =>
    rw [Db.attempts, hr]
    exact Nat.zero_lt_succ 4
  | some r =>
    obtain ⟨r', hr', hcount⟩ := attempts_path hl.path hbefore.holds hr
    have hle := hcap r' (lookup_mem hr')
    rw [hcount] at hle
    have hone : [Event.deliveryRetried record now].countP (Event.isRetryOf record) = 1 := by
      simp [Event.isRetryOf]
    rw [List.map_singleton, hone] at hle
    rw [Db.attempts_eq hr]
    exact hle

end

section
variable {pf : Platform} {fk : FkCheck} {db : Db} {clock : Nat} {used : List Uuid} {sched : List Choice}

theorem capped_of_holding (hdb : db.Initial) (hused : ∀ x ∈ db.ids, x ∈ used)
    (h : SelectionsHold pf fk (.boot db clock used) sched) :
    AttemptsCapped pf fk (.boot db clock used) sched := by
  have hboot : SoundRun pf fk ⟨clock, db⟩ (.boot db clock used) := hdb.boot hused
  refine hboot.always (P := fun db => ∀ r ∈ db.messageRecipientDevices,
    r.deliveryAttemptsCount ≤ maxAttempts) ?_ ?_
  · intro r hr
    rw [show (ReadCommitted.Server.boot db clock used : Server).db = db from rfl, hdb.recipients] at hr
    exact absurd hr List.not_mem_nil
  · intro s' e hs' hc _ hle r hr
    rcases Event.mem_recipients_writes hr with ⟨q, hq, rfl⟩ | hnew
    · rw [Event.attempts_onRecipient rfl]
      have hlook : lookup s'.db.messageRecipientDevices q.id = some q :=
        lookup_of_mem hs'.holds.transport.recipients hq
      cases hretry : e.isRetryOf q.id with
      | false => simpa [hretry] using hle q hq
      | true =>
        cases e with
        | deliveryRetried i now =>
          obtain rfl : i = q.id := of_decide_eq_true hretry
          obtain ⟨p, s₁, hretries⟩ := hboot.retry_selected rfl hc
          have hlt := h p q.id s₁ s' hretries
          rw [← hretries.attempts hboot, Db.attempts_eq hlook] at hlt
          simpa [hretry] using Nat.succ_le_of_lt hlt
        | _ => exact absurd hretry (by simp [Event.isRetryOf])
    · rw [commits_unattempted hdb hused hc r hnew]
      exact Nat.zero_le _

/-- The cap holds exactly as long as no pass writes a record on a selection that
the other passes have overtaken; the counters never decrease. -/
theorem retry_cap_iff (hdb : db.Initial) (hused : ∀ x ∈ db.ids, x ∈ used) (sched : List Choice) :
    let s : Server := .boot db clock used
    (AttemptsCapped pf fk s sched ↔ SelectionsHold pf fk s sched) ∧
      (PassesDisjoint pf fk s sched → AttemptsCapped pf fk s sched) ∧
        AttemptsNeverDecrease pf fk s sched := by
  intro s
  have hboot : SoundRun pf fk ⟨clock, db⟩ s := hdb.boot hused
  refine ⟨⟨holding_of_capped hboot, capped_of_holding hdb hused⟩, fun hdisjoint => ?_,
    never_decrease hboot sched⟩
  exact capped_of_holding hdb hused (holding_of_disjoint hboot (fun _ => rfl) hdisjoint)

end

/-- A pass that retries record 12 of its selection. -/
def sampleUpdate (p : Nat) : List Choice := Choice.steps p 4

theorem sampleUpdate_holds : SelectionsHold samplePlatform .atCommit sampleStart
    (sampleSubmission ++ sampleSelection 1 ++ sampleUpdate 1) := by
  have hused : ∀ x ∈ sampleDb.ids, x ∈ List.range 10 := by decide
  have hboot : SoundRun samplePlatform .atCommit ⟨0, sampleDb⟩ sampleStart :=
    sampleDb_initial.boot hused
  have hcapped : AttemptsCapped samplePlatform .atCommit sampleStart
      (sampleSubmission ++ sampleSelection 1 ++ sampleUpdate 1) := capped_of_end hboot (by decide)
  exact (retry_cap_iff sampleDb_initial hused _).1.mp hcapped

/-- Six passes select the record before any of them has written it. -/
def sampleOverlap : List Choice :=
  sampleSubmission ++ (List.range 6).flatMap (fun p => sampleSelection (p + 1)) ++
    (List.range 6).flatMap fun p => sampleUpdate (p + 1)

theorem overlapping_passes_exceed :
    (serve samplePlatform .atCommit sampleStart sampleOverlap).db.attempts 12 = 6 ∧
      ¬ AttemptsCapped samplePlatform .atCommit sampleStart sampleOverlap := by
  have hexceed : ¬ ∀ r ∈ (serve samplePlatform .atCommit sampleStart
      sampleOverlap).db.messageRecipientDevices, r.deliveryAttemptsCount ≤ maxAttempts := by decide
  refine ⟨by decide, fun h => hexceed ?_⟩
  exact h sampleOverlap [] (List.append_nil _).symm

end GuffSuff
