import GuffSuff.BatchedRounds
import GuffSuff.RetryCap
import GuffSuff.WorkerPasses

/-! Retry passes that do not overlap: which records PostgreSQL leaves out of a batch
is its choice, and still every record gets all of its attempts. -/

namespace GuffSuff

open ReadCommitted TransportProcessor

/-- The record is neither delivered nor expired. -/
def isWaiting (now : Nat) (db : Db) (rd : MessageRecipientDevice) : Bool :=
  (lookup db.messageEnvelopes rd.envelopeId).any (fun e => now < e.expiresAt) &&
    rd.deliveryStatus.isPending

def Db.waiting (now : Nat) (db : Db) : Finset Uuid :=
  ((db.messageRecipientDevices.filter (isWaiting now db)).map MessageRecipientDevice.id).toFinset

/-- The attempts that the waiting records still lack, all together. -/
def Db.missingAttempts (now : Nat) (db : Db) : Nat :=
  ∑ i ∈ db.waiting now, (maxAttempts - db.attempts i)

section
variable (pf : Platform) (fk : FkCheck)

/-- A retry pass that moves alone, without errors, until it has answered. -/
inductive Pass (s : Server) : Server → Prop
  | intro (p : Nat) (sched : List Choice) (r : Answer) (hidle : s.procs p = none)
      (halone : ∀ ch ∈ sched, ch.RunsAlone p)
      (hret : (serve pf fk s (.call p .processOfflineMessageRetries :: sched)).Returned p
        .processOfflineMessageRetries r) :
      Pass s (serve pf fk s (.call p .processOfflineMessageRetries :: sched))

inductive Passes : Nat → Server → Server → Prop
  | refl (s : Server) : Passes 0 s s
  | step {n : Nat} {s s' s'' : Server} (h : Pass pf fk s s') (rest : Passes n s' s'') :
      Passes (n + 1) s s''

end

section
variable {db : Db} {now now' : Nat} {done : List (Uuid × Nat)} {i : Uuid}

theorem Db.mem_waiting : i ∈ db.waiting now ↔
    ∃ r ∈ db.messageRecipientDevices, isWaiting now db r = true ∧ r.id = i := by
  simp only [Db.waiting, List.mem_toFinset, List.mem_map, List.mem_filter, and_assoc]

theorem Db.waiting_subset (h : now ≤ now') : db.waiting now' ⊆ db.waiting now := by
  intro i hi
  obtain ⟨r, hr, hw, hid⟩ := Db.mem_waiting.mp hi
  refine Db.mem_waiting.mpr ⟨r, hr, ?_, hid⟩
  simp only [isWaiting, Bool.and_eq_true, Option.any_eq_true, decide_eq_true_eq] at hw ⊢
  obtain ⟨⟨e, he, hexp⟩, hp⟩ := hw
  exact ⟨⟨e, he, Nat.lt_of_le_of_lt h hexp⟩, hp⟩

theorem isRetryable_eq (now : Nat) (db : Db) (rd : MessageRecipientDevice) :
    isRetryable now db rd = (isWaiting now db rd && decide (rd.deliveryAttemptsCount < maxAttempts)) := rfl

theorem Db.attempts_of_mem (hnd : (keys db.messageRecipientDevices).Nodup) {r : MessageRecipientDevice}
    (hr : r ∈ db.messageRecipientDevices) : db.attempts r.id = r.deliveryAttemptsCount :=
  Db.attempts_eq (lookup_of_mem hnd hr)

theorem Db.mem_retryable (hnd : (keys db.messageRecipientDevices).Nodup) :
    i ∈ retryable now db ↔ i ∈ Batches.unfinished maxAttempts (db.waiting now) db.attempts := by
  rw [Batches.mem_unfinished, Db.mem_waiting, retryable, List.mem_map]
  constructor
  · rintro ⟨r, hr, rfl⟩
    obtain ⟨hmem, hretry⟩ := List.mem_filter.mp hr
    rw [isRetryable_eq, Bool.and_eq_true, decide_eq_true_eq] at hretry
    exact ⟨⟨r, hmem, hretry.1, rfl⟩, Db.attempts_of_mem hnd hmem ▸ hretry.2⟩
  · rintro ⟨⟨r, hmem, hw, rfl⟩, hlt⟩
    rw [Db.attempts_of_mem hnd hmem] at hlt
    refine ⟨r, List.mem_filter.mpr ⟨hmem, ?_⟩, rfl⟩
    rw [isRetryable_eq, hw, Bool.true_and, decide_eq_true_eq]
    exact hlt

theorem Db.retryable_nodup (hnd : (keys db.messageRecipientDevices).Nodup) (now : Nat) :
    (retryable now db).Nodup :=
  hnd.sublist (List.filter_sublist.map _)

theorem Db.unfinished_card (hnd : (keys db.messageRecipientDevices).Nodup) (now : Nat) :
    (Batches.unfinished maxAttempts (db.waiting now) db.attempts).card = (retryable now db).length := by
  have heq : Batches.unfinished maxAttempts (db.waiting now) db.attempts =
      (retryable now db).toFinset := by
    ext i
    rw [List.mem_toFinset, Db.mem_retryable hnd]
  rw [heq, List.toFinset_card_of_nodup (Db.retryable_nodup hnd now)]

theorem Db.keys_retryAll (done : List (Uuid × Nat)) (db : Db) :
    keys (db.retryAll done).messageRecipientDevices = keys db.messageRecipientDevices := by
  simp only [keys, Db.retryAll, List.map_map]
  exact List.map_congr_left fun r _ => r.id_retryAll done

theorem Db.attempts_retryAll (hnd : (keys db.messageRecipientDevices).Nodup)
    (hi : i ∈ keys db.messageRecipientDevices) :
    (db.retryAll done).attempts i = db.attempts i + (done.map Prod.fst).count i := by
  obtain ⟨r, hr, rfl⟩ := mem_keys.mp hi
  have hmem : r.retryAll done ∈ (db.retryAll done).messageRecipientDevices := List.mem_map_of_mem hr
  have hnd' : (keys (db.retryAll done).messageRecipientDevices).Nodup := Db.keys_retryAll done db ▸ hnd
  have hid : (r.retryAll done).id = r.id := r.id_retryAll done
  rw [MessageRecipientDevice.key_eq, Db.attempts_of_mem hnd hr, ← hid, Db.attempts_of_mem hnd' hmem,
    MessageRecipientDevice.attempts_retryAll, hid]

theorem Db.waiting_retryAll (hnd : (keys db.messageRecipientDevices).Nodup)
    (hdone : ∀ i ∈ done.map Prod.fst, i ∈ db.waiting now) (now' : Nat) :
    (db.retryAll done).waiting now' = db.waiting now' := by
  have hsame : ∀ r ∈ db.messageRecipientDevices,
      isWaiting now' (db.retryAll done) (r.retryAll done) = isWaiting now' db r := by
    intro r hr
    simp only [isWaiting, Db.retryAll, MessageRecipientDevice.envelopeId_retryAll]
    congr 1
    by_cases hmem : r.id ∈ done.map Prod.fst
    · obtain ⟨q, hq, hw, hid⟩ := Db.mem_waiting.mp (hdone r.id hmem)
      obtain rfl : q = r := eq_of_key_eq hnd hq hr hid
      have hp : q.deliveryStatus.isPending = true := (Bool.and_eq_true _ _ ▸ hw).2
      rw [hp, MessageRecipientDevice.pending_retryAll done hp]
    · rw [MessageRecipientDevice.retryAll_of_not_mem hmem]
  ext i
  rw [Db.mem_waiting, Db.mem_waiting]
  constructor
  · rintro ⟨q, hq, hw, rfl⟩
    obtain ⟨r, hr, rfl⟩ := List.mem_map.mp hq
    exact ⟨r, hr, hsame r hr ▸ hw, (r.id_retryAll done).symm⟩
  · rintro ⟨r, hr, hw, rfl⟩
    exact ⟨_, List.mem_map_of_mem hr, (hsame r hr).trans hw, r.id_retryAll done⟩

end

section
variable {pf : Platform} {fk : FkCheck} {s s' : Server} {p : Nat} {sched : List Choice}

theorem onlyMoves_of_runsAlone (h : ∀ ch ∈ sched, ch.RunsAlone p) : ∀ ch ∈ sched, ch.OnlyMoves p := by
  intro ch hch
  cases ch with
  | fail q => exact absurd (h _ hch) id
  | _ => exact h _ hch

variable (pf fk) in
theorem retrying_run (hidle : s.procs p = none) (halone : ∀ ch ∈ sched, ch.RunsAlone p) :
    ∃ es, (serve pf fk s (.call p .processOfflineMessageRetries :: sched)).log =
        s.log ++ es.map (Prod.mk p) ∧
      Retrying s.world es (serve pf fk s (.call p .processOfflineMessageRetries :: sched)).world ∧
        ∀ r, (serve pf fk s (.call p .processOfflineMessageRetries :: sched)).Returned p
          .processOfflineMessageRetries r → Retried s.world r es
            (serve pf fk s (.call p .processOfflineMessageRetries :: sched)).world :=
  ReadCommitted.Server.ends_run (lasting_retrying s.world) (lasting_retried s.world) hidle
    (.inl ⟨rfl, rfl⟩) (ends_processOfflineMessageRetries s.world) (onlyMoves_of_runsAlone halone)
    fun hfail => absurd (halone _ hfail) id

theorem Pass.retried (h : Pass pf fk s s') :
    ∃ t ids done es, RetriedBatch s.world t ids done es s'.world ∧ done.map Prod.fst = ids := by
  obtain ⟨p, sched, r, hidle, halone, hret⟩ := h
  obtain ⟨es, _, _, hretried⟩ := retrying_run pf fk hidle halone
  obtain ⟨t, ids, done, hbatch, hdone⟩ := hretried r hret
  exact ⟨t, ids, done, es, hbatch, hdone⟩

theorem RetriedBatch.mem_unfinished {w₀ w : World Db} {t : Nat} {ids : List Uuid}
    {done : List (Uuid × Nat)} {es : List Event} (h : RetriedBatch w₀ t ids done es w)
    (hnd : (keys w₀.db.messageRecipientDevices).Nodup) {i : Uuid} (hi : i ∈ ids) :
    i ∈ Batches.unfinished maxAttempts (w₀.db.waiting t) w₀.db.attempts := by
  have hall := h.batch
  simp only [selectsBatch, Bool.and_eq_true, List.all_eq_true, decide_eq_true_eq] at hall
  exact (Db.mem_retryable hnd).mp (hall.1.2 i hi)

theorem RetriedBatch.nodup {w₀ w : World Db} {t : Nat} {ids : List Uuid}
    {done : List (Uuid × Nat)} {es : List Event} (h : RetriedBatch w₀ t ids done es w) : ids.Nodup := by
  have hall := h.batch
  simp only [selectsBatch, Bool.and_eq_true, decide_eq_true_eq] at hall
  exact hall.1.1

/-- A pass is a round on the waiting records, and leaves them waiting. -/
theorem Pass.round (h : Pass pf fk s s') (hnd : (keys s.db.messageRecipientDevices).Nodup)
    {members : Finset Uuid} (hstart : s.db.waiting s.clock = members)
    (hend : members ⊆ s.db.waiting s'.clock) :
    Batches.Round batchLimit maxAttempts members s.db.attempts s'.db.attempts ∧
      (keys s'.db.messageRecipientDevices).Nodup ∧ s.clock ≤ s'.clock ∧
        ∀ now, s'.db.waiting now = s.db.waiting now := by
  obtain ⟨t, ids, done, es, hbatch, hdone⟩ := h.retried
  have hdb : s'.db = s.db.retryAll done := hbatch.db
  have hwaiting : s.db.waiting t = members := by
    apply Finset.Subset.antisymm
    · exact hstart ▸ Db.waiting_subset hbatch.started
    · exact Finset.Subset.trans hend (Db.waiting_subset hbatch.selected)
  have hmem : ∀ i ∈ ids, i ∈ Batches.unfinished maxAttempts members s.db.attempts := fun i hi =>
    hwaiting ▸ hbatch.mem_unfinished hnd hi
  refine ⟨⟨ids.toFinset, fun i hi => hmem i (List.mem_toFinset.mp hi), ?_, ?_⟩, ?_, ?_, ?_⟩
  · have hlen := hbatch.batch
    simp only [selectsBatch, Bool.and_eq_true, beq_iff_eq] at hlen
    rw [List.toFinset_card_of_nodup hbatch.nodup, hlen.2, ← hwaiting]
    exact congrArg _ (Db.unfinished_card hnd t).symm
  · intro i hi
    obtain ⟨r, hr, _, rfl⟩ := Db.mem_waiting.mp (hwaiting ▸ hi)
    have hkey : r.id ∈ keys s.db.messageRecipientDevices := key_mem_keys hr
    rw [hdb, Db.attempts_retryAll hnd hkey, hdone]
    by_cases hids : r.id ∈ ids
    · rw [if_pos (List.mem_toFinset.mpr hids), List.count_eq_one_of_mem hbatch.nodup hids]
    · rw [if_neg (fun hx => hids (List.mem_toFinset.mp hx)), List.count_eq_zero_of_not_mem hids,
        Nat.add_zero]
  · exact hdb ▸ Db.keys_retryAll done s.db ▸ hnd
  · exact Nat.le_trans hbatch.started hbatch.selected
  · intro now
    rw [hdb]
    have hretried : ∀ i ∈ done.map Prod.fst, i ∈ s.db.waiting t := fun i hi =>
      (Batches.mem_unfinished.mp (hbatch.mem_unfinished hnd (hdone ▸ hi))).1
    exact Db.waiting_retryAll hnd hretried now

theorem Pass.clock_le (h : Pass pf fk s s') : s.clock ≤ s'.clock := by
  obtain ⟨t, ids, done, es, hbatch, _⟩ := h.retried
  exact Nat.le_trans hbatch.started hbatch.selected

theorem Passes.clock_le {n : Nat} (h : Passes pf fk n s s') : s.clock ≤ s'.clock := by
  induction h with
  | refl s => exact Nat.le_refl _
  | step h rest ih => exact Nat.le_trans h.clock_le ih

theorem Passes.keys_nodup {n : Nat} (h : Passes pf fk n s s')
    (hnd : (keys s.db.messageRecipientDevices).Nodup) : (keys s'.db.messageRecipientDevices).Nodup := by
  induction h with
  | refl s => exact hnd
  | @step n s s' s'' h rest ih =>
    obtain ⟨t, ids, done, es, hbatch, _⟩ := h.retried
    refine ih ?_
    have hdb : s'.db = s.db.retryAll done := hbatch.db
    rw [hdb, Db.keys_retryAll]
    exact hnd

/-- The run lemma: passes before the first expiry are rounds on the waiting records. -/
theorem Passes.rounds {n : Nat} (h : Passes pf fk n s s') (hnd : (keys s.db.messageRecipientDevices).Nodup)
    {members : Finset Uuid} (hstart : s.db.waiting s.clock = members)
    (hend : members ⊆ s.db.waiting s'.clock) :
    Batches.Rounds batchLimit maxAttempts members n s.db.attempts s'.db.attempts := by
  induction h with
  | refl s => exact .refl _
  | @step n s s₁ s' h rest ih =>
    have hmid : members ⊆ s.db.waiting s₁.clock :=
      Finset.Subset.trans hend (Db.waiting_subset rest.clock_le)
    obtain ⟨hround, hnd₁, hclock, hsame⟩ := h.round hnd hstart hmid
    refine .step hround (ih hnd₁ ?_ (hsame s'.clock ▸ hend))
    rw [hsame]
    exact Finset.Subset.antisymm (hstart ▸ Db.waiting_subset hclock) hmid

theorem Retrying.next {w₀ w w' : World Db} {es : List Event} {i : Uuid} {now : Nat}
    (h : Retrying w₀ es w) (h' : Retrying w₀ (es ++ [.deliveryRetried i now]) w') :
    ∃ t ids done, RetriedBatch w₀ t ids done es w ∧ i ∈ ids ∧ i ∉ done.map Prod.fst := by
  rcases h' with ⟨hnil, _⟩ | ⟨t', ids', done', hbatch', hprefix⟩
  · exact absurd hnil (by simp)
  have hes := hbatch'.events
  rcases List.eq_nil_or_concat done' with rfl | ⟨before, y, rfl⟩
  · have hlast := (List.append_inj' (show es ++ [_] = [] ++ [_] from hes) rfl).2
    exact absurd hlast (by simp)
  rw [List.concat_eq_append, List.map_append, ← List.cons_append] at hes
  obtain ⟨hbefore, hlast⟩ := List.append_inj' hes rfl
  have hy : y.1 = i := by
    have heq := List.singleton_inj.mp hlast
    exact (Event.deliveryRetried.inj heq).1.symm
  rcases h with ⟨hnil, _⟩ | ⟨t, ids, done, hbatch, _⟩
  · exact absurd (hnil.symm.trans hbefore) (by simp)
  obtain ⟨hsel, hmap⟩ := List.cons.inj (hbatch.events.symm.trans hbefore)
  obtain rfl : ids = ids' := Event.retriesSelected.inj hsel
  obtain rfl : done = before := by
    refine List.map_injective_iff.mpr (fun a b hab => ?_) hmap
    obtain ⟨h₁, h₂⟩ := Event.deliveryRetried.inj hab
    exact Prod.ext h₁ h₂
  rw [List.concat_eq_append, List.map_append, List.map_singleton, hy] at hprefix
  refine ⟨t, ids, done, hbatch, hprefix.subset (by simp), ?_⟩
  have hnd := hbatch.nodup.sublist hprefix.sublist
  exact fun hmem => (List.nodup_append.mp hnd).2.2 i hmem i (List.mem_singleton_self i) rfl

/-- The record that a pass on its own writes has attempts left when it does. -/
theorem retry_below_cap (hidle : s.procs p = none) (halone : ∀ ch ∈ sched, ch.RunsAlone p)
    (hnd : (keys s.db.messageRecipientDevices).Nodup) {i : Uuid} {now : Nat}
    (hc : Commits pf fk s (.call p .processOfflineMessageRetries :: sched) s' (.deliveryRetried i now)) :
    s'.db.attempts i < maxAttempts := by
  obtain ⟨first, ch, rest, hsched, rfl, hcommit⟩ := hc
  cases first with
  | nil =>
    obtain ⟨rfl, _⟩ := List.cons.inj hsched
    simp [ReadCommitted.Server.committing] at hcommit
  | cons ch₀ first =>
    obtain ⟨rfl, rfl⟩ := List.cons.inj hsched
    obtain ⟨q, ids, rfl, hstep⟩ :=
      ReadCommitted.Server.committing_logged (Call.program pf fk) Call.aborted hcommit
    rw [← ReadCommitted.Server.run_concat, List.cons_append] at hstep
    have hmoves : ∀ ch ∈ first ++ [Choice.exec q ids], ch.RunsAlone p := fun ch hch =>
      halone ch (by
        rcases List.mem_append.mp hch with h | h
        · exact List.mem_append_left _ h
        · exact List.mem_append_right _ (List.mem_singleton.mp h ▸ List.mem_cons_self))
    obtain ⟨es, hlog, hbefore, _⟩ := retrying_run pf fk hidle
      fun ch hch => hmoves ch (List.mem_append_left _ hch)
    obtain ⟨es', hlog', hafter, _⟩ := retrying_run pf fk hidle hmoves
    obtain rfl : q = p := hmoves _ (List.mem_append_right _ (List.mem_singleton_self _))
    have hes : es' = es ++ [.deliveryRetried i now] := by
      have hnew := hlog'.symm.trans (hstep.trans (congrArg (· ++ _) hlog))
      rw [List.append_assoc] at hnew
      refine List.map_injective_iff.mpr (fun _ _ h => (Prod.mk.inj h).2)
        ((List.append_cancel_left hnew).trans ?_)
      rw [List.map_append, List.map_singleton]
    obtain ⟨t, batch, done, hbatch, hmem, hnew⟩ := hbefore.next (hes ▸ hafter)
    obtain ⟨hw, hlt⟩ := Batches.mem_unfinished.mp (hbatch.mem_unfinished hnd hmem)
    obtain ⟨r, hr, _, rfl⟩ := Db.mem_waiting.mp hw
    have hkey : r.id ∈ keys s.db.messageRecipientDevices := key_mem_keys hr
    have hdb : (serve pf fk s (.call q .processOfflineMessageRetries :: first)).db =
        s.db.retryAll done := hbatch.db
    have hattempts : (s.db.retryAll done).attempts r.id = s.db.attempts r.id := by
      rw [Db.attempts_retryAll hnd hkey, List.count_eq_zero_of_not_mem hnew, Nat.add_zero]
    exact hdb ▸ hattempts.symm ▸ hlt

/-- Passes that do not overlap starve no record: those that wait have had all of their
attempts after `M / 50 + 5` passes, and a record that has is never written again. -/
theorem retries_starve_none {n : Nat} (h : Passes pf fk n s s')
    (hnd : (keys s.db.messageRecipientDevices).Nodup)
    (hcap : ∀ i ∈ s.db.waiting s.clock, s.db.attempts i ≤ maxAttempts)
    (hunexpired : s.db.waiting s.clock ⊆ s.db.waiting s'.clock)
    (hn : s.db.missingAttempts s.clock / batchLimit + maxAttempts ≤ n) :
    (∀ i ∈ s.db.waiting s.clock, s'.db.attempts i = maxAttempts) ∧
      ∀ m s₁ p sched s₂ i now, Passes pf fk m s s₁ → s₁.procs p = none →
        (∀ ch ∈ sched, ch.RunsAlone p) →
          Commits pf fk s₁ (.call p .processOfflineMessageRetries :: sched) s₂ (.deliveryRetried i now) →
            s₂.db.attempts i < maxAttempts := by
  constructor
  · have hrounds := h.rounds hnd rfl hunexpired
    exact hrounds.complete (by decide) hcap hn
  · intro m s₁ p sched s₂ i now hpasses hidle halone hc
    exact retry_below_cap hidle halone (hpasses.keys_nodup hnd) hc

end

/-- After the submission, as many passes of their own over the records 12 and 13. -/
def samplePasses : Nat → Server
  | 0 => serve samplePlatform .endOfStatement sampleStart sampleSubmission
  | n + 1 => serve samplePlatform .endOfStatement (samplePasses n)
      (.call (n + 1) .processOfflineMessageRetries ::
        ([.exec (n + 1) [], .exec (n + 1) [12, 13]] ++ Choice.steps (n + 1) 8))

theorem samplePasses_attempted :
    (samplePasses 5).db.attempts 12 = maxAttempts ∧ (samplePasses 5).db.attempts 13 = maxAttempts := by
  have hpass : ∀ n, (samplePasses n).procs (n + 1) = none →
      (samplePasses (n + 1)).Returned (n + 1) .processOfflineMessageRetries (.ok .unit) →
        Pass samplePlatform .endOfStatement (samplePasses n) (samplePasses (n + 1)) := by
    intro n hidle hret
    refine .intro (n + 1) _ (.ok .unit) hidle ?_ hret
    simp [Choice.steps, ReadCommitted.Choice.RunsAlone]
  have hpasses : Passes samplePlatform .endOfStatement 5 (samplePasses 0) (samplePasses 5) :=
    .step (hpass 0 (by decide +kernel) (by decide +kernel)) <|
    .step (hpass 1 (by decide +kernel) (by decide +kernel)) <|
    .step (hpass 2 (by decide +kernel) (by decide +kernel)) <|
    .step (hpass 3 (by decide +kernel) (by decide +kernel)) <|
    .step (hpass 4 (by decide +kernel) (by decide +kernel)) (.refl _)
  obtain ⟨hall, _⟩ := retries_starve_none hpasses (by decide +kernel) (by decide +kernel)
    (by decide +kernel) (by decide +kernel)
  exact ⟨hall 12 (by decide +kernel), hall 13 (by decide +kernel)⟩

end GuffSuff
