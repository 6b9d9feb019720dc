import GuffSuff.Outlines

/-! Outlines of `MessageEnvelopeService.acknowledgeDelivery` and of the jobs of
the worker. -/

namespace GuffSuff

open ReadCommitted

namespace MessageEnvelopeService

def acknowledgeDeliveryContract (device envelope : Uuid) : Spec.Contract Db Event Answer where
  trace es := ∀ e ∈ es, ∃ record ackId now,
    e = .deliveryAcknowledged record envelope device ackId now
  answer r es _ := ∀ v, r = .ok v → ∃ record ackId now,
    es = [.deliveryAcknowledged record envelope device ackId now]

section
variable {pf : Platform} {user device envelope : Uuid} {w : World Db}

theorem acknowledgedRow_spec {db : Db} {rd : MessageRecipientDevice} {recipient : Uuid}
    (h : acknowledgedRow db envelope device = some (rd, recipient)) :
    rd ∈ db.messageRecipientDevices ∧ rd.envelopeId = envelope ∧ rd.recipientDeviceId = device := by
  obtain ⟨r, hr, hrow⟩ := List.exists_of_findSome?_eq_some h
  obtain ⟨e, _, he⟩ := Option.map_eq_some_iff.mp hrow
  obtain rfl := (Prod.mk.inj he).1
  simpa using hr

theorem safe_insertAcknowledgement {C : Spec.Contract Db Event Answer} {L : List Key}
    {D : List Uuid} {ws : List Write} {es : List Event} {a : MessageAcknowledgement} {k : Program}
    (hC : Tolerates C es)
    (h : ∀ w', (backend pf).Rely L D w w' → w'.db.Holds →
      (backend pf).Safe C k (.acknowledgement a.id :: L) D
        (applyAll (ws ++ [.insertMessageAcknowledgement a])) es w') :
    (backend pf).Safe C (insertAcknowledgement a k) L D (applyAll ws) es w := by
  intro w' hr hi
  dsimp only
  apply safe_check (safe_unique hC)
  intro _
  apply safe_check (safe_foreignKey hC)
  intro _
  apply safe_check (safe_foreignKey hC)
  intro _
  exact safe_write (h w' hr hi)

theorem safe_acknowledgeDelivery :
    (backend pf).Safe (acknowledgeDeliveryContract device envelope)
      (acknowledgeDelivery user device envelope) [] [] (applyAll []) [] w := by
  have hC : Tolerates (acknowledgeDeliveryContract device envelope) [] :=
    ⟨fun _ _ _ hv => by simp at hv, fun _ _ _ hv => by simp at hv⟩
  have herr : ∀ (x : Failure) (f : Db → Db) (w : World Db), (backend pf).Safe
      (acknowledgeDeliveryContract device envelope) (.ret (.error x)) [] [] f [] w :=
    fun x f w w' _ _ v hv => by simp at hv
  intro w₁ hr₁ hi₁
  dsimp only [applyAll_nil]
  split
  · exact herr _ _ _
  · rename_i rd recipient hrow
    obtain ⟨hrd, henv, hdev⟩ := acknowledgedRow_spec hrow
    split
    · exact herr _ _ _
    · intro w₂ hr₂ hi₂ ackId _ _ w₃ hr₃ hi₃ w₄ hr₄ hi₄
      apply safe_write
      apply safe_insertAcknowledgement hC
      intro w₅ hr₅ hi₅
      apply safe_commit (e := .deliveryAcknowledged rd.id envelope device ackId w₃.clock)
        (fun _ => rfl)
      · simp [Event.writes, Write.touches]
      · simp [Event.writes, Write.inserts]
      · intro w₆ hr₆ hi₆
        have hg := (grows_of_rely hr₂).trans ((grows_of_rely hr₃).trans ((grows_of_rely hr₄).trans
          ((grows_of_rely hr₅).trans (grows_of_rely hr₆))))
        obtain ⟨r, hr, hgr⟩ := hg.recipients rd.id rd (lookup_of_mem hi₁.transport.recipients hrd)
        refine ⟨⟨r, hr, ?_, ?_⟩, by simp [acknowledgeDeliveryContract], ?_⟩
        · exact hgr.envelopeId.trans henv
        · exact hgr.recipientDeviceId.trans hdev
        · exact fun _ _ _ _ _ => ⟨rd.id, ackId, w₃.clock, rfl⟩

end

end MessageEnvelopeService

namespace TransportProcessor

/-- A retry pass selects a batch once and then writes it row by row, in order. -/
inductive RetryPass : List Event → Prop
  | start : RetryPass []
  | batch (ids : List Uuid) (hnd : ids.Nodup) (done : List (Uuid × Nat))
      (h : done.map Prod.fst <+: ids) :
      RetryPass (.retriesSelected ids :: done.map fun x => .deliveryRetried x.1 x.2)

def processOfflineMessageRetriesContract : Spec.Contract Db Event Answer where
  trace := RetryPass
  answer _ _ _ := True

def processExpiredEnvelopeCleanupContract : Spec.Contract Db Event Answer where
  trace es := ∀ e ∈ es, ∃ ids now, e = .deliveriesExpired ids now
  answer _ _ _ := True

section
variable {pf : Platform} {w : World Db}

theorem safe_retryEach {ids rest : List Uuid} {done : List (Uuid × Nat)} {k : Program}
    (hnd : ids.Nodup) (hids : ids = done.map Prod.fst ++ rest)
    (hk : ∀ es w, (backend pf).Safe processOfflineMessageRetriesContract k [] [] (applyAll []) es w) :
    (backend pf).Safe processOfflineMessageRetriesContract (retryEach rest k) [] [] (applyAll [])
      (.retriesSelected ids :: done.map fun x => .deliveryRetried x.1 x.2) w := by
  induction rest generalizing done w with
  | nil => exact hk _ w
  | cons i rest ih =>
    intro w₁ hr₁ hi₁ w₂ hr₂ hi₂
    apply safe_write
    apply safe_commit (e := .deliveryRetried i w₁.clock) (fun _ => rfl)
    · simp [Event.writes, Write.touches]
    · simp [Event.writes, Write.inserts]
    · intro w₃ hr₃ hi₃
      have hes : Event.retriesSelected ids :: done.map (fun x => .deliveryRetried x.1 x.2) ++
          [.deliveryRetried i w₁.clock] = .retriesSelected ids ::
            (done ++ [(i, w₁.clock)]).map fun x => .deliveryRetried x.1 x.2 := by simp
      have hids' : ids = (done ++ [(i, w₁.clock)]).map Prod.fst ++ rest := by simpa using hids
      rw [hes]
      exact ⟨trivial, .batch ids hnd _ ⟨rest, hids'.symm⟩, ih hids'⟩

theorem safe_processOfflineMessageRetries : (backend pf).Safe processOfflineMessageRetriesContract
    processOfflineMessageRetries [] [] (applyAll []) [] w := by
  intro w₁ _ _
  apply safe_observe (fun _ _ => rfl)
  intro w₂ hr₂ hi₂ ids hids
  simp only [selectsBatch, Bool.and_eq_true, decide_eq_true_eq, List.all_eq_true, applyAll_nil] at hids
  obtain ⟨⟨hnd, hall⟩, _⟩ := hids
  refine ⟨?_, .batch ids hnd [] (by simp), ?_⟩
  · intro i hi
    obtain ⟨r, hr, rfl⟩ := List.mem_map.mp (of_decide_eq_true (hall i hi))
    obtain ⟨hr, hret⟩ := List.mem_filter.mp hr
    simp only [isRetryable, Bool.and_eq_true] at hret
    exact ⟨r, lookup_of_mem hi₂.transport.recipients hr, hret.1.2⟩
  · have hids : ids = ([] : List (Uuid × Nat)).map Prod.fst ++ ids := rfl
    exact safe_retryEach hnd hids fun es w _ _ _ => trivial

theorem stillExpired_rely {L : List Key} {D : List Uuid} {w w' : World Db} {now : Nat} {i : Uuid}
    (hi : .recipient i ∈ L) (hr : (backend pf).Rely L D w w')
    (h : stillExpired now i w.db = true) : stillExpired now i w'.db = true := by
  have hc := cell_of_rely hr hi
  simp only [Db.cell, Cell.recipient.injEq] at hc
  simp only [stillExpired, isExpired, Option.any_eq_true, Bool.and_eq_true, decide_eq_true_eq] at h ⊢
  obtain ⟨r, hr', ⟨e, he, hexp⟩, hp⟩ := h
  obtain ⟨e', he', rfl⟩ := (grows_of_rely hr).envelopes _ _ he
  exact ⟨r, hc.trans hr', ⟨e, he', hexp⟩, hp⟩

theorem safe_processExpiredEnvelopeCleanup : (backend pf).Safe
    processExpiredEnvelopeCleanupContract processExpiredEnvelopeCleanup [] [] (applyAll []) [] w := by
  intro w₁ hr₁ hi₁ w₂ hr₂ hi₂ found _
  apply Spec.Safe.lockEach (P := fun i w => stillExpired w₁.clock i w.db = true)
    (fun i w _ hs => hs) (fun i L w w' hk hr hs => stillExpired_rely hk hr hs) found [] (by simp)
  · intro w₃ hr₃ hi₃ L ids hids _ _
    apply safe_write
    apply safe_commit (e := .deliveriesExpired ids w₁.clock) (fun _ => rfl)
    · simp only [Event.writes, List.mem_singleton, forall_eq, Write.touches, List.mem_map]
      intro _ hx
      obtain ⟨i, hi, rfl⟩ := hx
      exact (hids i hi).1
    · simp [Event.writes, Write.inserts]
    · intro w₄ hr₄ hi₄
      have hclock := hr₂.later.clock_le.trans (hr₃.later.clock_le.trans hr₄.later.clock_le)
      refine ⟨⟨hclock, fun i hi => ?_⟩, by simp [processExpiredEnvelopeCleanupContract], ?_⟩
      · have hs := stillExpired_rely (hids i hi).1 hr₄ (hids i hi).2
        simp only [stillExpired, isExpired, Option.any_eq_true, Bool.and_eq_true,
          decide_eq_true_eq] at hs
        obtain ⟨r, hr, ⟨e, he, hexp⟩, _⟩ := hs
        exact ⟨r, e, hr, he, hexp⟩
      · exact fun _ _ _ => trivial
  · exact hi₂

end

end TransportProcessor

end GuffSuff
