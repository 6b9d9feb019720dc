import GuffSuff.SessionOutline

/-! Outline of `DeviceService.revokeDevice`. -/

namespace GuffSuff

open ReadCommitted SessionService

namespace DeviceService

def RevokeDeviceEvent (user device : Uuid) (began : World Db) : Event → Prop
  | .deviceRevoked u d _ _ sessions families _ _ _ _ _ => u = user ∧ d = device ∧
      (∀ s ∈ began.db.sessions, s.deviceId = device → s.id ∈ sessions) ∧
      (∀ f ∈ began.db.refreshTokenFamilies, f.deviceId = device → f.id ∈ families)
  | _ => False

def revokeDeviceContract (user device : Uuid) (began : World Db) :
    Spec.Contract Db Event Answer where
  trace es := ∀ e ∈ es, RevokeDeviceEvent user device began e
  answer r es _ := ∀ v, r = .ok v → ∃ e, es = [e] ∧ RevokeDeviceEvent user device began e

section
variable {pf : Platform} {w : World Db} {user device : Uuid}

theorem safe_insertAuditEvent {C : Spec.Contract Db Event Answer} {L : List Key} {D : List Uuid}
    {ws : List Write} {es : List Event} {e : AuditEvent} {k : Program} (hC : Tolerates C es)
    (h : ∀ w', (backend pf).Rely L D w w' → w'.db.Holds →
      (backend pf).Safe C k (.auditEvent e.id :: L) D
        (applyAll (ws ++ [.insertAuditEvent e])) es w') :
    (backend pf).Safe C (insertAuditEvent e k) L D (applyAll ws) es w := by
  intro w' hr hi
  dsimp only
  apply safe_check (safe_unique hC)
  intro _
  exact safe_write (h w' hr hi)

theorem stillRevocable_iff {db : Db} {i : Uuid} : stillRevocable user device i db = true ↔
    i = device ∧ ∃ d, lookup db.devices device = some d ∧ d.userId = user ∧ d.isRevoked = false := by
  simp only [stillRevocable, isRevocable, Option.any_eq_true, Bool.and_eq_true, decide_eq_true_eq,
    Bool.not_eq_true']
  constructor
  · intro hx
    obtain ⟨d, hd, ⟨hid, hu⟩, hv⟩ := hx
    have hi : i = device := (lookup_key hd).symm.trans hid
    exact ⟨hi, d, hi ▸ hd, hu, hv⟩
  · intro hx
    obtain ⟨rfl, d, hd, hu, hv⟩ := hx
    exact ⟨d, hd, ⟨lookup_key hd, hu⟩, hv⟩

theorem stillRevocable_rely {L : List Key} {D : List Uuid} {w w' : World Db} {i : Uuid}
    (hi : .device i ∈ L) (hr : (backend pf).Rely L D w w')
    (h : stillRevocable user device i w.db = true) : stillRevocable user device i w'.db = true := by
  have hc := cell_of_rely hr hi
  simp only [Db.cell, Cell.device.injEq] at hc
  rw [stillRevocable, hc]
  exact h

theorem safe_revokeDevice {reason : String} (hi : w.db.Holds) :
    (backend pf).Safe (revokeDeviceContract user device w) (revokeDevice user device reason)
      [] [] (applyAll []) [] w := by
  have hC : Tolerates (revokeDeviceContract user device w) [] :=
    ⟨fun _ _ _ hv => by simp at hv, fun _ _ _ hv => by simp at hv⟩
  intro w₁ hr₁ hi₁ w₂ hr₂ hi₂ found _
  have h₂ := ((Since.start hi).rely hr₁ hi₁).rely hr₂ hi₂
  apply Spec.Safe.lockEach (P := fun i w => stillRevocable user device i w.db = true)
    (fun i w _ hs => hs) (fun i L w w' hk hr hs => stillRevocable_rely hk hr hs) found [] (by simp)
  · intro w₃ hr₃ hi₃ L₃ updated hupd _ hsub₃
    have h₃ := h₂.rely hr₃ hi₃
    have hall : ∀ i ∈ updated, i = device := fun i hi => (stillRevocable_iff.mp (hupd i hi).2).1
    apply safe_write
    intro w₄ hr₄ hi₄
    have h₄ := h₃.rely hr₄ hi₄
    dsimp only
    split
    · exact safe_throw fun _ _ hv => by simp at hv
    · rename_i row hrow
      have hmem : device ∈ updated := by
        cases hup : updated with
        | nil => simp [hup] at hrow
        | cons i rest =>
          have hid := hall i (by simp [hup])
          simp [hid]
      have hone : ∀ i, i ∈ updated ↔ i ∈ [device] := by
        intro i
        rw [List.mem_singleton]
        exact ⟨hall i, fun hi => hi ▸ hmem⟩
      have hdev₃ : .device device ∈ L₃ := (hupd device hmem).1
      have hs₄ := stillRevocable_rely hdev₃ hr₄ (hupd device hmem).2
      apply safe_updateWhere
      intro w₅ w₆ sessions L₆ hr₅ hi₅ hsess hr₆ hi₆ hL₆ hsub₆
      have h₅ := h₄.rely hr₅ hi₅
      have h₆ := h₅.rely hr₆ hi₆
      have hs₆ := stillRevocable_rely hdev₃ hr₆ (stillRevocable_rely hdev₃ hr₅ hs₄)
      have hdev₆ := hsub₆ hdev₃
      apply safe_updateWhere
      intro w₇ w₈ families L₈ hr₇ hi₇ hfam hr₈ hi₈ hL₈ hsub₈
      have h₇ := h₆.rely hr₇ hi₇
      have h₈ := h₇.rely hr₈ hi₈
      have hs₈ := stillRevocable_rely hdev₆ hr₈ (stillRevocable_rely hdev₆ hr₇ hs₆)
      have hdev₈ := hsub₈ hdev₆
      apply safe_updateWhere
      intro w₉ w₁₀ tokens L₁₀ hr₉ hi₉ htok hr₁₀ hi₁₀ hL₁₀ hsub₁₀ w₁₁ hr₁₁ hi₁₁ eventId _ hev
      have h₁₀ := (h₈.rely hr₉ hi₉).rely hr₁₀ hi₁₀
      have hs₁₀ := stillRevocable_rely hdev₈ hr₁₀ (stillRevocable_rely hdev₈ hr₉ hs₈)
      have hdev₁₀ := hsub₁₀ hdev₈
      have hs₁₁ := stillRevocable_rely hdev₁₀ hr₁₁ hs₁₀
      apply safe_insertSecurityEvent hC
      intro w₁₂ hr₁₂ hi₁₂ w₁₃ hr₁₃ hi₁₃ auditId _ haud w₁₄ hr₁₄ hi₁₄ correlationId _ hcor
      have hs₁₂ := stillRevocable_rely hdev₁₀ hr₁₂ hs₁₁
      have hdev₁₂ := List.mem_cons_of_mem (.securityEvent eventId) hdev₁₀
      have hs₁₄ := stillRevocable_rely hdev₁₂ hr₁₄ (stillRevocable_rely hdev₁₂ hr₁₃ hs₁₂)
      apply safe_insertAuditEvent hC
      intro w₁₅ hr₁₅ hi₁₅
      have hs₁₅ := stillRevocable_rely hdev₁₂ hr₁₅ hs₁₄
      apply safe_commit (e := .deviceRevoked user device reason row.deviceName sessions families
        tokens eventId auditId correlationId w₁.clock)
      · intro db
        simp only [applyAll_append, applyAll_cons, applyAll_nil, Event.writes, Write.apply,
          updateRows_congr _ hone]
      · simp only [Event.writes, List.mem_cons, List.not_mem_nil, or_false, forall_eq_or_imp,
          forall_eq, Write.touches, List.mem_map, List.map_nil, List.map_cons]
        refine ⟨?_, ?_, ?_, ?_, ?_, ?_⟩
        · exact .inr (.inr hdev₁₀)
        · intro _ hx
          obtain ⟨i, hi, rfl⟩ := hx
          exact .inr (.inr (hsub₁₀ (hsub₈ (hL₆ i hi))))
        · intro _ hx
          obtain ⟨i, hi, rfl⟩ := hx
          exact .inr (.inr (hsub₁₀ (hL₈ i hi)))
        · intro _ hx
          obtain ⟨i, hi, rfl⟩ := hx
          exact .inr (.inr (hL₁₀ i hi))
        · exact .inr (.inl trivial)
        · exact .inl trivial
      · simp [Event.writes, Write.inserts, revokedEvent, revokedAudit]
      · intro w₁₆ hr₁₆ hi₁₆
        have hs₁₆ := stillRevocable_rely (List.mem_cons_of_mem _ hdev₁₂) hr₁₆ hs₁₅
        have hg := (grows_of_rely hr₁₀).trans ((grows_of_rely hr₁₁).trans
          ((grows_of_rely hr₁₂).trans ((grows_of_rely hr₁₃).trans ((grows_of_rely hr₁₄).trans
            ((grows_of_rely hr₁₅).trans (grows_of_rely hr₁₆))))))
        have hevent : RevokeDeviceEvent user device w (.deviceRevoked user device reason
            row.deviceName sessions families tokens eventId auditId correlationId w₁.clock) := by
          refine ⟨rfl, rfl, fun s hs hd => (hsess _).mpr ?_, fun f hf hd => (hfam _).mpr ?_⟩
          · exact sessionsWhere_of_grows h₅.valid h₅.grows
              (fun s s' _ hg hp => by simpa [hg.deviceId] using hp) hs (by simpa using hd)
          · exact familiesWhere_of_grows h₇.valid h₇.grows
              (fun f f' hg hp => by simpa [hg.deviceId] using hp) hf (by simpa using hd)
        refine ⟨⟨(stillRevocable_iff.mp hs₁₆).2, ?_⟩, ?_, ?_⟩
        · exact parentClosed_of_grows hi₉ hg hi₁₆ fun i => (htok i).trans Db.mem_tokensOfFamilies
        · simpa [revokeDeviceContract] using hevent
        · exact fun _ _ _ _ _ => ⟨_, rfl, hevent⟩
  · exact hi₂

end

end DeviceService

end GuffSuff
