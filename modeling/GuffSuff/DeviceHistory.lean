import GuffSuff.DeviceRuns

/-! What the history of the devices leaves behind: a revocation is the last word
on a device, and the audit trail repeats the log. -/

namespace GuffSuff

open ReadCommitted

namespace Devices

open Devices.DeviceService
open GuffSuff.DeviceService (revokedEvent revokedAudit)

/-- The operation changes the device or shows it. -/
def Operation.Concerns (device : Uuid) : Operation → Prop
  | rename _ d _ _ | revoke _ d _ _ => d = device
  | list _ rows => device ∈ rows.map DeviceRow.id

structure Registry.Settled (reg : Registry) (device : Uuid) (e : Entry) : Prop where
  entry : reg device = some e
  revoked : e.row.isRevoked = true
  ids : ∀ id e, reg id = some e → e.row.id = id

section
variable {reg : Registry} {device : Uuid} {e : Entry} {op : Operation}

theorem Registry.Settled.not_concerns (h : reg.Settled device e) (hop : reg.Allows op) :
    ¬ op.Concerns device := by
  have hinactive : ∀ user, ¬ reg.Active user device := by
    intro user hact
    obtain ⟨e', he', _, hr⟩ := hact
    obtain rfl := Option.some.inj (he'.symm.trans h.entry)
    exact absurd (hr.symm.trans h.revoked) (by simp)
  cases op with
  | rename user d name now => exact fun hd => hinactive user (hd ▸ hop)
  | revoke user d reason now => exact fun hd => hinactive user (hd ▸ hop)
  | list user rows =>
    intro hmem
    obtain ⟨row, hrow, hid⟩ := List.mem_map.mp hmem
    obtain ⟨id, e', he', hu, hr, rfl⟩ := (hop.mem row).mp hrow
    obtain rfl : id = device := (h.ids id e' he').symm.trans hid
    exact hinactive user ⟨e', he', hu, hr⟩

theorem Registry.Settled.apply (h : reg.Settled device e) (hop : reg.Allows op) :
    (reg.apply op).Settled device e := by
  have hnot := h.not_concerns hop
  have hupdate : ∀ {d : Uuid} {f : Entry → Entry}, d ≠ device → (∀ e, (f e).row.id = e.row.id) →
      Registry.Settled (Function.update reg d ((reg d).map f)) device e := by
    intro d f hne hf
    refine ⟨by rw [Function.update_of_ne (Ne.symm hne), h.entry], h.revoked, fun id e' he' => ?_⟩
    by_cases heq : id = d
    · subst heq
      rw [Function.update_self, Option.map_eq_some_iff] at he'
      obtain ⟨e₀, he₀, rfl⟩ := he'
      exact (hf e₀).trans (h.ids id e₀ he₀)
    · rw [Function.update_of_ne heq] at he'
      exact h.ids id e' he'
  cases op with
  | rename user d name now => exact hupdate hnot fun _ => rfl
  | revoke user d reason now => exact hupdate hnot fun _ => rfl
  | list user rows => exact h

theorem Db.registry_ids (db : Db) {id : Uuid} {e : Entry} (h : db.registry id = some e) : e.row.id = id := by
  obtain ⟨d, hd, rfl⟩ := Option.map_eq_some_iff.mp h
  exact lookup_key hd

end

def Event.audits : Event → List AuditEvent
  | renameAudited row => [row]
  | backend (.deviceRevoked user device reason _ _ _ _ _ auditId correlationId now) =>
    [revokedAudit auditId correlationId user device reason now]
  | _ => []

theorem Event.moves_rows {db db' : Db} {e : Event} (h : e.Moves db db') :
    db.core.securityEvents ⊆ db'.core.securityEvents ∧
      db'.core.auditEvents = db.core.auditEvents ++ e.audits := by
  have hleaves : ∀ {change al au}, db.Leaves change al au db' →
      db.core.securityEvents ⊆ db'.core.securityEvents ∧
        db'.core.auditEvents = db.core.auditEvents ++ au :=
    fun h => ⟨List.Subset.trans (List.subset_append_left _ _) h.alerts, h.audits⟩
  cases e with
  | deviceRenamed user device name now =>
    obtain ⟨-, rfl⟩ := h
    exact ⟨List.Subset.refl _, (List.append_nil _).symm⟩
  | renameAudited row => exact hleaves h
  | devicesListed user rows =>
    obtain ⟨rfl, -⟩ := h
    exact ⟨List.Subset.refl _, (List.append_nil _).symm⟩
  | backend event =>
    cases event with
    | deviceRevoked => exact hleaves h.2
    | _ => exact hleaves h

section
variable {pf : Platform} {v w : World Db} {es : List Event}

theorem alerts_of_path (h : management.Path v es w) :
    v.db.core.securityEvents ⊆ w.db.core.securityEvents :=
  h.keeps (P := fun _ db => v.db.core.securityEvents ⊆ db.core.securityEvents) (fun _ _ _ h _ => h)
    (fun _ _ _ _ h hm => List.Subset.trans h (Event.moves_rows hm).1) (List.Subset.refl _)

theorem audits_of_path (h : management.Path v es w) :
    w.db.core.auditEvents = v.db.core.auditEvents ++ es.flatMap Event.audits := by
  induction h with
  | refl => simp
  | tick _ _ ih => exact ih
  | move _ hm ih =>
    rw [(Event.moves_rows hm).2, ih, List.flatMap_append, List.flatMap_singleton, List.append_assoc]

theorem settled_of_path {user device : Uuid} {reason name : String} {sessions families tokens : List Uuid}
    {eventId auditId correlationId now : Nat} {pre post : List Event}
    (h : management.Path v (pre ++ .backend (.deviceRevoked user device reason name sessions families tokens
      eventId auditId correlationId now) :: post) w)
    (hv : (keys v.db.core.devices).Nodup) :
    ∃ e, e.owner = user ∧ e.row.deviceName = name ∧ e.row.revokedAt = some now ∧
      e.row.revokedReason = some reason ∧ w.db.registry.Settled device e ∧
      (∀ op ∈ post.filterMap Event.operation, ¬ op.Concerns device) ∧
      revokedEvent eventId user device name reason now ∈ w.db.core.securityEvents := by
  obtain ⟨c, db, db', hpre, ⟨howned, hleaves⟩, hpost⟩ := h.cut
  have hi : (keys db.core.devices).Nodup := hpre.holds (S := management) hv
  have hi' : (keys db'.core.devices).Nodup := by
    rw [hleaves.devices, keys_updateRows db.core.devices [device] (f := Device.revoke reason now)
      (Device.id_revoke reason now)]
    exact hi
  obtain ⟨d, hd, hu, -, hname⟩ := howned
  let e : Entry := Entry.revoke reason now ⟨d.userId, rowOf (db.details device) d⟩
  have hentry : db'.registry device = some e := by
    rw [hleaves.registry_revoke, Function.update_self]
    simp [e, Db.registry, hd]
  have hsettled : db'.registry.Settled device e := ⟨hentry, rfl, fun id e he => db'.registry_ids he⟩
  have hlegal := management_shows.legal hpost hi'
  have hstep : ∀ (reg : Registry) op, reg.Settled device e → registry.allows reg op →
      (registry.apply reg op).Settled device e := fun _ _ h hop => h.apply hop
  refine ⟨e, hu, hname, rfl, rfl, ?_, ?_, ?_⟩
  · exact hlegal.keeps (P := fun reg => reg.Settled device e) hstep hsettled
  · exact hlegal.never hstep (fun _ _ h hop => h.not_concerns hop) hsettled
  · exact alerts_of_path hpost (hleaves.alerts (by simp))

end

/-- The revocation of a device is the last operation on it: its row keeps the name that the alert
shows the user, and no later listing shows it. -/
theorem revocations_final (pf : Platform) (fk : FkCheck) {db : Db} {clock : Nat} (used : List Uuid)
    (hdb : (keys db.core.devices).Nodup) (sched : List Choice) {p : Nat} {user device : Uuid}
    {reason name : String} {sessions families tokens : List Uuid} {eventId auditId correlationId : Uuid}
    {now : Nat} {pre post : List (Nat × Event)} :
    let s := serve pf fk (.boot db clock used) sched
    s.log = pre ++ (p, .backend (.deviceRevoked user device reason name sessions families tokens eventId
        auditId correlationId now)) :: post →
      ∃ e, s.db.registry device = some e ∧ e.owner = user ∧ e.row.deviceName = name ∧
        e.row.isRevoked = true ∧ e.row.revokedAt = some now ∧ e.row.revokedReason = some reason ∧
        revokedEvent eventId user device name reason now ∈ s.db.core.securityEvents ∧
        ∀ op ∈ operations post, ¬ op.Concerns device := by
  intro s hlog
  have hs : SoundRun pf ⟨clock, db⟩ s := soundRun used hdb sched
  have hpath := hs.path
  rw [hlog, List.map_append, List.map_cons] at hpath
  obtain ⟨e, hu, hname, hat, hreason, hsettled, hlater, halert⟩ := settled_of_path hpath hdb
  rw [List.filterMap_map] at hlater
  exact ⟨e, hsettled.entry, hu, hname, hsettled.revoked, hat, hreason, halert, hlater⟩

theorem sampleRevocation_final :
    ∃ e, (serve samplePlatform .atCommit sampleStart sampleRevocation).db.registry 4 = some e ∧
      e.row.deviceName = "work" ∧ e.row.isRevoked = true := by
  obtain ⟨e, he, _, hname, hr, _⟩ := @revocations_final samplePlatform .atCommit sampleDb 7 []
    (by decide) sampleRevocation 1 2 4 "lost" "work" [] [] [] 10 11 12 7
    [(0, .deviceRenamed 2 4 "work" 7)] [(2, .devicesListed 2 [sampleRow])] (by decide +kernel)
  exact ⟨e, he, hname, hr⟩

section
variable {pf : Platform}

/-- The audit row of the rename that a call asks for: it has the name as it was asked for, of which
the device keeps what its column takes. -/
structure Audits (pf : Platform) (user : Uuid) (deviceId : String) (newDeviceName : Option String)
    (device : Uuid) (name : String) (row : AuditEvent) : Prop where
  asked : pf.uuid deviceId = some device
  kept : nameColumn newDeviceName = some (some name)
  told : ∃ auditId correlationId auditedAt,
    row = renamedAudit auditId correlationId user device deviceId (newDeviceName.getD "") auditedAt

/-- A call records no rename, or the one that it asks for and then perhaps its audit row. -/
theorem Call.trace_rename {c : Call} {es : List Event} (h : c.Trace pf es) :
    (∀ e ∈ es, (∀ user device name now, e ≠ .deviceRenamed user device name now) ∧
        ∀ row, e ≠ .renameAudited row) ∨
      ∃ user deviceId newDeviceName device name now, c = .renameDevice user deviceId newDeviceName ∧
        (es = [.deviceRenamed user device name now] ∨
          ∃ row, es = [.deviceRenamed user device name now, .renameAudited row] ∧
            Audits pf user deviceId newDeviceName device name row) := by
  cases c with
  | backend call =>
    left
    cases call with
    | revokeDevice user device reason =>
      obtain rfl | ⟨_, _, _, _, _, _, _, _, rfl⟩ := h
      · exact fun e he => absurd he List.not_mem_nil
      · intro e he
        obtain rfl := List.mem_singleton.mp he
        simp
    | _ =>
      intro e he
      obtain ⟨event, rfl, _⟩ := h e he
      simp
  | listDevices user currentDeviceId =>
    left
    obtain rfl | ⟨rows, rfl⟩ := h
    · exact fun e he => absurd he List.not_mem_nil
    · intro e he
      obtain rfl := List.mem_singleton.mp he
      simp
  | renameDevice user deviceId newDeviceName =>
    obtain rfl | ⟨device, name, now, hdevice, hname, rfl | ⟨auditId, correlationId, auditedAt, rfl⟩⟩ := h
    · exact .inl fun e he => absurd he List.not_mem_nil
    · exact .inr ⟨user, deviceId, newDeviceName, device, name, now, rfl, .inl rfl⟩
    · have haudits : Audits pf user deviceId newDeviceName device name _ :=
        ⟨hdevice, hname, auditId, correlationId, auditedAt, rfl⟩
      exact .inr ⟨user, deviceId, newDeviceName, device, name, now, rfl, .inr ⟨_, rfl, haudits⟩⟩

end

/-- The audit trail grows by what the log says and by nothing else. The row of a rename follows the
rename that its call asked for; a rename without one is that of a call which has not answered, or with
an error. -/
theorem renames_audited (pf : Platform) (fk : FkCheck) {db : Db} {clock : Nat} (used : List Uuid)
    (hdb : (keys db.core.devices).Nodup) (sched : List Choice) :
    let s := serve pf fk (.boot db clock used) sched
    s.db.core.auditEvents = db.core.auditEvents ++ s.log.flatMap (fun x => x.2.audits) ∧
      (∀ p row, (p, .renameAudited row) ∈ s.log → ∃ pr user deviceId newDeviceName device name now,
        s.procs p = some pr ∧ pr.call = .renameDevice user deviceId newDeviceName ∧
          ReadCommitted.Server.eventsOf s.log p =
            [.deviceRenamed user device name now, .renameAudited row] ∧
          Audits pf user deviceId newDeviceName device name row) ∧
      ∀ p user device name now, (p, .deviceRenamed user device name now) ∈ s.log →
        (∀ row, (p, .renameAudited row) ∉ s.log) → ∀ c v, ¬ s.Returned p c (.ok v) := by
  intro s
  have hs : SoundRun pf ⟨clock, db⟩ s := soundRun used hdb sched
  refine ⟨?_, fun p row hmem => ?_, fun p user device name now hmem hnone c v hret => ?_⟩
  · rw [← List.flatMap_map]
    exact audits_of_path hs.path
  · obtain ⟨pr, hp, htrace⟩ := hs.trace_of_log hmem
    have he := ReadCommitted.Server.mem_eventsOf.mpr hmem
    rcases Call.trace_rename htrace with hno |
      ⟨user, deviceId, newDeviceName, device, name, now, hc, hes | ⟨row', hes, haudits⟩⟩
    · exact absurd rfl ((hno _ he).2 row)
    · rw [hes] at he
      exact absurd (List.mem_singleton.mp he) (by simp)
    · have heq : row = row' := by
        rw [hes] at he
        simpa using he
      exact ⟨pr, user, deviceId, newDeviceName, device, name, now, hp, hc, heq ▸ hes, heq ▸ haudits⟩
  · obtain ⟨pr, hp, rfl, hr⟩ := ReadCommitted.Server.returned_iff.mp hret
    have htrace : pr.call.Trace pf (ReadCommitted.Server.eventsOf s.log p) := hs.events p pr hp ▸ hs.trace p pr hp
    rcases Call.trace_rename htrace with hno | ⟨_, _, _, _, _, _, hc, hes | ⟨row, hes, _⟩⟩
    · exact absurd rfl ((hno _ (ReadCommitted.Server.mem_eventsOf.mpr hmem)).1 user device name now)
    · have hpost := hs.post hp hr
      simp only [Call.contract, hc, hes, Call.aborted, Call.Tells] at hpost
      obtain habort | ⟨hok, _⟩ := hpost
      · simp at habort
      · obtain ⟨_, _, _, _, _, hboth⟩ := hok v rfl
        simp at hboth
    · exact hnone row (ReadCommitted.Server.mem_eventsOf.mp (hes ▸ by simp))

theorem sampleRevocation_audited :
    (serve samplePlatform .atCommit sampleStart sampleRevocation).db.core.auditEvents =
        (serve samplePlatform .atCommit sampleStart sampleRevocation).log.flatMap (fun x => x.2.audits) ∧
      (serve samplePlatform .atCommit sampleStart sampleRevocation).db.core.auditEvents =
        [revokedAudit 11 12 2 4 "lost" 7] :=
  ⟨(renames_audited samplePlatform .atCommit [] (by decide) sampleRevocation).1, by decide +kernel⟩

end Devices

end GuffSuff
