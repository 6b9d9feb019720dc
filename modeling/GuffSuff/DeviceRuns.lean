import GuffSuff.DeviceRegistry

/-! Outlines of the calls on devices, and what any run of them says of the registry. -/

namespace GuffSuff

open ReadCommitted

namespace Devices

open Devices.DeviceService
open GuffSuff.DeviceService (revocableDevices stillRevocable stillRevocable_iff isRevocable)

section
variable {db : Db} {user device : Uuid}

theorem mem_activeDevices (hdb : (keys db.core.devices).Nodup) {id : Uuid} :
    id ∈ activeDevices user db ↔
      ∃ d, lookup db.core.devices id = some d ∧ d.userId = user ∧ d.isRevoked = false := by
  simp only [activeDevices, List.mem_map, List.mem_filter, Bool.and_eq_true, decide_eq_true_eq,
    Bool.not_eq_true']
  constructor
  · intro h
    obtain ⟨d, ⟨hd, hu, hr⟩, rfl⟩ := h
    exact ⟨d, lookup_of_mem hdb hd, hu, hr⟩
  · intro h
    obtain ⟨d, hd, hu, hr⟩ := h
    exact ⟨d, ⟨lookup_mem hd, hu, hr⟩, lookup_key hd⟩

theorem nodup_activeDevices (hdb : (keys db.core.devices).Nodup) : (activeDevices user db).Nodup :=
  hdb.sublist (List.filter_sublist.map Device.id)

theorem Db.row_eq_some {id : Uuid} {row : DeviceRow} :
    db.row id = some row ↔ ∃ d, lookup db.core.devices id = some d ∧ rowOf (db.details id) d = row := by
  simp [Db.row]

theorem Db.row_id {id : Uuid} {row : DeviceRow} (h : db.row id = some row) : row.id = id := by
  obtain ⟨d, hd, rfl⟩ := Db.row_eq_some.mp h
  exact lookup_key hd

theorem Db.row_lastSeenAt {id : Uuid} {row : DeviceRow} (h : db.row id = some row) :
    row.lastSeenAt = (db.details id).lastSeenAt := by
  obtain ⟨d, _, rfl⟩ := Db.row_eq_some.mp h
  rfl

theorem Db.row_ids {ids : List Uuid} (hids : ∀ id ∈ ids, (db.row id).isSome) :
    (ids.filterMap db.row).map DeviceRow.id = ids := by
  induction ids with
  | nil => rfl
  | cons id ids ih =>
    obtain ⟨row, hrow⟩ := Option.isSome_iff_exists.mp (hids id List.mem_cons_self)
    rw [List.filterMap_cons_some hrow, List.map_cons, Db.row_id hrow,
      ih fun i hi => hids i (List.mem_cons_of_mem _ hi)]

theorem listed_rows (hdb : (keys db.core.devices).Nodup) {ids : List Uuid}
    (hperm : ids.isPerm (activeDevices user db) = true) (hnewest : newestFirst db ids = true) :
    db.registry.Lists user (ids.filterMap db.row) := by
  have hperm := List.isPerm_iff.mp hperm
  have hmem : ∀ id, id ∈ ids ↔ ∃ d, lookup db.core.devices id = some d ∧ d.userId = user ∧
      d.isRevoked = false := fun id => hperm.mem_iff.trans (mem_activeDevices hdb)
  constructor
  case mem =>
    intro row
    simp only [List.mem_filterMap, Db.row_eq_some, Db.registry, Option.map_eq_some_iff]
    constructor
    · intro h
      obtain ⟨id, hid, d, hd, hrow⟩ := h
      obtain ⟨d', hd', hu, hr⟩ := (hmem id).mp hid
      obtain rfl := Option.some.inj (hd'.symm.trans hd)
      exact ⟨id, _, ⟨d', hd, rfl⟩, hu, hr, hrow⟩
    · intro h
      obtain ⟨id, _, ⟨d, hd, rfl⟩, hu, hr, hrow⟩ := h
      exact ⟨id, (hmem id).mpr ⟨d, hd, hu, hr⟩, d, hd, hrow⟩
  case nodup =>
    have hsome : ∀ id ∈ ids, (db.row id).isSome := by
      intro id hid
      obtain ⟨d, hd, _⟩ := (hmem id).mp hid
      simp [Db.row, hd]
    rw [Db.row_ids hsome]
    exact hperm.nodup_iff.mpr (nodup_activeDevices hdb)
  case newest =>
    rw [List.pairwise_filterMap]
    refine (of_decide_eq_true hnewest).imp fun hle row hrow row' hrow' => ?_
    rw [Db.row_lastSeenAt hrow, Db.row_lastSeenAt hrow']
    exact hle

theorem mem_revocableDevices (hdb : (keys db.core.devices).Nodup) {id : Uuid} :
    id ∈ revocableDevices user device db.core ↔ id = device ∧ db.Owned user device fun _ => True := by
  simp only [revocableDevices, isRevocable, Db.Owned, List.mem_map, List.mem_filter, Bool.and_eq_true,
    decide_eq_true_eq, Bool.not_eq_true', and_true]
  constructor
  · intro h
    obtain ⟨d, ⟨hd, ⟨hid, hu⟩, hr⟩, rfl⟩ := h
    exact ⟨hid, d, hid ▸ lookup_of_mem hdb hd, hu, hr⟩
  · intro h
    obtain ⟨rfl, d, hd, hu, hr⟩ := h
    exact ⟨d, ⟨lookup_mem hd, ⟨lookup_key hd, hu⟩, hr⟩, lookup_key hd⟩

theorem nodup_revocableDevices (hdb : (keys db.core.devices).Nodup) :
    (revocableDevices user device db.core).Nodup :=
  hdb.sublist (List.filter_sublist.map Device.id)

theorem stillRevocable_iff_owned :
    stillRevocable user device device db.core = true ↔ db.Owned user device fun _ => True := by
  rw [stillRevocable_iff]
  simp [Db.Owned]

/-- No operation makes a device active again. -/
theorem Registry.inactive_apply {reg : Registry} {op : Operation} (h : ¬ reg.Active user device)
    (hop : reg.Allows op) : ¬ (reg.apply op).Active user device := by
  have hsame : ∀ {f : Entry → Entry} {user' device' : Uuid}, reg.Active user' device' →
      (∀ e, (f e).owner = e.owner) → (∀ e, (f e).row.isRevoked = false → e.row.isRevoked = false) →
      ¬ Registry.Active (Function.update reg device' ((reg device').map f)) user device := by
    intro f user' device' _ howner hrevoked hact
    obtain ⟨e, he, hu, hr⟩ := hact
    by_cases heq : device = device'
    · subst heq
      rw [Function.update_self, Option.map_eq_some_iff] at he
      obtain ⟨e', he', rfl⟩ := he
      exact h ⟨e', he', (howner e').symm.trans hu, hrevoked e' hr⟩
    · rw [Function.update_of_ne heq] at he
      exact h ⟨e, he, hu, hr⟩
  cases op with
  | rename user' device' name now => exact hsame hop (fun _ => rfl) fun _ hr => hr
  | revoke user' device' reason now => exact hsame hop (fun _ => rfl) fun _ hr => absurd hr (by simp [Entry.revoke])
  | list user' rows => exact h

theorem inactive_rely {L : List Key} {D : List Uuid} {w w' : World Db}
    (hi : (keys w.db.core.devices).Nodup) (hr : management.Rely L D w w')
    (h : ¬ w.db.registry.Active user device) : ¬ w'.db.registry.Active user device := by
  obtain ⟨es, hpath⟩ := hr.later
  exact (management_shows.legal hpath hi).keeps (P := fun reg => ¬ reg.Active user device)
    (fun _ _ => Registry.inactive_apply) h

theorem owned_rely {L : List Key} {D : List Uuid} {w w' : World Db} {name : String → Prop}
    (hL : Key.device device ∈ L) (hr : management.Rely L D w w') (h : w.db.Owned user device name) :
    w'.db.Owned user device name := by
  have hsame : lookup w'.db.core.devices device = lookup w.db.core.devices device :=
    Cell.device.inj (hr.same (.device device) hL)
  obtain ⟨d, hd, hd'⟩ := h
  exact ⟨d, hsame.trans hd, hd'⟩

end

namespace Call

/-- What the calls of one process record, in their order. -/
def Trace (pf : Platform) : Call → List Event → Prop
  | backend (.revokeDevice user device reason), es => es = [] ∨
    ∃ name sessions families tokens eventId auditId correlationId now,
      es = [.backend (.deviceRevoked user device reason name sessions families tokens eventId auditId
        correlationId now)]
  | backend _, es => ∀ e ∈ es, ∃ event, e = .backend event ∧ event.isRevocation = false
  | listDevices user _, es => es = [] ∨ ∃ rows, es = [.devicesListed user rows]
  | renameDevice user deviceId newDeviceName, es => es = [] ∨
    ∃ device name now, pf.uuid deviceId = some device ∧ nameColumn newDeviceName = some (some name) ∧
      (es = [.deviceRenamed user device name now] ∨ ∃ auditId correlationId auditedAt,
        es = [.deviceRenamed user device name now, .renameAudited (renamedAudit auditId correlationId
          user device deviceId (newDeviceName.getD "") auditedAt)])

/-- What an answer says of the registry and of the entries that the call has made. -/
def Tells (pf : Platform) : Call → Answer → List Event → Registry → Prop
  | backend (.revokeDevice user device _), r, es, reg =>
    (∀ v, r = .ok v → v = .backend (.deviceRevoked device) ∧ es ≠ []) ∧
      (r = .error notFound → es = [] ∧ ¬ reg.Active user device)
  | backend _, _, _, _ => True
  | listDevices user currentDeviceId, r, es, _ => ∀ v, r = .ok v →
    ∃ rows, v = .devices (rows.map (isCurrent currentDeviceId)) ∧ es = [.devicesListed user rows]
  | renameDevice user deviceId _, r, es, reg =>
    (∀ v, r = .ok v → ∃ device name now row, v = .renamed device name ∧
      es = [.deviceRenamed user device name now, .renameAudited row]) ∧
      (r = .error notFound → es = [] ∧ ∀ device, pf.uuid deviceId = some device → ¬ reg.Active user device)

def contract (pf : Platform) (c : Call) (_ : World Db) : Spec.Contract Db Event Answer where
  trace := c.Trace pf
  answer r es w := r = c.aborted ∨ c.Tells pf r es w.db.registry

end Call

section
variable {C : Spec.Contract Db Event Answer} {L : List Key} {D : List Uuid} {es : List Event}
variable {f : Db → Db} {w : World Db} {user device : Uuid}

theorem safe_refused {x : Failure} (h : ∀ w, C.answer (.error x) es w) :
    management.Safe C (throw x) L D f es w := fun v _ _ => h v

/-- `UPDATE devices .. WHERE id = .. AND user_id = .. AND is_revoked = false`: what the two
outcomes mean. -/
theorem safe_active {k : List Uuid → Program}
    (hnone : ∀ w' L', (keys w'.db.core.devices).Nodup → ¬ w'.db.registry.Active user device →
      management.Safe C (k []) L' D id es w')
    (hsome : ∀ w' L', (keys w'.db.core.devices).Nodup → Key.device device ∈ L' →
      (w'.db.Owned user device fun _ => True) → management.Safe C (k [device]) L' D id es w') :
    management.Safe C (.select (fun db => exactly (revocableDevices user device) db.core) fun found =>
      Program.lockEach Key.device (fun i db => stillRevocable user device i db.core) [] found k)
      L D id es w := by
  intro w₁ hr₁ hi₁ found hfound
  have hperm : found.Perm (revocableDevices user device w₁.db.core) := List.isPerm_iff.mp hfound
  have hmem : ∀ i, i ∈ found ↔ i = device ∧ w₁.db.Owned user device fun _ => True := fun i =>
    hperm.mem_iff.trans (mem_revocableDevices hi₁)
  by_cases howned : w₁.db.Owned user device fun _ => True
  · have hone : found = [device] := by
      refine List.perm_singleton.mp ((List.perm_ext_iff_of_nodup ?_ (List.nodup_singleton _)).mpr ?_)
      · exact hperm.nodup_iff.mpr (nodup_revocableDevices hi₁)
      · simpa [howned] using hmem
    subst hone
    intro w₂ hr₂ hi₂
    by_cases hstill : stillRevocable user device device w₂.db.core = true
    · simp only [id, hstill, if_true]
      exact hsome w₂ _ hi₂ List.mem_cons_self (stillRevocable_iff_owned.mp hstill)
    · simp only [id, hstill]
      refine hnone w₂ _ hi₂ fun hact => hstill ?_
      exact stillRevocable_iff_owned.mpr (Db.owned_iff_active.mpr hact)
  · have hnil : found = [] := by
      rw [List.eq_nil_iff_forall_not_mem]
      exact fun i hi => howned ((hmem i).mp hi).2
    subst hnil
    exact hnone w₁ L hi₁ fun hact => howned (Db.owned_iff_active.mpr hact)

theorem safe_listDevices {pf : Platform} {currentDeviceId : Option Uuid} (v : World Db) :
    management.Safe ((Call.listDevices user currentDeviceId).contract pf v)
      (listDevices user currentDeviceId) [] [] id [] w := by
  intro w₁ _ hi₁ ids hids
  simp only [id, Bool.and_eq_true] at hids
  refine ⟨⟨rfl, listed_rows hi₁ hids.1 hids.2⟩, .inr ⟨_, rfl⟩, fun w₂ _ _ => .inr fun value hv => ?_⟩
  obtain rfl := Except.ok.inj hv
  exact ⟨_, rfl, rfl⟩

theorem safe_insertAuditRow {row : AuditEvent} {k : Program}
    (hfail : ∀ x w, x ≠ notFound → C.answer (.error x) es w)
    (hk : ∀ w' L', management.Safe C k L' D (Db.insertAuditEvent row) es w') :
    management.Safe C (insertAuditEvent row k) L D id es w := by
  intro w₁ _ _
  dsimp only
  split
  · exact safe_refused (hfail _ · (by simp [notFound]))
  · exact hk w₁ _

theorem leaves_insertAuditEvent (row : AuditEvent) (db : Db) :
    db.Leaves id [] [row] (db.insertAuditEvent row) :=
  ⟨rfl, rfl, by simp [Db.insertAuditEvent], rfl⟩

theorem safe_renameDevice {pf : Platform} {deviceId : String} {newDeviceName : Option String}
    (v : World Db) :
    management.Safe ((Call.renameDevice user deviceId newDeviceName).contract pf v)
      (renameDevice pf user deviceId newDeviceName) [] [] id [] w := by
  have hrefused : ∀ (x : Failure) (es : List Event) (w : World Db), x ≠ notFound →
      ((Call.renameDevice user deviceId newDeviceName).contract pf v).answer (.error x) es w :=
    fun x es w hx => .inr ⟨fun _ hv => by simp at hv, fun hr => absurd (Except.error.inj hr) hx⟩
  unfold renameDevice
  split
  · exact safe_refused (hrefused _ _ · (by simp [notFound]))
  split
  · exact safe_refused (hrefused _ _ · (by simp [notFound]))
  · exact safe_refused (hrefused _ _ · (by simp [notFound]))
  rename_i device deviceName hdevice hname
  intro w₁ _ _
  refine safe_active (fun w₂ L₂ hi₂ hinactive w₃ hr₃ _ => .inr ⟨fun _ hv => by simp at hv, fun _ => ?_⟩)
    fun w₂ L₂ hi₂ hL₂ howned => ?_
  · refine ⟨rfl, fun device' hdevice' => ?_⟩
    obtain rfl := Option.some.inj (hdevice'.symm.trans hdevice)
    exact inactive_rely hi₂ hr₃ hinactive
  cases deviceName with
  | none => exact safe_refused (hrefused _ _ · (by simp [notFound]))
  | some name =>
    intro w₃ hr₃ hi₃
    refine ⟨⟨owned_rely hL₂ hr₃ howned, rfl⟩, ?_, fun _ hx => hx.elim, ?_, ?_⟩
    · intro key hkey
      cases key with
      | device id =>
        have hne : id ∉ [device] := fun hmem => hkey (List.mem_singleton.mp hmem ▸ hL₂)
        exact congrArg Cell.device (lookup_updateRows_of_not_mem (f := setName name) (id_setName name) hne)
      | _ => rfl
    · exact .inr ⟨device, name, w₁.clock, hdevice, hname, .inl rfl⟩
    intro w₄ _ _ auditId _ _ w₅ _ _ correlationId _ _ w₆ _ _
    refine safe_insertAuditRow (fun x w hx => hrefused x _ w hx) fun w₇ L₇ w₈ _ _ => ?_
    refine ⟨leaves_insertAuditEvent _ _, ?_, fun _ hx => hx.elim, ?_, ?_⟩
    · intro key _
      cases key <;> rfl
    · exact .inr ⟨device, name, w₁.clock, hdevice, hname, .inr ⟨auditId, correlationId, _, rfl⟩⟩
    · refine fun w₉ _ _ => .inr ⟨fun value hv => ?_, fun hr => by simp at hr⟩
      obtain rfl := Except.ok.inj hv
      exact ⟨device, name, w₁.clock, _, rfl, rfl⟩

/-- Where the calls of the backend run inside this system. -/
abbrev finish : GuffSuff.Answer → Program := fun r => .ret (ofAnswer r)

theorem safe_updateWhere {rows : GuffSuff.Db → List Uuid} {key : Uuid → Key} {u : List Uuid → Write}
    {k : List Uuid → GuffSuff.Program}
    (h : ∀ w' L' ids, (keys w'.db.core.devices).Nodup → L ⊆ L' → management.Rely L D w w' →
      management.Safe C ((k ids).embed backendTables finish) L' D
        (fun db => backendTables.put ((u ids).apply (f db).core) (f db)) es w') :
    management.Safe C ((SessionService.updateWhere rows key u k).embed backendTables finish)
      L D f es w := by
  intro w₁ hr₁ hi₁ ids _
  dsimp only
  rw [Program.embed_lockAll]
  refine Spec.Safe.lockAll ids (fun w₂ hr₂ hi₂ L₂ _ hsub => ?_) hi₁
  exact h w₂ L₂ ids hi₂ hsub (hr₁.trans hr₂)

theorem safe_embedCheck {c : Prop} [Decidable c] {x : GuffSuff.Failure} {k : GuffSuff.Program}
    (hfail : ∀ w, C.answer (.error (.backend x)) es w)
    (hk : management.Safe C (k.embed backendTables finish) L D f es w) :
    management.Safe C ((if c then GuffSuff.throw x else k).embed backendTables finish) L D f es w := by
  split
  · exact fun v _ _ => hfail v
  · exact hk

theorem leaves_apply {u : Write} (hu : u.isRevocation = false) (db : Db) :
    db.Leaves id [] [] (backendTables.put (u.apply db.core) db) := by
  cases u with
  | revokeDevices => exact absurd hu (by simp [Write.isRevocation])
  | insertAuditEvent => exact absurd hu (by simp [Write.isRevocation])
  | _ => exact ⟨rfl, rfl, by simp [backendTables, Write.apply], (List.append_nil _).symm⟩

theorem leaves_insertAlert (e : SecurityEvent) (db : Db) :
    db.Leaves id [e] [] (backendTables.put ((Write.insertSecurityEvent e).apply db.core) db) :=
  ⟨rfl, rfl, by simp [backendTables, Write.apply], (List.append_nil _).symm⟩

/-- `safe_active` for a statement of the backend. -/
theorem safe_active_embed {k : List Uuid → GuffSuff.Program}
    (hnone : ∀ w' L', (keys w'.db.core.devices).Nodup → ¬ w'.db.registry.Active user device →
      management.Safe C ((k []).embed backendTables finish) L' D id es w')
    (hsome : ∀ w' L', (keys w'.db.core.devices).Nodup → Key.device device ∈ L' →
      (w'.db.Owned user device fun _ => True) →
        management.Safe C ((k [device]).embed backendTables finish) L' D id es w') :
    management.Safe C (Program.embed backendTables finish
      (.select (exactly (revocableDevices user device)) fun found =>
        Program.lockEach Key.device (stillRevocable user device) [] found k)) L D id es w := by
  have hsame : Program.embed backendTables finish
      (.select (exactly (revocableDevices user device)) fun found =>
        Program.lockEach Key.device (stillRevocable user device) [] found k) =
      .select (fun db => exactly (revocableDevices user device) db.core) fun found =>
        Program.lockEach Key.device (fun i db => stillRevocable user device i db.core) [] found
          fun kept => (k kept).embed backendTables finish :=
    congrArg (Program.select _) (funext fun found =>
      Program.embed_lockEach backendTables Key.device (stillRevocable user device) finish k [] found)
  rw [hsame]
  exact safe_active hnone hsome

theorem safe_revokeDevice {pf : Platform} {reason : String} (v : World Db) :
    management.Safe ((Call.backend (.revokeDevice user device reason)).contract pf v)
      (ofBackend (GuffSuff.DeviceService.revokeDevice user device reason)) [] [] id [] w := by
  have hrefused : ∀ (x : GuffSuff.Failure) (es : List Event) (w : World Db), .backend x ≠ notFound →
      ((Call.backend (.revokeDevice user device reason)).contract pf v).answer
        (.error (.backend x)) es w :=
    fun x es w hx => .inr ⟨fun _ hv => by simp at hv, fun hr => absurd (Except.error.inj hr) hx⟩
  intro w₁ _ _
  refine safe_active_embed (fun w₂ L₂ hi₂ hinactive => ?_) fun w₂ L₂ hi₂ hL₂ howned => ?_
  · intro w₃ hr₃ hi₃
    dsimp only [List.head?_nil, Option.bind_eq_bind, Option.bind_none]
    refine fun w₄ hr₄ _ => .inr ⟨fun _ hv => by simp [ofAnswer] at hv, fun _ => ⟨rfl, ?_⟩⟩
    exact inactive_rely hi₃ hr₄ (inactive_rely hi₂ hr₃ hinactive)
  obtain ⟨d, hd, hu, hr, -⟩ := howned
  intro w₃ hr₃ hi₃
  have hsame : lookup w₃.db.core.devices device = some d :=
    (Cell.device.inj (hr₃.same (.device device) hL₂)).trans hd
  have hrow : ([device].head? >>= lookup (updateRows w₃.db.core.devices [device] (Device.revoke reason w₁.clock))) =
      some (d.revoke reason w₁.clock) := by
    show lookup (updateRows w₃.db.core.devices [device] (Device.revoke reason w₁.clock)) device = _
    rw [lookup_updateRows (f := Device.revoke reason w₁.clock) (Device.id_revoke reason w₁.clock), hsame]
    simp
  have hwritten : ∀ db : Db, db.Leaves (updateRows · [device] (Device.revoke reason w₁.clock)) [] []
      (backendTables.put ((Write.revokeDevices [device] reason w₁.clock).apply db.core) db) :=
    fun db => ⟨rfl, rfl, by simp [backendTables, Write.apply], (List.append_nil _).symm⟩
  dsimp only
  split
  · rename_i hnone
    exact absurd (hrow.symm.trans hnone) (by simp)
  rename_i row hfound
  obtain rfl : d.revoke reason w₁.clock = row := Option.some.inj (hrow.symm.trans hfound)
  refine safe_updateWhere fun w₄ L₄ sessions _ hL₄ hr₄ => ?_
  refine safe_updateWhere fun w₅ L₅ families _ hL₅ hr₅ => ?_
  refine safe_updateWhere fun w₆ L₆ tokens _ hL₆ hr₆ => ?_
  intro w₇ hr₇ _ eventId _ _ w₈ hr₈ _
  iterate 3 refine safe_embedCheck (hrefused _ _ · (by simp [notFound])) ?_
  intro w₉ hr₉ _ auditId _ _ w₁₀ hr₁₀ _ correlationId _ _ w₁₁ hr₁₁ _
  refine safe_embedCheck (hrefused _ _ · (by simp [notFound])) ?_
  intro w₁₂ hr₁₂ _
  have hlock₆ : Key.device device ∈ L₆ := hL₆ (hL₅ (hL₄ hL₂))
  have howned₆ : w₆.db.Owned user device (· = d.deviceName) :=
    owned_rely (hL₅ (hL₄ hL₂)) hr₆ (owned_rely (hL₄ hL₂) hr₅ (owned_rely hL₂ hr₄ ⟨d, hsame, hu, hr, rfl⟩))
  have hlock₈ := List.mem_cons_of_mem (Key.securityEvent eventId) hlock₆
  have howned₁₁ := owned_rely hlock₈ hr₁₁ (owned_rely hlock₈ hr₁₀ (owned_rely hlock₈ hr₉
    (owned_rely hlock₆ hr₈ (owned_rely hlock₆ hr₇ howned₆))))
  have hlock₁₁ := List.mem_cons_of_mem (Key.auditEvent auditId) hlock₈
  have hleaves : w₁₂.db.Leaves (updateRows · [device] (Device.revoke reason w₁.clock)) _ _ _ :=
    ((((hwritten w₁₂.db).trans (leaves_apply (u := .revokeSessions sessions w₁.clock) rfl _)).trans
      (leaves_apply (u := .compromiseFamilies families w₁.clock) rfl _)).trans
      (leaves_apply (u := .revokeRefreshTokens tokens w₁.clock) rfl _)).trans
      ((leaves_insertAlert (GuffSuff.DeviceService.revokedEvent eventId user device d.deviceName reason
        w₁.clock) _).trans (leaves_insertAuditEvent (GuffSuff.DeviceService.revokedAudit auditId
          correlationId user device reason w₁.clock) _))
  refine ⟨⟨owned_rely hlock₁₁ hr₁₂ howned₁₁, hleaves⟩, ?_, fun _ hx => hx.elim, ?_, ?_⟩
  · intro key hkey
    cases key with
    | device id =>
      have hne : id ∉ [device] := fun hmem => hkey (List.mem_singleton.mp hmem ▸ hlock₁₁)
      exact congrArg Cell.device (lookup_updateRows_of_not_mem (f := Device.revoke reason w₁.clock)
        (Device.id_revoke reason w₁.clock) hne)
    | _ => rfl
  · exact .inr ⟨_, _, _, _, _, _, _, _, rfl⟩
  · refine fun w₁₃ _ _ => .inr ⟨fun value hv => ?_, fun hr => by simp [ofAnswer] at hr⟩
    obtain rfl := Except.ok.inj hv
    exact ⟨rfl, by simp⟩

theorem safe_backend {pf : Platform} {fk : FkCheck} {c : GuffSuff.Call} (v : World Db) :
    management.Safe ((Call.backend c).contract pf v) (ofBackend (c.program pf.services fk)) [] [] id [] w := by
  have hkeeps : c.isRevocation = false → (ofBackend (c.program pf.services fk)).Keeps (Db.Leaves id [] [])
      fun e => ∃ event, e = .backend event ∧ event.isRevocation = false := by
    intro hc
    refine Program.Keeps.embed (R := fun core core' => ∀ db : Db, db.core = core →
      db.Leaves id [] [] (backendTables.put core' db)) (fun d db h => h db rfl)
      (fun e he => ⟨e, rfl, he⟩) (fun r => ?_) (GuffSuff.Call.unrevoked ?_ (fun e he => he) pf.services fk hc)
    · trivial
    · intro u hu core db hdb
      exact hdb ▸ leaves_apply hu db
  cases c with
  | revokeDevice user device reason => exact safe_revokeDevice v
  | _ =>
    refine .of_keeps_trace management_frames (fun es hes => ?_) (fun r es w => ?_) (hkeeps rfl)
      Db.Leaves.refl (fun e he => absurd he List.not_mem_nil)
    · exact hes
    · exact .inr trivial

end

section
variable {pf : Platform} {fk : FkCheck}

theorem Call.safe (c : Call) (v w : World Db) :
    management.Safe (c.contract pf v) (c.program pf fk) [] [] id [] w := by
  cases c with
  | backend call => exact safe_backend v
  | listDevices user currentDeviceId => exact safe_listDevices v
  | renameDevice user deviceId newDeviceName => exact safe_renameDevice v

theorem Call.trace_nil (c : Call) : c.Trace pf [] := by
  cases c with
  | backend call =>
    cases call with
    | revokeDevice user device reason => exact .inl rfl
    | _ => exact fun e he => absurd he List.not_mem_nil
  | listDevices user currentDeviceId => exact .inl rfl
  | renameDevice user deviceId newDeviceName => exact .inl rfl

abbrev SoundRun (pf : Platform) (w₀ : World Db) (s : Server) : Prop :=
  ReadCommitted.Server.Sound management (Call.contract pf) w₀ s

theorem SoundRun.serve {w₀ : World Db} {s : Server} (h : SoundRun pf w₀ s) (sched : List Choice) :
    SoundRun pf w₀ (serve pf fk s sched) := by
  refine ReadCommitted.Server.Sound.run h fun ch _ => ?_
  cases ch with
  | call p c => exact fun w _ => ⟨c.trace_nil, c.safe w w⟩
  | fail p => exact fun _ _ _ _ => .inl rfl
  | _ => trivial

theorem soundRun {db : Db} {clock : Nat} (used : List Uuid) (hdb : (keys db.core.devices).Nodup)
    (sched : List Choice) : SoundRun pf ⟨clock, db⟩ (serve pf fk (.boot db clock used) sched) :=
  SoundRun.serve (ReadCommitted.Server.sound_boot hdb fun _ h => absurd h not_false) sched

end

/-- The operations on the registry, in the order in which they took effect. -/
def operations (log : List (Nat × Event)) : List Operation := log.filterMap fun x => x.2.operation

/-- However renames, revocations, listings and the other calls interleave, the devices are a
registry that is used by one caller at a time: each operation is allowed by those before it, belongs
to the call that asked for it, and is what this call answers. -/
theorem devices_linearize (pf : Platform) (fk : FkCheck) {db : Db} {clock : Nat} (used : List Uuid)
    (hdb : (keys db.core.devices).Nodup) (sched : List Choice) :
    let s := serve pf fk (.boot db clock used) sched
    registry.Legal db.registry (operations s.log) s.db.registry ∧
      ∀ p pr, s.procs p = some pr → pr.call.Trace pf (ReadCommitted.Server.eventsOf s.log p) ∧
        ∀ r, pr.Finished r → r = pr.call.aborted ∨
          pr.call.Tells pf r (ReadCommitted.Server.eventsOf s.log p) s.db.registry := by
  intro s
  have hs : SoundRun pf ⟨clock, db⟩ s := soundRun used hdb sched
  refine ⟨?_, fun p pr hp => ⟨?_, fun r hr => hs.post hp hr⟩⟩
  · have hlegal := management_shows.legal hs.path hdb
    rwa [List.filterMap_map] at hlegal
  · exact hs.events p pr hp ▸ hs.trace p pr hp

def samplePlatform : Platform where
  services := GuffSuff.samplePlatform
  uuid := fun text => if text = "4" then some 4 else none

/-- User 2 has the devices 4 and 5, seen one after the other. -/
def sampleDb : Db where
  core := GuffSuff.sampleDb
  details := fun id => ⟨"install", "android", "1.0", "14", "disabled", 0, id⟩

def sampleStart : Server := .boot sampleDb 7 []

def Choice.steps (p n : Nat) : List Choice := List.replicate n (.exec p [])

/-- A rename of device 4 overtakes its revocation, which waits for the row; then user 2 lists. -/
def sampleRevocation : List Choice :=
  [.call 0 (.renameDevice 2 "4" (some "work")), .call 1 (.backend (.revokeDevice 2 4 "lost")),
    .exec 0 [], .exec 1 [], .exec 0 [4], .exec 1 [4], .exec 0 [], .exec 1 []] ++ Choice.steps 0 2 ++
    Choice.steps 1 9 ++ [.exec 1 [10]] ++ Choice.steps 1 2 ++ [.exec 1 [11], .exec 1 [12]] ++
    Choice.steps 1 3 ++ [.call 2 (.listDevices 2 (some 5)), .exec 2 [5]]

def sampleRow : DeviceRow :=
  ⟨5, "install", "tablet", "android", "1.0", "14", "disabled", false, none, none, 0, 5⟩

theorem sampleRevocation_linearizes :
    operations (serve samplePlatform .atCommit sampleStart sampleRevocation).log =
        [.rename 2 4 "work" 7, .revoke 2 4 "lost" 7, .list 2 [sampleRow]] ∧
      registry.Legal sampleDb.registry
        (operations (serve samplePlatform .atCommit sampleStart sampleRevocation).log)
        (serve samplePlatform .atCommit sampleStart sampleRevocation).db.registry :=
  ⟨by decide +kernel, (devices_linearize samplePlatform .atCommit [] (by decide) sampleRevocation).1⟩

end Devices

end GuffSuff
