import GuffSuff.DeviceManagement
import GuffSuff.ReadCommitted.Objects
import GuffSuff.UntouchedDevices

/-! The devices as a registry that is asked and changed by one caller at a time:
who owns a device, what its row says, and that a revocation is the last word on it. -/

namespace GuffSuff

open ReadCommitted

namespace Devices

structure Entry where
  owner : Uuid
  row : DeviceRow
  deriving DecidableEq, Repr

def Entry.rename (name : String) (now : Nat) (e : Entry) : Entry :=
  { e with row := { e.row with deviceName := name, lastSeenAt := now } }

def Entry.revoke (reason : String) (now : Nat) (e : Entry) : Entry :=
  { e with row := { e.row with isRevoked := true, revokedAt := some now, revokedReason := some reason } }

abbrev Registry := Uuid → Option Entry

inductive Operation where
  | rename (user device : Uuid) (name : String) (now : Nat)
  | revoke (user device : Uuid) (reason : String) (now : Nat)
  | list (user : Uuid) (rows : List DeviceRow)
  deriving DecidableEq

namespace Registry

/-- The device belongs to the user and has not been revoked. -/
def Active (reg : Registry) (user device : Uuid) : Prop :=
  ∃ e, reg device = some e ∧ e.owner = user ∧ e.row.isRevoked = false

/-- The rows are those of the user's active devices, each once, the one seen last in front. -/
structure Lists (reg : Registry) (user : Uuid) (rows : List DeviceRow) : Prop where
  mem : ∀ row, row ∈ rows ↔
    ∃ id e, reg id = some e ∧ e.owner = user ∧ e.row.isRevoked = false ∧ e.row = row
  nodup : (rows.map DeviceRow.id).Nodup
  newest : rows.Pairwise fun a b => b.lastSeenAt ≤ a.lastSeenAt

def Allows (reg : Registry) : Operation → Prop
  | .rename user device _ _ | .revoke user device _ _ => reg.Active user device
  | .list user rows => reg.Lists user rows

def apply (reg : Registry) : Operation → Registry
  | .rename _ device name now => Function.update reg device ((reg device).map (Entry.rename name now))
  | .revoke _ device reason now => Function.update reg device ((reg device).map (Entry.revoke reason now))
  | .list .. => reg

end Registry

def registry : Object Registry Operation where
  allows := Registry.Allows
  apply := Registry.apply

def Db.registry (db : Db) : Registry := fun id =>
  (lookup db.core.devices id).map fun d => ⟨d.userId, rowOf (db.details id) d⟩

namespace Event

def operation : Event → Option Operation
  | deviceRenamed user device name now => some (.rename user device name now)
  | backend (.deviceRevoked user device reason _ _ _ _ _ _ _ now) => some (.revoke user device reason now)
  | devicesListed user rows => some (.list user rows)
  | _ => none

end Event

/-- What is left of the devices, the alerts and the audit trail: the devices as
`change` makes them, and new rows in the other two tables. -/
structure Db.Leaves (change : List Device → List Device) (alerts : List SecurityEvent)
    (audits : List AuditEvent) (db db' : Db) : Prop where
  devices : db'.core.devices = change db.core.devices
  details : db'.details = db.details
  alerts : db.core.securityEvents ++ alerts ⊆ db'.core.securityEvents
  audits : db'.core.auditEvents = db.core.auditEvents ++ audits

def Db.Owned (db : Db) (user device : Uuid) (name : String → Prop) : Prop :=
  ∃ d, lookup db.core.devices device = some d ∧ d.userId = user ∧ d.isRevoked = false ∧ name d.deviceName

def Event.Moves (db db' : Db) : Event → Prop
  | deviceRenamed user device name now =>
    db.Owned user device (fun _ => True) ∧ db' = db.renameDevices [device] name now
  | backend (.deviceRevoked user device reason name _ _ _ eventId auditId correlationId now) =>
    db.Owned user device (· = name) ∧
      db.Leaves (updateRows · [device] (Device.revoke reason now))
        [GuffSuff.DeviceService.revokedEvent eventId user device name reason now]
        [GuffSuff.DeviceService.revokedAudit auditId correlationId user device reason now] db'
  | renameAudited row => db.Leaves id [] [row] db'
  | devicesListed user rows => db' = db ∧ db.registry.Lists user rows
  | backend _ => db.Leaves id [] [] db'

section
variable {db db' : Db} {user device : Uuid}

theorem Db.Leaves.refl (db : Db) : db.Leaves id [] [] db :=
  ⟨rfl, rfl, by simp, by simp⟩

theorem Db.Leaves.trans {change change' : List Device → List Device} {al al' : List SecurityEvent}
    {au au' : List AuditEvent} {a b c : Db} (h : a.Leaves change al au b)
    (h' : b.Leaves change' al' au' c) :
    a.Leaves (fun ds => change' (change ds)) (al ++ al') (au ++ au') c where
  devices := by rw [h'.devices, h.devices]
  details := h'.details.trans h.details
  alerts := by
    rw [← List.append_assoc]
    exact List.Subset.trans (List.append_subset.mpr ⟨List.Subset.trans h.alerts
      (List.subset_append_left _ _), List.subset_append_right _ _⟩) h'.alerts
  audits := by rw [h'.audits, h.audits, List.append_assoc]

theorem Db.Leaves.registry {al : List SecurityEvent} {au : List AuditEvent}
    (h : db.Leaves id al au db') : db'.registry = db.registry := by
  have hd : db'.core.devices = db.core.devices := h.devices
  funext id
  simp only [Db.registry, hd, h.details]

theorem Db.owned_iff_active :
    db.Owned user device (fun _ => True) ↔ db.registry.Active user device := by
  simp only [Db.Owned, Registry.Active, Db.registry, Option.map_eq_some_iff, and_true]
  constructor
  · intro h
    obtain ⟨d, hd, hu, hr⟩ := h
    exact ⟨_, ⟨d, hd, rfl⟩, hu, hr⟩
  · intro h
    obtain ⟨_, ⟨d, hd, rfl⟩, hu, hr⟩ := h
    exact ⟨d, hd, hu, hr⟩

theorem Db.Owned.active {name : String → Prop} (h : db.Owned user device name) :
    db.registry.Active user device := by
  obtain ⟨d, hd, hu, hr, _⟩ := h
  exact Db.owned_iff_active.mp ⟨d, hd, hu, hr, trivial⟩

theorem Db.registry_renameDevices (name : String) (now : Nat) :
    (db.renameDevices [device] name now).registry =
      Function.update db.registry device ((db.registry device).map (Entry.rename name now)) := by
  funext id
  by_cases h : id = device
  · subst h
    rw [Function.update_self]
    simp only [Db.registry, Db.renameDevices]
    rw [lookup_updateRows (f := setName name) (id_setName name)]
    cases lookup db.core.devices id <;> simp [Entry.rename, rowOf, setName]
  · rw [Function.update_of_ne h]
    simp only [Db.registry, Db.renameDevices]
    rw [lookup_updateRows_of_not_mem (f := setName name) (id_setName name) (by simpa using h)]
    simp [h]

theorem Db.Leaves.registry_revoke {reason : String} {now : Nat} {al : List SecurityEvent}
    {au : List AuditEvent} (h : db.Leaves (updateRows · [device] (Device.revoke reason now)) al au db') :
    db'.registry =
      Function.update db.registry device ((db.registry device).map (Entry.revoke reason now)) := by
  funext id
  simp only [Db.registry, h.devices, h.details]
  by_cases heq : id = device
  · subst heq
    rw [Function.update_self, lookup_updateRows (f := Device.revoke reason now) (Device.id_revoke reason now)]
    cases lookup db.core.devices id <;> simp [Entry.revoke, rowOf, Device.revoke]
  · rw [Function.update_of_ne heq, lookup_updateRows_of_not_mem (f := Device.revoke reason now)
      (Device.id_revoke reason now) (by simpa using heq)]
    rfl

end

inductive Cell where
  | device (d : Option Device)
  | other

def Db.cell : Key → Db → Cell
  | .device id, db => .device (lookup db.core.devices id)
  | _, _ => .other

theorem Event.devices_keys {db db' : Db} {e : Event} (h : e.Moves db db') :
    keys db'.core.devices = keys db.core.devices := by
  cases e with
  | deviceRenamed user device name now =>
    obtain ⟨-, rfl⟩ := h
    exact keys_updateRows db.core.devices [device] (f := setName name) (id_setName name)
  | renameAudited row => exact congrArg keys h.devices
  | devicesListed user rows => rw [h.1]
  | backend event =>
    cases event with
    | deviceRevoked user device reason name sessions families tokens eventId auditId correlationId now =>
      rw [h.2.devices]
      exact keys_updateRows db.core.devices [device] (f := Device.revoke reason now) (Device.id_revoke reason now)
    | _ => exact congrArg keys h.devices

def management : Spec Db Key Uuid Event Cell where
  moves _ db e db' := e.Moves db db'
  holds _ db := (keys db.core.devices).Nodup
  cell := Db.cell
  has _ _ := False
  holds_move := fun h hm => (Event.devices_keys hm) ▸ h
  holds_tick := fun h _ => h

theorem management_shows : management.Shows registry Db.registry Event.operation where
  silent := by
    intro _ db e db' _ h hop
    cases e with
    | deviceRenamed user device name now => exact absurd hop (by simp [Event.operation])
    | renameAudited row => exact h.registry
    | devicesListed user rows => exact absurd hop (by simp [Event.operation])
    | backend event =>
      cases event with
      | deviceRevoked => exact absurd hop (by simp [Event.operation])
      | _ => exact h.registry
  acts := by
    intro _ db e db' op _ h hop
    cases e with
    | deviceRenamed user device name now =>
      obtain ⟨howned, rfl⟩ := h
      obtain rfl := Option.some.inj hop
      exact ⟨howned.active, Db.registry_renameDevices name now⟩
    | renameAudited row => exact absurd hop (by simp [Event.operation])
    | devicesListed user rows =>
      obtain ⟨rfl, hlists⟩ := h
      obtain rfl := Option.some.inj hop
      exact ⟨hlists, rfl⟩
    | backend event =>
      cases event with
      | deviceRevoked =>
        obtain ⟨howned, hleaves⟩ := h
        obtain rfl := Option.some.inj hop
        exact ⟨howned.active, hleaves.registry_revoke⟩
      | _ => exact absurd hop (by simp [Event.operation])

theorem management_frames :
    management.Frames (Db.Leaves id [] []) fun e => ∃ event, e = .backend event ∧ event.isRevocation = false where
  refl := Db.Leaves.refl
  trans := fun h h' => h.trans h'
  moves := by
    intro _ db e db' he h
    obtain ⟨event, rfl, hevent⟩ := he
    cases event with
    | deviceRevoked => exact absurd hevent (by simp [GuffSuff.Event.isRevocation])
    | _ => exact h
  cell := by
    intro k db db' h
    cases k with
    | device id => exact congrArg (fun ds => Cell.device (lookup ds id)) h.devices
    | _ => rfl
  has := fun _ _ _ _ h => h

end Devices

end GuffSuff
