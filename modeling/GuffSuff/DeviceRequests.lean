import GuffSuff.DeviceHistory
import GuffSuff.ReadCommitted.Gates
import GuffSuff.SessionHistory

/-! The guarded handlers of `AuthController` and `DevicesController`: requests
with any header, and what they change once `JwtAuthGuard` has let them pass. -/

namespace GuffSuff

open ReadCommitted JwtAuthGuard

namespace Devices

namespace AuthController

def refreshToken (refreshToken : RawToken) : Call := .backend (.rotateRefreshToken refreshToken)

def logout (user : RequestUser) : Call := .backend (.revokeSession user.sessionId)

def logoutAll (user : RequestUser) : Call := .backend (.revokeAllSessionsForUser user.userId)

end AuthController

namespace DevicesController

def defaultReason : String := "user_requested"

def listDevices (user : RequestUser) : Call := .listDevices user.userId (some user.deviceId)

def renameDevice (user : RequestUser) (deviceId : String) (deviceName : Option String) : Call :=
  .renameDevice user.userId deviceId deviceName

/-- The `UPDATE` of the service fails on an id that is no uuid. -/
def revokeDevice (pf : Platform) (user : RequestUser) (deviceId : String) : Except Answer Call :=
  match pf.uuid deviceId with
  | none => .error (.error (.backend (.dataException "uuid")))
  | some device => .ok (.backend (.revokeDevice user.userId device defaultReason))

end DevicesController

inductive Action where
  | logout
  | logoutAll
  | listDevices
  | renameDevice (deviceId : String) (deviceName : Option String)
  | revokeDevice (deviceId : String)
  deriving DecidableEq

def Action.call (pf : Platform) (user : RequestUser) : Action → Except Answer Call
  | logout => .ok (AuthController.logout user)
  | logoutAll => .ok (AuthController.logoutAll user)
  | listDevices => .ok (DevicesController.listDevices user)
  | renameDevice deviceId deviceName => .ok (DevicesController.renameDevice user deviceId deviceName)
  | revokeDevice deviceId => DevicesController.revokeDevice pf user deviceId

namespace Event

def actor : Event → Option Actor
  | backend event => event.actor
  | deviceRenamed user .. | devicesListed user _ => some (.user user)
  | renameAudited row => some (.user row.actorId)

/-- What the entry leaves of the tables of the backend. -/
def effect (pf : Platform) : Event → GuffSuff.Db → GuffSuff.Db
  | backend event, db => applyAll (event.writes pf.services) db
  | deviceRenamed _ device name _, db => { db with devices := updateRows db.devices [device] (setName name) }
  | renameAudited row, db => { db with auditEvents := db.auditEvents ++ [row] }
  | devicesListed .., db => db

def backend? : Event → Option GuffSuff.Event
  | backend event => some event
  | _ => none

end Event

def Call.actor : Call → Option Actor
  | backend call => call.actor
  | listDevices user _ | renameDevice user .. => some (.user user)

/-- A request of a client, or a call that another part of the backend makes for nobody: registration
logs in, the transport stores and delivers, the worker runs. -/
inductive Request where
  | refresh (refreshToken : RawToken)
  | guarded (authHeader : Option (List Char)) (action : Action)
  | other (call : GuffSuff.Call) (h : call.actor = none)

namespace Request

/-- `JwtAuthGuard`, and the call that the handler makes for the user it attaches. -/
def check (pf : Platform) (authHeader : Option (List Char)) (action : Action) (now : Nat) (db : Db) :
    Except Answer Call :=
  match canActivate pf.services db.core now authHeader with
  | .error failure => .error (.error (.backend failure))
  | .ok user => action.call pf user

/-- The guard reads the clock when it verifies the token, and then the database. -/
def gate (pf : Platform) : Request → Gate Db Call Answer
  | refresh refreshToken => .free (AuthController.refreshToken refreshToken)
  | guarded authHeader action => .guarded (check pf authHeader action)
  | other call _ => .free (.backend call)

/-- The answer of a fault. One of the guard's own query reads in fact like its refusals. -/
def aborted : Request → Answer
  | refresh refreshToken => (AuthController.refreshToken refreshToken).aborted
  | other call _ => (Call.backend call).aborted
  | guarded .. => .error (.backend .database)

end Request

abbrev RequestServer := ReadCommitted.Server Db Key Uuid Event Answer Request

def handle (pf : Platform) (fk : FkCheck) (s : RequestServer)
    (sched : List (ReadCommitted.Choice Uuid Request)) : RequestServer :=
  ReadCommitted.Server.requests (Request.gate pf) (Call.program pf fk) Request.aborted s sched

abbrev Publishes (pf : Platform) (a : Option Actor) (f : Db → Db) (p : Program) : Prop :=
  ReadCommitted.Program.Publishes Db.core (Event.effect pf) (fun e => e.actor = a) f p

section
variable {pf : Platform} {fk : FkCheck} {user : Uuid}

open Devices.DeviceService (notFound)
open GuffSuff.DeviceService (revocableDevices)

theorem publishes_refused {a : Option Actor} {f : Db → Db} {x : Failure} :
    Publishes pf a f (throw x) := trivial

theorem publishes_auditRename {device : Uuid} {deviceId newDeviceName : String} {k : Program}
    (hk : Publishes pf (some (.user user)) id k) :
    Publishes pf (some (.user user)) id (DeviceService.auditRename user device deviceId newDeviceName k) := by
  intro auditId correlationId now db
  dsimp only
  split
  · exact publishes_refused
  · exact ⟨rfl, fun _ => rfl, hk⟩

theorem publishes_updateName {device : Uuid} {deviceName : Option String} {k : Uuid → String → Program}
    (hk : ∀ i name, Publishes pf (some (.user user)) id (k i name)) :
    Publishes pf (some (.user user)) id (DeviceService.updateName user device deviceName k) := by
  intro now db found hfound
  refine Program.publishes_lockEach found [] fun updated hsub => ?_
  cases updated with
  | nil => exact publishes_refused
  | cons i is =>
    have hall : ∀ id ∈ i :: is, id = device := fun id hid => eq_of_revocable hfound (hsub.subset hid)
    cases deviceName with
    | none => exact publishes_refused
    | some name =>
      refine ⟨rfl, fun db => ?_, hk i name⟩
      have hrows := updateRows_of_forall_eq (List.cons_ne_nil i is) hall db.core.devices (setName name)
      show { db.core with devices := updateRows db.core.devices (i :: is) (setName name) } = _
      rw [hrows]
      rfl

theorem publishes_renameDevice (deviceId : String) (newDeviceName : Option String) :
    Publishes pf (some (.user user)) id (DeviceService.renameDevice pf user deviceId newDeviceName) := by
  unfold DeviceService.renameDevice
  split
  · exact publishes_refused
  split
  · exact publishes_refused
  · exact publishes_refused
  · refine publishes_updateName fun i name => publishes_auditRename ?_
    trivial

theorem Call.publishes (pf : Platform) (fk : FkCheck) (c : Call) :
    Publishes pf c.actor id (c.program pf fk) := by
  cases c with
  | backend call =>
    show Publishes pf call.actor id ((call.program pf.services fk).embed backendTables finish)
    apply (call.publishes pf.services fk).embed
    case hE => exact fun _ he => he
    case hq => exact fun _ _ => trivial
    all_goals intros; rfl
  | listDevices user currentDeviceId => exact fun db ids _ => ⟨rfl, fun _ => rfl, trivial⟩
  | renameDevice user deviceId newDeviceName => exact publishes_renameDevice deviceId newDeviceName

theorem Request.check_ok {authHeader : Option (List Char)} {action : Action} {now : Nat} {db : Db} {c : Call}
    (h : Request.check pf authHeader action now db = .ok c) :
    ∃ user, canActivate pf.services db.core now authHeader = .ok user ∧ action.call pf user = .ok c := by
  unfold Request.check at h
  split at h
  · exact absurd h (by simp)
  · rename_i user hpass
    exact ⟨user, hpass, h⟩

/-- A handler makes one call, for the user that the guard has attached. -/
theorem Action.call_ok {user : RequestUser} {action : Action} {c : Call} (h : action.call pf user = .ok c) :
    c.aborted = .error (.backend .database) ∧ ∃ a, c.actor = some a ∧ a.Is user := by
  cases action with
  | revokeDevice deviceId =>
    simp only [Action.call, DevicesController.revokeDevice] at h
    split at h
    · exact absurd h (by simp)
    · exact Except.ok.inj h ▸ ⟨rfl, _, rfl, rfl⟩
  | _ => exact Except.ok.inj h ▸ ⟨rfl, _, rfl, rfl⟩

theorem Request.aborted_opens (q : Request) (c : Call) (h : (q.gate pf).Opens c) : q.aborted = c.aborted := by
  cases q with
  | refresh refreshToken => exact h ▸ rfl
  | other call hcall => exact h ▸ rfl
  | guarded authHeader action =>
    obtain ⟨now, db, hc⟩ := h
    obtain ⟨user, _, hcall⟩ := Request.check_ok hc
    exact (Action.call_ok hcall).1.symm

end

def Operation.user : Operation → Uuid
  | rename user .. | revoke user .. | list user _ => user

section
variable {v w : World Db} {es : List Event} {reg reg' : Registry} {device : Uuid} {op : Operation}

theorem Registry.owner_apply (reg : Registry) (op : Operation) (device : Uuid) :
    ((reg.apply op) device).map Entry.owner = (reg device).map Entry.owner := by
  have hupdate : ∀ {f : Entry → Entry} {d : Uuid}, (∀ e, (f e).owner = e.owner) →
      (Function.update reg d ((reg d).map f) device).map Entry.owner = (reg device).map Entry.owner := by
    intro f d hf
    by_cases hd : device = d
    · subst hd
      cases reg device <;> simp [hf]
    · rw [Function.update_of_ne hd]
  cases op with
  | rename user d name now => exact hupdate fun _ => rfl
  | revoke user d reason now => exact hupdate fun _ => rfl
  | list user rows => rfl

/-- What an operation concerns belongs to the user it is made for, then and ever after. -/
theorem owner_of_path (h : management.Path v es w) (hv : (keys v.db.core.devices).Nodup) {e : Event}
    (he : e ∈ es) (hop : e.operation = some op) (hconcerns : op.Concerns device) :
    (w.db.registry device).map Entry.owner = some op.user := by
  obtain ⟨pre, post, rfl⟩ := List.append_of_mem he
  obtain ⟨c, d, d', hpre, hmove, hpost⟩ := h.cut
  have hd : (keys d.core.devices).Nodup := hpre.holds (S := management) hv
  have hd' : (keys d'.core.devices).Nodup := Event.devices_keys hmove ▸ hd
  obtain ⟨hallowed, hleft⟩ := management_shows.acts hd hmove hop
  have hlater : (w.db.registry device).map Entry.owner = (d'.registry device).map Entry.owner :=
    (management_shows.legal hpost hd').keeps
      (P := fun reg => (reg device).map Entry.owner = (d'.registry device).map Entry.owner)
      (fun reg op hreg _ => (reg.owner_apply op device).trans hreg) rfl
  have hthen : (d'.registry device).map Entry.owner = (d.registry device).map Entry.owner := by
    rw [hleft]
    exact d.registry.owner_apply op device
  rw [hlater, hthen]
  cases op with
  | rename user device' name now | revoke user device' reason now =>
    obtain rfl : device' = device := hconcerns
    obtain ⟨entry, hentry, howner, _⟩ := hallowed
    rw [hentry]
    exact congrArg some howner
  | list user rows =>
    obtain ⟨row, hrow, hid⟩ := List.mem_map.mp hconcerns
    obtain ⟨id, entry, hentry, howner, _, rfl⟩ := (hallowed.mem row).mp hrow
    obtain rfl : id = device := (d.registry_ids hentry).symm.trans hid
    rw [hentry]
    exact congrArg some howner

end

theorem Event.actor_of_operation {e : Event} {op : Operation} (h : e.operation = some op) :
    e.actor = some (.user op.user) := by
  cases e with
  | backend event =>
    cases event with
    | deviceRevoked => exact Option.some.inj h ▸ rfl
    | _ => exact absurd h (by simp [Event.operation])
  | renameAudited row => exact absurd h (by simp [Event.operation])
  | _ => exact Option.some.inj h ▸ rfl

/-- The history of the sessions and devices of the backend. -/
def logins (log : List (Nat × Event)) : List GuffSuff.Event := log.filterMap fun x => x.2.backend?

/-- The guard lets the request of process `p` pass for a user who is logged in by the log, with a
time that it has read since the request came; the process has recorded nothing yet. -/
structure Passes (pf : Platform) (s : RequestServer) (p : Nat) (authHeader : Option (List Char))
    (action : Action) (user : RequestUser) : Prop where
  accepted : ∃ pr now, s.procs p = some pr ∧ pr.call = .guarded authHeader action ∧ pr.began.clock ≤ now ∧
    now ≤ s.clock ∧ canActivate pf.services s.db.core now authHeader = .ok user
  live : LiveIn (logins s.log) user
  unrecorded : ∀ e, (p, e) ∉ s.log

/-- The entry is one of those that the action records for the user. -/
def Action.Records (pf : Platform) (user : RequestUser) (action : Action) (e : Event) : Prop :=
  ∃ c es, action.call pf user = .ok c ∧ c.Trace pf es ∧ e ∈ es

section
variable {pf : Platform} {fk : FkCheck} {db : Db} {clock : Nat} {used : List Uuid} {user : RequestUser}

variable (pf) in
theorem Event.liveSessions_effect (e : Event) (core : GuffSuff.Db) :
    (e.effect pf core).liveSessions =
      e.backend?.toList.foldl GuffSuff.Event.keepSessions core.liveSessions := by
  cases e with
  | backend event => exact event.liveSessions_writes pf.services core
  | _ => rfl

variable (pf) in
theorem Event.activeDevices_effect (e : Event) (core : GuffSuff.Db) :
    (e.effect pf core).activeDevices =
      e.backend?.toList.foldl GuffSuff.Event.keepDevices core.activeDevices := by
  cases e with
  | backend event => exact event.activeDevices_writes pf.services core
  | deviceRenamed user device name now =>
    have hkept := filter_updateRows core.devices [device] (setName name) (p := fun d => !d.isRevoked)
      fun _ => rfl
    simp only [Event.effect, GuffSuff.Db.activeDevices, hkept]
    exact map_updateRows _ _ _ fun _ => rfl
  | _ => rfl

theorem replays_logins (log : List (Nat × Event)) (core : GuffSuff.Db) :
    (ReadCommitted.Server.replay (Event.effect pf) log core).liveSessions =
        (logins log).foldl GuffSuff.Event.keepSessions core.liveSessions ∧
      (ReadCommitted.Server.replay (Event.effect pf) log core).activeDevices =
        (logins log).foldl GuffSuff.Event.keepDevices core.activeDevices := by
  induction log generalizing core with
  | nil => exact ⟨rfl, rfl⟩
  | cons x log ih =>
    obtain ⟨hsessions, hdevices⟩ := ih (x.2.effect pf core)
    have hlogins : logins (x :: log) = x.2.backend?.toList ++ logins log := by
      cases hx : x.2.backend? <;> simp [logins, hx]
    rw [hlogins, List.foldl_append, List.foldl_append, ← x.2.liveSessions_effect pf,
      ← x.2.activeDevices_effect pf]
    exact ⟨hsessions, hdevices⟩

/-- Whom the guard lets pass has a login in the log, and no revocation after it. -/
theorem liveIn_of_canActivate (hnone : db.core.sessions = [])
    (sched : List (ReadCommitted.Choice Uuid Request)) {now : Nat} {authHeader : Option (List Char)}
    (h : canActivate pf.services (handle pf fk (.boot db clock used) sched).db.core now authHeader =
      .ok user) : LiveIn (logins (handle pf fk (.boot db clock used) sched).log) user := by
  have hreplay : (handle pf fk (.boot db clock used) sched).db.core = ReadCommitted.Server.replay
      (Event.effect pf) (handle pf fk (.boot db clock used) sched).log db.core :=
    ReadCommitted.Server.requests_hold (P := fun d log =>
      d.core = ReadCommitted.Server.replay (Event.effect pf) log db.core)
      (fun calls => ReadCommitted.Server.replays (Call.publishes pf fk) db clock used calls)
      Request.aborted_opens sched
  obtain ⟨payload, _, hcheck⟩ := canActivate_iff.mp h
  obtain ⟨⟨r, hr, hrevoked, hfor, _⟩, hdevice, _⟩ := lets_of_checkSession hcheck
  obtain ⟨hsessions, hdevices⟩ :=
    @replays_logins pf (handle pf fk (.boot db clock used) sched).log db.core
  have hfirst : db.core.liveSessions = [] := by simp [GuffSuff.Db.liveSessions, hnone]
  rw [← hreplay, hfirst] at hsessions
  rw [← hreplay] at hdevices
  have hlive := GuffSuff.Db.mem_liveSessions.mpr ⟨r, hr, hrevoked, hfor⟩
  exact ((liveIn_iff user _ db.core.activeDevices).mp ⟨hsessions ▸ hlive, hdevices ▸ hdevice⟩).1

/-- An entry that acts for somebody is one of a guarded request. -/
theorem passes_of_log (hdb : (keys db.core.devices).Nodup) (hnone : db.core.sessions = [])
    (sched : List (ReadCommitted.Choice Uuid Request)) {p : Nat} {e : Event} {a : Actor}
    (he : (p, e) ∈ (handle pf fk (.boot db clock used) sched).log) (ha : e.actor = some a) :
    ∃ first rest authHeader action user, sched = first ++ rest ∧ a.Is user ∧ action.Records pf user e ∧
      Passes pf (handle pf fk (.boot db clock used) first) p authHeader action user := by
  have hlog : ∀ calls p e, (p, e) ∈ (serve pf fk (.boot db clock used) calls).log →
      ∃ pr, (serve pf fk (.boot db clock used) calls).procs p = some pr ∧
        e.actor = pr.call.actor ∧ ∃ es, pr.call.Trace pf es ∧ e ∈ es := by
    intro calls p e hmem
    have hs : SoundRun pf ⟨clock, db⟩ (serve pf fk (.boot db clock used) calls) := soundRun used hdb calls
    obtain ⟨pr, hp, htrace⟩ := hs.trace_of_log hmem
    obtain ⟨pr', hp', hactor⟩ :=
      ReadCommitted.Server.log_publishes (Call.publishes pf fk) db clock used calls hmem
    obtain rfl := Option.some.inj (hp'.symm.trans hp)
    exact ⟨pr', hp, hactor, _, htrace, ReadCommitted.Server.mem_eventsOf.mpr hmem⟩
  obtain ⟨pr, c, _, ⟨hactor, es, htrace, hes⟩, hpassed⟩ := ReadCommitted.Server.request_of_log
    (E := fun c e => e.actor = c.actor ∧ ∃ es, c.Trace pf es ∧ e ∈ es) hlog Request.aborted_opens sched he
  rw [ha] at hactor
  cases hq : pr.call with
  | refresh refreshToken =>
    rw [hq] at hpassed
    obtain rfl : c = AuthController.refreshToken refreshToken := hpassed
    exact absurd hactor (by simp [AuthController.refreshToken, Call.actor, GuffSuff.Call.actor])
  | other call hcall =>
    rw [hq] at hpassed
    obtain rfl : c = .backend call := hpassed
    exact absurd (hactor.trans hcall) (by simp)
  | guarded authHeader action =>
    rw [hq] at hpassed
    obtain ⟨first, rest, now, pr', hsched, hp', hq', hbegan, hnow, hok, hnew⟩ := hpassed
    obtain ⟨user, hpass, hcall⟩ := Request.check_ok hok
    obtain ⟨_, a', ha', his⟩ := Action.call_ok hcall
    obtain rfl := Option.some.inj (hactor.trans ha')
    exact ⟨first, rest, authHeader, action, user, hsched, his, ⟨c, es, hcall, htrace, hes⟩,
      ⟨pr', now, hp', hq', hbegan, hnow, hpass⟩, liveIn_of_canActivate hnone first hpass, hnew⟩

theorem owner_of_log (hdb : (keys db.core.devices).Nodup) (sched : List (ReadCommitted.Choice Uuid Request))
    {p : Nat} {e : Event} (he : (p, e) ∈ (handle pf fk (.boot db clock used) sched).log) {op : Operation}
    (hop : e.operation = some op) {device : Uuid} (hconcerns : op.Concerns device) :
    ((handle pf fk (.boot db clock used) sched).db.registry device).map Entry.owner = some op.user := by
  refine ReadCommitted.Server.requests_hold (P := fun d log => (p, e) ∈ log →
    (d.registry device).map Entry.owner = some op.user) (fun calls hmem => ?_) Request.aborted_opens sched he
  have hs : SoundRun pf ⟨clock, db⟩ (serve pf fk (.boot db clock used) calls) := soundRun used hdb calls
  exact owner_of_path hs.path hdb (List.mem_map_of_mem (f := Prod.snd) hmem) hop hconcerns

end

/-- In every run of requests with any headers, whoever ends sessions, revokes or renames a device or
sees a list of devices was logged in when the guard let that very request pass, and the devices are the
user's own; only a theft that is detected acts for nobody. -/
theorem changes_authorised (pf : Platform) (fk : FkCheck) {db : Db} {clock : Nat} (used : List Uuid)
    (hdb : (keys db.core.devices).Nodup) (hnone : db.core.sessions = [])
    (sched : List (ReadCommitted.Choice Uuid Request)) {p : Nat} {e : Event} {a : Actor} :
    let s := handle pf fk (.boot db clock used) sched
    (p, e) ∈ s.log → e.actor = some a → ∃ first rest authHeader action user, sched = first ++ rest ∧
      Passes pf (handle pf fk (.boot db clock used) first) p authHeader action user ∧
      action.Records pf user e ∧ a.Is user ∧
      ∀ op device, e.operation = some op → op.Concerns device →
        (s.db.registry device).map Entry.owner = some user.userId := by
  intro s he ha
  obtain ⟨first, rest, authHeader, action, user, hsched, his, hrecords, hpass⟩ :=
    passes_of_log hdb hnone sched he ha
  refine ⟨first, rest, authHeader, action, user, hsched, hpass, hrecords, his, fun op device hop hc => ?_⟩
  have hactor := e.actor_of_operation hop
  obtain rfl := Option.some.inj (ha.symm.trans hactor)
  have huser : op.user = user.userId := his
  rw [← huser]
  exact owner_of_log hdb sched he hop hc

/-- User 2 logs in on device 4 and renames it. -/
def sampleUser : RequestUser := ⟨2, 4, 10⟩

def sampleHeader : Option (List Char) :=
  some (bearer ++ SessionService.generateAccessToken GuffSuff.samplePlatform sampleUser.claims 7)

def sampleRequests : List (ReadCommitted.Choice Uuid Request) :=
  [.call 0 (.other (.createSession 2 4) rfl), .exec 0 [10], .exec 0 [11]] ++ List.replicate 5 (.exec 0 []) ++
    [.exec 0 [12], .exec 0 [13]] ++ List.replicate 5 (.exec 0 []) ++
    [.call 1 (.guarded sampleHeader (.renameDevice "4" (some "work")))] ++ List.replicate 3 (.exec 1 []) ++
    [.exec 1 [4]] ++ List.replicate 3 (.exec 1 [])

theorem sampleRequests_authorised :
    ∃ first rest authHeader action user, sampleRequests = first ++ rest ∧
      Passes samplePlatform (handle samplePlatform .atCommit (.boot sampleDb 7 []) first) 1 authHeader action
        user ∧ user.userId = 2 ∧
      ((handle samplePlatform .atCommit (.boot sampleDb 7 []) sampleRequests).db.registry 4).map Entry.owner =
        some user.userId := by
  obtain ⟨first, rest, authHeader, action, user, hsched, hpass, _, his, howner⟩ :=
    @changes_authorised samplePlatform .atCommit sampleDb 7 [] (by decide) rfl sampleRequests 1
      (.deviceRenamed 2 4 "work" 7) (.user 2) (by decide +kernel) rfl
  exact ⟨first, rest, authHeader, action, user, hsched, hpass, his.symm,
    howner (.rename 2 4 "work" 7) 4 rfl rfl⟩

end Devices

end GuffSuff
