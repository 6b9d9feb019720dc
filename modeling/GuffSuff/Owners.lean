import GuffSuff.Services

/-! Sessions and token families belong to the owner of their device: the
registration, which alone creates sessions, logs in the device it has stored. -/

namespace GuffSuff

open ReadCommitted

/-- The device, if there is one, belongs to the user. -/
def Db.Owns (db : Db) (user device : Uuid) : Prop := ∀ d ∈ db.devices, d.id = device → d.userId = user

structure Db.Owned (db : Db) : Prop where
  sessions : ∀ s ∈ db.sessions, db.Owns s.userId s.deviceId
  families : ∀ f ∈ db.refreshTokenFamilies, db.Owns f.userId f.deviceId

def Call.LogsInOwner (db : Db) : Call → Prop
  | createSession user device => db.Owns user device
  | _ => True

def Event.LogsInOwner (db : Db) : Event → Prop
  | sessionCreated _ user device .. => db.Owns user device
  | _ => True

def Write.LogsInOwner (db : Db) : Write → Prop
  | insertSession s => db.Owns s.userId s.deviceId
  | insertRefreshTokenFamily f => db.Owns f.userId f.deviceId
  | _ => True

section
variable {pf : Platform} {fk : FkCheck} {db : Db} {user device : Uuid}

theorem Db.Owns.apply (h : db.Owns user device) (w : Write) : (w.apply db).Owns user device := by
  cases w with
  | revokeDevices ids reason now =>
    intro d' hd' hid
    obtain ⟨d, hd, rfl⟩ := mem_updateRows.mp hd'
    have hsame : ∀ c : Prop, [Decidable c] → (if c then d.revoke reason now else d).id = d.id ∧
        (if c then d.revoke reason now else d).userId = d.userId := by
      intro c _
      split <;> exact ⟨rfl, rfl⟩
    rw [(hsame _).1] at hid
    rw [(hsame _).2]
    exact h d hd hid
  | _ => exact h

theorem Db.Owned.apply (h : db.Owned) {w : Write} (hw : w.LogsInOwner db) : (w.apply db).Owned := by
  have hkept : ∀ {user device : Uuid}, db.Owns user device → (w.apply db).Owns user device :=
    fun ho => ho.apply w
  cases w with
  | insertSession s =>
    refine ⟨fun s' hs' => ?_, h.families⟩
    rcases List.mem_append.mp hs' with hs' | hs'
    · exact h.sessions s' hs'
    · obtain rfl := List.mem_singleton.mp hs'
      exact hw
  | insertRefreshTokenFamily f =>
    refine ⟨h.sessions, fun f' hf' => ?_⟩
    rcases List.mem_append.mp hf' with hf' | hf'
    · exact h.families f' hf'
    · obtain rfl := List.mem_singleton.mp hf'
      exact hw
  | revokeSessions ids now =>
    refine ⟨fun s' hs' => ?_, h.families⟩
    obtain ⟨s, hs, rfl⟩ := mem_updateRows.mp hs'
    split <;> exact h.sessions s hs
  | compromiseFamilies ids now =>
    refine ⟨h.sessions, fun f' hf' => ?_⟩
    obtain ⟨f, hf, rfl⟩ := mem_updateRows.mp hf'
    split <;> exact h.families f hf
  | revokeDevices ids reason now =>
    exact ⟨fun s hs => hkept (h.sessions s hs), fun f hf => hkept (h.families f hf)⟩
  | _ => exact ⟨h.sessions, h.families⟩

theorem Db.Owned.applyAll (h : db.Owned) {ws : List Write} (hws : ∀ w ∈ ws, w.LogsInOwner db) :
    (applyAll ws db).Owned := by
  induction ws generalizing db with
  | nil => exact h
  | cons w ws ih =>
    refine ih (h.apply (hws w List.mem_cons_self)) fun v hv => ?_
    have hold := hws v (List.mem_cons_of_mem w hv)
    cases v with
    | insertSession s => exact Db.Owns.apply hold w
    | insertRefreshTokenFamily f => exact Db.Owns.apply hold w
    | _ => trivial

theorem Event.writes_logIn {e : Event} (h : e.LogsInOwner db) : ∀ w ∈ e.writes pf, w.LogsInOwner db := by
  cases e with
  | sessionCreated raw user device session family token now =>
    simp only [Event.writes, List.forall_mem_cons, List.not_mem_nil, false_implies, implies_true, and_true]
    exact ⟨h, h, trivial⟩
  | envelopeSubmitted envelope record recipients =>
    simp only [Event.writes, List.forall_mem_cons, List.forall_mem_map]
    exact ⟨trivial, trivial, fun _ _ => trivial⟩
  | _ => simp [Event.writes, Write.LogsInOwner]

theorem owned_of_path {v w : World Db} {es : List Event} (h : (backend pf).Path v es w)
    (hes : ∀ e ∈ es, e.LogsInOwner v.db) (hv : v.db.Holds) (hdb : v.db.Owned) : w.db.Owned := by
  suffices hw : w.db.Owned ∧ ∀ user device, v.db.Owns user device → w.db.Owns user device from hw.1
  refine h.keeps_of_mem (P := fun _ db => db.Owned ∧
    ∀ user device, v.db.Owns user device → db.Owns user device) ?_ ?_ hv ⟨hdb, fun _ _ h => h⟩
  · exact fun _ _ _ hp _ => hp
  · intro c db e db' he _ hp hm
    obtain ⟨_, rfl⟩ := hm
    obtain ⟨howned, hkept⟩ := hp
    have hlog : e.LogsInOwner db := by
      have hstart := hes e he
      cases e with
      | sessionCreated raw user device session family token now => exact hkept user device hstart
      | _ => trivial
    refine ⟨howned.applyAll (Event.writes_logIn hlog), fun user device ho => ?_⟩
    have hall : ∀ (ws : List Write) (db : Db), db.Owns user device → (applyAll ws db).Owns user device := by
      intro ws
      induction ws with
      | nil => exact fun _ h => h
      | cons w ws ih => exact fun db h => ih _ (h.apply w)
    exact hall _ _ (hkept user device ho)

variable (pf fk) in
/-- The states of all runs in which only owners are logged in on their devices. -/
inductive ReachableOwned : Server → Prop
  | run (db : Db) (clock : Nat) (used : List Uuid) (hdb : db.Initial) (hused : ∀ x ∈ db.ids, x ∈ used)
      (sched : List Choice) (howner : ∀ p c, .call p c ∈ sched → c.LogsInOwner db) :
      ReachableOwned (serve pf fk (.boot db clock used) sched)

variable {s : Server}

theorem ReachableOwned.reachable (h : ReachableOwned pf fk s) : Reachable pf fk s := by
  obtain ⟨db, clock, used, hdb, hused, sched, _⟩ := h
  exact .run db clock used hdb hused sched

theorem ReachableOwned.owned (h : ReachableOwned pf fk s) : s.db.Owned := by
  obtain ⟨db, clock, used, hdb, hused, sched, howner⟩ := h
  have hboot : SoundRun pf fk ⟨clock, db⟩ (.boot db clock used) := hdb.boot hused
  have hs := hboot.run sched
  have hempty : db.Owned := ⟨by simp [hdb.sessions], by simp [hdb.families]⟩
  refine owned_of_path hs.path (fun e he => ?_) hdb.holds hempty
  obtain ⟨⟨p, e⟩, hlog, rfl⟩ := List.mem_map.mp he
  have hin := ReadCommitted.Server.mem_eventsOf.mpr hlog
  cases hp : (serve pf fk (.boot db clock used) sched).procs p with
  | none =>
    rw [hs.idle p hp] at hin
    exact absurd hin List.not_mem_nil
  | some pr =>
    rw [← hs.events p pr hp] at hin
    have hcalled : pr.call.LogsInOwner db := by
      rcases ReadCommitted.Server.run_procs hp with ⟨qr, hq, _⟩ | ⟨c, hc, hcall⟩
      · exact absurd hq (by simp [ReadCommitted.Server.boot])
      · exact hcall ▸ howner p c hc
    have htrace := hs.trace p pr hp
    cases e with
    | sessionCreated raw user device session family token now =>
      have hop := Call.operation_of_trace htrace hin
      cases hc : pr.call with
      | createSession user' device' =>
        rw [hc] at htrace hcalled
        obtain ⟨_, _, _, _, _, heq⟩ := htrace _ hin
        injection heq with _ hu hd
        subst hu hd
        exact hcalled
      | _ =>
        rw [hc] at hop
        exact Operation.noConfusion hop
    | _ => trivial

end

end GuffSuff
