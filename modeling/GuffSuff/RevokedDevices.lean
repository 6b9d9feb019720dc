import GuffSuff.PendingEnvelopes
import GuffSuff.ReadCommitted.Records

/-! Revoked devices on the delivery path: what the fan-out of a submission and
the retry passes of the worker still do for a device that was revoked. -/

namespace GuffSuff

open ReadCommitted MessageEnvelopeService TransportProcessor
open ReadCommitted.Server (eventsOf mem_eventsOf)

def Event.revokedDevice : Event → Option (Uuid × Uuid)
  | deviceRevoked user device .. => some (user, device)
  | _ => none

def RevokedIn (s : Server) (device : Uuid) : Prop :=
  ∃ x ∈ s.log, x.2.revokedDevice.map Prod.snd = some device

instance (s : Server) (device : Uuid) : Decidable (RevokedIn s device) :=
  inferInstanceAs (Decidable (∃ x ∈ s.log, _))

/-- The retry pass about to run its `SELECT`. -/
def selecting (now : Nat) : Program :=
  .observe (selectsBatch now) (fun _ ids => .retriesSelected ids) fun _ ids =>
  retryEach ids <|
  .ret (.ok .unit)

theorem processOfflineMessageRetries_eq : processOfflineMessageRetries = .now selecting := rfl

/-- No device of the recipient is revoked between the fan-out read of a submission and its commit. -/
def FanOutsUndisturbed (s : Server) : Prop :=
  ∀ l₁ l₂ l₃ q user devices e k rs,
    s.log = l₁ ++ (q, .recipientDevicesRead user devices) :: (l₂ ++ (q, .envelopeSubmitted e k rs) :: l₃) →
    ∀ x ∈ l₂, ∀ device, x.2.revokedDevice ≠ some (user, device)

section
variable (pf : Platform) (fk : FkCheck) (s : Server)

/-- Once the revocation of a device has committed, no record is created for it. -/
def SubmissionsSpare (sched : List Choice) : Prop :=
  ∀ first rest device, sched = first ++ rest → RevokedIn (serve pf fk s first) device →
    ∀ r ∈ (serve pf fk s sched).db.messageRecipientDevices, r.recipientDeviceId = device →
      r.id ∈ keys (serve pf fk s first).db.messageRecipientDevices

/-- After the run `first`, in which the device was revoked, process `q` is free to start a pass. -/
structure Late (first : List Choice) (q : Nat) (device : Uuid) : Prop where
  idle : (serve pf fk s first).procs q = none
  revoked : RevokedIn (serve pf fk s first) device

/-- No pass that starts after the revocation of a device selects or writes a record of it. -/
def RetriesSpare (sched : List Choice) : Prop :=
  ∀ first rest q device, sched = first ++ .call q .processOfflineMessageRetries :: rest →
    Late pf fk s first q device →
    ∀ r ∈ (serve pf fk s sched).db.messageRecipientDevices, r.recipientDeviceId = device →
      (∀ ids, (q, .retriesSelected ids) ∈ (serve pf fk s sched).log → r.id ∉ ids) ∧
        ∀ now, (q, .deliveryRetried r.id now) ∉ (serve pf fk s sched).log

/-- A pass that started after the revocation runs its `SELECT` while a record of the device is due. -/
def Due (first mid : List Choice) (q : Nat) (device : Uuid) : Prop :=
  Late pf fk s first q device ∧
    let s' := serve pf fk s (first ++ .call q .processOfflineMessageRetries :: mid)
    ∃ qr now, s'.procs q = some qr ∧ qr.program = selecting now ∧
      ∃ r ∈ s'.db.messageRecipientDevices, r.recipientDeviceId = device ∧ isRetryable now s'.db r = true

def NothingDue (sched : List Choice) : Prop :=
  ∀ first mid ids rest q device,
    sched = first ++ .call q .processOfflineMessageRetries :: (mid ++ .exec q ids :: rest) →
    ¬ Due pf fk s first mid q device

end

section
variable {pf : Platform} {fk : FkCheck} {w₀ : World Db} {s : Server} {db db' : Db} {c : Nat} {e : Event}

theorem mem_unrevokedDevicesOf {user device : Uuid} : device ∈ db.unrevokedDevicesOf user ↔
    ∃ d ∈ db.devices, d.id = device ∧ d.userId = user ∧ d.isRevoked = false := by
  simp only [Db.unrevokedDevicesOf, List.mem_map, List.mem_filter, Bool.and_eq_true, decide_eq_true_eq,
    Bool.not_eq_true']
  constructor
  · rintro ⟨d, ⟨hd, huser, hrev⟩, hid⟩
    exact ⟨d, hd, hid, huser, hrev⟩
  · rintro ⟨d, hd, hid, huser, hrev⟩
    exact ⟨d, ⟨hd, huser, hrev⟩, hid⟩

theorem unrevokedDevicesOf_user (hi : db.Holds) {user user' device : Uuid}
    (h : device ∈ db.unrevokedDevicesOf user) (h' : device ∈ db.unrevokedDevicesOf user') : user' = user := by
  obtain ⟨d, hd, hid, huser, _⟩ := mem_unrevokedDevicesOf.mp h
  obtain ⟨d', hd', hid', huser', _⟩ := mem_unrevokedDevicesOf.mp h'
  have hsame : d = d' := eq_of_key_eq hi.devices hd hd' (hid.trans hid'.symm)
  rw [← huser, ← huser', hsame]

theorem Db.Grows.unrevoked (h : db.Grows db') (hi : db.Holds) (hi' : db'.Holds) {user device : Uuid}
    (hd : device ∈ db'.unrevokedDevicesOf user) : device ∈ db.unrevokedDevicesOf user := by
  obtain ⟨d', hd', rfl, huser, hrev⟩ := mem_unrevokedDevicesOf.mp hd
  obtain ⟨d, hd, hid⟩ := mem_keys.mp (h.deviceKeys ▸ key_mem_keys hd')
  obtain ⟨d₁, hd₁, hg⟩ := h.devices _ _ (lookup_of_mem hi.devices hd)
  have hsame : d₁ = d' := eq_of_key_eq hi'.devices (lookup_mem hd₁) hd' ((lookup_key hd₁).trans hid)
  rw [hsame] at hg
  refine mem_unrevokedDevicesOf.mpr ⟨d, hd, hid, hg.userId.symm.trans huser, ?_⟩
  exact Bool.eq_false_iff.mpr fun hrevoked => absurd (hg.revoked hrevoked) (by simp [hrev])

theorem Event.Allowed.unrevoked (ha : e.Allowed pf c db) {user device : Uuid}
    (he : e.revokedDevice = some (user, device)) : device ∈ db.unrevokedDevicesOf user := by
  cases e with
  | deviceRevoked owner revoked =>
    obtain ⟨rfl, rfl⟩ := Prod.mk.inj (Option.some.inj he)
    obtain ⟨⟨d, hd, huser, hrev⟩, _⟩ := ha
    exact mem_unrevokedDevicesOf.mpr ⟨d, lookup_mem hd, lookup_key hd, huser, hrev⟩
  | _ => exact absurd he (by simp [Event.revokedDevice])

theorem Event.revoked_writes {device : Uuid} (he : e.revokedDevice.map Prod.snd = some device)
    (user : Uuid) : device ∉ (applyAll (e.writes pf) db).unrevokedDevicesOf user := by
  cases e with
  | deviceRevoked owner revoked reason name sessions families tokens eventId auditId correlationId now =>
    obtain rfl : revoked = device := Option.some.inj he
    intro h
    obtain ⟨d, hd, hid, _, hrev⟩ := mem_unrevokedDevicesOf.mp h
    obtain ⟨d₀, _, rfl⟩ := mem_updateRows.mp hd
    by_cases hk : d₀.id ∈ [revoked]
    · rw [Device.key_eq, if_pos hk] at hrev
      exact absurd hrev (by simp [Device.revoke])
    · rw [Device.key_eq, if_neg hk] at hid
      exact hk (by simp [hid])
  | _ => exact absurd he (by simp [Event.revokedDevice])

/-- A device that is revoked after the devices of a user were read is in what was read exactly if
it is a device of that user. -/
theorem SoundRun.read_before_revocation (h : SoundRun pf fk w₀ s) (h₀ : w₀.db.Holds)
    {l₁ l₂ : List (Nat × Event)} {q : Nat} {user user' device : Uuid} {devices : List Uuid} {x : Nat × Event}
    (hl : s.log = l₁ ++ (q, .recipientDevicesRead user devices) :: l₂) (hx : x ∈ l₂)
    (hrev : x.2.revokedDevice = some (user', device)) : device ∈ devices ↔ user' = user := by
  obtain ⟨c, _, db, _, hi, ⟨hperm, rfl⟩, hpath⟩ := h.cut h₀ hl
  obtain ⟨m₁, m₂, rfl⟩ := List.append_of_mem hx
  rw [List.map_append, List.map_cons] at hpath
  obtain ⟨c', db', _, hbefore, ⟨ha, rfl⟩, _⟩ := hpath.cut
  have hgrows : db.Grows db' := grows_of_path hbefore
  have hold : device ∈ db.unrevokedDevicesOf user' :=
    hgrows.unrevoked hi (hbefore.holds hi) (ha.unrevoked hrev)
  rw [hperm.mem_iff]
  constructor
  · exact fun hmem => unrevokedDevicesOf_user hi hmem hold
  · rintro rfl
    exact hold

theorem SoundRun.read_after_revocation (h : SoundRun pf fk w₀ s) (h₀ : w₀.db.Holds)
    {l₁ l₂ : List (Nat × Event)} {q : Nat} {user device : Uuid} {devices : List Uuid} {x : Nat × Event}
    (hl : s.log = l₁ ++ x :: l₂) (hx : x.2.revokedDevice.map Prod.snd = some device)
    (hread : (q, .recipientDevicesRead user devices) ∈ l₂) : device ∉ devices := by
  obtain ⟨c, db, _, _, hi, ⟨ha, rfl⟩, hpath⟩ := h.cut h₀ (p := x.1) (e := x.2) hl
  obtain ⟨m₁, m₂, rfl⟩ := List.append_of_mem hread
  rw [List.map_append, List.map_cons] at hpath
  obtain ⟨c', db', _, hbefore, ⟨hperm, _⟩, _⟩ := hpath.cut
  rw [hperm.mem_iff]
  intro hmem
  have hi' := hi.event ha
  exact Event.revoked_writes hx user
    ((grows_of_path hbefore).unrevoked hi' (hbefore.holds hi') hmem)

theorem SoundRun.fanOut_read (h : SoundRun pf fk w₀ s) {q : Nat} {x : MessageEnvelope}
    {k : MessageIdempotencyKey} {rs : List MessageRecipientDevice}
    (hx : (q, .envelopeSubmitted x k rs) ∈ s.log) :
    ∃ user, (q, .recipientDevicesRead user (rs.map MessageRecipientDevice.recipientDeviceId)) ∈ s.log ∧
      ∀ user' devices, (q, .recipientDevicesRead user' devices) ∈ s.log →
        user' = user ∧ devices = rs.map MessageRecipientDevice.recipientDeviceId := by
  obtain ⟨_, _, dto, hby⟩ := h.submitted hx
  refine ⟨dto.recipientUserId, mem_eventsOf.mp (by simp [hby.events]), fun user' devices hread => ?_⟩
  have hmem := mem_eventsOf.mpr hread
  rw [hby.events] at hmem
  simpa using hmem

theorem serve_append (s : Server) (first rest : List Choice) :
    serve pf fk s (first ++ rest) = serve pf fk (serve pf fk s first) rest := List.foldl_append ..

theorem SoundRun.spares_of_undisturbed (h : SoundRun pf fk w₀ s) (h₀ : w₀.db.Holds)
    {sched : List Choice} (hu : FanOutsUndisturbed (serve pf fk s sched)) :
    SubmissionsSpare pf fk s sched := by
  rintro first rest device rfl ⟨x, hx, hrev⟩ r hr hdev
  have hs := h.run (first ++ rest)
  obtain ⟨new, hnew, _⟩ := (h.run first).added rest
  rw [serve_append] at hs hr hu
  refine (recipients_of_path hnew.path hr).resolve_right ?_
  rintro ⟨e, k, rs, he, _, _, hmem⟩
  obtain ⟨⟨q, ev⟩, hq, hev⟩ := List.mem_map.mp he
  obtain rfl : ev = .envelopeSubmitted e k rs := hev
  obtain ⟨user, hread, _⟩ := hs.fanOut_read (hnew.log ▸ List.mem_append_right _ hq)
  obtain ⟨a, b, hab⟩ := List.append_of_mem hx
  obtain ⟨m₁, m₂, rfl⟩ := List.append_of_mem hq
  have hl := hnew.log
  rw [hab, List.append_assoc, List.cons_append, ← List.append_assoc b] at hl
  obtain ⟨⟨user', device'⟩, hrev', rfl⟩ := Option.map_eq_some_iff.mp hrev
  rw [hdev] at hmem
  rw [hl] at hread
  rcases List.mem_append.mp hread with hread | hread
  · obtain ⟨a₁, a₂, rfl⟩ := List.append_of_mem hread
    rw [List.append_assoc, List.cons_append] at hl
    obtain rfl := (hs.read_before_revocation h₀ hl (by simp) hrev').mp hmem
    exact hu a₁ (a₂ ++ x :: (b ++ m₁)) m₂ q user' (rs.map MessageRecipientDevice.recipientDeviceId) e k rs
      (by simp [hl]) x (by simp) device' hrev'
  · rcases List.mem_cons.mp hread with rfl | hread
    · exact absurd hrev' (by simp [Event.revokedDevice])
    · exact hs.read_after_revocation h₀ hl hrev hread hmem

theorem SoundRun.undisturbed_of_spares (h : SoundRun pf fk w₀ s) (h₀ : w₀.db.Holds) (hlog : s.log = [])
    {sched : List Choice} (hsp : SubmissionsSpare pf fk s sched) :
    FanOutsUndisturbed (serve pf fk s sched) := by
  intro l₁ l₂ l₃ q user devices e k rs hl x hx device hrev
  have hs := h.run sched
  obtain ⟨m₁, m₂, rfl⟩ := List.append_of_mem hx
  have hsubmitted : (q, .envelopeSubmitted e k rs) ∈ (serve pf fk s sched).log := by simp [hl]
  obtain ⟨user', _, hread⟩ := hs.fanOut_read hsubmitted
  obtain ⟨rfl, rfl⟩ := hread user devices (by simp [hl])
  have hmem := (hs.read_before_revocation h₀ hl (by simp) hrev).mpr rfl
  obtain ⟨r, hr, rfl⟩ := List.mem_map.mp hmem
  have hl' : (serve pf fk s sched).log = s.log ++ (l₁ ++ (q, .recipientDevicesRead user
      (rs.map MessageRecipientDevice.recipientDeviceId)) :: m₁) ++ x ::
        (m₂ ++ (q, .envelopeSubmitted e k rs) :: l₃) := by simp [hl, hlog]
  obtain ⟨sched₁, ch, rest, rfl, _, hfirst⟩ := h.run_entry hl'
  have hsched : sched₁ ++ ch :: rest = sched₁ ++ [ch] ++ rest := by simp
  have hs₁ := h.run (sched₁ ++ [ch])
  obtain ⟨new, hnew, _⟩ := hs₁.added rest
  have hsame : new = m₂ ++ (q, .envelopeSubmitted e k rs) :: l₃ := by
    have hlog' := hnew.log
    rw [← serve_append, ← hsched, hl', hfirst, List.append_assoc _ [x], List.singleton_append] at hlog'
    exact (List.cons.inj (List.append_cancel_left hlog')).2.symm
  have hpath := hnew.path
  rw [hsame, List.map_append, List.map_cons] at hpath
  obtain ⟨c, db, _, hbefore, ⟨ha, rfl⟩, hafter⟩ := hpath.cut
  have hi : db.Holds := hbefore.holds hs₁.holds
  -- the record of the device is new in the commit, and still there at the end
  have hstored : r ∈ (applyAll ((Event.envelopeSubmitted e k rs).writes pf) db).messageRecipientDevices := by
    rw [Event.recipients_writes]
    exact List.mem_append_right _ hr
  obtain ⟨r', hr', hg⟩ := (grows_of_path hafter).recipients _ _
    (lookup_of_mem (hi.event ha).transport.recipients hstored)
  have hkept := hsp _ _ _ hsched ⟨x, by simp [hfirst], by simp [hrev]⟩ r'
    (by rw [hsched, serve_append]; exact lookup_mem hr') hg.recipientDeviceId
  obtain ⟨r₀, hr₀, hid₀⟩ := mem_keys.mp hkept
  obtain ⟨r₁, hr₁, _⟩ := (grows_of_path hbefore).recipients _ _
    (lookup_of_mem hs₁.holds.transport.recipients hr₀)
  obtain ⟨_, _, _, _, _, _, hnd, _⟩ := ha
  have hold : r.id ∈ keys db.messageRecipientDevices :=
    mem_keys.mpr ⟨r₁, lookup_mem hr₁, (lookup_key hr₁).trans (hid₀.trans (lookup_key hr'))⟩
  exact List.disjoint_of_nodup_append hnd hold (key_mem_keys hr)

def Event.isSelection : Event → Bool
  | retriesSelected _ => true
  | _ => false

/-- Where a pass stands: before its `SELECT`, which it runs on the database itself, or past it. -/
def AtSelection (pr : Process Db Key Uuid Event Answer Call) : Prop :=
  (pr.pending = id ∧ (pr.program = processOfflineMessageRetries ∨ ∃ now, pr.program = selecting now)) ∨
    pr.program.Keeps (fun _ _ => True) fun e => e.isSelection = false

theorem keeps_retryEach (ids : List Uuid) : (retryEach ids (.ret (.ok .unit))).Keeps (fun _ _ => True)
    fun e => e.isSelection = false := by
  induction ids with
  | nil => trivial
  | cons i ids ih => exact fun _ _ => ⟨fun _ => trivial, rfl, ih⟩

theorem AtSelection.exec {p : Nat} {ids : List Uuid} {pr pr' : Process Db Key Uuid Event Answer Call}
    (hp : s.procs p = some pr) (h : AtSelection pr)
    (hp' : (ReadCommitted.Server.exec s p ids pr).procs p = some pr') : AtSelection pr' := by
  rcases h with ⟨hpend, hprog | ⟨now, hprog⟩⟩ | hkeeps
  · rw [processOfflineMessageRetries_eq] at hprog
    simp only [ReadCommitted.Server.exec, hprog, ReadCommitted.Server.setProc_self,
      Option.some.injEq] at hp'
    subst hp'
    exact .inl ⟨hpend, .inr ⟨_, rfl⟩⟩
  · rw [selecting] at hprog
    simp only [ReadCommitted.Server.exec, hprog] at hp'
    split at hp'
    · rw [ReadCommitted.Server.setProc_self] at hp'
      obtain rfl := Option.some.inj hp'
      exact .inr (keeps_retryEach _)
    · obtain rfl := Option.some.inj (hp.symm.trans hp')
      exact .inl ⟨hpend, .inr ⟨now, hprog⟩⟩
  · exact .inr (ReadCommitted.Server.exec_keeps hp hkeeps hp')

theorem atSelection_of_run {sched : List Choice} {q : Nat}
    {qr : Process Db Key Uuid Event Answer Call} (hidle : s.procs q = none)
    (hq : (serve pf fk s sched).procs q = some qr) (hc : qr.call = .processOfflineMessageRetries) :
    AtSelection qr := by
  refine ReadCommitted.Server.run_keeps (I := fun _ => True)
    (fun pr => pr.call = .processOfflineMessageRetries → AtSelection pr) ?_ ?_ ?_ ?_ ?_ hq hc
  · exact fun _ _ _ => trivial
  · intro c w _ hc
    obtain rfl : c = .processOfflineMessageRetries := hc
    exact .inl ⟨rfl, .inl rfl⟩
  · intro s' ids pr pr' _ hp h hp' hcall
    exact (h ((ReadCommitted.Server.call_of_exec hp hp').symm.trans hcall)).exec hp hp'
  · exact fun _ _ _ _ => .inr trivial
  · exact fun pr hp => absurd (hidle.symm.trans hp) (by simp)

theorem AtSelection.records {ids batch : List Uuid}
    {pr : Process Db Key Uuid Event Answer Call} (h : AtSelection pr)
    (hrec : pr.program.Records (pr.pending s.db) ids (.retriesSelected batch)) :
    ∃ now, pr.program = selecting now ∧ selectsBatch now s.db batch = true := by
  rcases h with ⟨hpend, hprog | ⟨now, hprog⟩⟩ | hkeeps
  · rw [hprog] at hrec
    exact absurd hrec id
  · rw [hprog, hpend] at hrec
    obtain ⟨hbatch, heq⟩ := hrec
    obtain rfl := Event.retriesSelected.inj heq
    exact ⟨now, hprog, hbatch⟩
  · exact absurd (hkeeps.records hrec) (by simp [Event.isSelection])

theorem exists_batch {now : Nat} {i : Uuid} (hnd : (retryable now db).Nodup) (hi : i ∈ retryable now db) :
    ∃ ids, selectsBatch now db ids = true ∧ i ∈ ids := by
  have hperm : (i :: (retryable now db).erase i).Perm (retryable now db) := (List.perm_cons_erase hi).symm
  refine ⟨(i :: (retryable now db).erase i).take batchLimit, ?_, by simp [batchLimit]⟩
  simp only [selectsBatch, Bool.and_eq_true, decide_eq_true_eq, List.all_eq_true, beq_iff_eq]
  refine ⟨⟨(hperm.nodup_iff.mpr hnd).sublist (List.take_sublist _ _), fun j hj => ?_⟩, ?_⟩
  · exact hperm.mem_iff.mp (List.mem_of_mem_take hj)
  · rw [List.length_take, hperm.length_eq]

theorem TransportProcessor.RetryPass.selected {es : List Event} (h : RetryPass es) {i : Uuid} {now : Nat}
    (hi : .deliveryRetried i now ∈ es) : ∃ ids, .retriesSelected ids ∈ es ∧ i ∈ ids := by
  cases h with
  | start => exact absurd hi List.not_mem_nil
  | batch ids hnd done hdone =>
    refine ⟨ids, List.mem_cons_self, ?_⟩
    obtain ⟨⟨j, t⟩, hj, heq⟩ := List.mem_map.mp ((List.mem_cons.mp hi).resolve_left (by simp))
    obtain ⟨rfl, rfl⟩ := Event.deliveryRetried.inj heq
    exact hdone.subset (List.mem_map_of_mem hj)

theorem call_of_run {first mid : List Choice} {q : Nat} {c : Call}
    {qr : Process Db Key Uuid Event Answer Call} (hidle : (serve pf fk s first).procs q = none)
    (hq : (serve pf fk s (first ++ .call q c :: mid)).procs q = some qr) : qr.call = c := by
  have hstart : (serve pf fk (serve pf fk s first) [.call q c]).procs q =
      some (.start (serve pf fk s first).world c (c.program pf fk)) := by
    simp only [serve, ReadCommitted.Server.run, List.foldl_cons, List.foldl_nil,
      ReadCommitted.Server.step] at hidle ⊢
    rw [hidle]
    exact ReadCommitted.Server.setProc_self ..
  obtain ⟨pr, hp, hc⟩ := ReadCommitted.Server.run_continues (Call.program pf fk) Call.aborted mid hstart
  rw [serve_append] at hq
  obtain rfl := Option.some.inj (hp.symm.trans hq)
  exact hc.call

/-- The state in which a pass selected the batch that the log shows. -/
theorem SoundRun.selection_step (h : SoundRun pf fk w₀ s) {first rest : List Choice} {q : Nat}
    {batch : List Uuid} (hidle : (serve pf fk s first).procs q = none)
    (hlogged : (q, .retriesSelected batch) ∈
      (serve pf fk s (first ++ .call q .processOfflineMessageRetries :: rest)).log) :
    ∃ mid ids rest' qr now, rest = mid ++ .exec q ids :: rest' ∧
      let s' := serve pf fk s (first ++ .call q .processOfflineMessageRetries :: mid)
      s'.procs q = some qr ∧ qr.program = selecting now ∧ selectsBatch now s'.db batch = true := by
  have hfirst := h.run first
  obtain ⟨new, hnew, _⟩ := hfirst.added (.call q .processOfflineMessageRetries :: rest)
  rw [serve_append, hnew.log] at hlogged
  have hmem := ReadCommitted.Server.eventsOf_new (hfirst.idle q hidle) (mem_eventsOf.mpr hlogged)
  obtain ⟨l₁, l₂, rfl⟩ := List.append_of_mem hmem
  have hl := hnew.log
  rw [← List.append_assoc] at hl
  obtain ⟨sched₁, ch, rest', hsched, h₁, h₂⟩ := hfirst.run_entry hl
  rw [← h₁, serve_append] at h₂
  obtain ⟨ids, qr, rfl, hq, hrec⟩ := ReadCommitted.Server.step_records h₂
  cases sched₁ with
  | nil => exact absurd (List.cons.inj hsched).1 (by simp)
  | cons y mid =>
    obtain ⟨rfl, rfl⟩ := List.cons.inj hsched
    have hcall := call_of_run hidle (by rw [serve_append]; exact hq)
    obtain ⟨now, hprog, hbatch⟩ := (atSelection_of_run hidle hq hcall).records hrec
    refine ⟨mid, ids, rest', qr, now, rfl, ?_⟩
    rw [serve_append]
    exact ⟨hq, hprog, hbatch⟩

theorem selectsBatch_due {now : Nat} {batch : List Uuid} (h : selectsBatch now db batch = true) {i : Uuid}
    (hi : i ∈ batch) : ∃ r ∈ db.messageRecipientDevices, r.id = i ∧ isRetryable now db r = true := by
  simp only [selectsBatch, Bool.and_eq_true, decide_eq_true_eq, List.all_eq_true] at h
  obtain ⟨⟨_, hall⟩, _⟩ := h
  obtain ⟨r, hr, hid⟩ := List.mem_map.mp (hall i hi)
  obtain ⟨hr, hdue⟩ := List.mem_filter.mp hr
  exact ⟨r, hr, hid, hdue⟩

theorem SoundRun.retries_spare (h : SoundRun pf fk w₀ s) {sched : List Choice}
    (hn : NothingDue pf fk s sched) : RetriesSpare pf fk s sched := by
  rintro first rest q device rfl hlate r hr hdev
  have hs := h.run (first ++ .call q .processOfflineMessageRetries :: rest)
  have hselect : ∀ batch, (q, .retriesSelected batch) ∈
      (serve pf fk s (first ++ .call q .processOfflineMessageRetries :: rest)).log → r.id ∉ batch := by
    intro batch hlogged hid
    obtain ⟨mid, ids, rest', qr, now, rfl, hq, hprog, hbatch⟩ := h.selection_step hlate.idle hlogged
    obtain ⟨r₀, hr₀, hid₀, hdue⟩ := selectsBatch_due hbatch hid
    have hsplit : first ++ .call q .processOfflineMessageRetries :: (mid ++ .exec q ids :: rest') =
        first ++ .call q .processOfflineMessageRetries :: mid ++ .exec q ids :: rest' := by simp
    rw [hsplit, serve_append] at hr hs
    have hmid := h.run (first ++ .call q .processOfflineMessageRetries :: mid)
    obtain ⟨more, hmore, _⟩ := hmid.added (.exec q ids :: rest')
    obtain ⟨r', hr', hg⟩ := (grows_of_later hmore.later).recipients _ _
      (lookup_of_mem hmid.holds.transport.recipients hr₀)
    have hsame : r' = r := eq_of_key_eq hs.holds.transport.recipients (lookup_mem hr') hr
      ((lookup_key hr').trans hid₀)
    have hdev₀ : r₀.recipientDeviceId = device := by rw [← hg.recipientDeviceId, hsame, hdev]
    exact hn first mid ids rest' q device rfl ⟨hlate, qr, now, hq, hprog, r₀, hr₀, hdev₀, hdue⟩
  refine ⟨hselect, fun now hretried => ?_⟩
  obtain ⟨pr, _, ht⟩ := hs.trace_of_log hretried
  have hmem := mem_eventsOf.mpr hretried
  obtain ⟨batch, hselected, hid⟩ := (Call.retryPass_of_trace ht hmem rfl).selected hmem
  exact hselect batch (mem_eventsOf.mp hselected) hid

variable (pf fk) in
theorem serve_selecting {q : Nat} {ids : List Uuid} {now : Nat} {qr : Process Db Key Uuid Event Answer Call}
    (hq : s.procs q = some qr) (hpend : qr.pending = id) (hprog : qr.program = selecting now)
    (hbatch : selectsBatch now s.db ids = true) :
    (serve pf fk s [.exec q ids]).log = s.log ++ [(q, .retriesSelected ids)] ∧
      (serve pf fk s [.exec q ids]).db = s.db := by
  have hstep : serve pf fk s [.exec q ids] = ReadCommitted.Server.exec s q ids qr := by
    simp only [serve, ReadCommitted.Server.run, List.foldl_cons, List.foldl_nil,
      ReadCommitted.Server.step, hq]
  rw [hstep]
  simp only [ReadCommitted.Server.exec, hprog, selecting, hpend, id_eq, hbatch, if_true]
  exact ⟨rfl, rfl⟩

theorem SoundRun.due_selected (h : SoundRun pf fk w₀ s) {first mid : List Choice} {q : Nat} {device : Uuid}
    (hd : Due pf fk s first mid q device) : ∃ ids,
      ¬ RetriesSpare pf fk s (first ++ .call q .processOfflineMessageRetries :: (mid ++ [.exec q ids])) := by
  obtain ⟨hlate, qr, now, hq, hprog, r, hr, hdev, hdue⟩ := hd
  have hmid := h.run (first ++ .call q .processOfflineMessageRetries :: mid)
  have hpend : qr.pending = id := by
    have hcall := call_of_run hlate.idle hq
    rw [serve_append] at hq
    rcases atSelection_of_run hlate.idle hq hcall with ⟨hpend, _⟩ | hkeeps
    · exact hpend
    · rw [hprog] at hkeeps
      exact absurd (hkeeps s.db []).1 (by simp [Event.isSelection])
  have hnd : (retryable now (serve pf fk s
      (first ++ .call q .processOfflineMessageRetries :: mid)).db).Nodup :=
    hmid.holds.transport.recipients.sublist (List.filter_sublist.map _)
  obtain ⟨ids, hbatch, hid⟩ := exists_batch hnd (List.mem_map_of_mem (List.mem_filter.mpr ⟨hr, hdue⟩))
  refine ⟨ids, fun hspare => ?_⟩
  have hsplit : first ++ .call q .processOfflineMessageRetries :: (mid ++ [.exec q ids]) =
      first ++ .call q .processOfflineMessageRetries :: mid ++ [.exec q ids] := by simp
  have hspared := hspare first (mid ++ [.exec q ids]) q device rfl hlate r
  rw [hsplit, serve_append] at hspared
  obtain ⟨hlog, hdb⟩ := serve_selecting pf fk hq hpend hprog hbatch
  exact (hspared (hdb ▸ hr) hdev).1 ids (by rw [hlog]; simp) hid

theorem revoked_devices_spared {clock : Nat} {used : List Uuid} (hdb : db.Initial)
    (hused : ∀ x ∈ db.ids, x ∈ used) (sched : List Choice) :
    let s : Server := .boot db clock used
    (SubmissionsSpare pf fk s sched ↔ FanOutsUndisturbed (serve pf fk s sched)) ∧
      (NothingDue pf fk s sched → RetriesSpare pf fk s sched) ∧
      ∀ first mid q device, Due pf fk s first mid q device → ∃ ids,
        ¬ RetriesSpare pf fk s (first ++ .call q .processOfflineMessageRetries :: (mid ++ [.exec q ids])) := by
  intro s
  have hboot : SoundRun pf fk ⟨clock, db⟩ s := hdb.boot hused
  refine ⟨⟨hboot.undisturbed_of_spares hdb.holds rfl, hboot.spares_of_undisturbed hdb.holds⟩, ?_, ?_⟩
  · exact hboot.retries_spare
  · exact fun first mid q device => hboot.due_selected

end

theorem undisturbed_of_early {s : Server} (h : ∀ x ∈ s.log.dropLast, x.2.revokedDevice = none) :
    FanOutsUndisturbed s := by
  intro l₁ l₂ l₃ q user devices e k rs hl x hx device
  have hearly : x ∈ s.log.dropLast := by
    rw [hl, List.dropLast_append_of_ne_nil (by simp), List.dropLast_cons_of_ne_nil (by simp),
      List.dropLast_append_of_ne_nil (by simp)]
    simp [hx]
  simp [h x hearly]

def sampleDeviceRevocation (p : Nat) (user device : Uuid) : List Choice :=
  [.call p (.revokeDevice user device "lost"), .exec p [], .exec p [device]] ++ Choice.steps p 9 ++
    [.exec p [20]] ++ Choice.steps p 2 ++ [.exec p [21], .exec p [22]] ++ Choice.steps p 3

/-- Device 4 is revoked after the fan-out read of the submission. -/
def sampleRevocationRace : List Choice :=
  sampleSubmission.take 5 ++ sampleDeviceRevocation 1 2 4 ++ sampleSubmission.drop 5

/-- A pass that starts after the revocation of device 4, and its first update. -/
def sampleLateRetry : List Choice :=
  sampleSubmission ++ sampleDeviceRevocation 1 2 4 ++ sampleSelection 2 ++ Choice.steps 2 4

theorem revoked_device_served : ¬ SubmissionsSpare samplePlatform .atCommit sampleStart sampleRevocationRace ∧
    ¬ RetriesSpare samplePlatform .atCommit sampleStart sampleLateRetry := by
  constructor
  · intro h
    have hold := h (sampleSubmission.take 5 ++ sampleDeviceRevocation 1 2 4) (sampleSubmission.drop 5) 4 rfl
      (by decide) (newRecipient 12 10 4 0) (by decide) rfl
    exact absurd hold (by decide)
  · intro h
    have hnone := (h (sampleSubmission ++ sampleDeviceRevocation 1 2 4)
      ([.exec 2 [], .exec 2 [12, 13]] ++ Choice.steps 2 4) 2 4 rfl ⟨rfl, by decide⟩
      ((newRecipient 12 10 4 0).retry 0) (by decide) rfl).2 0
    exact hnone (by decide)

theorem sampleRevocation_due :
    SubmissionsSpare samplePlatform .atCommit sampleStart (sampleSubmission ++ sampleDeviceRevocation 1 2 4) ∧
    ∃ ids, ¬ RetriesSpare samplePlatform .atCommit sampleStart (sampleSubmission ++
      sampleDeviceRevocation 1 2 4 ++ .call 2 .processOfflineMessageRetries :: ([.exec 2 []] ++ [.exec 2 ids])) := by
  obtain ⟨hspares, _, hdue⟩ := @revoked_devices_spared samplePlatform .atCommit sampleDb 0 (List.range 10)
    sampleDb_initial (by decide) (sampleSubmission ++ sampleDeviceRevocation 1 2 4)
  refine ⟨hspares.mpr (undisturbed_of_early (by decide)),
    hdue (sampleSubmission ++ sampleDeviceRevocation 1 2 4) [.exec 2 []] 2 4 ?_⟩
  exact ⟨⟨rfl, by decide⟩, _, 0, rfl, rfl, newRecipient 12 10 4 0, by decide, rfl, by decide⟩

end GuffSuff
