import GuffSuff.Deliveries

/-! Between a submission and the acknowledgement or the expiry, each device of
the recipient finds its envelope exactly once, and no other device does. -/

namespace GuffSuff

open ReadCommitted MessageEnvelopeService
open ReadCommitted.Server (eventsOf)

namespace Db

/-- The devices that have a record for the envelope, in the order of the records. -/
def fannedOut (db : Db) (envelope : Uuid) : List Uuid :=
  (db.messageRecipientDevices.filter (fun r => r.envelopeId = envelope)).map
    MessageRecipientDevice.recipientDeviceId

def recordsFor (db : Db) (envelope device : Uuid) : List MessageRecipientDevice :=
  db.messageRecipientDevices.filter
    fun r => r.envelopeId = envelope && r.recipientDeviceId = device

theorem length_recordsFor (db : Db) (envelope device : Uuid) :
    (db.recordsFor envelope device).length = (db.fannedOut envelope).count device := by
  rw [recordsFor, fannedOut]
  induction db.messageRecipientDevices with
  | nil => rfl
  | cons r rs ih =>
    by_cases he : r.envelopeId = envelope
    · by_cases hd : r.recipientDeviceId = device
      · simp [he, hd, ih]
      · simp [he, hd, ih]
    · simp [he, ih]

def Waiting (db : Db) (e : MessageEnvelope) (device : Uuid) : Prop :=
  e ∈ db.messageEnvelopes ∧ ∃ r ∈ db.messageRecipientDevices, r.envelopeId = e.id ∧
    r.recipientDeviceId = device ∧ r.deliveryStatus.isPending = true

def FannedBy (db : Db) (es : List Event) : Prop :=
  ∀ r ∈ db.messageRecipientDevices, ∃ e k rs, .envelopeSubmitted e k rs ∈ es ∧
    e ∈ db.messageEnvelopes ∧ e.id = r.envelopeId ∧
      r.recipientDeviceId ∈ rs.map MessageRecipientDevice.recipientDeviceId

end Db

section
variable {pf : Platform} {db : Db} {clock : Nat} {e : Event}

theorem Event.fannedOut_writes (e : Event) (db : Db) (envelope : Uuid) :
    (applyAll (e.writes pf) db).fannedOut envelope = db.fannedOut envelope ++
      (e.newRecipients.filter (fun r => r.envelopeId = envelope)).map
        MessageRecipientDevice.recipientDeviceId := by
  have hold : (db.messageRecipientDevices.map e.onRecipient).filter
      (fun r => r.envelopeId = envelope) =
        (db.messageRecipientDevices.filter (fun r => r.envelopeId = envelope)).map e.onRecipient := by
    rw [List.filter_map]
    congr 1
    apply List.filter_congr
    intro r _
    simp [(e.grows_onRecipient r).envelopeId]
  rw [Db.fannedOut, Db.fannedOut, e.recipients_writes, List.filter_append, List.map_append, hold,
    List.map_map]
  congr 1
  apply List.map_congr_left
  intro r _
  exact (e.grows_onRecipient r).recipientDeviceId

theorem Event.Allowed.fannedOut (ha : e.Allowed pf clock db) {envelope : Uuid}
    (henv : envelope ∈ keys db.messageEnvelopes) :
    (applyAll (e.writes pf) db).fannedOut envelope = db.fannedOut envelope := by
  have hnone : e.newRecipients.filter (fun r => r.envelopeId = envelope) = [] := by
    rw [List.filter_eq_nil_iff]
    intro r hr
    obtain ⟨new, _, hid, hfresh⟩ := ha.newRecipient hr
    have hne : r.envelopeId ≠ envelope := fun h => hfresh (hid ▸ h ▸ henv)
    simpa using hne
  rw [e.fannedOut_writes, hnone, List.map_nil, List.append_nil]

theorem envelope_mem_writes (e : Event) {x : MessageEnvelope} (h : x ∈ db.messageEnvelopes) :
    x ∈ (applyAll (e.writes pf) db).messageEnvelopes := by
  rw [e.envelopes_writes]
  exact List.mem_append_left _ h

theorem Db.fannedOut_path {v w : World Db} {es : List Event} (h : (backend pf).Path v es w)
    {envelope : Uuid} (henv : envelope ∈ keys v.db.messageEnvelopes) :
    w.db.fannedOut envelope = v.db.fannedOut envelope := by
  have hboth := h.keeps (P := fun _ (db : Db) => envelope ∈ keys db.messageEnvelopes ∧
    db.fannedOut envelope = v.db.fannedOut envelope) (fun _ _ _ hp _ => hp) ?_ ⟨henv, rfl⟩
  · exact hboth.2
  · intro c db e _ hx hm
    obtain ⟨hmem, hsame⟩ := hx
    obtain ⟨ha, rfl⟩ := hm
    refine ⟨?_, (ha.fannedOut hmem).trans hsame⟩
    rw [e.envelopes_writes, keys_append]
    exact List.mem_append_left _ hmem

/-- A waiting record leaves its status by an acknowledgement or by expiry only. -/
theorem Db.Waiting.event (hv : db.Holds) {envelope : MessageEnvelope} {device : Uuid}
    (h : db.Waiting envelope device) (ha : e.Allowed pf clock db) (hclock : clock < envelope.expiresAt)
    (hack : ∀ record ackId now, e ≠ .deliveryAcknowledged record envelope.id device ackId now) :
    (applyAll (e.writes pf) db).Waiting envelope device := by
  obtain ⟨he, r, hr, henv, hdev, hp⟩ := h
  have hg := e.grows_onRecipient r
  have hlook : lookup db.messageRecipientDevices r.id = some r :=
    lookup_of_mem hv.transport.recipients hr
  refine ⟨envelope_mem_writes e he, e.onRecipient r, e.onRecipient_mem pf hr,
    hg.envelopeId.trans henv, hg.recipientDeviceId.trans hdev, ?_⟩
  cases e with
  | deliveryAcknowledged record acknowledged acknowledger ackId now =>
    have hne : r.id ≠ record := by
      intro heq
      obtain rfl := heq
      obtain ⟨q, hq, hqe, hqd⟩ := ha
      obtain rfl := Option.some.inj (hq.symm.trans hlook)
      exact hack q.id ackId now (by rw [← henv, ← hdev, hqe, hqd])
    simpa only [Event.onRecipient, hne, if_false] using hp
  | deliveryRetried record now =>
    by_cases hid : r.id = record
    · simp only [Event.onRecipient, hid, if_true]
      rfl
    · simpa only [Event.onRecipient, hid, if_false] using hp
  | deliveriesExpired ids now =>
    have hne : r.id ∉ ids := by
      intro hid
      obtain ⟨hnow, hall⟩ := ha
      obtain ⟨q, x, hq, hx, hexp⟩ := hall r.id hid
      obtain rfl := Option.some.inj (hq.symm.trans hlook)
      have hxe : x = envelope := eq_of_key_eq hv.transport.envelopes (lookup_mem hx) he
        ((lookup_key hx).trans henv)
      rw [hxe] at hexp
      omega
    simpa only [Event.onRecipient, hne, if_false] using hp
  | _ => exact hp

theorem Db.Waiting.path {v w : World Db} {es : List Event} (h : (backend pf).Path v es w)
    (hv : v.db.Holds) {envelope : MessageEnvelope} {device : Uuid} (hw : v.db.Waiting envelope device)
    (hack : ∀ record ackId now, .deliveryAcknowledged record envelope.id device ackId now ∉ es)
    (hclock : w.clock < envelope.expiresAt) : w.db.Waiting envelope device := by
  have hkeep := h.keeps_of_mem (P := fun c (db : Db) => c < envelope.expiresAt → db.Waiting envelope device)
    (fun c c' db hp hc hlt => hp (Nat.lt_of_le_of_lt hc hlt)) ?_ hv (fun _ => hw)
  · exact hkeep hclock
  · intro c db e _ he hi hp hm hlt
    obtain ⟨ha, rfl⟩ := hm
    apply (hp hlt).event hi ha hlt
    intro record ackId now heq
    obtain rfl := heq
    exact hack record ackId now he

theorem recipients_of_path {v w : World Db} {es : List Event} (h : (backend pf).Path v es w)
    {r : MessageRecipientDevice} (hr : r ∈ w.db.messageRecipientDevices) :
    r.id ∈ keys v.db.messageRecipientDevices ∨ ∃ e k rs, .envelopeSubmitted e k rs ∈ es ∧
      e ∈ w.db.messageEnvelopes ∧ e.id = r.envelopeId ∧
        r.recipientDeviceId ∈ rs.map MessageRecipientDevice.recipientDeviceId := by
  induction h generalizing r with
  | refl => exact .inl (key_mem_keys hr)
  | tick _ _ ih => exact ih hr
  | @move es c db _ ev hpath hm ih =>
    obtain ⟨ha, rfl⟩ := hm
    have hr' : r ∈ (applyAll (ev.writes pf) db).messageRecipientDevices := hr
    rw [ev.recipients_writes] at hr'
    rcases List.mem_append.mp hr' with hr' | hr'
    · obtain ⟨q, hq, rfl⟩ := List.mem_map.mp hr'
      have hg := ev.grows_onRecipient q
      rcases ih hq with hold | ⟨x, k, rs, hes, hx, hid, hdev⟩
      · exact .inl (by rw [ev.id_onRecipient]; exact hold)
      · exact .inr ⟨x, k, rs, List.mem_append_left _ hes, envelope_mem_writes ev hx,
          hid.trans hg.envelopeId.symm, hg.recipientDeviceId ▸ hdev⟩
    · cases ev with
      | envelopeSubmitted envelope record recipients =>
        obtain ⟨x, hx, hid, _⟩ := ha.newRecipient hr'
        obtain rfl := List.mem_singleton.mp hx
        refine .inr ⟨x, record, recipients, by simp, ?_, hid.symm, List.mem_map_of_mem hr'⟩
        rw [Event.envelopes_writes]
        exact List.mem_append_right _ hx
      | _ => exact absurd hr' List.not_mem_nil

theorem fannedBy_path {v w : World Db} {es : List Event} (h : (backend pf).Path v es w)
    (hv : v.db.messageRecipientDevices = []) : w.db.FannedBy es := by
  intro r hr
  refine (recipients_of_path h hr).resolve_left ?_
  simp [hv, keys]

theorem Db.Waiting.found_once (hv : db.Holds) {envelope : MessageEnvelope} {device : Uuid}
    (h : db.Waiting envelope device) (hclock : clock < envelope.expiresAt) :
    ((getPendingEnvelopes pf db clock envelope.recipientUserId device).filter
      (fun row => row.id = envelope.id)).length = 1 := by
  obtain ⟨he, r, hr, henv, hdev, hp⟩ := h
  have hperm := (getPendingEnvelopes_perm pf db clock envelope.recipientUserId device).filter
    (fun row => row.id = envelope.id)
  rw [hperm.length_eq, List.filter_map, List.length_map]
  have hnd : (pendingJoin db clock envelope.recipientUserId device).Nodup :=
    ((hv.transport.envelopes.of_map).product (hv.transport.recipients.of_map)).filter _
  refine length_filter_eq_one hnd (x := (envelope, r)) ?_ (by simp [pendingRow]) ?_
  · simp [pendingJoin, List.pair_mem_product, he, hr, henv, hdev, hp, hclock]
  · intro hx hmem hid
    obtain ⟨e', r'⟩ := hx
    simp only [pendingJoin, List.mem_filter, List.pair_mem_product, Bool.and_eq_true,
      decide_eq_true_eq] at hmem
    obtain ⟨⟨he', hr'⟩, ⟨⟨⟨hid', hdev'⟩, _⟩, _⟩, _⟩ := hmem
    have hee : e'.id = envelope.id := by simpa [pendingRow] using hid
    have heq : e' = envelope := eq_of_key_eq hv.transport.envelopes he' he hee
    have hrq : r' = r := hv.transport.pair_unique hr' hr (by rw [← hid', henv, hee]) (hdev'.trans hdev.symm)
    rw [heq, hrq]

end

section
variable {pf : Platform} {fk : FkCheck} {w₀ : World Db} {s : Server}

theorem SoundRun.submitted (h : SoundRun pf fk w₀ s) {p : Nat} {e : MessageEnvelope}
    {k : MessageIdempotencyKey} {rs : List MessageRecipientDevice}
    (he : (p, .envelopeSubmitted e k rs) ∈ s.log) :
    ∃ user device dto, StoredBy pf user device dto (eventsOf s.log p) e k rs := by
  have hmem := ReadCommitted.Server.mem_eventsOf.mpr he
  obtain ⟨pr, _, ht⟩ := h.trace_of_log he
  obtain ⟨user, device, dto, _, hsub⟩ := Call.submission_of_trace ht hmem rfl
  exact ⟨user, device, dto, hsub.storedBy hmem⟩

variable (pf fk) in
/-- In state `s'` of the run process `p` asks for the devices of `user`. -/
def AsksDevices (s : Server) (sched : List Choice) (p : Nat) (user : Uuid) (s' : Server) : Prop :=
  ∃ sched₁ ch sched₂ devices, sched = sched₁ ++ ch :: sched₂ ∧ s' = serve pf fk s sched₁ ∧
    (serve pf fk s' [ch]).log = s'.log ++ [(p, .recipientDevicesRead user devices)]

theorem SoundRun.asked (h : SoundRun pf fk w₀ s) (hlog : s.log = []) {sched : List Choice} {p : Nat}
    {user : Uuid} {devices : List Uuid}
    (hp : (p, .recipientDevicesRead user devices) ∈ (serve pf fk s sched).log) :
    ∃ s', AsksDevices pf fk s sched p user s' ∧ devices.Perm (s'.db.unrevokedDevicesOf user) := by
  obtain ⟨l₁, l₂, hl⟩ := List.append_of_mem hp
  obtain ⟨sched₁, ch, sched₂, hsched, h₁, h₂⟩ := h.run_entry (show _ = s.log ++ l₁ ++ _ by rw [hlog]; exact hl)
  have happ : serve pf fk s (sched₁ ++ [ch]) = serve pf fk (serve pf fk s sched₁) [ch] :=
    List.foldl_append ..
  rw [← h₁, happ] at h₂
  obtain ⟨new, hnew, _⟩ := (h.run sched₁).added [ch]
  obtain rfl := List.append_cancel_left (h₂.symm.trans hnew.log)
  obtain ⟨_, _, ha, _⟩ := hnew.path.of_singleton
  exact ⟨_, ⟨sched₁, ch, sched₂, devices, hsched, rfl, h₂⟩, ha⟩

theorem Event.Allowed.fannedOut_new {db : Db} {clock : Nat} (hv : db.Holds) {e : MessageEnvelope}
    {k : MessageIdempotencyKey} {rs : List MessageRecipientDevice}
    (ha : (Event.envelopeSubmitted e k rs).Allowed pf clock db) :
    (applyAll ((Event.envelopeSubmitted e k rs).writes pf) db).fannedOut e.id =
      rs.map MessageRecipientDevice.recipientDeviceId := by
  obtain ⟨hfresh, _, _, _, _, _, _, _, hrs⟩ := ha
  have hold : db.fannedOut e.id = [] := by
    rw [Db.fannedOut, List.map_eq_nil_iff, List.filter_eq_nil_iff]
    intro r hr
    have hne : r.envelopeId ≠ e.id := fun h => hfresh (h ▸ hv.transport.recipientEnvelope r hr)
    simpa using hne
  have hnew : rs.filter (fun r => r.envelopeId = e.id) = rs := by
    rw [List.filter_eq_self]
    intro r hr
    simpa using (hrs r hr).1
  rw [Event.fannedOut_writes, hold, Event.newRecipients, hnew, List.nil_append]

theorem Event.Allowed.waiting_new {db : Db} {clock : Nat} {e : MessageEnvelope}
    {k : MessageIdempotencyKey} {rs : List MessageRecipientDevice}
    (ha : (Event.envelopeSubmitted e k rs).Allowed pf clock db) {device : Uuid}
    (hd : device ∈ rs.map MessageRecipientDevice.recipientDeviceId) :
    (applyAll ((Event.envelopeSubmitted e k rs).writes pf) db).Waiting e device := by
  obtain ⟨_, _, _, _, _, _, _, _, hrs⟩ := ha
  obtain ⟨r, hr, rfl⟩ := List.mem_map.mp hd
  obtain ⟨henv, hstatus⟩ := hrs r hr
  refine ⟨?_, r, ?_, henv, rfl, by rw [hstatus]; rfl⟩
  · rw [Event.envelopes_writes]
    exact List.mem_append_right _ (List.mem_singleton_self e)
  · rw [Event.recipients_writes]
    exact List.mem_append_right _ hr

theorem SoundRun.fannedOut (h : SoundRun pf fk w₀ s) (h₀ : w₀.db.Holds) {p : Nat}
    {e : MessageEnvelope} {k : MessageIdempotencyKey} {rs : List MessageRecipientDevice}
    (he : (p, .envelopeSubmitted e k rs) ∈ s.log) :
    s.db.fannedOut e.id = rs.map MessageRecipientDevice.recipientDeviceId ∧
      (rs.map MessageRecipientDevice.recipientDeviceId).Nodup := by
  obtain ⟨l₁, l₂, hl⟩ := List.append_of_mem he
  obtain ⟨c, db, _, _, hi, ⟨ha, rfl⟩, hpath⟩ := h.cut h₀ hl
  have hmem : e.id ∈ keys (applyAll ((Event.envelopeSubmitted e k rs).writes pf) db).messageEnvelopes := by
    rw [Event.envelopes_writes, keys_append]
    exact List.mem_append_right _ (by simp [Event.newEnvelopes])
  have hfan := (Db.fannedOut_path hpath hmem).trans (ha.fannedOut_new hi)
  obtain ⟨_, _, _, _, _, _, _, hnd, _⟩ := ha
  exact ⟨hfan, hnd⟩

theorem SoundRun.waiting (h : SoundRun pf fk w₀ s) (h₀ : w₀.db.Holds) {p : Nat}
    {e : MessageEnvelope} {k : MessageIdempotencyKey} {rs : List MessageRecipientDevice}
    (he : (p, .envelopeSubmitted e k rs) ∈ s.log) {device : Uuid}
    (hd : device ∈ rs.map MessageRecipientDevice.recipientDeviceId)
    (hack : ∀ q record ackId now, (q, .deliveryAcknowledged record e.id device ackId now) ∉ s.log)
    (hclock : s.clock < e.expiresAt) : s.db.Waiting e device := by
  obtain ⟨l₁, l₂, hl⟩ := List.append_of_mem he
  obtain ⟨c, db, _, _, hi, ⟨ha, rfl⟩, hpath⟩ := h.cut h₀ hl
  have hnone : ∀ record ackId now,
      .deliveryAcknowledged record e.id device ackId now ∉ l₂.map Prod.snd := by
    intro record ackId now hmem
    obtain ⟨⟨q, x⟩, hq, rfl⟩ := List.mem_map.mp hmem
    refine hack q record ackId now ?_
    rw [hl]
    exact List.mem_append_right _ (List.mem_cons_of_mem _ hq)
  exact (ha.waiting_new hd).path hpath (hi.event ha) hnone hclock

theorem SoundRun.submitted_of_pending (h : SoundRun pf fk w₀ s) (h₀ : w₀.db.Initial) {now : Nat}
    {user device : Uuid} {row : PendingEnvelope}
    (hrow : row ∈ getPendingEnvelopes pf s.db now user device) : row.recipientUserId = user ∧
      ∃ p e k rs, (p, .envelopeSubmitted e k rs) ∈ s.log ∧ e.id = row.id ∧
        e.recipientUserId = user ∧ device ∈ rs.map MessageRecipientDevice.recipientDeviceId := by
  obtain ⟨x, hx, r, hr, hid, hdev, huser, _, _, rfl⟩ := mem_getPendingEnvelopes.mp hrow
  obtain ⟨e, k, rs, hes, he, her, hrs⟩ := fannedBy_path h.path h₀.recipients r hr
  have hex : e = x := eq_of_key_eq h.holds.transport.envelopes he hx (her.trans hid)
  obtain ⟨⟨p, ev⟩, hp, hev⟩ := List.mem_map.mp hes
  obtain rfl : ev = .envelopeSubmitted e k rs := hev
  exact ⟨huser, p, e, k, rs, hp, by rw [hex]; rfl, by rw [hex]; exact huser, hdev ▸ hrs⟩

theorem pending_envelopes_exact {db : Db} {clock : Nat} {used : List Uuid} (hdb : db.Initial)
    (hused : ∀ x ∈ db.ids, x ∈ used) (sched : List Choice) :
    let s := serve pf fk (.boot db clock used) sched
    (∀ p e k rs, (p, .envelopeSubmitted e k rs) ∈ s.log →
      ∃ s', AsksDevices pf fk (.boot db clock used) sched p e.recipientUserId s' ∧
        ∀ d, (s.db.recordsFor e.id d).length =
            (if d ∈ s'.db.unrevokedDevicesOf e.recipientUserId then 1 else 0) ∧
          (d ∈ s'.db.unrevokedDevicesOf e.recipientUserId →
            (∀ q record ackId now, (q, .deliveryAcknowledged record e.id d ackId now) ∉ s.log) →
            s.clock < e.expiresAt →
              ((getPendingEnvelopes pf s.db s.clock e.recipientUserId d).filter
                (fun row => row.id = e.id)).length = 1)) ∧
    ∀ now user d, ∀ row ∈ getPendingEnvelopes pf s.db now user d, row.recipientUserId = user ∧
      ∃ p e k rs, (p, .envelopeSubmitted e k rs) ∈ s.log ∧ e.id = row.id ∧ e.recipientUserId = user ∧
        d ∈ rs.map MessageRecipientDevice.recipientDeviceId := by
  intro s
  have hboot : SoundRun pf fk ⟨clock, db⟩ (.boot db clock used) := hdb.boot hused
  have hs : SoundRun pf fk ⟨clock, db⟩ s := hboot.run sched
  constructor
  · intro p e k rs he
    obtain ⟨user, device, dto, hby⟩ := hs.submitted he
    have hasked : (p, .recipientDevicesRead e.recipientUserId
        (rs.map MessageRecipientDevice.recipientDeviceId)) ∈ s.log :=
      ReadCommitted.Server.mem_eventsOf.mp (by simp [hby.events, hby.recipient])
    obtain ⟨s', hasks, hperm⟩ := hboot.asked rfl hasked
    obtain ⟨hfan, hnd⟩ := hs.fannedOut hdb.holds he
    refine ⟨s', hasks, fun d => ⟨?_, fun hd hack hclock => ?_⟩⟩
    · rw [Db.length_recordsFor, hfan, hnd.count]
      simp only [hperm.mem_iff]
    · have hwait := hs.waiting hdb.holds he (hperm.mem_iff.mpr hd) hack hclock
      exact hwait.found_once hs.holds hclock
  · intro now user d row hrow
    exact hs.submitted_of_pending hdb hrow

end

theorem sampleSubmission_pending :
    let s := serve samplePlatform .atCommit sampleStart sampleSubmission
    ∃ s', AsksDevices samplePlatform .atCommit sampleStart sampleSubmission 0 2 s' ∧
      4 ∈ s'.db.unrevokedDevicesOf 2 ∧
      ((getPendingEnvelopes samplePlatform s.db s.clock 2 4).filter (fun row => row.id = 10)).length = 1 := by
  intro s
  have hlog : s.log = [(0, .idempotencyKeyRead 3 "k" none), (0, .recipientDevicesRead 2 [4, 5]),
      (0, .envelopeSubmitted (envelopeOf samplePlatform 1 3 sampleMessage 10 0)
        (keyOf samplePlatform 3 sampleMessage 11 10 0)
          [newRecipient 12 10 4 0, newRecipient 13 10 5 0])] := by decide
  have hsub : (0, .envelopeSubmitted (envelopeOf samplePlatform 1 3 sampleMessage 10 0)
      (keyOf samplePlatform 3 sampleMessage 11 10 0)
        [newRecipient 12 10 4 0, newRecipient 13 10 5 0]) ∈ s.log := by simp [hlog]
  have hack : ∀ q record ackId now, (q, .deliveryAcknowledged record 10 4 ackId now) ∉ s.log := by
    simp [hlog]
  obtain ⟨s', hasks, hall⟩ := (pending_envelopes_exact sampleDb_initial (by decide) sampleSubmission).1
    _ _ _ _ hsub
  obtain ⟨hcount, hfound⟩ := hall 4
  have hone : (s.db.recordsFor 10 4).length = 1 := by decide
  have hcount' : 1 = if 4 ∈ s'.db.unrevokedDevicesOf 2 then 1 else 0 := hone.symm.trans hcount
  by_cases hd : 4 ∈ s'.db.unrevokedDevicesOf 2
  · exact ⟨s', hasks, hd, hfound hd hack (by decide)⟩
  · simp [hd] at hcount'

end GuffSuff
