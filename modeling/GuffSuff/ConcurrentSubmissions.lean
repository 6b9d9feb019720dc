import GuffSuff.IdempotencyKeys
import GuffSuff.ReadCommitted.Completion

/-! Retries of one submission that run at the same time: when all of them get
the accepted envelope. -/

namespace GuffSuff

open ReadCommitted MessageEnvelopeService
open ReadCommitted.Server (eventsOf)

section
variable (pf : Platform) (user device : Uuid) (dto : SubmitMessageEnvelope)

/-- A run of calls of one submission, without failures. -/
def Choice.Submits : Choice → Prop
  | .call _ c => c = .submitEnvelope user device dto
  | .fail _ => False
  | _ => True

def Choice.caller : Choice → Option Nat
  | .call p _ => some p
  | _ => none

/-- What `submitEnvelope` asks of a request besides its sender. -/
structure Acceptable (db : Db) : Prop where
  readable : hasNul dto.idempotencyKey = false
  size : (pf.decodeBase64 dto.opaquePayloadBase64).length ≤ maxPayloadBytes
  stored : ∀ k, db.idempotencyRecord device dto.idempotencyKey = some k →
    k.payloadDigestSha256 = payloadDigest pf dto
  storable : db.idempotencyRecord device dto.idempotencyKey = none → Storable pf user device dto db

/-- At most one call looks the key up while it is not stored. -/
def OneLookup (s : Server) : Prop :=
  ∀ p q, (p, .idempotencyKeyRead device dto.idempotencyKey none) ∈ s.log →
    (q, .idempotencyKeyRead device dto.idempotencyKey none) ∈ s.log → p = q

def AllAccepted (s : Server) : Prop :=
  ∃ envelope, ∀ p pr, s.procs p = some pr →
    ∃ r, pr.Finished (.ok (.receipt r)) ∧ r.envelope.map EnvelopeColumns.id = some envelope

end

section
variable {pf : Platform} {fk : FkCheck} {user device : Uuid} {dto : SubmitMessageEnvelope}
variable {w₀ : World Db} {s : Server}

theorem contract_covers {ch : Choice} (h : Choice.Submits user device dto ch) :
    ReadCommitted.Server.Covers (backend pf) (Call.contract pf fk) (Call.program pf fk) Call.aborted
      ch := by
  cases ch with
  | call p c => exact fun w hi => ⟨c.contract_start, c.safe_program hi⟩
  | fail p => exact absurd h id
  | _ => trivial

/-- A state that submissions without failures have led to from `w₀`. -/
structure SubmissionRun (pf : Platform) (fk : FkCheck) (user device : Uuid)
    (dto : SubmitMessageEnvelope) (w₀ : World Db) (s : Server) : Prop where
  start : w₀.db.Holds
  sound : ReadCommitted.Server.Sound (backend pf) (Call.contract pf fk) w₀ s
  calls : ∀ p pr, s.procs p = some pr → pr.call = .submitEnvelope user device dto

theorem submissionRun_of_boot {db : Db} {clock : Nat} {used : List Uuid} (hdb : db.Holds)
    (hused : ∀ x ∈ db.ids, x ∈ used) {sched : List Choice}
    (hsched : ∀ ch ∈ sched, Choice.Submits user device dto ch) :
    SubmissionRun pf fk user device dto ⟨clock, db⟩ (serve pf fk (.boot db clock used) sched) where
  start := hdb
  sound := (ReadCommitted.Server.sound_boot hdb hused).run fun ch hch => contract_covers (hsched ch hch)
  calls := by
    intro p pr hp
    rcases ReadCommitted.Server.run_procs hp with ⟨qr, hq, _⟩ | ⟨c, hc, hcall⟩
    · simp [ReadCommitted.Server.boot] at hq
    · exact hcall.trans (hsched _ hc)

namespace SubmissionRun

theorem grows (h : SubmissionRun pf fk user device dto w₀ s) : w₀.db.Grows s.db :=
  grows_of_path h.sound.path

theorem submission (h : SubmissionRun pf fk user device dto w₀ s) {p : Nat} {e : Event}
    (he : (p, e) ∈ s.log) : Submission pf user device dto (eventsOf s.log p) := by
  obtain ⟨pr, hp, ht⟩ := h.sound.trace_of_log he
  rw [h.calls p pr hp] at ht
  exact ht

theorem devices (h : SubmissionRun pf fk user device dto w₀ s) : s.db.devices = w₀.db.devices := by
  apply h.sound.path.keeps_of_mem (P := fun _ (db : Db) => db.devices = w₀.db.devices)
    (fun _ _ _ hp _ => hp) ?_ h.start rfl
  intro c db e _ he _ hp hm
  obtain ⟨_, rfl⟩ := hm
  obtain ⟨⟨p, ev⟩, hev, rfl⟩ := List.mem_map.mp he
  have hmem := ReadCommitted.Server.mem_eventsOf.mpr hev
  have hsub := h.submission hev
  generalize eventsOf s.log p = es at hmem hsub
  cases hsub with
  | start => exact absurd hmem List.not_mem_nil
  | looked found =>
    obtain rfl := List.mem_singleton.mp hmem
    exact hp
  | read devices =>
    simp only [List.mem_cons, List.not_mem_nil, or_false] at hmem
    rcases hmem with rfl | rfl <;> exact hp
  | stored devices envelope record now recipients _ _ =>
    simp only [List.mem_cons, List.not_mem_nil, or_false] at hmem
    rcases hmem with rfl | rfl | rfl
    · exact hp
    · exact hp
    · simpa [Event.writes, Write.apply] using hp

theorem answer_ok (h : SubmissionRun pf fk user device dto w₀ s) {p : Nat}
    {pr : Process Db Key Uuid Event Answer Call} (hp : s.procs p = some pr) {v : Value}
    (hr : pr.Finished (.ok v)) :
    (pf.decodeBase64 dto.opaquePayloadBase64).length ≤ maxPayloadBytes ∧
      ∃ r k e, v = .receipt r ∧ Accepted pf user device dto (eventsOf s.log p) s.db r k e := by
  have hpost := h.sound.post hp hr
  rw [h.calls p pr hp] at hpost
  obtain ⟨_, _, hsize, hacc⟩ := hpost
  exact ⟨hsize, hacc⟩

theorem answer_error (h : SubmissionRun pf fk user device dto w₀ s) {p : Nat}
    {pr : Process Db Key Uuid Event Answer Call} (hp : s.procs p = some pr) {x : Failure}
    (hr : pr.Finished (.error x)) :
    Refused pf user device dto (eventsOf s.log p) s.db := by
  have hpost := h.sound.post hp hr
  rw [h.calls p pr hp] at hpost
  exact hpost

theorem record_eq_none (h : SubmissionRun pf fk user device dto w₀ s) {p : Nat}
    (hp : (p, .idempotencyKeyRead device dto.idempotencyKey none) ∈ s.log) :
    w₀.db.idempotencyRecord device dto.idempotencyKey = none := by
  obtain ⟨c, db, _, hi, hlater, ⟨ha, _⟩, _⟩ := h.sound.entry h.start hp
  cases hk : w₀.db.idempotencyRecord device dto.idempotencyKey with
  | none => rfl
  | some k =>
    have hfound := idempotencyRecord_grows hi (grows_of_later hlater) hk
    have ha' : none = (db.idempotencyRecord device dto.idempotencyKey).map (·.envelopeId) := ha
    rw [hfound] at ha'
    exact absurd ha' (by simp)

/-- A key row that is newer than the run belongs to a call that found the key free and stored it. -/
theorem record_origin (h : SubmissionRun pf fk user device dto w₀ s) {k : MessageIdempotencyKey}
    (hk : k ∈ s.db.messageIdempotencyKeys) : k ∈ w₀.db.messageIdempotencyKeys ∨
      (k.payloadDigestSha256 = payloadDigest pf dto ∧ ∃ p e rs,
        (p, .idempotencyKeyRead device dto.idempotencyKey none) ∈ s.log ∧
        (p, .envelopeSubmitted e k rs) ∈ s.log) := by
  rcases GuffSuff.record_origin h.sound.path hk with hold | ⟨e, rs, hes, _, _⟩
  · exact .inl hold
  · obtain ⟨⟨p, ev⟩, hev, hev'⟩ := List.mem_map.mp hes
    obtain rfl : ev = .envelopeSubmitted e k rs := hev'
    have hby := (h.submission hev).storedBy (ReadCommitted.Server.mem_eventsOf.mpr hev)
    exact .inr ⟨hby.digest, p, e, rs, ReadCommitted.Server.mem_eventsOf.mp (by simp [hby.events]), hev⟩

theorem stored_once (h : SubmissionRun pf fk user device dto w₀ s) {p q : Nat}
    {e e' : MessageEnvelope} {k : MessageIdempotencyKey} {rs rs' : List MessageRecipientDevice}
    (hp : (p, .envelopeSubmitted e k rs) ∈ s.log) (hq : (q, .envelopeSubmitted e' k rs') ∈ s.log) :
    p = q := by
  have hlate : ∀ {l₁ l₂ p q e e' rs rs'}, s.log = l₁ ++ (p, .envelopeSubmitted e k rs) :: l₂ →
      (q, .envelopeSubmitted e' k rs') ∉ l₂ := by
    intro l₁ l₂ p q e e' rs rs' hl hmem
    obtain ⟨m₁, m₂, rfl⟩ := List.append_of_mem hmem
    obtain ⟨c, db, _, _, _, ⟨_, rfl⟩, hpath⟩ := h.sound.cut h.start hl
    rw [List.map_append, List.map_cons] at hpath
    obtain ⟨c', db', _, hpath', ⟨ha, _⟩, _⟩ := hpath.cut
    have hk : k ∈ (applyAll ((Event.envelopeSubmitted e k rs).writes pf) db).messageIdempotencyKeys := by
      rw [Event.records_writes]
      exact List.mem_append_right _ (List.mem_singleton_self k)
    obtain ⟨_, hfresh, _⟩ := ha
    exact hfresh (key_mem_keys ((grows_of_path hpath').records k hk))
  by_contra hne
  have hpq : (p, Event.envelopeSubmitted e k rs) ≠ (q, .envelopeSubmitted e' k rs') :=
    fun heq => hne (congrArg Prod.fst heq)
  obtain ⟨l₁, l₂, ⟨hl, hmem⟩ | ⟨hl, hmem⟩⟩ := ReadCommitted.Server.entries_in_order hp hq hpq
  · exact hlate hl hmem
  · exact hlate hl hmem

theorem stored_of_accepted (h : SubmissionRun pf fk user device dto w₀ s) {p : Nat}
    {r : EnvelopeReceipt} {k : MessageIdempotencyKey} {e : MessageEnvelope}
    (hacc : Accepted pf user device dto (eventsOf s.log p) s.db r k e)
    (hp : (p, .idempotencyKeyRead device dto.idempotencyKey none) ∈ s.log) :
    Storable pf user device dto w₀.db ∧ ∃ rs, (p, .envelopeSubmitted e k rs) ∈ s.log := by
  have hmem := ReadCommitted.Server.mem_eventsOf.mpr hp
  rcases hacc.found with ⟨_, hes⟩ | ⟨_, hstor, devices, rs, hes⟩
  · rw [hes] at hmem
    simp at hmem
  · refine ⟨(storable_grows h.grows).mp hstor, rs, ?_⟩
    exact ReadCommitted.Server.mem_eventsOf.mp (by simp [hes])

theorem not_refused (h : SubmissionRun pf fk user device dto w₀ s)
    (hactive : senderActive user device w₀.db = true)
    (hmember : w₀.db.isMember dto.conversationId user = true)
    (hok : Acceptable pf user device dto w₀.db) (hone : OneLookup device dto s) {p : Nat} :
    ¬ Refused pf user device dto (eventsOf s.log p) s.db := by
  intro href
  cases href with
  | inactive hno =>
    rw [senderActive, Db.deviceOfUser, h.devices] at hno
    rw [senderActive, Db.deviceOfUser, hno] at hactive
    exact absurd hactive (by decide)
  | outsider hno =>
    rw [isMember_grows h.grows, hmember] at hno
    exact absurd hno (by decide)
  | oversized hbig => exact absurd hok.size (Nat.not_le.mpr hbig)
  | unreadable hnul => exact absurd (hok.readable.symm.trans hnul) (by decide)
  | unstorable devices hes hno =>
    have hlook : (p, .idempotencyKeyRead device dto.idempotencyKey none) ∈ s.log :=
      ReadCommitted.Server.mem_eventsOf.mp (by simp [hes])
    exact hno ((storable_grows h.grows).mpr (hok.storable (h.record_eq_none hlook)))
  | otherPayload k hk hd hi hp =>
    rcases h.record_origin hk with hold | ⟨hdigest, _⟩
    · have hrec := h.start.transport.idempotencyRecord_of_mem hold
      rw [hd, hi] at hrec
      exact hp (hok.stored k hrec)
    · exact hp hdigest
  | overtaken devices hes hsome =>
    have hlook : (p, .idempotencyKeyRead device dto.idempotencyKey none) ∈ s.log :=
      ReadCommitted.Server.mem_eventsOf.mp (by simp [hes])
    obtain ⟨k, hrec⟩ := Option.isSome_iff_exists.mp hsome
    obtain ⟨hk, hd, hi⟩ := Db.idempotencyRecord_mem hrec
    rcases h.record_origin hk with hold | ⟨_, q, e, rs, hq, hsub⟩
    · exact Db.idempotencyRecord_eq_none.mp (h.record_eq_none hlook) k hold ⟨hd, hi⟩
    · obtain rfl : p = q := hone p q hlook hq
      have hmem := ReadCommitted.Server.mem_eventsOf.mpr hsub
      rw [hes] at hmem
      simp at hmem

theorem envelope_of_accepted (h : SubmissionRun pf fk user device dto w₀ s) {es es' : List Event}
    {r r' : EnvelopeReceipt} {k k' : MessageIdempotencyKey} {e e' : MessageEnvelope}
    (hacc : Accepted pf user device dto es s.db r k e)
    (hacc' : Accepted pf user device dto es' s.db r' k' e') :
    k' = k ∧ r'.envelope.map EnvelopeColumns.id = some k.envelopeId := by
  have hk : k' = k := h.sound.holds.transport.record_unique hacc'.record hacc.record
    (hacc'.ofDevice.trans hacc.ofDevice.symm) (hacc'.ofKey.trans hacc.ofKey.symm)
  refine ⟨hk, ?_⟩
  rw [hacc'.columns, ← hk, ← lookup_key hacc'.envelope]
  rfl

end SubmissionRun

theorem SubmissionRun.allAccepted_iff (h : SubmissionRun pf fk user device dto w₀ s)
    (hactive : senderActive user device w₀.db = true)
    (hmember : w₀.db.isMember dto.conversationId user = true) (hcalled : ∃ p, s.procs p ≠ none)
    (hdone : ∀ p pr, s.procs p = some pr → ∃ r, pr.Finished r) :
    AllAccepted s ↔ Acceptable pf user device dto w₀.db ∧ OneLookup device dto s := by
  obtain ⟨p, hp⟩ := hcalled
  obtain ⟨pr, hp⟩ := Option.ne_none_iff_exists'.mp hp
  constructor
  · intro hx
    obtain ⟨envelope, hall⟩ := hx
    have haccepted : ∀ q qr, s.procs q = some qr → ∃ r k e,
        Accepted pf user device dto (eventsOf s.log q) s.db r k e := by
      intro q qr hq
      obtain ⟨_, hr, _⟩ := hall q qr hq
      obtain ⟨_, r, k, e, _, hacc⟩ := h.answer_ok hq hr
      exact ⟨r, k, e, hacc⟩
    have hstored : ∀ q, (q, .idempotencyKeyRead device dto.idempotencyKey none) ∈ s.log →
        ∃ r k e, Accepted pf user device dto (eventsOf s.log q) s.db r k e ∧
          Storable pf user device dto w₀.db ∧ ∃ rs, (q, .envelopeSubmitted e k rs) ∈ s.log := by
      intro q hlook
      obtain ⟨qr, hq, _⟩ := h.sound.trace_of_log hlook
      obtain ⟨r, k, e, hacc⟩ := haccepted q qr hq
      exact ⟨r, k, e, hacc, h.stored_of_accepted hacc hlook⟩
    obtain ⟨_, hr, _⟩ := hall p pr hp
    obtain ⟨hsize, _, k, e, _, hacc⟩ := h.answer_ok hp hr
    refine ⟨⟨hacc.readable, hsize, ?_, ?_⟩, ?_⟩
    · intro k₀ hk₀
      have hlater := Db.idempotencyRecord_mem (idempotencyRecord_grows h.sound.holds h.grows hk₀)
      have hk : k₀ = k := h.sound.holds.transport.record_unique hlater.1 hacc.record
        (hlater.2.1.trans hacc.ofDevice.symm) (hlater.2.2.trans hacc.ofKey.symm)
      rw [hk]
      exact hacc.digest
    · intro hnone
      rcases h.record_origin hacc.record with hold | ⟨_, q, _, _, hlook, _⟩
      · exact absurd ⟨hacc.ofDevice, hacc.ofKey⟩ (Db.idempotencyRecord_eq_none.mp hnone k hold)
      · obtain ⟨_, _, _, _, hstor, _⟩ := hstored q hlook
        exact hstor
    · intro q q' hq hq'
      obtain ⟨r, k, e, hacc, _, rs, hsub⟩ := hstored q hq
      obtain ⟨r', k', e', hacc', _, rs', hsub'⟩ := hstored q' hq'
      obtain ⟨rfl, _⟩ := h.envelope_of_accepted hacc hacc'
      exact h.stored_once hsub hsub'
  · intro hx
    obtain ⟨hok, hone⟩ := hx
    have haccepted : ∀ q qr, s.procs q = some qr → ∃ r k e, qr.Finished (.ok (.receipt r)) ∧
        Accepted pf user device dto (eventsOf s.log q) s.db r k e := by
      intro q qr hq
      obtain ⟨a, hr⟩ := hdone q qr hq
      cases a with
      | error x => exact absurd (h.answer_error hq hr) (h.not_refused hactive hmember hok hone)
      | ok v =>
        obtain ⟨_, r, k, e, rfl, hacc⟩ := h.answer_ok hq hr
        exact ⟨r, k, e, hr, hacc⟩
    obtain ⟨_, k, _, _, hacc⟩ := haccepted p pr hp
    refine ⟨k.envelopeId, fun q qr hq => ?_⟩
    obtain ⟨r, _, _, hr, hacc'⟩ := haccepted q qr hq
    exact ⟨r, hr, (h.envelope_of_accepted hacc hacc').2⟩

end

def Key.ident : Key → Option Uuid
  | .device i | .session i | .family i | .token i | .securityEvent i | .auditEvent i | .envelope i
  | .idempotencyRow i | .recipient i | .acknowledgement i => some i
  | .recipientPair e _ => some e
  | .tokenHash _ | .idempotency _ _ => none

section
variable {shared : Key} {D : List Uuid} {held : Bool} {k : Program}

theorem orderly_throw {e : Failure} : (throw e).Orderly shared Key.ident D held := rfl

theorem orderly_check {c : Prop} [Decidable c] {e : Failure}
    (h : k.Orderly shared Key.ident D held) :
    (if c then throw e else k).Orderly shared Key.ident D held := by
  by_cases hc : c
  · rw [if_pos hc]
    exact orderly_throw
  · rw [if_neg hc]
    exact h

theorem orderly_insertEnvelope {e : MessageEnvelope} (he : e.id ∈ D)
    (hk : k.Orderly shared Key.ident D true) :
    (insertEnvelope e k).Orderly shared Key.ident D false := by
  refine ⟨.inr ⟨e.id, he, rfl⟩, fun db => ?_⟩
  iterate 8 apply orderly_check
  exact hk

theorem orderly_insertIdempotencyKey {r : MessageIdempotencyKey} (hr : r.id ∈ D)
    (hshared : Key.idempotency r.senderDeviceId r.idempotencyKey = shared)
    (hk : k.Orderly shared Key.ident D true) :
    (insertIdempotencyKey r k).Orderly shared Key.ident D true := by
  refine ⟨.inr ⟨r.id, hr, rfl⟩, fun _ => ⟨.inl hshared, fun db => ?_⟩⟩
  iterate 5 apply orderly_check
  exact hk

theorem orderly_insertRecipient {r : MessageRecipientDevice} (hr : r.id ∈ D) (he : r.envelopeId ∈ D)
    (hk : k.Orderly shared Key.ident D true) :
    (insertRecipient r k).Orderly shared Key.ident D true := by
  refine ⟨.inr ⟨r.id, hr, rfl⟩, fun _ => ⟨.inr ⟨r.envelopeId, he, rfl⟩, fun db => ?_⟩⟩
  iterate 4 apply orderly_check
  exact hk

theorem orderly_fanOut {envelope : Uuid} {now : Nat} {done : List MessageRecipientDevice}
    {devices : List Uuid} {k : List MessageRecipientDevice → Program} (he : envelope ∈ D)
    (hk : ∀ D' recipients, (k recipients).Orderly shared Key.ident D' true) :
    (fanOut envelope now done devices k).Orderly shared Key.ident D true := by
  induction devices generalizing D done with
  | nil => exact hk D done
  | cons device devices ih =>
    intro rdId
    have he' : envelope ∈ rdId :: D := List.mem_cons_of_mem _ he
    exact orderly_insertRecipient List.mem_cons_self he' (ih he')

theorem orderly_submitEnvelope (pf : Platform) (user device : Uuid) (dto : SubmitMessageEnvelope) :
    (submitEnvelope pf user device dto).Orderly (.idempotency device dto.idempotencyKey) Key.ident
      [] false := by
  intro db
  dsimp only
  split
  · rfl
  · intro db
    dsimp only
    split
    · rfl
    · split
      · rfl
      split
      · rfl
      · refine ⟨fun _ => ⟨[], rfl⟩, fun db _ => ?_⟩
        dsimp only
        split
        · unfold answerCached
          split
          · rfl
          · exact fun _ => rfl
        · refine ⟨fun db => ⟨db.unrevokedDevicesOf dto.recipientUserId, ?_⟩, fun _ devices => ?_⟩
          · exact List.isPerm_iff.mpr (List.Perm.refl _)
          · intro envelopeId idempRecordId now
            unfold readTimes
            iterate 2 apply orderly_check
            apply orderly_insertEnvelope (by simp [envelopeOf])
            apply orderly_insertIdempotencyKey (by simp [keyOf]) rfl
            apply orderly_fanOut (by simp)
            exact fun _ _ => rfl

end

section
variable {pf : Platform} {fk : FkCheck} {user device : Uuid} {dto : SubmitMessageEnvelope}

theorem submissions_finish {db : Db} {clock : Nat} {used : List Uuid} (hdb : db.Holds)
    (hused : ∀ x ∈ db.ids, x ∈ used) {sched : List Choice}
    (hsched : ∀ ch ∈ sched, Choice.Submits user device dto ch) :
    ∃ more : List Choice, ReadCommitted.Server.OnlyExecs more ∧ ∀ p pr,
      (serve pf fk (serve pf fk (.boot db clock used) sched) more).procs p = some pr →
        ∃ r, pr.Finished r := by
  have h : SubmissionRun pf fk user device dto ⟨clock, db⟩ (serve pf fk (.boot db clock used) sched) :=
    submissionRun_of_boot hdb hused hsched
  have hcode : ∀ p c, .call p c ∈ sched → (Call.program pf fk c).Orderly
      (.idempotency device dto.idempotencyKey) Key.ident [] false := by
    intro p c hc
    obtain rfl : c = .submitEnvelope user device dto := hsched _ hc
    exact orderly_submitEnvelope pf user device dto
  have ho : (serve pf fk (.boot db clock used) sched).Orderly
      (.idempotency device dto.idempotencyKey) Key.ident :=
    (ReadCommitted.Server.orderly_boot db clock used).run hcode
  have hps : ∀ p pr, (serve pf fk (.boot db clock used) sched).procs p = some pr →
      p ∈ sched.filterMap Choice.caller := by
    intro p pr hp
    rcases ReadCommitted.Server.run_procs hp with ⟨qr, hq, _⟩ | ⟨c, hc, _⟩
    · simp [ReadCommitted.Server.boot] at hq
    · exact List.mem_filterMap.mpr ⟨_, hc, rfl⟩
  exact ReadCommitted.Server.finish_all h.sound ho hps

/-- Concurrent retries of an active device and a member: they can always all
answer, and once they have, all got the one envelope if and only if the request
was acceptable and only one call looked its key up too early. -/
theorem concurrent_submissions_iff {db : Db} {clock : Nat} {used : List Uuid} (hdb : db.Holds)
    (hused : ∀ x ∈ db.ids, x ∈ used) (hactive : senderActive user device db = true)
    (hmember : db.isMember dto.conversationId user = true) {sched : List Choice}
    (hsched : ∀ ch ∈ sched, Choice.Submits user device dto ch) :
    let s := serve pf fk (.boot db clock used) sched
    (∃ more : List Choice, ReadCommitted.Server.OnlyExecs more ∧
      ∀ p pr, (serve pf fk s more).procs p = some pr → ∃ r, pr.Finished r) ∧
    ((∃ p, s.procs p ≠ none) → (∀ p pr, s.procs p = some pr → ∃ r, pr.Finished r) →
      (AllAccepted s ↔ Acceptable pf user device dto db ∧ OneLookup device dto s)) := by
  intro s
  have h : SubmissionRun pf fk user device dto ⟨clock, db⟩ s :=
    submissionRun_of_boot hdb hused hsched
  exact ⟨submissions_finish hdb hused hsched, h.allAccepted_iff hactive hmember⟩

end

def sampleRetry : List Choice :=
  sampleSubmission ++ .call 1 (.submitEnvelope 1 3 sampleMessage) :: Choice.steps 1 4

theorem sampleRetry_accepted : AllAccepted (serve samplePlatform .atCommit sampleStart sampleRetry) := by
  have hsched : ∀ ch ∈ sampleRetry, Choice.Submits 1 3 sampleMessage ch := by
    simp [sampleRetry, sampleSubmission, Choice.steps, Choice.Submits]
  have hactive : senderActive 1 3 sampleDb = true := by decide
  have hmember : sampleDb.isMember sampleMessage.conversationId 1 = true := by decide
  have hlog : (serve samplePlatform .atCommit sampleStart sampleRetry).log =
      [(0, .idempotencyKeyRead 3 "k" none), (0, .recipientDevicesRead 2 [4, 5]),
        (0, .envelopeSubmitted (envelopeOf samplePlatform 1 3 sampleMessage 10 0)
          (keyOf samplePlatform 3 sampleMessage 11 10 0)
            [newRecipient 12 10 4 0, newRecipient 13 10 5 0]),
        (1, .idempotencyKeyRead 3 "k" (some 10))] := by decide
  have hcalled : ∃ p, (serve samplePlatform .atCommit sampleStart sampleRetry).procs p ≠ none := by
    refine ⟨0, ?_⟩
    rw [← Option.isSome_iff_ne_none]
    decide
  have hdone : ∀ p pr, (serve samplePlatform .atCommit sampleStart sampleRetry).procs p = some pr →
      ∃ r, pr.Finished r := by
    intro p pr hp
    have hfin : ∀ q ∈ [0, 1], (((serve samplePlatform .atCommit sampleStart sampleRetry).procs q).bind
        (·.program.result)).isSome = true := by decide
    have hq : p ∈ [0, 1] := by
      rcases ReadCommitted.Server.run_procs hp with ⟨qr, hq, _⟩ | ⟨c, hc, _⟩
      · simp [sampleStart, ReadCommitted.Server.boot] at hq
      · have hpc : (p = 0 ∧ c = .submitEnvelope 1 3 sampleMessage) ∨
            (p = 1 ∧ c = .submitEnvelope 1 3 sampleMessage) := by
          simpa [sampleRetry, sampleSubmission, Choice.steps] using hc
        rcases hpc with ⟨rfl, _⟩ | ⟨rfl, _⟩ <;> simp
    have hres := hfin p hq
    rw [hp, Option.bind_some] at hres
    obtain ⟨r, hr⟩ := Option.isSome_iff_exists.mp hres
    exact ⟨r, Program.result_eq_some.mp hr⟩
  have hok : Acceptable samplePlatform 1 3 sampleMessage sampleDb := by
    refine ⟨by decide, by decide, fun k hk => ?_, fun _ => ?_⟩
    · exact absurd hk (by simp [Db.idempotencyRecord, sampleDb, Db.empty])
    · constructor <;> decide
  have hone : OneLookup 3 sampleMessage (serve samplePlatform .atCommit sampleStart sampleRetry) := by
    intro p q hp hq
    have hp₀ : p = 0 := by simpa [hlog, sampleMessage] using hp
    have hq₀ : q = 0 := by simpa [hlog, sampleMessage] using hq
    omega
  exact ((concurrent_submissions_iff sampleDb_initial.holds (by decide) hactive hmember hsched).2
    hcalled hdone).mpr ⟨hok, hone⟩

def sampleRace : List Choice :=
  [.call 0 (.submitEnvelope 1 3 sampleMessage), .call 1 (.submitEnvelope 1 3 sampleMessage)] ++
    Choice.steps 0 3 ++ Choice.steps 1 3 ++ sampleSubmission.drop 4 ++
    [.exec 1 [4, 5], .exec 1 [14], .exec 1 [15]] ++ Choice.steps 1 6

/-- Two calls that both look before the first commits: the second violates the unique index. -/
theorem sampleRace_refused :
    let s := serve samplePlatform .atCommit sampleStart sampleRace
    (∀ ch ∈ sampleRace, Choice.Submits 1 3 sampleMessage ch) ∧
      senderActive 1 3 sampleDb = true ∧ sampleDb.isMember 6 1 = true ∧
      s.Returned 1 (.submitEnvelope 1 3 sampleMessage)
        (.error (.uniqueViolation "unq_device_idempotency")) ∧ ¬ AllAccepted s := by
  intro s
  have hrefused : s.Returned 1 (.submitEnvelope 1 3 sampleMessage)
      (.error (.uniqueViolation "unq_device_idempotency")) := by decide
  refine ⟨?_, by decide, by decide, hrefused, ?_⟩
  · simp [sampleRace, sampleSubmission, Choice.steps, Choice.Submits]
  · intro hx
    obtain ⟨envelope, hall⟩ := hx
    obtain ⟨pr, hp, _, hr⟩ := ReadCommitted.Server.returned_iff.mp hrefused
    obtain ⟨r, hr', _⟩ := hall 1 pr hp
    have heq := hr.symm.trans hr'
    simp at heq

end GuffSuff
