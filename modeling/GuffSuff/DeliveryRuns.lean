import GuffSuff.ReadCommitted.Commits
import GuffSuff.RevokedDevices

/-! The records of the recipient devices over whole runs: what each commit makes
of a record, and what a submission creates. -/

namespace GuffSuff

open ReadCommitted MessageEnvelopeService TransportProcessor
open ReadCommitted.Server (eventsOf mem_eventsOf)

section
variable (pf : Platform) (fk : FkCheck)

abbrev Commits (s : Server) (sched : List Choice) (s' : Server) (e : Event) : Prop :=
  ReadCommitted.Server.Commits (Call.program pf fk) Call.aborted s sched s' e

abbrev Always (P : Db → Prop) (s : Server) (sched : List Choice) : Prop :=
  ReadCommitted.Server.Always (Call.program pf fk) Call.aborted P s sched

abbrev Stays (P : Db → Prop) (s : Server) (sched : List Choice) : Prop :=
  ReadCommitted.Server.Stays (Call.program pf fk) Call.aborted P s sched

end

section
variable {pf : Platform} {fk : FkCheck} {w₀ : World Db} {s s' : Server} {sched : List Choice}
variable {db : Db} {e : Event} {record : Uuid} {r : MessageRecipientDevice}

variable (pf) in
theorem Event.lookup_recipient (e : Event) (h : lookup db.messageRecipientDevices record = some r) :
    lookup (applyAll (e.writes pf) db).messageRecipientDevices record = some (e.onRecipient r) := by
  have hkey : (fun r => decide (Keyed.key r = record)) ∘ e.onRecipient =
      fun r : MessageRecipientDevice => decide (Keyed.key r = record) := by
    funext r
    simp only [Function.comp_apply, MessageRecipientDevice.key_eq, e.id_onRecipient]
  rw [e.recipients_writes, lookup_append]
  have hmap : lookup (db.messageRecipientDevices.map e.onRecipient) record = some (e.onRecipient r) := by
    rw [lookup, List.find?_map, hkey]
    exact congrArg (Option.map e.onRecipient) h
  rw [hmap]
  rfl

theorem Event.mem_recipients_writes (h : r ∈ (applyAll (e.writes pf) db).messageRecipientDevices) :
    (∃ q ∈ db.messageRecipientDevices, e.onRecipient q = r) ∨ r ∈ e.newRecipients := by
  rw [e.recipients_writes] at h
  exact (List.mem_append.mp h).imp_left List.mem_map.mp

theorem SoundRun.stays (h : SoundRun pf fk w₀ s) {P : Db → Prop}
    (hP : ∀ s' e, SoundRun pf fk w₀ s' → Commits pf fk s sched s' e →
      e.Allowed pf s'.clock s'.db → P s'.db → P (applyAll (e.writes pf) s'.db)) :
    Stays pf fk P s sched := by
  refine ReadCommitted.Server.Stays.of_commits h (fun ch _ => faulty_covers ch) ?_
  rintro s' e db' hc ⟨ha, rfl⟩ hp
  exact hP s' e (hc.sound h fun ch _ => faulty_covers ch) hc ha hp

theorem SoundRun.always (h : SoundRun pf fk w₀ s) {P : Db → Prop} (hp : P s.db)
    (hP : ∀ s' e, SoundRun pf fk w₀ s' → Commits pf fk s sched s' e →
      e.Allowed pf s'.clock s'.db → P s'.db → P (applyAll (e.writes pf) s'.db)) :
    Always pf fk P s sched := by
  intro first rest hsplit
  exact h.stays hP [] first rest (by simpa using hsplit) hp

theorem SoundRun.commit_step (h : SoundRun pf fk w₀ s) (hc : Commits pf fk s sched s' e) :
    ∃ first ch rest p, sched = first ++ [ch] ++ rest ∧ s' = serve pf fk s first ∧
      (serve pf fk s (first ++ [ch])).log = s'.log ++ [(p, e)] ∧ e.Allowed pf s'.clock s'.db ∧
        (serve pf fk s (first ++ [ch])).db = applyAll (e.writes pf) s'.db := by
  obtain ⟨first, ch, rest, p, hsched, hs', hlog, ha, hdb⟩ := hc.after h fun ch _ => faulty_covers ch
  exact ⟨first, ch, rest, p, hsched, hs', hlog, ha, hdb⟩

theorem SoundRun.commit_logged (h : SoundRun pf fk w₀ s) (hc : Commits pf fk s sched s' e) :
    ∃ p, (p, e) ∈ (serve pf fk s sched).log := by
  obtain ⟨first, ch, rest, p, rfl, rfl, hlog, _⟩ := h.commit_step hc
  obtain ⟨new, hnew, _⟩ := (h.run (first ++ [ch])).added rest
  refine ⟨p, ?_⟩
  rw [serve_append, hnew.log, hlog]
  simp

end

/-- The deliveries that the event starts have not been attempted yet. -/
def Event.Unattempted (e : Event) : Prop := ∀ r ∈ e.newRecipients, r.deliveryAttemptsCount = 0

section
variable {pf : Platform} {fk : FkCheck} {R : Db → Db → Prop} {E : Event → Prop}

theorem keeps_readTimes {dto : SubmitMessageEnvelope} {k : Program} (hk : k.Keeps (fun _ _ => True) E) :
    (readTimes dto k).Keeps (fun _ _ => True) E := by
  unfold readTimes
  split
  · trivial
  split
  · trivial
  · exact hk

theorem keeps_insertEnvelope {e : MessageEnvelope} {k : Program} (hk : k.Keeps (fun _ _ => True) E) :
    (insertEnvelope e k).Keeps (fun _ _ => True) E := by
  intro db
  dsimp only
  repeat' split
  all_goals first | trivial | exact ⟨fun _ => trivial, hk⟩

theorem keeps_insertIdempotencyKey {r : MessageIdempotencyKey} {k : Program}
    (hk : k.Keeps (fun _ _ => True) E) : (insertIdempotencyKey r k).Keeps (fun _ _ => True) E := by
  intro _ db
  dsimp only
  repeat' split
  all_goals first | trivial | exact ⟨fun _ => trivial, hk⟩

theorem keeps_insertRecipient {r : MessageRecipientDevice} {k : Program}
    (hk : k.Keeps (fun _ _ => True) E) : (insertRecipient r k).Keeps (fun _ _ => True) E := by
  intro _ db
  dsimp only
  repeat' split
  all_goals first | trivial | exact ⟨fun _ => trivial, hk⟩

theorem keeps_fanOut {envelope : Uuid} {now : Nat} {k : List MessageRecipientDevice → Program}
    (hk : ∀ records : List MessageRecipientDevice, (∀ r ∈ records, r.deliveryAttemptsCount = 0) →
      (k records).Keeps (fun _ _ => True) E)
    (devices : List Uuid) {done : List MessageRecipientDevice}
    (hdone : ∀ r ∈ done, r.deliveryAttemptsCount = 0) :
    (fanOut envelope now done devices k).Keeps (fun _ _ => True) E := by
  induction devices generalizing done with
  | nil => exact hk done hdone
  | cons device devices ih =>
    intro rdId
    apply keeps_insertRecipient
    apply ih
    intro r hr
    rcases List.mem_append.mp hr with hr | hr
    · exact hdone r hr
    · obtain rfl := List.mem_singleton.mp hr
      rfl

theorem keeps_submitEnvelope {user device : Uuid} {dto : SubmitMessageEnvelope} :
    (submitEnvelope pf user device dto).Keeps (fun _ _ => True) Event.Unattempted := by
  intro db
  dsimp only
  split
  · trivial
  · intro db'
    dsimp only
    split
    · trivial
    · split
      · trivial
      split
      · trivial
      · intro db'' ids
        refine ⟨fun _ hr => absurd hr List.not_mem_nil, ?_⟩
        dsimp only
        split
        · unfold answerCached
          split
          · trivial
          · exact fun _ => trivial
        · intro _ devices
          refine ⟨fun _ hr => absurd hr List.not_mem_nil, ?_⟩
          intro envelopeId idempRecordId now
          apply keeps_readTimes
          apply keeps_insertEnvelope
          apply keeps_insertIdempotencyKey
          refine keeps_fanOut (fun records hrecords => ?_) devices (by simp)
          exact ⟨hrecords, trivial⟩

variable {db : Db} {clock : Nat} {used : List Uuid} {sched : List Choice} {s' : Server} {e : Event}

theorem keeps_of_submission {first : List Choice} {p : Nat} {user device : Uuid}
    {dto : SubmitMessageEnvelope} {pr : Process Db Key Uuid Event Answer Call}
    (hp : (serve pf fk (.boot db clock used) first).procs p = some pr)
    (hc : pr.call = .submitEnvelope user device dto) :
    pr.program.Keeps (fun _ _ => True) Event.Unattempted := by
  refine ReadCommitted.Server.run_keeps (I := fun _ => True) (fun pr =>
    pr.call = .submitEnvelope user device dto → pr.program.Keeps (fun _ _ => True) Event.Unattempted)
      ?_ ?_ ?_ ?_ ?_ hp hc
  · exact fun _ _ _ => trivial
  · intro c w _ hcall
    obtain rfl : c = .submitEnvelope user device dto := hcall
    exact keeps_submitEnvelope
  · intro s' ids pr pr' _ hp h hp' hcall
    have hcall' := (ReadCommitted.Server.call_of_exec hp hp').symm.trans hcall
    exact ReadCommitted.Server.exec_keeps hp (h hcall') hp'
  · exact fun _ _ _ _ => trivial
  · exact fun pr hp => absurd hp (by simp [ReadCommitted.Server.boot])

theorem serve_exec {s : Server} {p : Nat} {pr : Process Db Key Uuid Event Answer Call}
    (hp : s.procs p = some pr) (ids : List Uuid) :
    serve pf fk s [.exec p ids] = ReadCommitted.Server.exec s p ids pr := by
  simp only [serve, ReadCommitted.Server.run, List.foldl_cons, List.foldl_nil,
    ReadCommitted.Server.step, hp]

theorem commits_unattempted (hdb : db.Initial) (hused : ∀ x ∈ db.ids, x ∈ used)
    (hc : Commits pf fk (.boot db clock used) sched s' e) : e.Unattempted := by
  have hboot : SoundRun pf fk ⟨clock, db⟩ (.boot db clock used) := hdb.boot hused
  obtain ⟨first, ch, rest, rfl, rfl, hcommit⟩ := hc
  obtain ⟨p, ids, pr, k, rfl, hp, hprog⟩ := ReadCommitted.Server.committing_eq_some hcommit
  change (serve pf fk (.boot db clock used) first).procs p = some pr at hp
  cases e with
  | envelopeSubmitted envelope record recipients =>
    have hs := (hboot.run first).run [.exec p ids]
    rw [serve_exec hp] at hs
    have hlog : (p, .envelopeSubmitted envelope record recipients) ∈ (ReadCommitted.Server.exec
        (serve pf fk (.boot db clock used) first) p ids pr).log := by
      simp [ReadCommitted.Server.exec, hprog, ReadCommitted.Server.setProc]
    obtain ⟨pr', hp', ht⟩ := hs.trace_of_log hlog
    obtain ⟨user, device, dto, hcall, _⟩ := Call.submission_of_trace ht (mem_eventsOf.mpr hlog) rfl
    have hcall' := (ReadCommitted.Server.call_of_exec hp hp').symm.trans hcall
    have hkeeps := keeps_of_submission hp hcall'
    rw [hprog] at hkeeps
    exact hkeeps.1
  | _ => exact fun _ hr => absurd hr List.not_mem_nil

end

end GuffSuff
