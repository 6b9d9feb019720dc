import GuffSuff.ReadCommitted.Runs
import GuffSuff.RegistrationLockService

/-! Runs of the registration lock: what its statements do to the tables, and
what each call records on the way. -/

namespace GuffSuff

open ReadCommitted

namespace RegistrationLock

inductive Cell where
  | credential (row : Option Credential)
  | attempt (row : Option Attempt)
  | securityEvent (row : Option SecurityEvent)

namespace Db

def cell : Key → Db → Cell
  | .credential user, db => .credential (lookup db.registrationLockCredentials user)
  | .attempt id, db => .attempt (lookup db.registrationLockAttempts id)
  | .securityEvent id, db => .securityEvent (lookup db.securityEvents id)

def ids (db : Db) : List Uuid := keys db.registrationLockAttempts ++ keys db.securityEvents

def Holds (db : Db) : Prop := (keys db.registrationLockCredentials).Nodup

end Db

namespace Event

def touches : Event → List Key
  | attemptRecorded a => [.attempt a.id]
  | pinSet user .. => [.credential user]
  | pinDeleted user .. => [.credential user]
  | securityEventLogged e => [.securityEvent e.id]
  | _ => []

def inserts : Event → List Uuid
  | attemptRecorded a => [a.id]
  | securityEventLogged e => [e.id]
  | _ => []

/-- What the code has read or computed when the event happens. -/
def Allowed (pf : Platform) (db : Db) : Event → Prop
  | failuresCounted user now failures => failures = db.failures user now
  | hashRead user hash =>
    hash = (lookup db.registrationLockCredentials user).map Credential.pinArgon2Hash
  | pinSet user pin hash _ previous => previous = lookup db.registrationLockCredentials user ∧
      ∃ salt, hash = pf.argon2Hash salt (getPepperedPin pf pin)
  | pinDeleted user _ previous => previous = lookup db.registrationLockCredentials user
  | _ => True

end Event

section
variable {db : Db} {e : Event}

theorem Db.key_rehash (hash : Digest) (now : Nat) (r : Credential) :
    (Keyed.key (rehash hash now r) : Uuid) = Keyed.key r := rfl

theorem Db.lookup_upsertCredential (user : Uuid) (hash : Digest) (now : Nat) (db : Db) (other : Uuid) :
    lookup (db.upsertCredential user hash now).registrationLockCredentials other =
      if other = user then
        some (((lookup db.registrationLockCredentials user).map (rehash hash now)).getD
            { userId := user, pinArgon2Hash := hash, enabledAt := now, updatedAt := now })
      else lookup db.registrationLockCredentials other := by
  unfold Db.upsertCredential
  by_cases hmem : user ∈ keys db.registrationLockCredentials
  · obtain ⟨r, hr⟩ := Option.isSome_iff_exists.mp (lookup_isSome.mpr hmem)
    rw [if_pos hmem]
    by_cases heq : other = user
    · subst heq
      simp [lookup_updateRows (key_rehash hash now), hr]
    · simp [lookup_updateRows (key_rehash hash now), heq]
  · rw [if_neg hmem]
    by_cases heq : other = user
    · subst heq
      rw [if_pos rfl, lookup_append, lookup_eq_none.mpr hmem]
      simp [lookup]
    · rw [if_neg heq, lookup_insert_of_ne heq]

theorem Event.cell_apply {k : Key} (h : k ∉ e.touches) (db : Db) :
    (e.apply db).cell k = db.cell k := by
  cases e with
  | attemptRecorded a =>
    cases k with
    | attempt id =>
      have hne : id ≠ a.id := by simpa [Event.touches] using h
      exact congrArg Cell.attempt (lookup_insert_of_ne (by simpa using hne))
    | _ => rfl
  | pinSet user pin hash now previous =>
    cases k with
    | credential other =>
      have hne : other ≠ user := by simpa [Event.touches] using h
      simp only [Event.apply, Db.cell, Db.lookup_upsertCredential, hne, if_false]
    | _ => simp only [Event.apply, Db.upsertCredential]; split <;> rfl
  | pinDeleted user pin previous =>
    cases k with
    | credential other =>
      have hne : other ≠ user := by simpa [Event.touches] using h
      simp [Event.apply, Db.deleteCredential, Db.cell, lookup_deleteRow, hne]
    | _ => rfl
  | securityEventLogged e =>
    cases k with
    | securityEvent id =>
      have hne : id ≠ e.id := by simpa [Event.touches] using h
      exact congrArg Cell.securityEvent (lookup_insert_of_ne (by simpa using hne))
    | _ => rfl
  | _ => rfl

theorem Event.ids_apply {x : Uuid} (h : x ∈ (e.apply db).ids) : x ∈ db.ids ∨ x ∈ e.inserts := by
  cases e with
  | attemptRecorded a =>
    simp only [Event.apply, Db.insertAttempt, Db.ids, keys_append, List.mem_append] at h ⊢
    simp only [Event.inserts]
    rcases h with (h | h) | h
    · exact .inl (.inl h)
    · exact .inr h
    · exact .inl (.inr h)
  | pinSet user pin hash now previous =>
    left
    simp only [Event.apply, Db.upsertCredential] at h
    split at h <;> exact h
  | securityEventLogged e =>
    simp only [Event.apply, Db.insertSecurityEvent, Db.ids, keys_append, List.mem_append] at h ⊢
    simp only [Event.inserts]
    rcases h with h | h | h
    · exact .inl (.inl h)
    · exact .inl (.inr h)
    · exact .inr h
  | _ => exact .inl h

theorem Db.Holds.event (h : db.Holds) (e : Event) : (e.apply db).Holds := by
  cases e with
  | pinSet user pin hash now previous =>
    simp only [Event.apply, Db.Holds, Db.upsertCredential]
    by_cases hmem : user ∈ keys db.registrationLockCredentials
    · rw [if_pos hmem]
      exact (keys_updateRows _ [user] (Db.key_rehash hash now)).symm ▸ h
    · rw [if_neg hmem, keys_append]
      exact h.append (List.nodup_singleton _) (by simpa [keys] using hmem)
  | pinDeleted user pin previous => exact h.sublist (keys_deleteRow _ _)
  | _ => exact h

end

/-- The registration lock as a specification of its single statements. -/
def lock (pf : Platform) : Spec Db Key Uuid Event Cell where
  moves _ db e db' := e.Allowed pf db ∧ db' = e.apply db
  holds _ db := db.Holds
  cell := Db.cell
  has x db := x ∈ db.ids
  holds_move := by
    intro _ _ e _ h hm
    obtain ⟨_, rfl⟩ := hm
    exact h.event e
  holds_tick := fun h _ => h

/-- What a verification of a PIN records, from its count to its attempt row. -/
inductive Verification (pf : Platform) (user : Uuid) (pin : String) : List Event → Prop
  | start : Verification pf user pin []
  | counted (now failures : Nat) : Verification pf user pin [.failuresCounted user now failures]
  | read (now failures : Nat) (hash : Option Digest) (hn : failures < maxFailures) :
      Verification pf user pin [.failuresCounted user now failures, .hashRead user hash]
  | compared (now failures comparedAt : Nat) (hash : Digest) (hn : failures < maxFailures)
      (hc : now ≤ comparedAt) :
      Verification pf user pin [.failuresCounted user now failures, .hashRead user (some hash),
        .pinCompared user pin hash comparedAt]

/-- The events of a verification that has recorded its attempt. -/
structure Verified (pf : Platform) (user : Uuid) (pin : String) (now failures comparedAt : Nat)
    (hash : Digest) (a : Attempt) : Prop where
  unlocked : failures < maxFailures
  counted : now ≤ comparedAt
  user : a.userId = user
  outcome : a.isSuccessful = pinMatches pf hash pin
  recorded : comparedAt ≤ a.createdAt

def verifiedEvents (user : Uuid) (pin : String) (now failures comparedAt : Nat) (hash : Digest)
    (a : Attempt) : List Event :=
  [.failuresCounted user now failures, .hashRead user (some hash),
    .pinCompared user pin hash comparedAt, .attemptRecorded a]

/-- What a call records: `more` comes after its attempt row. -/
def Verifies (pf : Platform) (user : Uuid) (pin : String) (more : Digest → List Event → Prop)
    (es : List Event) : Prop :=
  Verification pf user pin es ∨ ∃ now failures comparedAt hash a rest,
    Verified pf user pin now failures comparedAt hash a ∧ more hash rest ∧
      es = verifiedEvents user pin now failures comparedAt hash a ++ rest

inductive Deletion (pf : Platform) (user : Uuid) (pin : String) (hash : Digest) : List Event → Prop
  | start : Deletion pf user pin hash []
  | deleted (previous : Option Credential) (h : pinMatches pf hash pin = true) :
      Deletion pf user pin hash [.pinDeleted user pin previous]
  | logged (previous : Option Credential) (e : SecurityEvent) (h : pinMatches pf hash pin = true) :
      Deletion pf user pin hash [.pinDeleted user pin previous, .securityEventLogged e]

inductive Setting (user : Uuid) (pin : String) : List Event → Prop
  | start : Setting user pin []
  | set (hash : Digest) (now : Nat) (previous : Option Credential) :
      Setting user pin [.pinSet user pin hash now previous]
  | logged (hash : Digest) (now : Nat) (previous : Option Credential) (e : SecurityEvent) :
      Setting user pin [.pinSet user pin hash now previous, .securityEventLogged e]

def Call.trace (pf : Platform) : Call → List Event → Prop
  | .setPin user pin => Setting user pin
  | .verifyPin user pin _ => Verifies pf user pin fun _ rest => rest = []
  | .disablePin user pin => Verifies pf user pin (Deletion pf user pin)

/-- What a call promises: the events it records. -/
def Call.contract (pf : Platform) (c : Call) (_ : World Db) : Spec.Contract Db Event Answer where
  trace := c.trace pf
  answer _ _ _ := True

section
variable {pf : Platform} {C : Spec.Contract Db Event Answer} {L : List Key} {D : List Uuid}
variable {es : List Event} {w : World Db}

theorem safe_answer (hC : ∀ r es w, C.answer r es w) (r : Answer) {f : Db → Db} :
    (lock pf).Safe C (.ret r) L D f es w := fun w' _ _ => hC r es w'

theorem safe_throw (hC : ∀ r es w, C.answer r es w) (x : Failure) {f : Db → Db} :
    (lock pf).Safe C (throw x) L D f es w := fun w' _ _ => hC _ es w'

theorem safe_commit {e : Event} {k : Program} (hL : ∀ k ∈ e.touches, k ∈ L)
    (hD : ∀ i ∈ e.inserts, i ∈ D)
    (h : ∀ w', (lock pf).Rely L D w w' → w'.db.Holds → e.Allowed pf w'.db ∧ C.trace (es ++ [e]) ∧
      (lock pf).Safe C k [] D id (es ++ [e]) ⟨w'.clock, e.apply w'.db⟩) :
    (lock pf).Safe C (.commit e k) L D e.apply es w := by
  intro w' hr hi
  obtain ⟨ha, ht, hk⟩ := h w' hr hi
  refine ⟨⟨ha, rfl⟩, fun key hkey => ?_, fun x hx => ?_, ht, hk⟩
  · exact Event.cell_apply (fun hmem => hkey (hL key hmem)) w'.db
  · rcases Event.ids_apply hx with hx | hx
    · exact .inl hx
    · exact .inr (hD x hx)

theorem safe_observe {e : Db → List Uuid → Event} {k : Db → List Uuid → Program}
    (hpure : ∀ db ids, (e db ids).apply db = db)
    (h : ∀ w', (lock pf).Rely L D w w' → w'.db.Holds → ∀ ids,
      (e w'.db ids).Allowed pf w'.db ∧ C.trace (es ++ [e w'.db ids]) ∧
        (lock pf).Safe C (k w'.db ids) L D id (es ++ [e w'.db ids]) w') :
    (lock pf).Safe C (.observe (fun _ _ => true) e k) L D id es w := by
  intro w' hr hi ids _
  obtain ⟨ha, ht, hk⟩ := h w' hr hi ids
  exact ⟨⟨ha, (hpure _ _).symm⟩, ht, hk⟩

theorem safe_insertSecurityEvent (hC : ∀ r es w, C.answer r es w) {e : SecurityEvent} {k : Program}
    (hD : e.id ∈ D) (ht : C.trace (es ++ [.securityEventLogged e]))
    (hk : ∀ w', (lock pf).Safe C k [] D id (es ++ [.securityEventLogged e]) w') :
    (lock pf).Safe C (insertSecurityEvent e k) L D id es w := by
  intro w' hr hi
  dsimp only
  split
  · exact safe_throw hC _
  · split
    · exact safe_throw hC _
    · exact safe_commit (e := .securityEventLogged e) (by simp [Event.touches])
        (by simpa [Event.inserts] using hD) fun w'' _ _ => ⟨trivial, ht, hk _⟩

theorem safe_insertAttempt (hC : ∀ r es w, C.answer r es w) {a : Attempt} {k : Program}
    (hD : a.id ∈ D) (ht : C.trace (es ++ [.attemptRecorded a]))
    (hk : ∀ w', (lock pf).Safe C k [] D id (es ++ [.attemptRecorded a]) w') :
    (lock pf).Safe C (insertAttempt a k) L D id es w := by
  intro w' hr hi
  dsimp only
  split
  · exact safe_throw hC _
  · split
    · exact safe_throw hC _
    · split
      · exact safe_throw hC _
      · exact safe_commit (e := .attemptRecorded a) (by simp [Event.touches])
          (by simpa [Event.inserts] using hD) fun w'' _ _ => ⟨trivial, ht, hk _⟩

theorem safe_verify (hC : ∀ r es w, C.answer r es w) {user : Uuid} {pin : String} {ip : Option String}
    {k : Bool → Program} (ht : ∀ es, Verification pf user pin es → C.trace es)
    (hk : ∀ now failures comparedAt hash a, Verified pf user pin now failures comparedAt hash a →
      C.trace (verifiedEvents user pin now failures comparedAt hash a) ∧ ∀ D w,
        (lock pf).Safe C (k (pinMatches pf hash pin)) [] D id
          (verifiedEvents user pin now failures comparedAt hash a) w) :
    (lock pf).Safe C (verify pf user pin ip k) [] [] id [] w := by
  intro w₁ hr₁ hi₁
  apply safe_observe fun _ _ => rfl
  intro w₂ hr₂ hi₂ _
  refine ⟨rfl, ht _ (.counted ..), ?_⟩
  by_cases hlocked : maxFailures ≤ w₂.db.failures user w₁.clock
  · rw [if_pos hlocked]
    exact safe_answer hC _
  · rw [if_neg hlocked]
    have hn := Nat.not_le.mp hlocked
    apply safe_observe fun _ _ => rfl
    intro w₃ hr₃ hi₃ _
    refine ⟨rfl, ht _ (.read _ _ _ hn), ?_⟩
    cases hrow : lookup w₃.db.registrationLockCredentials user with
    | none => exact safe_answer hC _
    | some row =>
      intro w₄ hr₄ hi₄
      have hclock : w₁.clock ≤ w₄.clock :=
        (hr₂.later.trans (hr₃.later.trans hr₄.later)).clock_le
      apply safe_observe fun _ _ => rfl
      intro w₅ hr₅ hi₅ _
      refine ⟨trivial, ht _ (.compared _ _ _ _ hn hclock), ?_⟩
      intro w₆ hr₆ hi₆ id hid hnew w₇ hr₇ hi₇
      have hlater : w₄.clock ≤ w₇.clock :=
        (hr₅.later.trans (hr₆.later.trans hr₇.later)).clock_le
      have hv : Verified pf user pin w₁.clock (w₂.db.failures user w₁.clock) w₄.clock
          row.pinArgon2Hash
          { id, userId := user, isSuccessful := pinMatches pf row.pinArgon2Hash pin,
            ipAddress := ipOrNull ip, createdAt := w₇.clock } :=
        ⟨hn, hclock, rfl, rfl, hlater⟩
      obtain ⟨htrace, hsafe⟩ := hk _ _ _ _ _ hv
      exact safe_insertAttempt hC List.mem_cons_self htrace fun w' => hsafe _ w'

theorem safe_setPin (user : Uuid) (pin : String) :
    (lock pf).Safe ((Call.setPin user pin).contract pf w) (setPin pf user pin) [] [] id [] w := by
  have hC : ∀ r es w', ((Call.setPin user pin).contract pf w).answer r es w' := fun _ _ _ => trivial
  unfold setPin hashPin
  split
  · exact safe_answer hC _
  · intro w₁ hr₁ hi₁ salt _ w₂ hr₂ hi₂ w₃ hr₃ hi₃
    dsimp only
    split
    · exact safe_throw hC _
    · refine safe_commit (e := .pinSet user pin (pf.argon2Hash salt (getPepperedPin pf pin)) w₂.clock
        (lookup w₃.db.registrationLockCredentials user)) (by simp [Event.touches])
        (by simp [Event.inserts]) fun w₄ hr₄ hi₄ => ⟨?_, .set _ _ _, ?_⟩
      · have hsame := hr₄.same (.credential user) List.mem_cons_self
        exact ⟨(Cell.credential.inj hsame).symm, salt, rfl⟩
      · intro w₅ hr₅ hi₅ eventId _ _
        exact safe_insertSecurityEvent hC List.mem_cons_self (.logged _ _ _ _)
          fun w' => safe_answer hC _

theorem safe_verifyPin (user : Uuid) (pin : String) (ip : Option String) :
    (lock pf).Safe ((Call.verifyPin user pin ip).contract pf w) (verifyPin pf user pin ip) [] [] id [] w := by
  apply safe_verify fun _ _ _ => trivial
  · exact fun es h => .inl h
  · intro now failures comparedAt hash a hv
    refine ⟨.inr ⟨now, failures, comparedAt, hash, a, [], hv, rfl, by simp⟩, fun D w' => ?_⟩
    exact safe_answer (fun _ _ _ => trivial) _

theorem safe_disablePin (user : Uuid) (pin : String) :
    (lock pf).Safe ((Call.disablePin user pin).contract pf w) (disablePin pf user pin) [] [] id [] w := by
  have hC : ∀ r es w', ((Call.disablePin user pin).contract pf w).answer r es w' := fun _ _ _ => trivial
  apply safe_verify hC
  · exact fun es h => .inl h
  · intro now failures comparedAt hash a hv
    have htrace : ∀ rest, Deletion pf user pin hash rest →
        ((Call.disablePin user pin).contract pf w).trace
          (verifiedEvents user pin now failures comparedAt hash a ++ rest) :=
      fun rest hrest => .inr ⟨now, failures, comparedAt, hash, a, rest, hv, hrest, rfl⟩
    refine ⟨by simpa using htrace [] .start, fun D w₀ => ?_⟩
    split
    · exact safe_answer hC _
    · rename_i hmatch
      have hpin : pinMatches pf hash pin = true := by simpa using hmatch
      intro w₁ hr₁ hi₁
      refine safe_commit (e := .pinDeleted user pin (lookup w₁.db.registrationLockCredentials user))
        (by simp [Event.touches]) (by simp [Event.inserts]) fun w₂ hr₂ hi₂ => ⟨?_, ?_, ?_⟩
      · have hsame := hr₂.same (.credential user) List.mem_cons_self
        exact (Cell.credential.inj hsame).symm
      · exact htrace _ (.deleted _ hpin)
      · intro w₃ hr₃ hi₃ eventId _ _ w₄ hr₄ hi₄
        apply safe_insertSecurityEvent hC List.mem_cons_self
        · rw [List.append_assoc]
          exact htrace _ (.logged _ _ hpin)
        · exact fun w' => safe_answer hC _

end

abbrev Server := ReadCommitted.Server Db Key Uuid Event Answer Call
abbrev Choice := ReadCommitted.Choice Uuid Call

def serve (pf : Platform) (s : Server) (sched : List Choice) : Server :=
  s.run (Call.program pf) Call.aborted sched

abbrev SoundRun (pf : Platform) (w₀ : World Db) (s : Server) : Prop :=
  ReadCommitted.Server.Sound (lock pf) (Call.contract pf) w₀ s

section
variable {pf : Platform} {w₀ : World Db} {s : Server}

theorem Call.trace_nil (c : Call) : c.trace pf [] := by
  cases c with
  | setPin user pin => exact .start
  | _ => exact .inl .start

theorem Call.safe_program (c : Call) (w : World Db) :
    (lock pf).Safe (c.contract pf w) (c.program pf) [] [] id [] w := by
  cases c with
  | setPin user pin => exact safe_setPin user pin
  | verifyPin user pin ip => exact safe_verifyPin user pin ip
  | disablePin user pin => exact safe_disablePin user pin

theorem covers (ch : Choice) : ReadCommitted.Server.Covers (lock pf) (Call.contract pf) (Call.program pf)
    Call.aborted ch := by
  cases ch with
  | call p c => exact fun w _ => ⟨c.trace_nil, c.safe_program w⟩
  | fail p => exact fun _ _ _ _ => trivial
  | _ => trivial

theorem soundRun_boot {db : Db} {clock : Nat} {used : List Uuid} (hdb : db.Holds)
    (hused : ∀ x ∈ db.ids, x ∈ used) (sched : List Choice) :
    SoundRun pf ⟨clock, db⟩ (serve pf (.boot db clock used) sched) :=
  (ReadCommitted.Server.sound_boot hdb hused).run fun ch _ => covers ch

def Event.attempt : Event → Option Attempt
  | attemptRecorded a => some a
  | _ => none

theorem attempts_of_path {v w : World Db} {es : List Event} (h : (lock pf).Path v es w) :
    w.db.registrationLockAttempts =
      v.db.registrationLockAttempts ++ es.filterMap Event.attempt := by
  induction h with
  | refl => simp
  | tick _ _ ih => exact ih
  | @move es c db _ e _ hm ih =>
    obtain ⟨_, rfl⟩ := hm
    have hnew : (e.apply db).registrationLockAttempts =
        db.registrationLockAttempts ++ e.attempt.toList := by
      cases e with
      | pinSet user pin hash now previous =>
        simp only [Event.apply, Db.upsertCredential]
        split <;> simp [Event.attempt]
      | _ => simp [Event.apply, Db.insertAttempt, Db.deleteCredential, Db.insertSecurityEvent,
          Event.attempt]
    have hstep : (e.apply db).registrationLockAttempts =
        v.db.registrationLockAttempts ++ (es ++ [e]).filterMap Event.attempt := by
      rw [hnew, ih, List.append_assoc, List.filterMap_append]
      cases he : e.attempt <;> simp [he]
    exact hstep

end

end RegistrationLock

end GuffSuff
