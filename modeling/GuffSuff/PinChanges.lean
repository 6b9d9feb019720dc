import GuffSuff.PinGuesses

/-! Who changes the PIN of an account: a deletion follows a verified PIN, and a
replacement follows none. -/

namespace GuffSuff

open ReadCommitted
open ReadCommitted.Server (eventsOf)

namespace RegistrationLock

def Call.user : Call → Uuid
  | .setPin user _ => user
  | .verifyPin user _ _ => user
  | .disablePin user _ => user

def Call.pin : Call → String
  | .setPin _ pin => pin
  | .verifyPin _ pin _ => pin
  | .disablePin _ pin => pin

def Event.setsPin : Event → Bool
  | pinSet .. => true
  | _ => false

def Event.setsPinOf (user : Uuid) : Event → Bool
  | pinSet u _ _ _ _ => u = user
  | _ => false

/-- A run in which `setPin` is called for users without a PIN or with the PIN they
have, and the last PIN set between the check of a `disablePin` and its `DELETE`, if
any, is the one that was checked. -/
structure PinsKept (pf : Platform) (s : Server) : Prop where
  replaced : ∀ p user pin hash now row, (p, .pinSet user pin hash now (some row)) ∈ s.log →
    pinMatches pf row.pinArgon2Hash pin = true
  deleted : ∀ l₁ l₂ l₃ l₄ p q user hash pin row pin' hash' now previous,
    s.log = l₁ ++ (p, .hashRead user hash) :: (l₂ ++ (q, .pinSet user pin' hash' now previous) ::
      (l₃ ++ (p, .pinDeleted user pin (some row)) :: l₄)) →
        (∀ x ∈ l₃, x.2.setsPinOf user = false) → pin' = pin

section
variable {pf : Platform} {w₀ : World Db} {s : Server} {user : Uuid} {es : List Event}

theorem changes_of_credential {db : Db} {e : Event} {row : Credential}
    (hrow : lookup db.registrationLockCredentials user = some row)
    (hne : lookup (e.apply db).registrationLockCredentials user ≠ some row) :
    (∃ pin hash now previous, e = .pinSet user pin hash now previous) ∨
      ∃ pin previous, e = .pinDeleted user pin previous := by
  have htouch : .credential user ∈ e.touches := by
    by_contra hnot
    have hcell := Event.cell_apply hnot db
    exact hne ((Cell.credential.inj hcell).trans hrow)
  cases e with
  | pinSet u pin hash now previous =>
    obtain rfl : user = u := by simpa [Event.touches] using htouch
    exact .inl ⟨pin, hash, now, previous, rfl⟩
  | pinDeleted u pin previous =>
    obtain rfl : user = u := by simpa [Event.touches] using htouch
    exact .inr ⟨pin, previous, rfl⟩
  | _ => simp [Event.touches] at htouch

theorem Verification.ofVerification {pin : String} (h : Verification pf user pin es) :
    ∀ e ∈ es, e.ofVerification = true := by
  cases h <;> simp [Event.ofVerification]

theorem verifiedEvents_ofVerification (user : Uuid) (pin : String) (now failures comparedAt : Nat)
    (hash : Digest) (a : Attempt) :
    ∀ e ∈ verifiedEvents user pin now failures comparedAt hash a, e.ofVerification = true := by
  simp [verifiedEvents, Event.ofVerification]

theorem Verifies.later {pin : String} {more : Digest → List Event → Prop}
    (h : Verifies pf user pin more es) {e : Event} (he : e ∈ es) (hkind : e.ofVerification = false) :
    ∃ now failures comparedAt hash a rest, more hash rest ∧ e ∈ rest ∧
      es = verifiedEvents user pin now failures comparedAt hash a ++ rest := by
  rcases h with h | ⟨now, failures, comparedAt, hash, a, rest, _, hrest, rfl⟩
  · rw [h.ofVerification e he] at hkind
    exact absurd hkind (by decide)
  · rcases List.mem_append.mp he with he | he
    · rw [verifiedEvents_ofVerification _ _ _ _ _ _ _ e he] at hkind
      exact absurd hkind (by decide)
    · exact ⟨now, failures, comparedAt, hash, a, rest, hrest, he, rfl⟩

theorem Setting.pinSet {pin q : String} (h : Setting user pin es) {u : Uuid} {hash : Digest} {now : Nat}
    {previous : Option Credential} (he : .pinSet u q hash now previous ∈ es) : u = user ∧ q = pin := by
  cases h with
  | start => exact absurd he List.not_mem_nil
  | set hash now previous =>
    simp only [List.mem_singleton, Event.pinSet.injEq] at he
    exact ⟨he.1, he.2.1⟩
  | logged hash now previous e =>
    simp only [List.mem_cons, Event.pinSet.injEq, reduceCtorEq, List.not_mem_nil, or_false] at he
    exact ⟨he.1, he.2.1⟩

theorem Deletion.pinDeleted {pin q : String} {hash : Digest} (h : Deletion pf user pin hash es)
    {u : Uuid} {previous : Option Credential} (he : .pinDeleted u q previous ∈ es) :
    u = user ∧ q = pin ∧ pinMatches pf hash pin = true := by
  cases h with
  | start => exact absurd he List.not_mem_nil
  | deleted previous hpin =>
    simp only [List.mem_singleton, Event.pinDeleted.injEq] at he
    exact ⟨he.1, he.2.1, hpin⟩
  | logged previous e hpin =>
    simp only [List.mem_cons, Event.pinDeleted.injEq, reduceCtorEq, List.not_mem_nil, or_false] at he
    exact ⟨he.1, he.2.1, hpin⟩

theorem Deletion.not_pinSet {pin : String} {hash : Digest} (h : Deletion pf user pin hash es)
    {e : Event} (he : e ∈ es) : ∀ u q hash' now previous, e ≠ .pinSet u q hash' now previous := by
  cases h with
  | start => exact absurd he List.not_mem_nil
  | deleted previous _ =>
    obtain rfl := List.mem_singleton.mp he
    simp
  | logged previous e _ =>
    simp only [List.mem_cons, List.not_mem_nil, or_false] at he
    rcases he with rfl | rfl <;> simp

theorem Call.of_pinSet {c : Call} (h : c.trace pf es) {pin : String} {hash : Digest} {now : Nat}
    {previous : Option Credential} (he : .pinSet user pin hash now previous ∈ es) :
    c = .setPin user pin := by
  cases c with
  | setPin u q =>
    obtain ⟨rfl, rfl⟩ := Setting.pinSet h he
    rfl
  | verifyPin u q ip =>
    obtain ⟨_, _, _, _, _, rest, hrest, hin, _⟩ := Verifies.later h he rfl
    rw [show rest = [] from hrest] at hin
    exact absurd hin List.not_mem_nil
  | disablePin u q =>
    obtain ⟨_, _, _, _, _, rest, hrest, hin, _⟩ := Verifies.later h he rfl
    exact absurd rfl (hrest.not_pinSet hin _ _ _ _ _)

theorem Call.of_pinDeleted {c : Call} (h : c.trace pf es) {pin : String}
    {previous : Option Credential} (he : .pinDeleted user pin previous ∈ es) :
    c = .disablePin user pin ∧ ∃ now failures comparedAt hash a rest,
      pinMatches pf hash pin = true ∧
        es = verifiedEvents user pin now failures comparedAt hash a ++ rest := by
  cases c with
  | setPin u q => cases (show Setting u q es from h) <;> simp at he
  | verifyPin u q ip =>
    obtain ⟨_, _, _, _, _, rest, hrest, hin, _⟩ := Verifies.later h he rfl
    rw [show rest = [] from hrest] at hin
    exact absurd hin List.not_mem_nil
  | disablePin u q =>
    obtain ⟨now, failures, comparedAt, hash, a, rest, hrest, hin, heq⟩ := Verifies.later h he rfl
    obtain ⟨rfl, rfl, hpin⟩ := hrest.pinDeleted hin
    exact ⟨rfl, now, failures, comparedAt, hash, a, rest, hpin, heq⟩

theorem SoundRun.read_before_deletion (h : SoundRun pf w₀ s) {l₁ l₂ : List (Nat × Event)} {p : Nat}
    {pin : String} {previous : Option Credential}
    (hlog : s.log = l₁ ++ (p, .pinDeleted user pin previous) :: l₂) :
    ∃ hash, (p, .hashRead user (some hash)) ∈ l₁ ∧ pinMatches pf hash pin = true := by
  have hin : (p, .pinDeleted user pin previous) ∈ s.log := by rw [hlog]; simp
  obtain ⟨pr, _, ht⟩ := h.trace_of_log hin
  obtain ⟨_, now, failures, comparedAt, hash, a, rest, hpin, hes⟩ :=
    Call.of_pinDeleted ht (ReadCommitted.Server.mem_eventsOf.mpr hin)
  have hsplit : eventsOf l₁ p ++ .pinDeleted user pin previous :: eventsOf l₂ p =
      verifiedEvents user pin now failures comparedAt hash a ++ rest := by
    rw [← hes, hlog]
    simp [eventsOf]
  refine ⟨hash, ?_, hpin⟩
  rw [← ReadCommitted.Server.mem_eventsOf]
  rcases List.append_eq_append_iff.mp hsplit with ⟨as, hv, htail⟩ | ⟨as, hl, _⟩
  · cases as with
    | nil =>
      rw [List.append_nil] at hv
      rw [← hv]
      simp [verifiedEvents]
    | cons e as =>
      obtain rfl := (List.cons.inj htail).1
      have hmem : .pinDeleted user pin previous ∈
          verifiedEvents user pin now failures comparedAt hash a := by
        rw [hv]
        simp
      exact absurd (verifiedEvents_ofVerification _ _ _ _ _ _ _ _ hmem) Bool.false_ne_true
  · rw [hl]
    simp [verifiedEvents]

theorem row_kept {v w : World Db} (h : (lock pf).Path v es w) (hv : v.db.Holds)
    (hnone : ∀ e ∈ es, e.setsPinOf user = false) {row : Credential}
    (hrow : lookup w.db.registrationLockCredentials user = some row) :
    lookup v.db.registrationLockCredentials user = some row := by
  refine h.keeps_of_mem (P := fun _ (db : Db) =>
    lookup db.registrationLockCredentials user = some row →
      lookup v.db.registrationLockCredentials user = some row) (fun _ _ _ hp _ => hp) ?_ hv id hrow
  intro c db e db' he _ hold hm hrow
  obtain ⟨_, rfl⟩ := hm
  by_cases hsame : lookup db.registrationLockCredentials user = some row
  · exact hold hsame
  · cases e with
    | pinSet u pin hash now previous =>
      have hu : ¬ user = u := fun heq => by simpa [Event.setsPinOf, heq] using hnone _ he
      rw [Event.apply, Db.lookup_upsertCredential, if_neg hu] at hrow
      exact absurd hrow hsame
    | pinDeleted u pin previous =>
      simp only [Event.apply, Db.deleteCredential, lookup_deleteRow] at hrow
      by_cases hu : user = u
      · simp [hu] at hrow
      · rw [if_neg hu] at hrow
        exact absurd hrow hsame
    | _ => exact absurd hrow hsame

/-- The row that a deletion removes was there after each event since the last PIN set. -/
theorem SoundRun.deleted_row (h : SoundRun pf w₀ s) (h₀ : w₀.db.Holds) {l₁ l₂ l₃ : List (Nat × Event)}
    {p q : Nat} {e : Event} {pin : String} {row : Credential}
    (hlog : s.log = l₁ ++ (q, e) :: (l₂ ++ (p, .pinDeleted user pin (some row)) :: l₃))
    (hnone : ∀ x ∈ l₂, x.2.setsPinOf user = false) :
    ∃ db, e.Allowed pf db ∧
      lookup (e.apply db).registrationLockCredentials user = some row := by
  obtain ⟨_, db, db₁, _, hi, hm, hrest⟩ := h.cut h₀ hlog
  have hi₁ : db₁.Holds := (lock pf).holds_move hi hm
  obtain ⟨ha, rfl⟩ := hm
  rw [List.map_append, List.map_cons] at hrest
  obtain ⟨_, db', _, hbetween, ⟨hfound, _⟩, _⟩ := hrest.cut
  refine ⟨db, ha, row_kept hbetween hi₁ ?_ hfound.symm⟩
  intro e he
  obtain ⟨x, hx, rfl⟩ := List.mem_map.mp he
  exact hnone x hx

theorem pinSet_matches (hargon : ∀ salt text, pf.argon2Verify (pf.argon2Hash salt text) text = true)
    {db : Db} {pin : String} {hash : Digest} {now : Nat} {previous : Option Credential}
    (ha : (Event.pinSet user pin hash now previous).Allowed pf db) {row : Credential}
    (hrow : lookup ((Event.pinSet user pin hash now previous).apply db).registrationLockCredentials
      user = some row) : pinMatches pf row.pinArgon2Hash pin = true := by
  obtain ⟨_, salt, rfl⟩ := ha
  rw [Event.apply, Db.lookup_upsertCredential, if_pos rfl] at hrow
  have hhash : row.pinArgon2Hash = pf.argon2Hash salt (getPepperedPin pf pin) := by
    rw [← Option.some.inj hrow]
    cases lookup db.registrationLockCredentials user <;> rfl
  rw [pinMatches, hhash]
  exact hargon _ _

theorem SoundRun.deleted_matches (h : SoundRun pf w₀ s) (h₀ : w₀.db.Holds)
    (hargon : ∀ salt text, pf.argon2Verify (pf.argon2Hash salt text) text = true)
    (hkept : PinsKept pf s) {p : Nat} {pin : String} {row : Credential}
    (he : (p, .pinDeleted user pin (some row)) ∈ s.log) :
    pinMatches pf row.pinArgon2Hash pin = true := by
  obtain ⟨l, l₃, hlog⟩ := List.append_of_mem he
  obtain ⟨hash, hread, hpin⟩ := h.read_before_deletion hlog
  obtain ⟨l₁, l₂, rfl⟩ := List.append_of_mem hread
  rw [List.append_assoc, List.cons_append] at hlog
  by_cases hset : ∃ x ∈ l₂, x.2.setsPinOf user = true
  · obtain ⟨l₄, ⟨q, e⟩, l₅, rfl, hsets, hnone⟩ := ReadCommitted.Server.exists_last hset
    have hafter : ∀ x ∈ l₅, x.2.setsPinOf user = false :=
      fun x hx => eq_false_of_ne_true (hnone x hx)
    cases e with
    | pinSet u pin' hash' now previous =>
      obtain rfl : u = user := by simpa [Event.setsPinOf] using hsets
      rw [List.append_assoc, List.cons_append] at hlog
      obtain rfl := hkept.deleted _ _ _ _ _ _ _ _ _ _ _ _ _ _ hlog hafter
      rw [← List.cons_append, ← List.append_assoc] at hlog
      obtain ⟨db, ha, hrow⟩ := h.deleted_row h₀ hlog hafter
      exact pinSet_matches hargon ha hrow
    | _ => exact absurd hsets Bool.false_ne_true
  · obtain ⟨db, ha, hrow⟩ := h.deleted_row h₀ hlog
      fun x hx => eq_false_of_ne_true fun heq => hset ⟨x, hx, heq⟩
    have hread' : some hash =
        (lookup db.registrationLockCredentials user).map Credential.pinArgon2Hash := ha
    rw [show lookup db.registrationLockCredentials user = some row from hrow] at hread'
    rw [← Option.some.inj hread']
    exact hpin

/-- In a run that keeps the PINs, whoever changes or removes the row of a user
presented the PIN of that row. -/
theorem pin_changes_authorised {db : Db} {clock : Nat} {used : List Uuid} (hdb : db.Holds)
    (hused : ∀ x ∈ db.ids, x ∈ used)
    (hargon : ∀ salt text, pf.argon2Verify (pf.argon2Hash salt text) text = true)
    (sched : List Choice) (hkept : PinsKept pf (serve pf (.boot db clock used) sched)) :
    ∀ sched₁ ch sched₂, sched = sched₁ ++ ch :: sched₂ →
      let s₁ := serve pf (.boot db clock used) sched₁
      ∀ user row, lookup s₁.db.registrationLockCredentials user = some row →
        lookup (serve pf s₁ [ch]).db.registrationLockCredentials user ≠ some row →
          ∃ p ids pr, ch = .exec p ids ∧ s₁.procs p = some pr ∧ pr.call.user = user ∧
            pinMatches pf row.pinArgon2Hash pr.call.pin = true := by
  intro sched₁ ch sched₂ hsched s₁ user row hrow hne
  have hs₁ : SoundRun pf ⟨clock, db⟩ s₁ := soundRun_boot hdb hused sched₁
  have hs₂ : SoundRun pf ⟨clock, db⟩ (serve pf s₁ [ch]) := hs₁.step (covers ch)
  have hs : SoundRun pf ⟨clock, db⟩ (serve pf (.boot db clock used) sched) :=
    soundRun_boot hdb hused sched
  have hrun : serve pf (.boot db clock used) sched = serve pf (serve pf s₁ [ch]) sched₂ := by
    rw [hsched, List.append_cons]
    exact List.foldl_append.trans (congrArg (List.foldl _ · sched₂) List.foldl_append)
  obtain ⟨more, hmore, _⟩ := hs₂.run_added fun ch' (_ : ch' ∈ sched₂) => covers ch'
  have hchanged : (serve pf s₁ [ch]).db ≠ s₁.db := fun heq => hne (heq ▸ hrow)
  obtain ⟨p, ids, e, c, rfl, hlog, ha, hdb'⟩ :=
    hs₁.step_changed (Call.program pf) Call.aborted hchanged
  have hlog₂ : (p, e) ∈ (serve pf s₁ [.exec p ids]).log := by
    rw [show (serve pf s₁ [.exec p ids]).log = _ from hlog]
    simp
  have hfinal : (p, e) ∈ (serve pf (.boot db clock used) sched).log := by
    rw [hrun, show (serve pf (serve pf s₁ [.exec p ids]) sched₂).log = _ from hmore.log]
    exact List.mem_append_left _ hlog₂
  obtain ⟨pr₂, hp₂, ht⟩ := hs₂.trace_of_log hlog₂
  have hmem := ReadCommitted.Server.mem_eventsOf.mpr hlog₂
  cases hp : s₁.procs p with
  | none =>
    refine absurd ?_ hchanged
    simp [serve, ReadCommitted.Server.run, ReadCommitted.Server.step, hp]
  | some pr =>
    obtain ⟨pr', hp', hcont⟩ :=
      ReadCommitted.Server.step_continues (Call.program pf) Call.aborted (.exec p ids) hp
    obtain rfl := Option.some.inj (hp'.symm.trans hp₂)
    have hcall : pr'.call = pr.call := hcont.call
    refine ⟨p, ids, pr, rfl, hp, ?_⟩
    rw [show (serve pf s₁ [.exec p ids]).db = _ from hdb'] at hne
    rcases changes_of_credential hrow hne with ⟨pin, hash, now, previous, rfl⟩ | ⟨pin, previous, rfl⟩
    · obtain ⟨hprev, _⟩ := ha
      rw [← hcall, Call.of_pinSet ht hmem]
      refine ⟨rfl, ?_⟩
      rw [hprev, hrow] at hfinal
      exact hkept.replaced _ _ _ _ _ _ hfinal
    · have hprev : previous = lookup s₁.db.registrationLockCredentials user := ha
      rw [← hcall, (Call.of_pinDeleted ht hmem).1]
      refine ⟨rfl, ?_⟩
      rw [hprev, hrow] at hfinal
      exact hs.deleted_matches hdb hargon hkept hfinal

end

/-- User 1 disables the PIN 123456, up to the `DELETE`. -/
def sampleDisable : List Choice :=
  .call 0 (.disablePin 1 "123456") :: (List.replicate 5 (.exec 0 []) ++ .exec 0 [10] ::
    List.replicate 6 (.exec 0 []))

theorem sampleDisable_authorised :
    let s := serve samplePlatform sampleStart sampleDisable
    ∃ p ids pr, (.exec 0 [] : Choice) = .exec p ids ∧ s.procs p = some pr ∧ pr.call.user = 1 ∧
      pinMatches samplePlatform (samplePlatform.argon2Hash [] "123456:pepper") pr.call.pin = true := by
  have hlog : ∀ x ∈ (serve samplePlatform sampleStart (sampleDisable ++ [.exec 0 []])).log,
      x.2.setsPin = false := by decide +kernel
  have hnone : ∀ p user pin hash now previous, (p, .pinSet user pin hash now previous) ∉
      (serve samplePlatform sampleStart (sampleDisable ++ [.exec 0 []])).log := by
    intro p user pin hash now previous hin
    exact absurd (hlog _ hin).symm Bool.false_ne_true
  have hkept : PinsKept samplePlatform
      (serve samplePlatform sampleStart (sampleDisable ++ [.exec 0 []])) := by
    refine ⟨fun p user pin hash now row hin => absurd hin (hnone _ _ _ _ _ _), ?_⟩
    intro l₁ l₂ l₃ l₄ p q user hash pin row pin' hash' now previous heq _
    refine absurd ?_ (hnone q user pin' hash' now previous)
    rw [heq]
    simp
  exact pin_changes_authorised sampleDb_holds (by decide) (fun _ _ => by simp [samplePlatform]) _ hkept sampleDisable
    (.exec 0 []) [] rfl 1 _ rfl (by decide +kernel)

/-- User 1 replaces the PIN without presenting it. -/
theorem samplePin_replaced :
    let s := serve samplePlatform sampleStart
      (.call 0 (.setPin 1 "1234567") :: List.replicate 5 (.exec 0 []))
    lookup sampleDb.registrationLockCredentials 1 = some ⟨1, 13, 0, 0⟩ ∧
      lookup s.db.registrationLockCredentials 1 = some ⟨1, 14, 0, 0⟩ ∧
      pinMatches samplePlatform 13 "1234567" = false := by
  decide

end RegistrationLock

end GuffSuff
