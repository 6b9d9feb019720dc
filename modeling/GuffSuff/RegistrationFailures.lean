import GuffSuff.ReadCommitted.Results
import GuffSuff.AtomicRegistration

/-! Which columns of a registration may not fit their tables: what the database
refuses of a request, in whatever run it is made. -/

namespace GuffSuff

open ReadCommitted

/-- A constraint other than uniqueness: a length or range, a `CHECK`, a reference. -/
def Failure.isViolation : Failure → Bool
  | dataException _ | checkViolation _ | foreignKeyViolation _ => true
  | _ => false

namespace Registration

/-- What the schema of the request leaves open, and the tables ask for. -/
structure RegisterParams.Fits (params : RegisterParams) : Prop where
  locale : (textColumn 10 (orDefault params.locale "ne")).isSome = true
  timezone : (textColumn 64 (orDefault params.timezone "Asia/Kathmandu")).isSome = true
  displayName : hasNul params.displayName = false
  installationId : (textColumn 128 params.installationId).isSome = true
  deviceName : (textColumn 100 params.deviceName).isSome = true
  platform : params.platform ∈ platforms
  appVersion : (textColumn 32 params.appVersion).isSome = true
  osVersion : (textColumn 32 params.osVersion).isSome = true

/-- Users and devices are there to stay. -/
structure Db.KeepsParties (db db' : Db) : Prop where
  users : ∀ x ∈ keys db.users, x ∈ keys db'.users
  devices : ∀ x ∈ keys db.devices, x ∈ keys db'.devices

def PartiesKept (w w' : World Db) : Prop := w.db.KeepsParties w'.db

theorem Db.KeepsParties.refl (db : Db) : db.KeepsParties db := ⟨fun _ h => h, fun _ h => h⟩

theorem PartiesKept.refl (w : World Db) : PartiesKept w w := Db.KeepsParties.refl w.db

theorem PartiesKept.trans {u v w : World Db} (h : PartiesKept u v) (h' : PartiesKept v w) :
    PartiesKept u w :=
  ⟨fun x hx => h'.users x (h.users x hx), fun x hx => h'.devices x (h.devices x hx)⟩

section
variable {R : World Db → World Db → Prop} {P : Answer → World Db → Prop} {f : Db → Db} {w : World Db}

theorem results_checked {checks : List (Bool × Failure)} {k : Program}
    (hbad : checks.Forall fun c => c.1 = true → ∀ w', P (.error c.2) w') (hk : k.Results R P f w) :
    (checked checks k).Results R P f w := by
  induction checks with
  | nil => exact hk
  | cons c checks ih =>
    obtain ⟨hc, hbad⟩ := (List.forall_cons ..).mp hbad
    simp only [checked]
    split
    · exact fun w' _ => hc ‹_› w'
    · exact ih hbad

theorem results_insertRow (htrans : ∀ u v w, R u v → R v w → R u w) {locks : List Key}
    {checks : Db → List (Bool × Failure)} {write : Db → Db} {k : Program}
    (hbad : ∀ w', R w w' → (checks (f w'.db)).Forall fun c => c.1 = true → ∀ w', P (.error c.2) w')
    (hk : ∀ w', R w w' → k.Results R P (fun db => write (f db)) w') :
    (insertRow locks checks write k).Results R P f w := by
  induction locks generalizing w with
  | nil => exact fun w' hw' => results_checked (hbad w' hw') (hk w' hw')
  | cons key locks ih =>
    exact fun w' hw' => ih (fun v hv => hbad v (htrans _ _ _ hw' hv)) fun v hv => hk v (htrans _ _ _ hw' hv)

end

section
variable {pf : Platform} {params : RegisterParams} {index : Digest} {encrypted : Bytes}
variable {ids : AccountService.AccountIds} {now : Nat} {k : Program} {w : World Db}

open AccountService

section
variable {f : Db → Db}

end

end

section
variable {free : Key → Prop} {Q : Answer → Prop} {f : Db → Db} {w : World Db} {k : Program}

open AccountService

end

/-- A database with nothing but a verified challenge. -/
def Db.proven (challenge : OtpChallenge) : Db := { Db.empty with otpChallenges := [challenge] }

section
variable {pf : Platform} {params : RegisterParams} {challenge : OtpChallenge} {clock : Nat}

open AccountService

end

end Registration

end GuffSuff
