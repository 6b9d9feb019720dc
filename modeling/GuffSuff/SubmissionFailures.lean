import GuffSuff.ReadCommitted.Results
import GuffSuff.Services

/-! What the failures of a submission say of its request, in whatever run it is made. -/

namespace GuffSuff

open ReadCommitted

namespace MessageEnvelopeService

/-- The rows that a submission refers to by a foreign key. -/
structure Referents (user device : Uuid) (dto : SubmitMessageEnvelope) (db : Db) : Prop where
  conversation : dto.conversationId ∈ keys db.directConversations
  sender : user ∈ keys db.users
  device : device ∈ keys db.devices
  recipient : dto.recipientUserId ∈ keys db.users

/-- Each failure of a constraint has its reason in the request; uniqueness, the sender and an
earlier payload under the key are no matter of the request alone. -/
def Blames (pf : Platform) (user device : Uuid) (dto : SubmitMessageEnvelope) (db : Db) : Failure → Prop
  | .badRequest message => message = "Opaque payload exceeds maximum allowed size of 64KB" →
    maxPayloadBytes < (pf.decodeBase64 dto.opaquePayloadBase64).length
  | .checkViolation _ => maxPayloadBytes < (pf.decodeBase64 dto.opaquePayloadBase64).length
  | .dataException column =>
    if column = "protocol_version" then maxInt < dto.protocolVersion
    else if column = "client_created_at" then dto.clientCreatedAt = none
    else if column = "expires_at" then dto.expiresAt = none
    else maxKeyLength < dto.idempotencyKey.length ∨ hasNul dto.idempotencyKey = true
  | .foreignKeyViolation _ => ¬ Referents user device dto db
  | _ => True

def Blamed (pf : Platform) (user device : Uuid) (dto : SubmitMessageEnvelope) (db : Db) (r : Answer)
    (_ : World Db) : Prop := ∀ x, r = .error x → Blames pf user device dto db x

def Grown (w w' : World Db) : Prop := w.db.Grows w'.db

section
variable {pf : Platform} {user device : Uuid} {dto : SubmitMessageEnvelope} {db d : Db} {f : Db → Db}
variable {w : World Db}

theorem Grown.refl (w : World Db) : Grown w w := Db.Grows.refl w.db

theorem Grown.trans {u v w : World Db} (h : Grown u v) (h' : Grown v w) : Grown u w :=
  Db.Grows.trans h h'

theorem referents_grows (hg : db.Grows d) : Referents user device dto d ↔ Referents user device dto db := by
  constructor
  · intro h
    exact ⟨hg.directConversations ▸ h.conversation, hg.users ▸ h.sender, hg.deviceKeys ▸ h.device,
      hg.users ▸ h.recipient⟩
  · intro h
    exact ⟨hg.directConversations ▸ h.conversation, hg.users ▸ h.sender, hg.deviceKeys ▸ h.device,
      hg.users ▸ h.recipient⟩

theorem blamed_error {x : Failure} (h : Blames pf user device dto db x) (w : World Db) :
    Blamed pf user device dto db (.error x) w := by
  intro y hy
  obtain rfl := Except.error.inj hy
  exact h

theorem results_refused {x : Failure} (h : Blames pf user device dto db x) :
    (ReadCommitted.Program.ret (.error x) : Program).Results Grown (Blamed pf user device dto db) f w :=
  fun _ _ => blamed_error h _

theorem results_accepted (v : Value) :
    (ReadCommitted.Program.ret (.ok v) : Program).Results Grown (Blamed pf user device dto db) f w :=
  fun _ _ _ h => nomatch h

theorem results_check {c : Prop} [Decidable c] {x : Failure} {k : Program}
    (hbad : c → Blames pf user device dto db x)
    (hk : ¬ c → k.Results Grown (Blamed pf user device dto db) f w) :
    (if c then throw x else k).Results Grown (Blamed pf user device dto db) f w := by
  split
  · exact fun _ _ => blamed_error (hbad ‹_›) _
  · exact hk ‹_›

theorem results_readTimes {k : Program} (hk : k.Results Grown (Blamed pf user device dto db) f w) :
    (readTimes dto k).Results Grown (Blamed pf user device dto db) f w :=
  results_check (fun h => h) fun _ => results_check (fun h => h) fun _ => hk

theorem results_insertEnvelope {envelope now : Nat} {k : Program} (hg : db.Grows w.db)
    (hk : ∀ w', Grown w w' → Referents user device dto w'.db → k.Results Grown (Blamed pf user device dto db)
      (Write.insertMessageEnvelope (envelopeOf pf user device dto envelope now)).apply w') :
    (insertEnvelope (envelopeOf pf user device dto envelope now) k).Results Grown
      (Blamed pf user device dto db) id w := by
  intro w' hw'
  have hforeign (hno : ¬ Referents user device dto w'.db) (name : String) :
      Blames pf user device dto db (.foreignKeyViolation name) :=
    fun href => hno ((referents_grows (hg.trans hw')).mpr href)
  refine results_check (fun h => .inl h) fun _ => ?_
  refine results_check (fun h => h) fun _ => ?_
  refine results_check (fun h => h) fun _ => ?_
  refine results_check (fun _ => trivial) fun _ => ?_
  refine results_check (fun h => hforeign (fun href => h href.conversation) _) fun hconv => ?_
  refine results_check (fun h => hforeign (fun href => h href.sender) _) fun hsender => ?_
  refine results_check (fun h => hforeign (fun href => h href.device) _) fun hdevice => ?_
  refine results_check (fun h => hforeign (fun href => h href.recipient) _) fun hrecipient => ?_
  exact hk w' hw' ⟨not_not.mp hconv, not_not.mp hsender, not_not.mp hdevice, not_not.mp hrecipient⟩

theorem results_insertIdempotencyKey {envelope record now : Nat} {k : Program}
    (hdev : ∀ w', Grown w w' → device ∈ keys (f w'.db).devices)
    (henv : ∀ d, envelope ∈ keys (f d).messageEnvelopes)
    (hk : ∀ w', Grown w w' → k.Results Grown (Blamed pf user device dto db)
      (fun d => (Write.insertMessageIdempotencyKey (keyOf pf device dto record envelope now)).apply (f d)) w') :
    (insertIdempotencyKey (keyOf pf device dto record envelope now) k).Results Grown
      (Blamed pf user device dto db) f w := by
  intro w₁ hw₁ w₂ hw₂
  have hw := hw₁.trans hw₂
  refine results_check (fun h => .inl h) fun _ => ?_
  refine results_check (fun _ => trivial) fun _ => ?_
  refine results_check (fun _ => trivial) fun _ => ?_
  refine results_check (fun h => absurd (hdev w₂ hw) h) fun _ => ?_
  refine results_check (fun h => absurd (henv w₂.db) h) fun _ => ?_
  exact hk w₂ hw

theorem results_insertRecipient {r : MessageRecipientDevice} {k : Program}
    (hdev : ∀ w', Grown w w' → r.recipientDeviceId ∈ keys (f w'.db).devices)
    (henv : ∀ d, r.envelopeId ∈ keys (f d).messageEnvelopes)
    (hk : ∀ w', Grown w w' → k.Results Grown (Blamed pf user device dto db)
      (fun d => (Write.insertMessageRecipientDevice r).apply (f d)) w') :
    (insertRecipient r k).Results Grown (Blamed pf user device dto db) f w := by
  intro w₁ hw₁ w₂ hw₂
  have hw := hw₁.trans hw₂
  refine results_check (fun _ => trivial) fun _ => ?_
  refine results_check (fun _ => trivial) fun _ => ?_
  refine results_check (fun h => absurd (henv w₂.db) h) fun _ => ?_
  refine results_check (fun h => absurd (hdev w₂ hw) h) fun _ => ?_
  exact hk w₂ hw

/-- By induction on the devices: the envelope of the transaction and the devices are there. -/
theorem results_fanOut {envelope now : Nat} {done : List MessageRecipientDevice} {devices : List Uuid}
    {k : List MessageRecipientDevice → Program} (henv : ∀ d, envelope ∈ keys (f d).messageEnvelopes)
    (hdevs : ∀ d, keys (f d).devices = keys d.devices) (hall : ∀ x ∈ devices, x ∈ keys w.db.devices)
    (hk : ∀ records g v, (k records).Results Grown (Blamed pf user device dto db) g v) :
    (fanOut envelope now done devices k).Results Grown (Blamed pf user device dto db) f w := by
  induction devices generalizing done f w with
  | nil => exact hk done f w
  | cons x devices ih =>
    intro rdId
    refine results_insertRecipient (fun w' hw' => ?_) henv fun w' hw' => ?_
    · rw [hdevs, Db.Grows.deviceKeys hw']
      exact hall x List.mem_cons_self
    · refine ih henv hdevs fun y hy => ?_
      rw [Db.Grows.deviceKeys hw']
      exact hall y (List.mem_cons_of_mem x hy)

theorem results_storeEnvelope {devices : List Uuid} (hg : db.Grows w.db)
    (hall : ∀ x ∈ devices, x ∈ keys w.db.devices) :
    (storeEnvelope pf user device dto devices).Results Grown (Blamed pf user device dto db) id w := by
  intro envelope record w₀ hw₀
  have hg₀ : db.Grows w₀.db := hg.trans hw₀
  refine results_readTimes ?_
  refine results_insertEnvelope hg₀ fun w₁ hw₁ href => ?_
  have henv : ∀ d, envelope ∈ keys ((Write.insertMessageEnvelope
      (envelopeOf pf user device dto envelope w₀.clock)).apply d).messageEnvelopes := fun d => by
    simp [Write.apply, envelopeOf]
  refine results_insertIdempotencyKey (fun w' hw' => ?_) henv fun w₂ hw₂ => ?_
  · exact Db.Grows.deviceKeys hw' ▸ href.device
  · refine results_fanOut henv (fun _ => rfl) (fun x hx => ?_) fun records g v => ?_
    · rw [Db.Grows.deviceKeys ((hw₀.trans hw₁).trans hw₂)]
      exact hall x hx
    · exact fun _ _ => results_accepted _

/-- A submission that fails on a constraint has a request to blame for it. -/
theorem results_submitEnvelope (w : World Db) : (submitEnvelope pf user device dto).Results Grown
    (Blamed pf user device dto w.db) id w := by
  intro w₁ hw₁
  dsimp only [id_eq]
  split
  · exact results_refused trivial
  · intro w₂ hw₂
    dsimp only [id_eq]
    split
    · exact results_refused trivial
    split
    · exact results_refused fun _ => ‹_›
    split
    · exact results_refused (.inr ‹_›)
    · intro w₃ hw₃ _ _
      dsimp only [id_eq]
      split
      · unfold answerCached
        split
        · exact results_refused fun h => absurd h (by decide)
        · exact fun w₄ _ => results_accepted _
      · intro w₄ hw₄ devices hdevs
        have hperm : devices.Perm (w₄.db.unrevokedDevicesOf dto.recipientUserId) := List.isPerm_iff.mp hdevs
        have hsub : (w₄.db.unrevokedDevicesOf dto.recipientUserId).Sublist (keys w₄.db.devices) :=
          List.filter_sublist.map _
        exact results_storeEnvelope (((hw₁.trans hw₂).trans hw₃).trans hw₄)
          fun x hx => hsub.subset (hperm.subset hx)

end

end MessageEnvelopeService

section
variable {pf : Platform} {fk : FkCheck} {db : Db} {clock : Nat} {used : List Uuid}
variable {sched : List Choice} {p : Nat} {user device : Uuid} {dto : SubmitMessageEnvelope} {x : Failure}

open MessageEnvelopeService

theorem stays_grown (hdb : db.Holds) (hused : ∀ x ∈ db.ids, x ∈ used) (p : Nat) (sched : List Choice) :
    ReadCommitted.Server.StaysWithin (Call.program pf fk) Call.aborted Grown (.boot db clock used) p
      sched := by
  have hboot : SoundRun pf fk ⟨clock, db⟩ (ReadCommitted.Server.boot db clock used) :=
    ReadCommitted.Server.sound_boot hdb hused
  refine .of_moves hboot (fun ch _ => faulty_covers ch) Db.Grows.refl (fun t d e d' hm => ?_) p
  obtain ⟨_, rfl⟩ := hm
  exact grows_applyAll _ d

theorem submission_blamed (hdb : db.Holds) (hused : ∀ x ∈ db.ids, x ∈ used)
    (hret : (serve pf fk (.boot db clock used) sched).Returned p (.submitEnvelope user device dto)
      (.error x)) : Blames pf user device dto db x := by
  have hcode : (Call.program pf fk (.submitEnvelope user device dto)).Results Grown
      (Blamed pf user device dto db) id ⟨clock, db⟩ := results_submitEnvelope _
  have hfail : ∀ w, Blamed pf user device dto db (Call.aborted (.submitEnvelope user device dto)) w :=
    blamed_error (x := .database) trivial
  exact (ReadCommitted.Server.resultsAt_boot hcode used p).run Grown.refl (fun _ _ _ => Grown.trans)
    (fun _ => hfail) (stays_grown hdb hused p sched) hret x rfl

end

end GuffSuff
