import GuffSuff.Revocation

/-! A client that always presents the refresh token it was handed last, and when
the server takes its refresh for a stolen token. -/

namespace GuffSuff

open ReadCommitted SessionService
open ReadCommitted.Server (eventsOf mem_eventsOf returned_iff)

/-- How the last call of a client ended: with a token it had not presented, with
the presented token itself, or without a pair reaching it. -/
inductive LastAnswer where
  | fresh | same | missed
  deriving DecidableEq

structure Client where
  held : RawToken
  last : LastAnswer
  calls : List Nat

/-- The client after the answer `r` to call `q`, which may get lost. -/
def Client.next (c : Client) (q : Nat) (r : Answer) (delivered : Bool) : Client :=
  match r, delivered with
  | .ok (.tokens pair), true =>
    { held := pair.refreshToken, last := if pair.refreshToken = c.held then .same else .fresh,
      calls := q :: c.calls }
  | _, _ => { c with last := .missed, calls := q :: c.calls }

/-- The server looked at the clock within ten seconds of the rotation of the token. -/
def Event.inGrace : Event → Bool
  | reuseDetected _ old _ _ _ _ _ now _ => now ≤ old.rotatedAt.getD 0 + concurrentGraceMs
  | graceAnswered _ old _ now => now ≤ old.rotatedAt.getD 0 + concurrentGraceMs
  | _ => true

/-- Nobody but these calls has found a token of the family. -/
def Alone (s : Server) (family : Uuid) (calls : List Nat) : Prop :=
  ∀ x ∈ s.log, x.2.presented.map RefreshToken.familyId = some family → x.1 ∈ calls

instance (s : Server) (family : Uuid) (calls : List Nat) : Decidable (Alone s family calls) :=
  inferInstanceAs (Decidable (∀ x ∈ s.log, _ → _))

/-- The runs of a client on a server that serves any other calls meanwhile. A
refresh is in time where `timely` asks for it. -/
inductive ClientRun (pf : Platform) (fk : FkCheck) (timely : LastAnswer → Prop) (family : Uuid) :
    Server → Client → Prop
  | login {s : Server} {p : Nat} {user device : Uuid} {pair : TokenPair} (h : Reachable pf fk s)
      (hr : s.Returned p (.createSession user device) (.ok (.tokens pair)))
      (hf : pair.familyId = family) (ha : Alone s family []) :
      ClientRun pf fk timely family s ⟨pair.refreshToken, .fresh, []⟩
  | wait {s : Server} {c : Client} (h : ClientRun pf fk timely family s c) (sched : List Choice)
      (ha : Alone (serve pf fk s sched) family c.calls) :
      ClientRun pf fk timely family (serve pf fk s sched) c
  | refresh {s s' : Server} {c : Client} (h : ClientRun pf fk timely family s c) {q : Nat}
      (hq : s.procs q = none) (sched : List Choice)
      (hs : s' = serve pf fk s (.call q (.rotateRefreshToken c.held) :: sched)) {r : Answer}
      (hr : s'.Returned q (.rotateRefreshToken c.held) r) (ha : Alone s' family (q :: c.calls))
      (ht : timely c.last → ∀ e ∈ eventsOf s'.log q, e.inGrace = true) (delivered : Bool) :
      ClientRun pf fk timely family s' (c.next q r delivered)

def Db.Unrotated (pf : Platform) (db : Db) (raw : RawToken) (family : Uuid) : Prop :=
  ∃ t ∈ db.refreshTokens, t.tokenVerifierHash = pf.hashRefreshToken raw ∧ t.familyId = family ∧
    t.isRotated = false

section
variable {pf : Platform} {raw : RawToken} {family : Uuid} {db : Db}

theorem Db.Unrotated.tokenOf (h : db.Unrotated pf raw family) : db.TokenOf pf raw family := by
  obtain ⟨t, ht, hh, hf, _⟩ := h
  exact ⟨t, ht, hh, hf⟩

theorem Db.Unrotated.event (h : db.Unrotated pf raw family) (hi : db.Holds) {e : Event}
    {clock : Nat} (ha : e.Allowed pf clock db)
    (hno : e.presented.map RefreshToken.familyId ≠ some family) :
    (applyAll (e.writes pf) db).Unrotated pf raw family := by
  obtain ⟨t, ht, hh, hf, hr⟩ := h
  have hl := lookup_of_mem hi.identity.tokens ht
  have hws : ∀ replacement now, Write.rotateRefreshToken t.id replacement now ∉ e.writes pf := by
    intro replacement now hw
    cases e with
    | tokenRotated raw' newRaw old replacement' checkedAt now' =>
      obtain ⟨⟨_, hp⟩, _⟩ := ha
      have hid : t.id = old.id := by
        simp only [Event.writes, List.mem_cons, List.not_mem_nil, Write.rotateRefreshToken.injEq] at hw
        tauto
      have heq : t = old := eq_of_key_eq hi.identity.tokens ht (lookup_mem hp.token) hid
      exact hno (by simp [Event.presented, ← heq, hf])
    | envelopeSubmitted envelope record recipients => simp [Event.writes] at hw
    | _ => simp [Event.writes] at hw
  obtain ⟨t', ht', hr'⟩ := isRotated_applyAll hl hws
  obtain ⟨t'', ht'', hg⟩ := (grows_applyAll (e.writes pf) db).tokens _ _ hl
  obtain rfl := Option.some.inj (ht''.symm.trans ht')
  exact ⟨t'', lookup_mem ht'', hg.tokenVerifierHash.trans hh, hg.familyId.trans hf, hr'.trans hr⟩

theorem Db.Unrotated.path {v w : World Db} {es : List Event} (hpath : (backend pf).Path v es w)
    (hi : v.db.Holds) (h : v.db.Unrotated pf raw family)
    (hno : ∀ e ∈ es, e.presented.map RefreshToken.familyId ≠ some family) :
    w.db.Unrotated pf raw family := by
  apply hpath.keeps_of_mem (P := fun _ db => db.Unrotated pf raw family) (fun _ _ _ hp _ => hp) ?_ hi h
  intro _ db e _ he hdb hp hm
  obtain ⟨ha, rfl⟩ := hm
  exact hp.event hdb ha (hno e he)

theorem unrotated_of_tokenRotated (raw newRaw : RawToken) (old : RefreshToken) (replacement : Uuid)
    (checkedAt now : Nat) (hf : old.familyId = family) (db : Db) :
    (applyAll ((Event.tokenRotated raw newRaw old replacement checkedAt now).writes pf) db).Unrotated
      pf newRaw family :=
  ⟨childToken old replacement (pf.hashRefreshToken newRaw) now,
    by simp [Event.writes, Write.apply], rfl, hf, rfl⟩

end

section
variable {pf : Platform} {fk : FkCheck} {family : Uuid} {s s' : Server} {c : Client}

structure ClientInv (pf : Platform) (fk : FkCheck) (family : Uuid) (s : Server) (c : Client) :
    Prop where
  reachable : Reachable pf fk s
  token : s.db.TokenOf pf c.held family
  unrotated : c.last = .fresh → s.db.Unrotated pf c.held family
  finished : ∀ q ∈ c.calls, ∃ qr r, s.procs q = some qr ∧ qr.Finished r
  unreported : ∀ q ∈ c.calls, ∀ e ∈ eventsOf s.log q, e.isReuse = false

theorem ClientInv.foreign (h : ClientInv pf fk family s c) {sched : List Choice} {calls : List Nat}
    (ha : Alone (serve pf fk s sched) family calls) {new : List (Nat × Event)}
    (hlog : (serve pf fk s sched).log = s.log ++ new) {l : List (Nat × Event)} (hl : l ⊆ new)
    (hnone : ∀ q ∈ calls, q ∉ c.calls → eventsOf l q = []) :
    ∀ e ∈ l.map Prod.snd, e.presented.map RefreshToken.familyId ≠ some family := by
  intro e he hfam
  obtain ⟨⟨q, e'⟩, hmem, he'⟩ := List.mem_map.mp he
  obtain rfl : e' = e := he'
  have hq := ha (q, e') (by rw [hlog]; exact List.mem_append_right _ (hl hmem)) hfam
  by_cases hold : q ∈ c.calls
  · obtain ⟨w₀, _, hs⟩ := h.reachable.sound
    obtain ⟨qr, r, hqr, hfin⟩ := h.finished q hold
    have hev := (hs.events_of_finished hqr hfin sched).2
    rw [hlog, ReadCommitted.Server.eventsOf_append, List.append_right_eq_self] at hev
    have hin : e' ∈ eventsOf new q := mem_eventsOf.mpr (hl hmem)
    rw [hev] at hin
    exact absurd hin List.not_mem_nil
  · have hin : e' ∈ eventsOf l q := mem_eventsOf.mpr hmem
    rw [hnone q hq hold] at hin
    exact absurd hin List.not_mem_nil

theorem ClientInv.wait (h : ClientInv pf fk family s c) (sched : List Choice)
    (ha : Alone (serve pf fk s sched) family c.calls) :
    ClientInv pf fk family (serve pf fk s sched) c := by
  obtain ⟨w₀, _, hs⟩ := h.reachable.sound
  obtain ⟨new, hadd, _⟩ := hs.added sched
  constructor
  case reachable => exact h.reachable.more sched
  case token => exact h.token.grows hs.holds (hs.grows sched)
  case unrotated =>
    intro hl
    exact (h.unrotated hl).path hadd.path hs.holds
      (h.foreign ha hadd.log (List.Subset.refl _) fun q hq hn => absurd hq hn)
  case finished =>
    intro q hq
    obtain ⟨qr, r, hqr, hfin⟩ := h.finished q hq
    exact ⟨qr, r, (hs.events_of_finished hqr hfin sched).1, hfin⟩
  case unreported =>
    intro q hq e he
    obtain ⟨qr, r, hqr, hfin⟩ := h.finished q hq
    rw [(hs.events_of_finished hqr hfin sched).2] at he
    exact h.unreported q hq e he

/-- A refresh of the client records at most one event, and all other events of
the run leave its family alone. -/
theorem ClientInv.refresh_event (h : ClientInv pf fk family s c) {q : Nat} (hq : s.procs q = none)
    {sched : List Choice} {r : Answer}
    (hr : (serve pf fk s sched).Returned q (.rotateRefreshToken c.held) r)
    (ha : Alone (serve pf fk s sched) family (q :: c.calls)) {e : Event}
    (he : e ∈ eventsOf (serve pf fk s sched).log q) :
    ∃ clock db l₁ l₂, (backend pf).Path s.world l₁ ⟨clock, db⟩ ∧ db.Holds ∧ e.Allowed pf clock db ∧
      (backend pf).Path ⟨clock, applyAll (e.writes pf) db⟩ l₂ (serve pf fk s sched).world ∧
      (∀ e ∈ l₁, e.presented.map RefreshToken.familyId ≠ some family) ∧
      (∀ e ∈ l₂, e.presented.map RefreshToken.familyId ≠ some family) ∧
      ∃ began, RotationEvent fk c.held began e := by
  obtain ⟨w₀, _, hs⟩ := h.reachable.sound
  have hs' := hs.run sched
  obtain ⟨new, hadd, _⟩ := hs.added sched
  obtain ⟨qr, hqr, hc, _⟩ := hs'.returned hr
  obtain ⟨qr', hqr', ht⟩ := hs'.trace he
  obtain rfl := Option.some.inj (hqr'.symm.trans hqr)
  rw [hc] at ht
  obtain ⟨hlen, hrot⟩ := ht
  have hone : eventsOf (serve pf fk s sched).log q = [e] := by
    obtain ⟨l₁, l₂, hl⟩ := List.append_of_mem he
    rw [hl] at hlen ⊢
    simp only [List.length_append, List.length_cons] at hlen
    rw [List.eq_nil_of_length_eq_zero (l := l₁) (by omega),
      List.eq_nil_of_length_eq_zero (l := l₂) (by omega), List.nil_append]
  have hnew : eventsOf new q = [e] := by
    rw [hadd.log, ReadCommitted.Server.eventsOf_append, hs.idle q hq, List.nil_append] at hone
    exact hone
  obtain ⟨l₁, l₂, hl, h₁, h₂⟩ := ReadCommitted.Server.eventsOf_eq_singleton hnew
  have hpath := hadd.path
  rw [hl, List.map_append, List.map_cons] at hpath
  obtain ⟨clock, db, _, hp₁, ⟨hallowed, rfl⟩, hp₂⟩ := hpath.cut
  refine ⟨clock, db, l₁.map Prod.snd, l₂.map Prod.snd, hp₁, hp₁.holds hs.holds, hallowed, hp₂,
    ?_, ?_, qr'.began, hrot e he⟩
  · apply h.foreign ha hadd.log (by simp [hl])
    intro q' hq' hn
    rw [(List.mem_cons.mp hq').resolve_right hn]
    exact h₁
  · apply h.foreign ha hadd.log (by rw [hl]; simp)
    intro q' hq' hn
    rw [(List.mem_cons.mp hq').resolve_right hn]
    exact h₂

theorem ClientInv.refresh_unreported (h : ClientInv pf fk family s c) {q : Nat}
    (hq : s.procs q = none) {sched : List Choice} {r : Answer}
    (hr : (serve pf fk s sched).Returned q (.rotateRefreshToken c.held) r)
    (ha : Alone (serve pf fk s sched) family (q :: c.calls))
    (ht : c.last ≠ .fresh → ∀ e ∈ eventsOf (serve pf fk s sched).log q, e.inGrace = true) :
    ∀ e ∈ eventsOf (serve pf fk s sched).log q, e.isReuse = false := by
  intro e he
  obtain ⟨w₀, _, hs⟩ := h.reachable.sound
  obtain ⟨clock, db, l₁, l₂, hp₁, hi, hallowed, _, hf₁, _, began, hrot⟩ :=
    h.refresh_event hq hr ha he
  cases e with
  | reuseDetected raw old rf tokens sessions eventId checkedAt now startedAt =>
    obtain ⟨hp, hrotated, hlate, _⟩ := hallowed
    by_cases hfresh : c.last = .fresh
    · obtain ⟨t, hmem, hhash, _, hunrotated⟩ := (h.unrotated hfresh).path hp₁ hs.holds hf₁
      have heq : t = old := hi.identity.hash_unique hmem (lookup_mem hp.token)
        (hhash.trans (hrot.1 ▸ hp.hash.symm))
      rw [heq, hrotated] at hunrotated
      exact absurd hunrotated (by decide)
    · have hin : now ≤ old.rotatedAt.getD 0 + concurrentGraceMs := of_decide_eq_true (ht hfresh _ he)
      omega
  | _ => rfl

theorem ClientInv.refresh_unrotated (h : ClientInv pf fk family s c) {q : Nat}
    (hq : s.procs q = none) {sched : List Choice} {pair : TokenPair}
    (hr : (serve pf fk s sched).Returned q (.rotateRefreshToken c.held) (.ok (.tokens pair)))
    (ha : Alone (serve pf fk s sched) family (q :: c.calls)) (hne : pair.refreshToken ≠ c.held) :
    (serve pf fk s sched).db.Unrotated pf pair.refreshToken family := by
  obtain ⟨w₀, _, hs⟩ := h.reachable.sound
  have hs' := hs.run sched
  obtain ⟨qr, e, old, refreshToken, _, _, hes, he, _, _, _, _, _, hv, _⟩ := hs'.refreshed hr
  obtain rfl := Value.tokens.inj hv
  obtain ⟨clock, db, l₁, l₂, _, hi, hallowed, hp₂, _, hf₂, began, hrot⟩ :=
    h.refresh_event hq hr ha (e := e) (by simp [hes])
  obtain ⟨rf, checkedAt, _, hp⟩ := hrot.presents he hallowed
  have hg := (grows_applyAll (e.writes pf) db).trans (grows_of_path hp₂)
  have hfam : old.familyId = family := hp.family_eq hg hs'.holds.identity
    (h.token.grows hs.holds (hs.grows sched))
  cases e with
  | tokenRotated raw newRaw old' replacement checkedAt' now =>
    obtain ⟨rfl, rfl⟩ := Prod.mk.inj (Option.some.inj he)
    exact (unrotated_of_tokenRotated raw newRaw old' replacement checkedAt' now hfam db).path hp₂
      (hi.event hallowed) hf₂
  | graceAnswered raw old' checkedAt' now =>
    obtain ⟨_, rfl⟩ := Prod.mk.inj (Option.some.inj he)
    exact absurd hrot.1 hne
  | _ => exact absurd he (by simp [Event.refreshed])

theorem ClientInv.refresh (h : ClientInv pf fk family s c) {q : Nat} (hq : s.procs q = none)
    {sched : List Choice} {r : Answer}
    (hr : (serve pf fk s sched).Returned q (.rotateRefreshToken c.held) r)
    (ha : Alone (serve pf fk s sched) family (q :: c.calls))
    (ht : c.last ≠ .fresh → ∀ e ∈ eventsOf (serve pf fk s sched).log q, e.inGrace = true)
    (delivered : Bool) : ClientInv pf fk family (serve pf fk s sched) (c.next q r delivered) := by
  obtain ⟨w₀, _, hs⟩ := h.reachable.sound
  have htoken := h.token.grows hs.holds (hs.grows sched)
  have hcalls : (c.next q r delivered).calls = q :: c.calls := by
    unfold Client.next
    split <;> rfl
  constructor
  case reachable => exact h.reachable.more sched
  case token =>
    unfold Client.next
    split
    · rename_i pair
      by_cases hsame : pair.refreshToken = c.held
      · exact hsame ▸ htoken
      · exact (h.refresh_unrotated hq hr ha hsame).tokenOf
    · exact htoken
  case unrotated =>
    unfold Client.next
    split
    · rename_i pair
      intro hlast
      by_cases hsame : pair.refreshToken = c.held
      · simp [hsame] at hlast
      · exact h.refresh_unrotated hq hr ha hsame
    · intro hlast
      exact absurd hlast (by simp)
  case finished =>
    intro p hp
    rw [hcalls] at hp
    rcases List.mem_cons.mp hp with rfl | hp
    · obtain ⟨qr, hqr, _, hfin⟩ := returned_iff.mp hr
      exact ⟨qr, r, hqr, hfin⟩
    · obtain ⟨pr, r', hpr, hfin⟩ := h.finished p hp
      exact ⟨pr, r', (hs.events_of_finished hpr hfin sched).1, hfin⟩
  case unreported =>
    intro p hp e he
    rw [hcalls] at hp
    rcases List.mem_cons.mp hp with rfl | hp
    · exact h.refresh_unreported hq hr ha ht e he
    · obtain ⟨pr, r', hpr, hfin⟩ := h.finished p hp
      rw [(hs.events_of_finished hpr hfin sched).2] at he
      exact h.unreported p hp e he

theorem ClientInv.login (h : Reachable pf fk s) {p : Nat} {user device : Uuid} {pair : TokenPair}
    (hr : s.Returned p (.createSession user device) (.ok (.tokens pair)))
    (ha : Alone s pair.familyId []) :
    ClientInv pf fk pair.familyId s ⟨pair.refreshToken, .fresh, []⟩ := by
  obtain ⟨w₀, h₀, hs⟩ := h.sound
  have hun : s.db.Unrotated pf pair.refreshToken pair.familyId := by
    obtain ⟨pr, hp, hc, hans⟩ := hs.returned hr
    rcases hans with hans | hans
    · exact absurd hans (by simp [Call.aborted])
    obtain ⟨raw, session, family, token, now, signedAt, hes, _, hv⟩ := hans _ rfl
    obtain rfl := Value.tokens.inj hv
    obtain ⟨l₁, l₂, hl⟩ := List.append_of_mem (mem_eventsOf.mp (by
      rw [hes]
      exact List.mem_singleton_self _))
    obtain ⟨clock, db, _, _, hi, ⟨hallowed, rfl⟩, hp₂⟩ := hs.cut h₀.holds hl
    refine Db.Unrotated.path hp₂ (hi.event hallowed) ?_ ?_
    · exact ⟨firstToken token family (pf.hashRefreshToken raw) now,
        by simp [Event.writes, Write.apply], rfl, rfl, rfl⟩
    · intro e he hfam
      obtain ⟨x, hx, rfl⟩ := List.mem_map.mp he
      have hin : x ∈ s.log := by
        rw [hl]
        exact List.mem_append_right _ (List.mem_cons_of_mem _ hx)
      exact absurd (ha x hin hfam) List.not_mem_nil
  exact ⟨h, hun.tokenOf, fun _ => hun, fun q hq => absurd hq List.not_mem_nil,
    fun q hq => absurd hq List.not_mem_nil⟩

/-- A client that refreshes within ten seconds not only a token whose rotation
got lost but also a token that was handed back to it is never reported. -/
theorem ClientRun.unreported (h : ClientRun pf fk (· ≠ .fresh) family s c) :
    ∀ q ∈ c.calls, ∀ e ∈ eventsOf s.log q, e.isReuse = false := by
  have hinv : ClientInv pf fk family s c := by
    induction h with
    | login h hr hf ha =>
      subst hf
      exact .login h hr ha
    | wait h sched ha ih => exact ih.wait sched ha
    | refresh h hq sched hs hr ha ht delivered ih =>
      subst hs
      exact ih.refresh hq hr ha ht delivered
  exact hinv.unreported

theorem ClientRun.reachable {timely : LastAnswer → Prop} (h : ClientRun pf fk timely family s c) :
    Reachable pf fk s := by
  induction h with
  | login h => exact h
  | wait h sched ha ih => exact ih.more sched
  | refresh h hq sched hs hr ha ht delivered ih => exact hs ▸ ih.more _

theorem Event.Allowed.inGrace {e : Event} {clock : Nat} {db : Db} (ha : e.Allowed pf clock db)
    (hr : e.isReuse = false) : e.inGrace = true := by
  cases e with
  | graceAnswered raw old checkedAt now => exact decide_eq_true ha.2.2
  | reuseDetected => exact absurd hr (by simp [Event.isReuse])
  | _ => rfl

theorem SoundRun.mem_later {w₀ : World Db} (hs : SoundRun pf fk w₀ s) (sched : List Choice) {q : Nat}
    {e : Event} (he : e ∈ eventsOf s.log q) : e ∈ eventsOf (serve pf fk s sched).log q := by
  obtain ⟨new, hadd, _⟩ := hs.added sched
  rw [hadd.log, ReadCommitted.Server.eventsOf_append]
  exact List.mem_append_left _ he

/-- An honest client retries in time when an answer got lost. It is never
reported if and only if it also refreshes in time after each answer that handed
the presented token back. -/
theorem honest_client_unreported_iff (h : ClientRun pf fk (· = .missed) family s c) :
    (∀ q ∈ c.calls, ∀ e ∈ eventsOf s.log q, e.isReuse = false) ↔
      ClientRun pf fk (· ≠ .fresh) family s c := by
  refine ⟨fun hun => ?_, ClientRun.unreported⟩
  induction h with
  | login h hr hf ha => exact .login h hr hf ha
  | @wait s c h sched ha ih =>
    obtain ⟨w₀, _, hs⟩ := h.reachable.sound
    exact .wait (ih fun q hq e he => hun q hq e (hs.mem_later sched he)) sched ha
  | @refresh s s' c h q hq sched hs' r hr ha ht delivered ih =>
    obtain ⟨w₀, h₀, hs⟩ := h.reachable.sound
    have hcalls : (c.next q r delivered).calls = q :: c.calls := by
      unfold Client.next
      split <;> rfl
    rw [hcalls] at hun
    have hbefore : ∀ p ∈ c.calls, ∀ e ∈ eventsOf s.log p, e.isReuse = false := by
      intro p hp e he
      apply hun p (List.mem_cons_of_mem _ hp)
      rw [hs']
      exact hs.mem_later _ he
    refine .refresh (ih hbefore) hq sched hs' hr ha (fun _ e he => ?_) delivered
    have hsound : SoundRun pf fk w₀ s' := hs' ▸ hs.run _
    obtain ⟨clock, db, _, _, _, ⟨hallowed, _⟩, _⟩ := hsound.entry h₀.holds (mem_eventsOf.mp he)
    exact hallowed.inGrace (hun q List.mem_cons_self e he)

end

def sampleLost : List Choice :=
  sampleLogin ++ sampleRotation 1 12 14 15 ++ sampleIssue 1 16 17 ++ sampleGrace 2 12 18 19

theorem sampleLost_honest (timely : LastAnswer → Prop) :
    ClientRun samplePlatform .atCommit timely 11
      (serve samplePlatform .atCommit sampleStart sampleLost) ⟨12, .same, [2, 1]⟩ := by
  have h₁ : ClientRun samplePlatform .atCommit timely 11
      (serve samplePlatform .atCommit sampleStart sampleLogin) ⟨12, .fresh, []⟩ :=
    .login (sampleStart_reachable _ _ _)
      (show (serve samplePlatform .atCommit sampleStart sampleLogin).Returned 0 (.createSession 1 3)
        (.ok (.tokens (createdPair samplePlatform 12 1 3 10 11 0))) by decide +kernel) rfl (by decide)
  have h₂ := h₁.refresh (q := 1) (by decide)
    (sampleRotation 1 12 14 15 ++ sampleIssue 1 16 17).tail rfl
    (r := .ok (.tokens (rotatedPair samplePlatform 14 ⟨11, 1, 3, false, 0, 0⟩ 16 17 0)))
    (by decide +kernel) (by decide) (fun _ => by decide) false
  have h₃ := h₂.refresh (q := 2) (by decide) (sampleGrace 2 12 18 19).tail rfl
    (r := .ok (.tokens (rotatedPair samplePlatform 12 ⟨11, 1, 3, false, 0, 0⟩ 18 19 0)))
    (by decide +kernel) (by decide) (fun _ => by decide) true
  exact h₃

theorem sampleLost_unreported :
    ClientRun samplePlatform .atCommit (· = .missed) 11
      (serve samplePlatform .atCommit sampleStart sampleLost) ⟨12, .same, [2, 1]⟩ ∧
    ∀ q ∈ [2, 1], ∀ e ∈ eventsOf (serve samplePlatform .atCommit sampleStart sampleLost).log q,
      e.isReuse = false :=
  ⟨sampleLost_honest _, (honest_client_unreported_iff (sampleLost_honest _)).mpr (sampleLost_honest _)⟩

/-- The same client refreshes once more eleven seconds later and loses its family. -/
theorem honest_client_reported :
    let s := serve samplePlatform .atCommit sampleStart
      (sampleLost ++ .tick 11000 :: sampleReport 3 12 20)
    ∃ c, ClientRun samplePlatform .atCommit (· = .missed) 11 s c ∧ 3 ∈ c.calls ∧
      s.Returned 3 (.rotateRefreshToken 12) (.error reuseAlert) ∧ s.db.Barred 11 := by
  have h₄ := (sampleLost_honest (· = .missed)).wait [.tick 11000] (by decide)
  have h₅ := h₄.refresh (q := 3) (by decide) (sampleReport 3 12 20).tail rfl
    (r := .error reuseAlert) (by decide) (by decide) (fun h => absurd h (by decide)) true
  refine ⟨_, h₅, List.mem_cons_self, by decide, ⟨11, 1, 3, true, 0, 11000⟩, by decide, rfl⟩

end GuffSuff
