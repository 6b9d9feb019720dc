import GuffSuff.StoredPhones

/-! Where an account comes from: a challenge for its phone number, and a call
that presented the code of that challenge. -/

namespace GuffSuff

open ReadCommitted
open ReadCommitted.Server (eventsOf)

namespace Registration

/-- PostgreSQL reads the identifiers it is sent, and no text of one has a colon. -/
structure Platform.ReadsUuids (pf : Platform) : Prop where
  read_text : ∀ id, pf.uuid (pf.uuidText id) = some id
  no_colon : ∀ text id, pf.uuid text = some id → ':' ∉ text.toList

/-- A call has presented the code that was generated for a challenge of the phone
number; `inTime` compares when it read the challenge with its `expires_at`. -/
def Proven (inTime : Nat → Nat → Prop) (s : Server) (phoneBlindIndex : Digest) : Prop :=
  ∃ challenge ∈ s.db.otpChallenges, challenge.phoneBlindIndex = phoneBlindIndex ∧
    ∃ q requested rawOtp, (q, .challengeRequested requested rawOtp) ∈ s.log ∧
      requested.id = challenge.id ∧
    ∃ p pr challengeId selected readAt comparedAt, s.procs p = some pr ∧
      pr.call = .verifyOtpChallenge challengeId rawOtp ∧
      (p, .challengeSelected challenge.id (some selected) readAt) ∈ s.log ∧
      (p, .codeCompared challenge.id challengeId rawOtp selected comparedAt) ∈ s.log ∧
      inTime readAt challenge.expiresAt ∧ selected.attemptsCount < challenge.maxAttempts

def StemsFrom (s : Server) (user challengeId : Uuid) : Prop :=
  ∃ p phoneNumber a, (p, .accountRegistered challengeId phoneNumber a) ∈ s.log ∧ a.user.id = user

section
variable {pf : Platform} {w₀ : World Db} {s : Server} {v w : World Db} {es : List Event}

/-- Each challenge is a requested one, and a verified one has been matched. -/
structure Requested (pf : Platform) (es : List Event) (id : Uuid) (r : OtpChallenge) : Prop where
  requested : ∃ r₀ rawOtp, .challengeRequested r₀ rawOtp ∈ es ∧ r₀.id = id ∧ r₀.Evolves r ∧
    r₀.verifierHash = OtpService.computeVerifierHash pf (pf.uuidText id) rawOtp
  matched : r.isVerified = true → .attemptCounted id true ∈ es

theorem Requested.append {id : Uuid} {r : OtpChallenge} (h : Requested pf es id r) (e : Event) :
    Requested pf (es ++ [e]) id r := by
  obtain ⟨r₀, rawOtp, hin, hrest⟩ := h.requested
  exact ⟨⟨r₀, rawOtp, List.mem_append_left _ hin, hrest⟩, fun hv => List.mem_append_left _ (h.matched hv)⟩

theorem requested_of_path (h : (registration pf).Path v es w) (hnone : v.db.otpChallenges = []) :
    ∀ id r, lookup w.db.otpChallenges id = some r → Requested pf es id r := by
  induction h with
  | refl =>
    intro id r hr
    rw [hnone] at hr
    exact nomatch hr
  | tick _ _ ih => exact ih
  | @move es c db db' e _ hm ih =>
    obtain ⟨ha, heff⟩ := hm
    intro id r hr
    by_cases htouch : .otpChallenge id ∈ e.touches
    · cases e with
      | challengeRequested r₀ rawOtp =>
        obtain rfl : id = r₀.id := by simpa [Event.touches] using htouch
        obtain rfl : db' = db.insertOtpChallenge r₀ := heff
        obtain ⟨hfree, index, cooldown, now, heq⟩ := ha
        have hnew : lookup (db.insertOtpChallenge r₀).otpChallenges r₀.id = some r₀ := by
          rw [Db.insertOtpChallenge, lookup_append, lookup_eq_none.mpr hfree]
          simp [lookup]
        obtain rfl := Option.some.inj (hnew.symm.trans hr)
        refine ⟨⟨r₀, rawOtp, by simp, rfl, .refl r₀, ?_⟩, fun hv => ?_⟩
        · rw [heq]
          rfl
        · rw [heq] at hv
          exact absurd hv Bool.false_ne_true
      | attemptCounted i isMatch =>
        obtain rfl : id = i := by simpa [Event.touches] using htouch
        obtain rfl : db' = db.countAttempt id isMatch := heff
        obtain ⟨r', hr'⟩ := Option.isSome_iff_exists.mp (lookup_isSome.mpr ha)
        have hnew : lookup (db.countAttempt id isMatch).otpChallenges id = some (r'.count isMatch) := by
          simp [Db.countAttempt, lookup_updateRows (OtpChallenge.key_count isMatch), hr']
        obtain rfl := Option.some.inj (hnew.symm.trans hr)
        have hold := ih id r' hr'
        obtain ⟨r₀, rawOtp, hin, hid, hev, hhash⟩ := hold.requested
        refine ⟨⟨r₀, rawOtp, List.mem_append_left _ hin, hid, hev.trans (r'.evolves_count isMatch),
          hhash⟩, fun hv => ?_⟩
        cases isMatch with
        | true => simp
        | false =>
          refine List.mem_append_left _ (hold.matched ?_)
          simpa [OtpChallenge.count] using hv
      | _ => simp [Event.touches] at htouch
    · have hsame := Cell.otpChallenge.inj (Event.cell_effect htouch heff)
      exact (ih id r (hsame ▸ hr)).append e

theorem hash_inj (hinj : Function.Injective pf.hmacOtp) {a b c d : String} (ha : ':' ∉ a.toList)
    (hc : ':' ∉ c.toList)
    (h : OtpService.computeVerifierHash pf a b = OtpService.computeVerifierHash pf c d) :
    a = c ∧ b = d := by
  have htext := congrArg String.toList (hinj h)
  have hcolon : ":".toList = [':'] := rfl
  simp only [String.toList_append, hcolon, List.append_assoc, List.singleton_append] at htext
  have hheads := congrArg (fun text => (text.splitOn ':').head?) htext
  simp only [List.splitOn_append_cons_self_of_not_mem ha, List.splitOn_append_cons_self_of_not_mem hc,
    List.head?_cons, Option.some.injEq] at hheads
  rw [hheads, List.append_cancel_left_eq, List.cons.injEq] at htext
  exact ⟨String.toList_inj.mp hheads, String.toList_inj.mp htext.2⟩

theorem SoundRun.proven (h : SoundRun pf w₀ s) (h₀ : w₀.db.Holds) (hnone : w₀.db.otpChallenges = [])
    (hinj : Function.Injective pf.hmacOtp) (hpf : pf.ReadsUuids) {id : Uuid} {challenge : OtpChallenge}
    (hrow : lookup s.db.otpChallenges id = some challenge)
    (hverified : challenge.isVerified = true) :
    Proven (· ≤ ·) s challenge.phoneBlindIndex := by
  have hid : challenge.id = id := lookup_key hrow
  have hin := (requested_of_path h.path hnone id challenge hrow).matched hverified
  obtain ⟨⟨p, e⟩, hp, rfl⟩ := List.mem_map.mp hin
  obtain ⟨pr, hpr, ht⟩ := h.trace_of_log hp
  obtain ⟨challengeId, candidateOtp, selected, comparedAt, hcall, hcmp, hmatch⟩ :=
    Call.compared_of_counted ht (ReadCommitted.Server.mem_eventsOf.mpr hp)
  have hcompared := h.comparison (ReadCommitted.Server.mem_eventsOf.mp hcmp)
  obtain ⟨readAt, hread, hall⟩ := hcompared.selected
  have hsel := ReadCommitted.Server.mem_eventsOf.mp ((hall id (some selected) readAt).mpr ⟨rfl, rfl, rfl⟩)
  obtain ⟨l₁, l₂, hlog⟩ := List.append_of_mem hsel
  obtain ⟨c, db, db', hpath, _, ⟨ha, heff⟩, hrest⟩ := h.cut h₀ hlog
  rw [show db' = db from heff] at hrest
  have hthen : lookup db.otpChallenges id = some selected := ha.symm
  obtain ⟨r, hr, hev⟩ := challenges_evolve ⟨_, hrest⟩ id selected hthen
  obtain rfl := Option.some.inj (hr.symm.trans hrow)
  obtain ⟨r₀, rawOtp, hreq, hr₀, hev₀, hhash⟩ := (requested_of_path hpath hnone id selected hthen).requested
  have hcode : OtpService.computeVerifierHash pf challengeId candidateOtp =
      OtpService.computeVerifierHash pf (pf.uuidText id) rawOtp := by
    rw [← hhash, ← hev₀.verifierHash]
    exact of_decide_eq_true hmatch.symm
  obtain ⟨_, rfl⟩ := hash_inj hinj (hpf.no_colon _ _ hcompared.uuid)
    (hpf.no_colon _ _ (hpf.read_text id)) hcode
  obtain ⟨⟨q, e⟩, hq, rfl⟩ := List.mem_map.mp hreq
  have hqlog : (q, .challengeRequested r₀ candidateOtp) ∈ s.log := by
    rw [hlog]
    exact List.mem_append_left _ hq
  rw [← hid] at hsel hcmp
  refine ⟨r, lookup_mem hrow, rfl, q, r₀, candidateOtp, hqlog, hr₀.trans hid.symm, p, pr, challengeId,
    selected, readAt, comparedAt, hpr, hcall, hsel, ReadCommitted.Server.mem_eventsOf.mp hcmp, ?_, ?_⟩
  · rw [hev.expiresAt]
    exact Nat.le_trans hread hcompared.opened.unexpired
  · rw [hev.maxAttempts]
    exact hcompared.opened.budget

/-- Two registrations for one phone number, or for one challenge, are of one user. -/
theorem SoundRun.user_of_index (h : SoundRun pf w₀ s) (h₀ : w₀.db.Holds) {u v i j : Uuid}
    (hu : StemsFrom s u i) (hv : StemsFrom s v j) {c d : OtpChallenge}
    (hc : lookup s.db.otpChallenges i = some c) (hd : lookup s.db.otpChallenges j = some d)
    (hindex : c.phoneBlindIndex = d.phoneBlindIndex) : u = v := by
  obtain ⟨p, phone, a, ha, rfl⟩ := hu
  obtain ⟨q, phone', b, hb, rfl⟩ := hv
  obtain ⟨c', hc', hfrom, hmem⟩ := h.registration h₀ ha
  obtain ⟨d', hd', hfrom', hmem'⟩ := h.registration h₀ hb
  obtain rfl := Option.some.inj (hc'.symm.trans hc)
  obtain rfl := Option.some.inj (hd'.symm.trans hd)
  have hsame : a.phoneIdentity = b.phoneIdentity := by
    apply List.inj_on_of_nodup_map h.holds.indexes hmem hmem'
    rw [hfrom.index, hfrom'.index, hindex]
  rw [← hfrom.user, ← hfrom'.user, hsame]

/-- Every user has a phone number that was proven by the code of a challenge, read
no later than the challenge expires, and shares it with nobody. -/
theorem accounts_proven {clock : Nat} (used : List Uuid) (hinj : Function.Injective pf.hmacOtp)
    (hpf : pf.ReadsUuids) (sched : List Choice) :
    let s := serve pf (.boot Db.empty clock used) sched
    (∀ u ∈ s.db.users, ∃ r ∈ s.db.phoneIdentities, r.userId = u.id ∧
      Proven (· ≤ ·) s r.phoneBlindIndex) ∧
    (∀ u ∈ s.db.users, ∃ i, StemsFrom s u.id i) ∧
    ∀ u v i j, StemsFrom s u i → StemsFrom s v j → u ≠ v → i ≠ j ∧
      ∀ c d, lookup s.db.otpChallenges i = some c → lookup s.db.otpChallenges j = some d →
        c.phoneBlindIndex ≠ d.phoneBlindIndex := by
  intro s
  have h₀ : Db.empty.Holds := ⟨List.nodup_nil, List.nodup_nil⟩
  have hs : SoundRun pf ⟨clock, Db.empty⟩ s := soundRun_boot used h₀ sched
  have hstems : ∀ u ∈ s.db.users, ∃ i p phone a,
      (p, .accountRegistered i phone a) ∈ s.log ∧ a.user = u := by
    intro u hu
    rw [show s.db.users = _ from (accounts_of_path hs.path).1] at hu
    obtain ⟨a, ha, rfl⟩ := List.mem_map.mp hu
    obtain ⟨i, phone, he⟩ := mem_accounts.mp ha
    obtain ⟨⟨p, e⟩, hx, rfl⟩ := List.mem_map.mp he
    exact ⟨i, p, phone, a, hx, rfl⟩
  refine ⟨?_, ?_, ?_⟩
  · intro u hu
    obtain ⟨i, p, phone, a, he, rfl⟩ := hstems u hu
    obtain ⟨challenge, hrow, hfrom, hmem⟩ := hs.registration h₀ he
    refine ⟨a.phoneIdentity, hmem, hfrom.user, ?_⟩
    rw [hfrom.index]
    exact hs.proven h₀ rfl hinj hpf hrow hfrom.verified
  · intro u hu
    obtain ⟨i, p, phone, a, he, rfl⟩ := hstems u hu
    exact ⟨i, p, phone, a, he, rfl⟩
  · intro u v i j hu hv hne
    have hdiffer : ∀ c d, lookup s.db.otpChallenges i = some c → lookup s.db.otpChallenges j = some d →
        c.phoneBlindIndex ≠ d.phoneBlindIndex :=
      fun c d hc hd hindex => hne (hs.user_of_index h₀ hu hv hc hd hindex)
    refine ⟨fun hij => ?_, hdiffer⟩
    obtain ⟨p, phone, a, ha, _⟩ := hu
    obtain ⟨c, hc, _⟩ := hs.registration h₀ ha
    exact hdiffer c c hc (hij ▸ hc) rfl

end

theorem samplePlatform_readsUuids : samplePlatform.ReadsUuids where
  read_text := by
    intro id
    have htext : (samplePlatform.uuidText id).toList = List.replicate id '1' ++
        List.replicate (8 - id) '0' ++ "-0000-0000-0000-000000000000".toList := String.toList_ofList
    have hall : (samplePlatform.uuidText id).toList.all (· ∈ ['0', '1', '-']) = true := by
      have hrest : "-0000-0000-0000-000000000000".toList.all (· ∈ ['0', '1', '-']) = true := by decide
      rw [htext, List.all_append, List.all_append, hrest]
      simp [List.all_replicate]
    have hcount : (samplePlatform.uuidText id).toList.count '1' = id := by
      have hrest : "-0000-0000-0000-000000000000".toList.count '1' = 0 := by decide
      rw [htext, List.count_append, List.count_append, hrest]
      simp [List.count_replicate]
    change (if _ then _ else _) = _
    rw [if_pos hall, hcount]
  no_colon := by
    intro text id h hcolon
    change (if _ then _ else _) = _ at h
    split at h
    · rename_i hall
      have hc := List.all_eq_true.mp hall ':' hcolon
      exact absurd hc (by decide)
    · exact nomatch h

theorem sampleStored_proven :
    (sampleStored "+9779811111111" "+9779811111111").db.users.length = 1 ∧
      ∀ u ∈ (sampleStored "+9779811111111" "+9779811111111").db.users,
        ∃ r ∈ (sampleStored "+9779811111111" "+9779811111111").db.phoneIdentities, r.userId = u.id ∧
          Proven (· ≤ ·) (sampleStored "+9779811111111" "+9779811111111") r.phoneBlindIndex := by
  refine ⟨by decide +kernel, ?_⟩
  unfold sampleStored
  exact (accounts_proven [] sampleHmac_injective samplePlatform_readsUuids _).1

def Event.readAt : Event → Option Nat
  | challengeSelected _ _ readAt => some readAt
  | _ => none

/-- The challenge is read at its `expires_at`. -/
def sampleLate : Server :=
  serve samplePlatform (.boot Db.empty 0 [])
    (sampleRequested (.requestOtpChallenge (sampleHmac "+9779811111111")) ++ .tick 300000 ::
      (sampleVerified (.verifyOtpChallenge sampleText "111111") ++
        sampleRegistered (.registerAccount (sampleParams "+9779811111111"))))

theorem sampleLate_registered :
    Function.Injective samplePlatform.hmacOtp ∧ samplePlatform.ReadsUuids ∧
      ¬ ∀ u ∈ sampleLate.db.users, ∃ r ∈ sampleLate.db.phoneIdentities, r.userId = u.id ∧
        Proven (· < ·) sampleLate r.phoneBlindIndex := by
  refine ⟨sampleHmac_injective, samplePlatform_readsUuids, fun hall => ?_⟩
  have huser : ∃ u, u ∈ sampleLate.db.users := List.exists_mem_of_length_pos (by decide +kernel)
  have hread : ∀ x ∈ sampleLate.log, ∀ c ∈ sampleLate.db.otpChallenges, ∀ t ∈ x.2.readAt,
      c.expiresAt ≤ t := by decide +kernel
  obtain ⟨u, hu⟩ := huser
  obtain ⟨r, _, _, challenge, hc, _, _, _, _, _, _, p, _, _, selected, readAt, _, _, _, hsel, _, htime, _⟩ :=
    hall u hu
  exact absurd htime (Nat.not_lt.mpr (hread _ hsel challenge hc readAt rfl))

end Registration

end GuffSuff
