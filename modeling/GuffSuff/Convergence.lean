import GuffSuff.ConversationLookups

/-! Whether the calls of two users for their conversation agree: made at the same
time, and one after the other with any spelling of the ids. -/

namespace GuffSuff

open ReadCommitted

open Registration.AuthController (isUuid)

namespace Messaging

def NoFaults (sched : List Choice) : Prop := ∀ p, .fail p ∉ sched

/-- One of the users asks for the other one, both in the canonical text. -/
def Call.Canonical (pf : Platform) (a b : Uuid) (c : Call) : Prop :=
  c = .getOrCreateDirectConversation (some (pf.uuidText a)) (pf.uuidText b) ∨
    c = .getOrCreateDirectConversation (some (pf.uuidText b)) (pf.uuidText a)

def ConversationId (id : Uuid) (r : Answer) : Prop :=
  ∃ row createdAt, r = .ok (.conversation row createdAt) ∧ row.id = id

/-- In every run without faults all calls of the two users return, and answer the
same conversation. Other calls may be made at any time. -/
def Converges (pf : Platform) (fk : FkCheck) (s : Server) (a b : Uuid) : Prop :=
  ∀ sched, NoFaults sched → ∃ id, ∀ p pr, s.procs p = none →
    (serve pf fk s sched).procs p = some pr → pr.call.Canonical pf a b →
      (∀ r, pr.Finished r → ConversationId id r) ∧
      ∃ n pr' r, (serve pf fk s (sched ++ Choice.steps p n)).procs p = some pr' ∧ pr'.Finished r

def inTextOrder (pf : Platform) (a b : Uuid) : Uuid × Uuid :=
  if pf.uuidText a < pf.uuidText b then (a, b) else (b, a)

section
variable {pf : Platform} {fk : FkCheck} {s : Server} {a b : Uuid}

theorem Reachable.exists_idle (h : Reachable pf fk s) : ∃ p, s.procs p = none := by
  obtain ⟨db, clock, used, _, _, sched⟩ := h
  exact ReadCommitted.Server.exists_idle db clock used sched

theorem orderedIds_symm {user recipient : String} (hne : user ≠ recipient) :
    orderedIds pf user recipient = orderedIds pf recipient user := by
  by_cases hlt : user < recipient
  · simp [orderedIds, ConversationService.orderedPair, hlt, String.lt_asymm hlt]
  · have hgt : recipient < user := by
      by_contra hle
      exact hne (String.le_antisymm (String.not_lt.mp hle) (String.not_lt.mp hlt))
    simp [orderedIds, ConversationService.orderedPair, hlt, hgt]

theorem orderedIds_canonical (ha : pf.uuid (pf.uuidText a) = some a)
    (hb : pf.uuid (pf.uuidText b) = some b) :
    orderedIds pf (pf.uuidText a) (pf.uuidText b) =
      (some (inTextOrder pf a b).1, some (inTextOrder pf a b).2) := by
  by_cases hlt : pf.uuidText a < pf.uuidText b
  · simp [orderedIds, ConversationService.orderedPair, inTextOrder, hlt, ha, hb]
  · simp [orderedIds, ConversationService.orderedPair, inTextOrder, hlt, ha, hb]

theorem Call.Canonical.naming {c : Call} (hc : c.Canonical pf a b) (hab : a ≠ b)
    (ha : pf.uuid (pf.uuidText a) = some a) (hb : pf.uuid (pf.uuidText b) = some b) (db : Db) :
    ∃ user recipient, c = .getOrCreateDirectConversation (some user) recipient ∧
      Naming pf a b user recipient ∧
      db.found pf user recipient = db.found pf (pf.uuidText a) (pf.uuidText b) := by
  have hname : Naming pf a b (pf.uuidText a) (pf.uuidText b) := .inl ⟨ha, hb⟩
  rcases hc with rfl | rfl
  · exact ⟨_, _, rfl, hname, rfl⟩
  · refine ⟨_, _, rfl, .inr ⟨hb, ha⟩, ?_⟩
    have hsymm : orderedIds pf (pf.uuidText b) (pf.uuidText a) =
        orderedIds pf (pf.uuidText a) (pf.uuidText b) := orderedIds_symm (hname.ne hab).symm
    simp only [Db.found, hsymm]

theorem Reachable.answered_canonical (h : Reachable pf fk s) (hab : a ≠ b) (ha : s.db.Present a)
    (hb : s.db.Present b) (hreada : pf.uuid (pf.uuidText a) = some a)
    (hreadb : pf.uuid (pf.uuidText b) = some b) {sched : List Choice} (hsched : NoFaults sched) {p : Nat}
    (hp : s.procs p = none) {pr : Process Db Key Uuid Event Answer Call}
    (hpr : (serve pf fk s sched).procs p = some pr) (hc : pr.call.Canonical pf a b) {r : Answer}
    (hr : pr.Finished r) : Answered (s.db.found pf (pf.uuidText a) (pf.uuidText b)) r := by
  obtain ⟨user, recipient, hcall, hname, hfound⟩ := hc.naming hab hreada hreadb s.db
  exact hfound ▸ h.answered hname hab ha hb hp (hsched p) hpr hcall hr

/-- A call made alone has to answer a conversation, which must have been there. -/
theorem Converges.found (hconv : Converges pf fk s a b) (h : Reachable pf fk s) (hab : a ≠ b)
    (ha : s.db.Present a) (hb : s.db.Present b) (hreada : pf.uuid (pf.uuidText a) = some a)
    (hreadb : pf.uuid (pf.uuidText b) = some b) :
    (s.db.found pf (pf.uuidText a) (pf.uuidText b)).isSome := by
  obtain ⟨p, hp⟩ := h.exists_idle
  let c : Call := .getOrCreateDirectConversation (some (pf.uuidText a)) (pf.uuidText b)
  have hcall : ∃ pr, (serve pf fk s [.call p c]).procs p = some pr ∧ pr.call = c := by
    obtain ⟨pr, hpr, hc, _⟩ :=
      (ReadCommitted.Server.At.call (Call.program pf fk) Call.aborted (c := c) hp).proc
    exact ⟨pr, hpr, hc⟩
  obtain ⟨pr, hpr, hc⟩ := hcall
  have hcanonical : pr.call.Canonical pf a b := .inl hc
  have hfaultless : ∀ n, NoFaults (.call p c :: Choice.steps p n) := by
    intro n q hq
    rcases List.mem_cons.mp hq with hq | hq
    · exact absurd hq (by simp)
    · exact absurd (List.eq_of_mem_replicate hq) (by simp)
  obtain ⟨_, hends⟩ := hconv [.call p c] (hfaultless 0)
  obtain ⟨_, n, pr', r, hpr', hr⟩ := hends p pr hp hpr hcanonical
  have hcanonical' : pr'.call.Canonical pf a b := by
    obtain ⟨qr, hqr, hcont⟩ := ReadCommitted.Server.run_continues (Call.program pf fk) Call.aborted
      (Choice.steps p n) hpr
    obtain rfl := Option.some.inj (hqr.symm.trans hpr')
    exact hcont.call ▸ hcanonical
  obtain ⟨id, hok⟩ := hconv _ (hfaultless n)
  obtain ⟨row, createdAt, rfl, _⟩ := (hok p pr' hp hpr' hcanonical').1 r hr
  exact (h.answered_canonical hab ha hb hreada hreadb (hfaultless n) hp hpr' hcanonical' hr).isSome

/-- Concurrent calls converge exactly on a conversation that is there before them. -/
theorem calls_converge_iff (h : Reachable pf fk s) (hab : a ≠ b) (ha : s.db.Present a) (hb : s.db.Present b)
    (hreada : pf.uuid (pf.uuidText a) = some a) (hreadb : pf.uuid (pf.uuidText b) = some b) :
    Converges pf fk s a b ↔ ∃ row ∈ s.db.core.directConversations,
      row.participant1UserId = (inTextOrder pf a b).1 ∧
        row.participant2UserId = (inTextOrder pf a b).2 := by
  rw [← found_isSome_iff (orderedIds_canonical hreada hreadb)]
  constructor
  · exact fun hconv => hconv.found h hab ha hb hreada hreadb
  · intro hstored
    obtain ⟨row, hrow⟩ := Option.isSome_iff_exists.mp hstored
    intro sched hsched
    refine ⟨row.id, fun p pr hp hpr hc => ⟨fun r hr => ?_, 2, ?_⟩⟩
    · have hanswered := h.answered_canonical hab ha hb hreada hreadb hsched hp hpr hc hr
      rw [hrow] at hanswered
      obtain ⟨createdAt, rfl⟩ := hanswered
      exact ⟨row, createdAt, rfl, rfl⟩
    · obtain ⟨user, recipient, hcall, hname, hfound⟩ := hc.naming hab hreada hreadb s.db
      obtain ⟨pr', r, hpr', _, hr⟩ := h.prompt hname hab ha hb (hfound ▸ hstored) hp hpr hcall
      exact ⟨pr', r, hpr', hr⟩

end

theorem sampleStart_present {user : Uuid} {u : User} (hu : lookup sampleDb.core.users user = some u)
    (hstate : u.accountState ≠ .deleted) : sampleStart.db.Present user := ⟨u, hu, hstate⟩

theorem sampleStart_converges : Converges samplePlatform .endOfStatement sampleStart 1 2 := by
  have hs : Reachable samplePlatform .endOfStatement sampleStart := sampleStart_reachable _ []
  exact (calls_converge_iff hs (by decide) (sampleStart_present rfl (by decide))
    (sampleStart_present rfl (by decide)) (by decide +kernel) (by decide +kernel)).mpr
    ⟨⟨6, 1, 2⟩, by decide, by decide +kernel⟩

/-- Users 1 and 9 have no conversation, and their calls for one fail. -/
theorem sampleStart_diverges :
    NoFaults sampleRace ∧ ¬ Converges samplePlatform .endOfStatement sampleStart 1 9 := by
  have hfaultless : NoFaults sampleRace := by
    intro p hp
    simp [sampleRace, Choice.steps] at hp
  refine ⟨hfaultless, fun hconv => ?_⟩
  obtain ⟨id, hid⟩ := hconv sampleRace hfaultless
  have hreturned : (serve samplePlatform .endOfStatement sampleStart sampleRace).Returned 0
      (.getOrCreateDirectConversation (some (sampleText 1)) (sampleText 9))
      (.error (.protocolViolation
        "bind message supplies 6 parameters, but prepared statement \"\" requires 5")) := by
    decide +kernel
  obtain ⟨pr, hpr, hc, hr⟩ := ReadCommitted.Server.returned_iff.mp hreturned
  obtain ⟨hanswer, _⟩ := hid 0 pr rfl hpr (.inl hc)
  obtain ⟨row, createdAt, hok, _⟩ := hanswer _ hr
  exact nomatch hok

/-- The calls one after the other, each alone until it has answered. -/
inductive OneByOne (pf : Platform) (fk : FkCheck) : Server → List Call → List Answer → Server → Prop
  | nil (s : Server) : OneByOne pf fk s [] [] s
  | cons {s s' : Server} {p : Nat} {c : Call} {r : Answer} {sched : List Choice} {cs : List Call}
      {rs : List Answer} (hp : s.procs p = none) (halone : ∀ ch ∈ sched, ch.RunsAlone p)
      (hr : (serve pf fk s (.call p c :: sched)).Returned p c r)
      (hrest : OneByOne pf fk (serve pf fk s (.call p c :: sched)) cs rs s') :
      OneByOne pf fk s (c :: cs) (r :: rs) s'

def Agree (pf : Platform) (fk : FkCheck) (s : Server) (cs : List Call) : Prop :=
  (∃ rs s', OneByOne pf fk s cs rs s') ∧
    ∀ rs s', OneByOne pf fk s cs rs s' → ∃ id, ∀ r ∈ rs, ConversationId id r

/-- One of the users asks for the other one, in any spelling that the schema accepts. -/
def Call.Spelled (pf : Platform) (a b : Uuid) (c : Call) : Prop :=
  ∃ text, createDirectConversationSchema text = true ∧
    ((c = .getOrCreateDirectConversation (some (pf.uuidText a)) text ∧ pf.uuid text = some b) ∨
      (c = .getOrCreateDirectConversation (some (pf.uuidText b)) text ∧ pf.uuid text = some a))

def Db.StoredFor (pf : Platform) (db : Db) (c : Call) : Prop :=
  ∃ user recipient, c = .getOrCreateDirectConversation (some user) recipient ∧
    ∃ row ∈ db.core.directConversations,
      (some row.participant1UserId, some row.participant2UserId) = orderedIds pf user recipient

section
variable {pf : Platform} {fk : FkCheck} {s s' : Server} {a b : Uuid} {c : Call} {cs : List Call}
  {rs : List Answer}

theorem Call.Spelled.naming (h : c.Spelled pf a b) (ha : pf.uuid (pf.uuidText a) = some a)
    (hb : pf.uuid (pf.uuidText b) = some b) :
    ∃ user recipient, c = .getOrCreateDirectConversation (some user) recipient ∧
      Naming pf a b user recipient := by
  obtain ⟨text, _, ⟨hc, htext⟩ | ⟨hc, htext⟩⟩ := h
  · exact ⟨_, text, hc, .inl ⟨ha, htext⟩⟩
  · exact ⟨_, text, hc, .inr ⟨hb, htext⟩⟩

def Call.AnsweredIn (pf : Platform) (db : Db) (c : Call) (r : Answer) : Prop :=
  ∃ user recipient, c = .getOrCreateDirectConversation (some user) recipient ∧
    Answered (db.found pf user recipient) r

/-- Each call has its answer among the answers, and each answer its call. -/
theorem OneByOne.answered (hrun : OneByOne pf fk s cs rs s') (h : Reachable pf fk s) (hab : a ≠ b)
    (ha : s.db.Present a) (hb : s.db.Present b)
    (hcs : ∀ c ∈ cs, ∃ user recipient, c = .getOrCreateDirectConversation (some user) recipient ∧
      Naming pf a b user recipient) :
    (∀ c ∈ cs, ∃ r ∈ rs, c.AnsweredIn pf s.db r) ∧ ∀ r ∈ rs, ∃ c ∈ cs, c.AnsweredIn pf s.db r := by
  induction hrun with
  | nil => exact ⟨fun _ hc => absurd hc List.not_mem_nil, fun _ hr => absurd hr List.not_mem_nil⟩
  | @cons s s' p c r sched cs rs hp halone hr _ ih =>
    have hsame := h.sameTables (.call p c :: sched)
    obtain ⟨user, recipient, rfl, hname⟩ := hcs c List.mem_cons_self
    obtain ⟨pr, hpr, hc, hfin⟩ := ReadCommitted.Server.returned_iff.mp hr
    have hfail : Choice.fail p ∉ .call p (.getOrCreateDirectConversation (some user) recipient) :: sched := by
      intro hf
      rcases List.mem_cons.mp hf with hf | hf
      · exact nomatch hf
      · exact halone _ hf
    have hhead := h.answered hname hab ha hb hp hfail hpr hc hfin
    have hhead' : (Call.getOrCreateDirectConversation (some user) recipient).AnsweredIn pf s.db r :=
      ⟨user, recipient, rfl, hhead⟩
    have hback : ∀ c r, Call.AnsweredIn pf (serve pf fk s (.call p (.getOrCreateDirectConversation
        (some user) recipient) :: sched)).db c r → c.AnsweredIn pf s.db r := by
      intro c r hx
      obtain ⟨user, recipient, hc, hx⟩ := hx
      exact ⟨user, recipient, hc, found_of_sameTables hsame user recipient ▸ hx⟩
    obtain ⟨hcalls, hanswers⟩ := ih (h.more _) (ha.of_sameTables hsame) (hb.of_sameTables hsame)
      fun c hc => hcs c (List.mem_cons_of_mem _ hc)
    constructor
    · intro c hc
      rcases List.mem_cons.mp hc with rfl | hc
      · exact ⟨r, List.mem_cons_self, hhead'⟩
      · obtain ⟨r', hr', hx⟩ := hcalls c hc
        exact ⟨r', List.mem_cons_of_mem _ hr', hback c r' hx⟩
    · intro r' hr'
      rcases List.mem_cons.mp hr' with rfl | hr'
      · exact ⟨_, List.mem_cons_self, hhead'⟩
      · obtain ⟨c, hc, hx⟩ := hanswers r' hr'
        exact ⟨c, List.mem_cons_of_mem _ hc, hback c r' hx⟩

theorem exists_oneByOne (h : Reachable pf fk s) (hab : a ≠ b) (ha : s.db.Present a) (hb : s.db.Present b)
    (hcs : ∀ c ∈ cs, ∃ user recipient, c = .getOrCreateDirectConversation (some user) recipient ∧
      Naming pf a b user recipient ∧ (s.db.found pf user recipient).isSome) :
    ∃ rs s', OneByOne pf fk s cs rs s' := by
  induction cs generalizing s with
  | nil => exact ⟨[], s, .nil s⟩
  | cons c cs ih =>
    obtain ⟨user, recipient, rfl, hname, hfound⟩ := hcs c List.mem_cons_self
    obtain ⟨p, hp⟩ := h.exists_idle
    obtain ⟨pr, hpr, hc, _⟩ := (ReadCommitted.Server.At.call (Call.program pf fk) Call.aborted
      (c := .getOrCreateDirectConversation (some user) recipient) hp).proc
    have hcalled : (serve pf fk s [.call p (.getOrCreateDirectConversation (some user) recipient)]).procs p =
        some pr := hpr
    obtain ⟨pr', r, hpr', hc', hr⟩ := h.prompt hname hab ha hb hfound hp hcalled hc
    have hsame := h.sameTables (.call p (.getOrCreateDirectConversation (some user) recipient) ::
      Choice.steps p 2)
    have hrest := ih (h.more _) (ha.of_sameTables hsame) (hb.of_sameTables hsame) fun c hc => by
      obtain ⟨user, recipient, hc, hname, hfound⟩ := hcs c (List.mem_cons_of_mem _ hc)
      exact ⟨user, recipient, hc, hname, found_of_sameTables hsame user recipient ▸ hfound⟩
    obtain ⟨rs, s', hrest⟩ := hrest
    have halone : ∀ ch ∈ Choice.steps p 2, ch.RunsAlone p := by
      intro ch hch
      rw [List.eq_of_mem_replicate hch]
      rfl
    exact ⟨r :: rs, s', .cons hp halone (ReadCommitted.Server.returned_iff.mpr ⟨pr', hpr', hc', hr⟩) hrest⟩

theorem found_unique (hpaired : s.db.core.Paired) (hab : a ≠ b) {user recipient user' recipient' : String}
    (hname : Naming pf a b user recipient) (hname' : Naming pf a b user' recipient')
    {row row' : DirectConversation} (hrow : s.db.found pf user recipient = some row)
    (hrow' : s.db.found pf user' recipient' = some row') : row = row' := by
  have hjoins : ∀ {user recipient row}, Naming pf a b user recipient →
      s.db.found pf user recipient = some row → row ∈ s.db.core.directConversations ∧ row.Joins a b := by
    intro user recipient row hname hrow
    obtain ⟨hmem, hids⟩ := participants_of_found hrow
    obtain ⟨i, j, hij, horder⟩ := hname.orderedIds
    rw [hij] at hids
    obtain ⟨hi, hj⟩ := Prod.mk.inj hids
    refine ⟨hmem, hab, ?_⟩
    rw [Option.some.inj hi, Option.some.inj hj]
    exact horder
  obtain ⟨hmem, hj⟩ := hjoins hname hrow
  obtain ⟨hmem', hj'⟩ := hjoins hname' hrow'
  exact hpaired.pairs row hmem row' hmem' a b hj hj'

theorem Naming.storedFor_iff {db : Db} {user recipient : String} (hname : Naming pf a b user recipient) :
    db.StoredFor pf (.getOrCreateDirectConversation (some user) recipient) ↔
      (db.found pf user recipient).isSome := by
  obtain ⟨i, j, hij, _⟩ := hname.orderedIds
  rw [found_isSome_iff hij]
  constructor
  · intro hx
    obtain ⟨_, _, hc, row, hrow, hids⟩ := hx
    obtain ⟨hu, rfl⟩ := Call.getOrCreateDirectConversation.inj hc
    obtain rfl := Option.some.inj hu
    rw [hij] at hids
    exact ⟨row, hrow, Option.some.inj (Prod.mk.inj hids).1, Option.some.inj (Prod.mk.inj hids).2⟩
  · intro hx
    obtain ⟨row, hrow, rfl, rfl⟩ := hx
    exact ⟨user, recipient, rfl, row, hrow, hij.symm⟩

/-- Calls one after the other agree exactly on a conversation that is stored in
the order of the texts of each of them. -/
theorem calls_agree_iff (h : ReachablePaired pf fk s) (hab : a ≠ b) (ha : s.db.Present a)
    (hb : s.db.Present b) (hreada : pf.uuid (pf.uuidText a) = some a)
    (hreadb : pf.uuid (pf.uuidText b) = some b) (hcs : ∀ c ∈ cs, c.Spelled pf a b) :
    Agree pf fk s cs ↔ ∀ c ∈ cs, s.db.StoredFor pf c := by
  have hnames := fun c hc => (hcs c hc).naming hreada hreadb
  constructor
  · intro hagree c hc
    obtain ⟨⟨rs, s', hrun⟩, hagree⟩ := hagree
    obtain ⟨id, hid⟩ := hagree rs s' hrun
    obtain ⟨r, hr, user, recipient, rfl, hanswer⟩ :=
      (hrun.answered h.reachable hab ha hb hnames).1 c hc
    obtain ⟨_, _, heq, hname⟩ := hnames _ hc
    obtain ⟨hu, rfl⟩ := Call.getOrCreateDirectConversation.inj heq
    obtain rfl := Option.some.inj hu
    obtain ⟨row, createdAt, rfl, _⟩ := hid r hr
    exact hname.storedFor_iff.mpr hanswer.isSome
  · intro hall
    have hfound : ∀ c ∈ cs, ∃ user recipient, c = .getOrCreateDirectConversation (some user) recipient ∧
        Naming pf a b user recipient ∧ (s.db.found pf user recipient).isSome := by
      intro c hc
      obtain ⟨user, recipient, rfl, hname⟩ := hnames c hc
      exact ⟨user, recipient, rfl, hname, hname.storedFor_iff.mp (hall _ hc)⟩
    refine ⟨exists_oneByOne h.reachable hab ha hb hfound, fun rs s' hrun => ?_⟩
    have hrows : ∀ r ∈ rs, ∃ user recipient row, Naming pf a b user recipient ∧
        s.db.found pf user recipient = some row ∧ ConversationId row.id r := by
      intro r hr
      obtain ⟨c, hc, user, recipient, rfl, hanswer⟩ :=
        (hrun.answered h.reachable hab ha hb hnames).2 r hr
      obtain ⟨_, _, heq, hname, hsome⟩ := hfound _ hc
      obtain ⟨hu, rfl⟩ := Call.getOrCreateDirectConversation.inj heq
      obtain rfl := Option.some.inj hu
      obtain ⟨row, hrow⟩ := Option.isSome_iff_exists.mp hsome
      rw [hrow] at hanswer
      obtain ⟨createdAt, rfl⟩ := hanswer
      exact ⟨user, recipient, row, hname, hrow, row, createdAt, rfl, rfl⟩
    cases rs with
    | nil => exact ⟨0, fun _ hr => absurd hr List.not_mem_nil⟩
    | cons r₀ rs =>
      obtain ⟨user₀, recipient₀, row₀, hname₀, hrow₀, _⟩ := hrows r₀ List.mem_cons_self
      refine ⟨row₀.id, fun r hr => ?_⟩
      obtain ⟨user, recipient, row, hname, hrow, hid⟩ := hrows r hr
      exact found_unique (conversations_paired h) hab hname hname₀ hrow hrow₀ ▸ hid

end

/-- The value of a hexadecimal digit in either case. -/
def hexDigit (c : Char) : Nat :=
  if c.isDigit then c.toNat - '0'.toNat else c.toLower.toNat - 'a'.toNat + 10

def hexUuid (text : String) : Option Uuid :=
  some (text.toList.foldl (fun n c => if c = '-' then n else 16 * n + hexDigit c) 0)

def hexText (id : Uuid) : String :=
  "00000000-0000-0000-0000-00000000000" ++ String.ofList (Nat.toDigits 16 id)

def hexPlatform : Platform := { samplePlatform with uuid := hexUuid, uuidText := hexText }

/-- Users 10 and 11, whose ids end in `a` and `b`, have conversation 6. -/
def hexDb : Db where
  core :=
    { GuffSuff.Db.empty with
      users := [⟨10, .active⟩, ⟨11, .active⟩]
      directConversations := [⟨6, 10, 11⟩]
      conversationMembers := [⟨7, 6, 10⟩, ⟨8, 6, 11⟩] }
  conversationTimes := fun _ => ⟨0, 0⟩
  messageReadStates := []

def hexStart : Server := .boot hexDb 0 (List.range 20)

def askA (text : String) : Call := .getOrCreateDirectConversation (some (hexText 11)) text
def askB (text : String) : Call := .getOrCreateDirectConversation (some (hexText 10)) text

theorem hexStart_reachable : ReachablePaired hexPlatform .endOfStatement hexStart := by
  have hdb : hexDb.Initial := by
    constructor
    case core => constructor <;> decide
    all_goals decide
  have hpaired : hexDb.core.Paired := by
    constructor
    case pairs =>
      intro c hc c' hc' a b _ _
      obtain rfl := List.mem_singleton.mp hc
      exact (List.mem_singleton.mp hc').symm
    all_goals decide
  exact .run hexDb 0 (List.range 20) hdb hpaired (by decide) []

theorem hexCalls_agree : Agree hexPlatform .endOfStatement hexStart
    [askB "00000000-0000-0000-0000-00000000000b", askA "00000000-0000-0000-0000-00000000000A"] := by
  have hspelled : ∀ c ∈ [askB "00000000-0000-0000-0000-00000000000b",
      askA "00000000-0000-0000-0000-00000000000A"], c.Spelled hexPlatform 10 11 := by
    intro c hc
    simp only [List.mem_cons, List.not_mem_nil, or_false] at hc
    rcases hc with rfl | rfl
    · exact ⟨_, by decide +kernel, .inl ⟨rfl, by decide +kernel⟩⟩
    · exact ⟨_, by decide +kernel, .inr ⟨rfl, by decide +kernel⟩⟩
  refine (calls_agree_iff hexStart_reachable (by decide) ⟨_, rfl, by decide⟩ ⟨_, rfl, by decide⟩
    (by decide +kernel) (by decide +kernel) hspelled).mpr ?_
  intro c hc
  simp only [List.mem_cons, List.not_mem_nil, or_false] at hc
  rcases hc with rfl | rfl
  · exact ⟨_, _, rfl, ⟨6, 10, 11⟩, by decide, by decide +kernel⟩
  · exact ⟨_, _, rfl, ⟨6, 10, 11⟩, by decide, by decide +kernel⟩

/-- The first call finds the conversation. The second one spells the same id with
`B`, which comes before `a`, looks for the pair in the other order and fails. -/
theorem hexCalls_disagree :
    (askB "00000000-0000-0000-0000-00000000000B").Spelled hexPlatform 10 11 ∧
      ¬ Agree hexPlatform .endOfStatement hexStart
        [askB "00000000-0000-0000-0000-00000000000b", askB "00000000-0000-0000-0000-00000000000B"] := by
  refine ⟨⟨_, by decide +kernel, .inl ⟨rfl, by decide +kernel⟩⟩, fun hagree => ?_⟩
  have hfirst : (serve hexPlatform .endOfStatement hexStart
      (.call 0 (askB "00000000-0000-0000-0000-00000000000b") :: Choice.steps 0 2)).Returned 0
        (askB "00000000-0000-0000-0000-00000000000b") (.ok (.conversation ⟨6, 10, 11⟩ 0)) := by
    decide +kernel
  have hsecond : (serve hexPlatform .endOfStatement
      (serve hexPlatform .endOfStatement hexStart
        (.call 0 (askB "00000000-0000-0000-0000-00000000000b") :: Choice.steps 0 2))
      (.call 1 (askB "00000000-0000-0000-0000-00000000000B") ::
        (Choice.steps 1 2 ++ .exec 1 [20] :: Choice.steps 1 4))).Returned 1
          (askB "00000000-0000-0000-0000-00000000000B")
          (.error (.backend (.uniqueViolation "idx_direct_conversations_pair"))) := by
    decide +kernel
  have hrun := OneByOne.cons rfl (by decide) hfirst (.cons rfl (by decide) hsecond (.nil _))
  obtain ⟨id, hid⟩ := hagree.2 _ _ hrun
  obtain ⟨row, createdAt, hok, _⟩ := hid _ (List.mem_cons_of_mem _ List.mem_cons_self)
  exact nomatch hok

end Messaging

end GuffSuff
