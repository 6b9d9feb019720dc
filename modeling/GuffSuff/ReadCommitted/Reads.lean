import GuffSuff.ReadCommitted.Embedding
import GuffSuff.ReadCommitted.Runs

/-! Calls of one reading statement beside the calls of a system. Such a call
records what it is answered, and its answer is that of a database which the
system has had while the call was in progress. -/

namespace ReadCommitted

/-- The queries: the orders in which their rows may come, and the reply that is made of them. -/
structure Queries (Db Id Query Reply : Type) where
  accept : Query → Db → List Id → Bool
  reply : Query → Db → List Id → Reply

namespace Queries

variable {Db Key Id Event Result Call Cell Query Reply : Type}

inductive Entry (Event Query Reply : Type) where
  | base (e : Event)
  | answered (q : Query) (r : Reply)
  deriving DecidableEq

inductive Request (Call Query : Type) where
  | base (c : Call)
  | ask (q : Query)
  deriving DecidableEq

inductive Answer (Result Reply : Type) where
  | base (r : Result)
  | reply (r : Reply)
  | failed
  deriving DecidableEq

variable (Q : Queries Db Id Query Reply)

def tables : Embedding Db Key Event Db Key (Entry Event Query Reply) where
  view := id
  put d _ := d
  key := id
  event := .base

def ask (q : Query) : Program Db Key Id (Entry Event Query Reply) (Answer Result Reply) :=
  .observe (Q.accept q) (fun db ids => .answered q (Q.reply q db ids)) fun db ids =>
  .ret (.reply (Q.reply q db ids))

def program (code : Call → Program Db Key Id Event Result) :
    Request Call Query → Program Db Key Id (Entry Event Query Reply) (Answer Result Reply)
  | .base c => (code c).embed tables fun r => .ret (.base r)
  | .ask q => Q.ask q

def aborted (fallback : Call → Result) : Request Call Query → Answer Result Reply
  | .base c => .base (fallback c)
  | .ask _ => .failed

/-- A decision of the scheduler, where queries may be called as well. -/
def beside : Choice Id Call → Choice Id (Request Call Query)
  | .tick n => .tick n
  | .call p c => .call p (.base c)
  | .exec p ids => .exec p ids
  | .fail p => .fail p

/-- The reply is that of this database, with its rows in some order that the query accepts. -/
def Replies (q : Query) (db : Db) (r : Reply) : Prop := ∃ ids, Q.accept q db ids = true ∧ r = Q.reply q db ids

/-- A query leaves the database as it is. -/
def spec (S : Spec Db Key Id Event Cell) : Spec Db Key Id (Entry Event Query Reply) Cell where
  moves
    | c, db, .base e, db' => S.moves c db e db'
    | _, db, .answered q r, db' => db' = db ∧ Q.Replies q db r
  holds := S.holds
  cell := S.cell
  has := S.has
  holds_move := by
    intro c db e db' h hm
    cases e with
    | base e => exact S.holds_move h hm
    | answered q r => exact hm.1 ▸ h
  holds_tick := S.holds_tick

def contract (fallback : Call → Result) (Post : Call → World Db → Spec.Contract Db Event Result) :
    Request Call Query → World Db →
      Spec.Contract Db (Entry Event Query Reply) (Answer Result Reply)
  | .base c, w =>
    { trace := fun es' => ∃ es, es' = es.map .base ∧ (Post c w).trace es
      answer := fun r' es' v => r' = .base (fallback c) ∨
        ∃ r es, r' = .base r ∧ es' = es.map .base ∧ (Post c w).answer r es v }
  | .ask q, _ =>
    { trace := fun es => es = [] ∨ ∃ r, es = [.answered q r]
      answer := fun r es _ => r = .failed ∨ ∃ reply, r = .reply reply ∧ es = [.answered q reply] }

variable {S : Spec Db Key Id Event Cell} {code : Call → Program Db Key Id Event Result}
variable {Post : Call → World Db → Spec.Contract Db Event Result} {fallback : Call → Result}

theorem embeds (S : Spec Db Key Id Event Cell) : S.Embeds (Q.spec S) tables where
  view_put := fun _ _ => rfl
  put_view := fun _ => rfl
  put_put := fun _ _ _ => rfl
  holds := fun _ _ h => h
  move := fun _ _ _ _ h => h
  view_move := by
    intro c db e db' h
    cases e with
    | base e => exact .inl ⟨e, h⟩
    | answered q r => exact .inr h.1
  cell := fun _ _ _ h => h
  cell_put := by
    intro L d db h k hk
    exact h k (by simpa [tables] using hk)
  has := fun _ _ => Iff.rfl

theorem safe_base (c : Call) {w : World Db} (h : S.Safe (Post c w) (code c) [] [] id [] w) :
    (Q.spec S).Safe (contract fallback Post (.base c) w) (Q.program code (.base c)) [] [] id [] w := by
  have hlift := Spec.Safe.lift (Q.embeds S) (g := (Answer.base : Result → Answer Result Reply)) (w := w) h
  refine Spec.Safe.mono (fun _ ht => ?_) (fun _ _ _ ha => ?_) hlift
  · exact ht
  · exact .inr ha

theorem safe_ask (q : Query) {w : World Db} :
    (Q.spec S).Safe (contract fallback Post (.ask q) w) (Q.program code (.ask q)) [] [] id [] w := by
  intro v _ _ ids hids
  refine ⟨⟨rfl, ids, hids, rfl⟩, .inr ⟨_, rfl⟩, fun _ _ _ => .inr ⟨_, rfl, rfl⟩⟩

variable (S Post code) in
/-- The calls of the system keep their contracts when no statement fails. -/
def Keep : Prop := ∀ c w, S.holds w.clock w.db →
  (Post c w).trace [] ∧ S.Safe (Post c w) (code c) [] [] id [] w

theorem covers (hkeep : Keep S code Post) (ch : Choice Id (Request Call Query)) :
    Server.Covers (Q.spec S) (contract fallback Post) (Q.program code) (aborted fallback) ch := by
  cases ch with
  | call p c =>
    cases c with
    | base c =>
      intro w hw
      obtain ⟨htrace, hsafe⟩ := hkeep c w hw
      exact ⟨⟨[], rfl, htrace⟩, Q.safe_base c hsafe⟩
    | ask q => exact fun _ _ => ⟨.inl rfl, Q.safe_ask q⟩
  | fail p =>
    intro c _ _ _
    cases c with
    | base c => exact .inl rfl
    | ask q => exact .inl rfl
  | _ => trivial

/-- The entries that the system itself has made. -/
def Entry.base? : Entry Event Query Reply → Option Event
  | .base e => some e
  | .answered _ _ => none

theorem path_base {v w : World Db} {es : List (Entry Event Query Reply)} (h : (Q.spec S).Path v es w) :
    S.Path v (es.filterMap Entry.base?) w := by
  induction h with
  | refl => exact .refl _
  | tick _ hc ih => exact ih.tick hc
  | @move _ c db db' e _ hm ih =>
    rw [List.filterMap_append]
    cases e with
    | base e => exact ih.move hm
    | answered q r =>
      have hnone : [(.answered q r : Entry Event Query Reply)].filterMap Entry.base? = [] := rfl
      rw [hnone, List.append_nil, hm.1]
      exact ih

theorem later_base {v w : World Db} (h : (Q.spec S).Later v w) : S.Later v w := by
  obtain ⟨_, h⟩ := h
  exact ⟨_, Q.path_base h⟩

section
variable {w₀ : World Db}
variable {s : Server Db Key Id (Entry Event Query Reply) (Answer Result Reply) (Request Call Query)}
variable {p : Nat} {q : Query} {r : Reply}

/-- What a call of the system answers and records, it does beside the queries as well. -/
theorem returned_base (h : Server.Sound (Q.spec S) (contract fallback Post) w₀ s) {c : Call} {r : Result}
    (hret : s.Returned p (.base c) (.base r)) : r = fallback c ∨ ∃ pr es, s.procs p = some pr ∧
      Server.eventsOf s.log p = es.map .base ∧ (Post c pr.began).answer r es s.world := by
  obtain ⟨pr, hp, hcall, hfin⟩ := Server.returned_iff.mp hret
  have hpost := h.post hp hfin
  rw [hcall] at hpost
  obtain hfail | ⟨r', es, hr, hes, hanswer⟩ := hpost
  · exact .inl (Answer.base.inj hfail)
  · obtain rfl := Answer.base.inj hr
    exact .inr ⟨pr, es, hp, hes, hanswer⟩

theorem trace_base (h : Server.Sound (Q.spec S) (contract fallback Post) w₀ s) {e : Event}
    (he : (p, .base e) ∈ s.log) : ∃ pr c es, s.procs p = some pr ∧ pr.call = .base c ∧ e ∈ es ∧
      Server.eventsOf s.log p = es.map .base ∧ (Post c pr.began).trace es := by
  obtain ⟨pr, hp, htrace⟩ := h.trace_of_log he
  have hmem := Server.mem_eventsOf.mpr he
  cases hcall : pr.call with
  | ask q =>
    rw [hcall] at htrace
    obtain hnil | ⟨r, hone⟩ := htrace
    · exact absurd (hnil ▸ hmem) List.not_mem_nil
    · exact absurd (List.mem_singleton.mp (hone ▸ hmem)) (by simp)
  | base c =>
    rw [hcall] at htrace
    obtain ⟨es, hes, ht⟩ := htrace
    exact ⟨pr, c, es, hp, hcall, by simpa [hes] using hmem, hes, ht⟩

theorem reply_recorded (h : Server.Sound (Q.spec S) (contract fallback Post) w₀ s)
    (hret : s.Returned p (.ask q) (.reply r)) : (p, .answered q r) ∈ s.log := by
  obtain ⟨pr, hp, hcall, hfin⟩ := Server.returned_iff.mp hret
  have hpost := h.post hp hfin
  rw [hcall] at hpost
  obtain hfail | ⟨reply, heq, hes⟩ := hpost
  · exact absurd hfail (by simp)
  · obtain rfl := Answer.reply.inj heq
    exact Server.mem_eventsOf.mp (by simp [hes])

/-- What a call answers was the case at one moment between its beginning and now. -/
theorem reply_current (h : Server.Sound (Q.spec S) (contract fallback Post) w₀ s)
    {pr : Process Db Key Id (Entry Event Query Reply) (Answer Result Reply) (Request Call Query)}
    (hp : s.procs p = some pr) (hret : s.Returned p (.ask q) (.reply r)) :
    ∃ c db, S.holds c db ∧ S.Later pr.began ⟨c, db⟩ ∧ S.Later ⟨c, db⟩ s.world ∧ Q.Replies q db r := by
  obtain ⟨c, db, db', hi, hsince, ⟨hsame, hreply⟩, huntil⟩ :=
    h.entry_since hp (Server.mem_eventsOf.mpr (Q.reply_recorded h hret))
  exact ⟨c, db, hi, Q.later_base hsince, Q.later_base (hsame ▸ huntil), hreply⟩

variable [DecidableEq Key] [DecidableEq Id]

/-- A call made after the server has reached `s` is answered from a database of later. -/
theorem reply_later (hkeep : Keep S code Post)
    (h : Server.Sound (Q.spec S) (contract fallback Post) w₀ s) (hp : s.procs p = none)
    {sched : List (Choice Id (Request Call Query))}
    (hret : (s.run (Q.program code) (aborted fallback) sched).Returned p (.ask q) (.reply r)) :
    ∃ c db, S.holds c db ∧ S.Later s.world ⟨c, db⟩ ∧ Q.Replies q db r := by
  have hcovers : ∀ ch ∈ sched, Server.Covers (Q.spec S) (contract fallback Post) (Q.program code)
      (aborted fallback) ch := fun ch _ => Q.covers hkeep ch
  obtain ⟨pr, hpr, _⟩ := Server.returned_iff.mp hret
  have hbegan := Q.later_base (h.run_starts hcovers hp hpr)
  obtain ⟨c, db, hi, hsince, _, hreply⟩ := Q.reply_current (h.run hcovers) hpr hret
  exact ⟨c, db, hi, hbegan.trans hsince, hreply⟩

end

end Queries

end ReadCommitted
