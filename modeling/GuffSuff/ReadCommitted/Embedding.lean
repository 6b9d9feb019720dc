import GuffSuff.ReadCommitted.Outline

/-! Calls of one system made from inside another one, whose database contains
the tables they work on. -/

namespace ReadCommitted

variable {Db Key Id Event Result : Type} {Db' Key' Event' Result' Cell' : Type}

/-- Where the smaller system lives: its tables, and its keys and events under their new names. -/
structure Embedding (Db Key Event Db' Key' Event' : Type) where
  view : Db' → Db
  put : Db → Db' → Db'
  key : Key → Key'
  event : Event → Event'

def Embedding.world (E : Embedding Db Key Event Db' Key' Event') (w : World Db') : World Db :=
  ⟨w.clock, E.view w.db⟩

/-- The program `p` of the smaller system, then what `k` makes of its result. -/
def Program.embed (E : Embedding Db Key Event Db' Key' Event')
    (k : Result → Program Db' Key' Id Event' Result') (p : Program Db Key Id Event Result) :
    Program Db' Key' Id Event' Result' :=
  match p with
  | .ret r => k r
  | .now p => .now fun t => (p t).embed E k
  | .fresh p => .fresh fun x => (p x).embed E k
  | .query p => .query fun db => (p (E.view db)).embed E k
  | .select accept p => .select (fun db => accept (E.view db)) fun ids => (p ids).embed E k
  | .lock key p => .lock (E.key key) fun db => (p (E.view db)).embed E k
  | .write f p => .write (fun db => E.put (f (E.view db)) db) (p.embed E k)
  | .commit e p => .commit (E.event e) (p.embed E k)
  | .observe accept e p => .observe (fun db => accept (E.view db))
      (fun db ids => E.event (e (E.view db) ids)) fun db ids => (p (E.view db) ids).embed E k
  | .rollback p => .rollback (p.embed E k)

theorem Program.keeps_embed {E : Embedding Db Key Event Db' Key' Event'} {R : Db' → Db' → Prop}
    {Ev : Event' → Prop} (hput : ∀ d db, R db (E.put d db)) (hevent : ∀ e, Ev (E.event e))
    {k : Result → Program Db' Key' Id Event' Result'} (hk : ∀ r, (k r).Keeps R Ev)
    (p : Program Db Key Id Event Result) : (p.embed E k).Keeps R Ev := by
  induction p with
  | ret r => exact hk r
  | now p ih => exact fun t => ih t
  | fresh p ih => exact fun x => ih x
  | query p ih => exact fun db => ih (E.view db)
  | select accept p ih => exact fun ids => ih ids
  | lock key p ih => exact fun db => ih (E.view db)
  | write g p ih => exact ⟨fun db => hput _ db, ih⟩
  | commit e p ih => exact ⟨hevent e, ih⟩
  | observe accept e p ih => exact fun db ids => ⟨hevent _, ih _ ids⟩
  | rollback p ih => exact ih

theorem Program.Keeps.embed {E : Embedding Db Key Event Db' Key' Event'} {R : Db → Db → Prop}
    {Ev : Event → Prop} {R' : Db' → Db' → Prop} {Ev' : Event' → Prop}
    (hput : ∀ d db, R (E.view db) d → R' db (E.put d db)) (hevent : ∀ e, Ev e → Ev' (E.event e))
    {k : Result → Program Db' Key' Id Event' Result'} (hk : ∀ r, (k r).Keeps R' Ev')
    {p : Program Db Key Id Event Result} (hp : p.Keeps R Ev) : (p.embed E k).Keeps R' Ev' := by
  induction p with
  | ret r => exact hk r
  | now p ih => exact fun t => ih t (hp t)
  | fresh p ih => exact fun x => ih x (hp x)
  | query p ih => exact fun db => ih _ (hp _)
  | select accept p ih => exact fun ids => ih ids (hp ids)
  | lock key p ih => exact fun db => ih _ (hp _)
  | write g p ih => exact ⟨fun db => hput _ db (hp.1 _), ih hp.2⟩
  | commit e p ih => exact ⟨hevent e hp.1, ih hp.2⟩
  | observe accept e p ih => exact fun db ids => ⟨hevent _ (hp _ _).1, ih _ ids (hp _ _).2⟩
  | rollback p ih => exact ih hp

theorem Program.embed_lockEach (E : Embedding Db Key Event Db' Key' Event') (key : Id → Key)
    (still : Id → Db → Bool) (k : Result → Program Db' Key' Id Event' Result')
    (p : List Id → Program Db Key Id Event Result) (kept ids : List Id) :
    (Program.lockEach key still kept ids p).embed E k =
      Program.lockEach (fun i => E.key (key i)) (fun i db => still i (E.view db)) kept ids
        fun kept => (p kept).embed E k := by
  induction ids generalizing kept with
  | nil => rfl
  | cons i ids ih => exact congrArg (Program.lock (E.key (key i))) (funext fun _ => ih _)

theorem Program.embed_lockAll (E : Embedding Db Key Event Db' Key' Event') (key : Id → Key)
    (k : Result → Program Db' Key' Id Event' Result') (p : Program Db Key Id Event Result)
    (ids : List Id) :
    (Program.lockAll key ids p).embed E k =
      Program.lockAll (fun i => E.key (key i)) ids (p.embed E k) := by
  induction ids with
  | nil => rfl
  | cons i ids ih => exact congrArg (Program.lock (E.key (key i))) (funext fun _ => ih)

namespace Spec

/-- What the larger system keeps, whatever an embedded call writes. -/
structure Framed (S : Spec Db' Key' Id Event' Cell') (E : Embedding Db Key Event Db' Key' Event')
    (R : Db' → Db' → Prop) : Prop where
  refl : ∀ db, R db db
  put : ∀ db db' d, R db db' → R db (E.put d db')
  moves : ∀ c db db' e, R db db' → S.moves c db (E.event e) db'
  cell : ∀ k db db', R db db' → S.cell k db' = S.cell k db
  has : ∀ x db db', R db db' → S.has x db' → S.has x db

theorem forall_mem_concat {E : Event → Prop} {es : List Event} {e : Event} (hes : ∀ e ∈ es, E e)
    (he : E e) : ∀ e' ∈ es ++ [e], E e' :=
  List.forall_mem_append.mpr ⟨hes, List.forall_mem_singleton.mpr he⟩

/-- As `of_keeps`, with the events of the frame told of in the contract. -/
theorem Safe.of_keeps_trace {S : Spec Db Key Id Event Cell'} {C : Contract Db Event Result}
    {R : Db → Db → Prop} {E : Event → Prop} (hS : S.Frames R E)
    (ht : ∀ es, (∀ e ∈ es, E e) → C.trace es) (ha : ∀ r es w, C.answer r es w)
    {p : Program Db Key Id Event Result} (hp : p.Keeps R E) {L : List Key} {D : List Id} {f : Db → Db}
    {es : List Event} {w : World Db} (hf : ∀ db, R db (f db)) (hes : ∀ e ∈ es, E e) :
    S.Safe C p L D f es w := by
  induction p generalizing L D f es w with
  | ret r => exact fun v _ _ => ha r es v
  | now k ih => exact fun v _ _ => ih _ (hp _) hf hes
  | fresh k ih => exact fun v _ _ x _ _ => ih x (hp x) hf hes
  | query k ih => exact fun v _ _ => ih _ (hp _) hf hes
  | select accept k ih => exact fun v _ _ ids _ => ih ids (hp ids) hf hes
  | lock key k ih => exact fun v _ _ => ih _ (hp _) hf hes
  | write g k ih => exact ih hp.2 (fun db => hS.trans (hf db) (hp.1 _)) hes
  | commit e k ih =>
    intro v _ _
    refine ⟨hS.moves _ hp.1 (hf v.db), fun key _ => hS.cell key (hf v.db), ?_, ?_, ?_⟩
    · exact fun x hx => .inl (hS.has x (hf v.db) hx)
    · exact ht _ (forall_mem_concat hes hp.1)
    · exact ih hp.2 hS.refl (forall_mem_concat hes hp.1)
  | observe accept e k ih =>
    intro v _ _ ids _
    have he := (hp (f v.db) ids).1
    have hes' := forall_mem_concat hes he
    exact ⟨hS.moves _ he (hS.refl v.db), ht _ hes', ih _ ids (hp _ _).2 hf hes'⟩
  | rollback k ih => exact ih hp hS.refl hes

/-- A contract may also promise that the events are those which the program can record at all. -/
theorem Safe.traced {S : Spec Db Key Id Event Cell'} {C : Contract Db Event Result}
    {R : Db → Db → Prop} {E : Event → Prop} {p : Program Db Key Id Event Result} {L : List Key}
    {D : List Id} {f : Db → Db} {es : List Event} {w : World Db} (hp : p.Keeps R E) (hes : ∀ e ∈ es, E e) (h : S.Safe C p L D f es w) :
    S.Safe ⟨fun es => C.trace es ∧ ∀ e ∈ es, E e, C.answer⟩ p L D f es w := by
  induction p generalizing L D f es w with
  | ret r => exact h
  | now k ih => exact fun v hr hi => ih _ (hp _) hes (h v hr hi)
  | fresh k ih => exact fun v hr hi x hx hnew => ih x (hp x) hes (h v hr hi x hx hnew)
  | query k ih => exact fun v hr hi => ih _ (hp _) hes (h v hr hi)
  | select accept k ih => exact fun v hr hi ids hids => ih ids (hp ids) hes (h v hr hi ids hids)
  | lock key k ih => exact fun v hr hi => ih _ (hp _) hes (h v hr hi)
  | write g k ih => exact ih hp.2 hes h
  | commit e k ih =>
    intro v hr hi
    obtain ⟨hm, hcell, hhas, ht, hk⟩ := h v hr hi
    exact ⟨hm, hcell, hhas, ⟨ht, forall_mem_concat hes hp.1⟩, ih hp.2 (forall_mem_concat hes hp.1) hk⟩
  | observe accept e k ih =>
    intro v hr hi ids hids
    obtain ⟨hm, ht, hk⟩ := h v hr hi ids hids
    obtain ⟨he, hkeeps⟩ := hp (f v.db) ids
    exact ⟨hm, ⟨ht, forall_mem_concat hes he⟩, ih _ ids hkeeps (forall_mem_concat hes he) hk⟩
  | rollback k ih => exact ih hp hes h

/-- The frame rule: an embedded call is safe wherever its continuation is. -/
theorem Safe.embed {S : Spec Db' Key' Id Event' Cell'} {C : Contract Db' Event' Result'}
    {E : Embedding Db Key Event Db' Key' Event'} {R : Db' → Db' → Prop} (hframe : S.Framed E R)
    {T : List Event' → Prop} (htrace : ∀ es, T es → C.trace es)
    (hmore : ∀ es e, T es → T (es ++ [E.event e]))
    {k : Result → Program Db' Key' Id Event' Result'}
    (hk : ∀ r L D f es w, (∀ db, R db (f db)) → T es → S.Safe C (k r) L D f es w)
    (p : Program Db Key Id Event Result) {L : List Key'} {D : List Id} {f : Db' → Db'}
    {es : List Event'} {w : World Db'} (hf : ∀ db, R db (f db)) (hes : T es) :
    S.Safe C (p.embed E k) L D f es w := by
  induction p generalizing L D f es w with
  | ret r => exact hk r L D f es w hf hes
  | now p ih => exact fun v _ _ => ih v.clock hf hes
  | fresh p ih => exact fun v _ _ x _ _ => ih x hf hes
  | query p ih => exact fun v _ _ => ih (E.view (f v.db)) hf hes
  | select accept p ih => exact fun v _ _ ids _ => ih ids hf hes
  | lock key p ih => exact fun v _ _ => ih (E.view (f v.db)) hf hes
  | write g p ih => exact ih (fun db => hframe.put db _ _ (hf db)) hes
  | commit e p ih =>
    intro v _ _
    refine ⟨hframe.moves _ _ _ e (hf v.db), fun key _ => hframe.cell key _ _ (hf v.db), ?_, ?_, ?_⟩
    · exact fun x hx => .inl (hframe.has x _ _ (hf v.db) hx)
    · exact htrace _ (hmore es e hes)
    · exact ih hframe.refl (hmore es e hes)
  | observe accept e p ih =>
    intro v _ _ ids _
    refine ⟨hframe.moves _ _ _ _ (hframe.refl v.db), htrace _ (hmore es _ hes), ?_⟩
    exact ih _ ids hf (hmore es _ hes)
  | rollback p ih => exact ih hframe.refl hes

variable {Cell : Type}

/-- What a call of the smaller system promises, told of the larger one. -/
def Contract.lift (E : Embedding Db Key Event Db' Key' Event') (g : Result → Result')
    (C : Contract Db Event Result) : Contract Db' Event' Result' where
  trace es' := ∃ es, es' = es.map E.event ∧ C.trace es
  answer r' es' w := ∃ r es, r' = g r ∧ es' = es.map E.event ∧ C.answer r es (E.world w)

/-- The smaller system sees its own moves or nothing happen, and each of its
moves is one of the larger system that leaves the other tables alone. -/
structure Embeds (S : Spec Db Key Id Event Cell) (S' : Spec Db' Key' Id Event' Cell')
    (E : Embedding Db Key Event Db' Key' Event') : Prop where
  view_put : ∀ d db, E.view (E.put d db) = d
  put_view : ∀ db, E.put (E.view db) db = db
  put_put : ∀ d d' db, E.put d (E.put d' db) = E.put d db
  holds : ∀ c db, S'.holds c db → S.holds c (E.view db)
  move : ∀ c db e d, S.moves c (E.view db) e d → S'.moves c db (E.event e) (E.put d db)
  view_move : ∀ c db e' db', S'.moves c db e' db' →
    (∃ e, S.moves c (E.view db) e (E.view db')) ∨ E.view db' = E.view db
  cell : ∀ k db db', S'.cell (E.key k) db' = S'.cell (E.key k) db →
    S.cell k (E.view db') = S.cell k (E.view db)
  cell_put : ∀ (L : List Key) d db, (∀ k ∉ L, S.cell k d = S.cell k (E.view db)) →
    ∀ k' ∉ L.map E.key, S'.cell k' (E.put d db) = S'.cell k' db
  has : ∀ x db, S'.has x db ↔ S.has x (E.view db)

section
variable {S : Spec Db Key Id Event Cell} {S' : Spec Db' Key' Id Event' Cell'}
variable {E : Embedding Db Key Event Db' Key' Event'}

theorem Embeds.path (h : S.Embeds S' E) {v w : World Db'} {es' : List Event'} (hp : S'.Path v es' w) :
    ∃ es, S.Path (E.world v) es (E.world w) := by
  induction hp with
  | refl => exact ⟨[], .refl _⟩
  | tick _ hc ih =>
    obtain ⟨es, ih⟩ := ih
    exact ⟨es, ih.tick hc⟩
  | @move _ c db db' e' _ hm ih =>
    obtain ⟨es, ih⟩ := ih
    rcases h.view_move _ _ _ _ hm with ⟨e, hm⟩ | hsame
    · exact ⟨es ++ [e], ih.move hm⟩
    · have hworld : E.world ⟨c, db'⟩ = E.world ⟨c, db⟩ := congrArg (World.mk c) hsame
      exact ⟨es, hworld ▸ ih⟩

theorem Embeds.rely (h : S.Embeds S' E) {L : List Key} {D : List Id} {w w' : World Db'}
    (hr : S'.Rely (L.map E.key) D w w') : S.Rely L D (E.world w) (E.world w') where
  later := by
    obtain ⟨_, hp⟩ := hr.later
    exact h.path hp
  same := fun k hk => h.cell k _ _ (hr.same _ (List.mem_map_of_mem hk))
  unused := fun x hx hw => (h.has x _).mp (hr.unused x hx ((h.has x _).mpr hw))

/-- A call keeps its outline inside the larger system. -/
theorem Safe.lift (h : S.Embeds S' E) {C : Contract Db Event Result} {g : Result → Result'}
    {p : Program Db Key Id Event Result} {L : List Key} {D : List Id} {f : Db → Db} {es : List Event}
    {w : World Db'} (hs : S.Safe C p L D f es (E.world w)) :
    S'.Safe (C.lift E g) (p.embed E fun r => .ret (g r)) (L.map E.key) D
      (fun db => E.put (f (E.view db)) db) (es.map E.event) w := by
  have hid : (fun db => E.put (id (E.view db)) db) = id := funext h.put_view
  induction p generalizing L D f es w with
  | ret r =>
    intro w' hr hi
    exact ⟨r, es, rfl, rfl, hs _ (h.rely (L := []) hr) (h.holds _ _ hi)⟩
  | now k ih => exact fun w' hr hi => ih _ (hs _ (h.rely hr) (h.holds _ _ hi))
  | fresh k ih =>
    intro w' hr hi x hx hnew
    exact ih x (hs _ (h.rely hr) (h.holds _ _ hi) x hx fun hw => hnew ((h.has x _).mpr hw))
  | query k ih =>
    intro w' hr hi
    simp only [h.view_put]
    exact ih _ (hs _ (h.rely hr) (h.holds _ _ hi))
  | select accept k ih =>
    intro w' hr hi ids hacc
    simp only [h.view_put] at hacc
    exact ih ids (hs _ (h.rely hr) (h.holds _ _ hi) ids hacc)
  | lock key k ih =>
    intro w' hr hi
    simp only [h.view_put]
    exact ih _ (hs _ (h.rely hr) (h.holds _ _ hi))
  | write g k ih =>
    have hnext := ih (w := w) hs
    simp only [Program.embed, Safe, h.view_put, h.put_put]
    exact hnext
  | commit e k ih =>
    intro w' hr hi
    obtain ⟨hm, hcell, hhas, ht, hk⟩ := hs _ (h.rely hr) (h.holds _ _ hi)
    have hnext := ih (L := []) (f := id) (w := ⟨w'.clock, E.put (f (E.view w'.db)) w'.db⟩)
      (by simpa only [Embedding.world, h.view_put] using hk)
    rw [hid, List.map_append] at hnext
    refine ⟨h.move _ _ _ _ hm, h.cell_put _ _ _ hcell, fun x hx => ?_, ⟨_, by simp, ht⟩, hnext⟩
    have hx' := (h.has x _).mp hx
    rw [h.view_put] at hx'
    exact (hhas x hx').imp_left (h.has x _).mpr
  | observe accept e k ih =>
    intro w' hr hi ids hacc
    simp only [h.view_put] at hacc ⊢
    obtain ⟨hm, ht, hk⟩ := hs _ (h.rely hr) (h.holds _ _ hi) ids hacc
    have hnext := ih _ ids hk
    rw [List.map_append] at hnext
    have hmove := h.move _ _ _ _ hm
    rw [show (E.world w').db = E.view w'.db from rfl, h.put_view] at hmove
    exact ⟨hmove, ⟨_, by simp; rfl, ht⟩, hnext⟩
  | rollback k ih =>
    have hnext := ih (L := []) (f := id) (w := w) hs
    rw [hid] at hnext
    exact hnext

end

end Spec

end ReadCommitted
