import GuffSuff.ReadCommitted.Path

/-! Proof outlines for single calls. Between two statements of a call the
others may commit anything the specification allows, except on rows the call
has locked and identifiers it has drawn. -/

namespace ReadCommitted

variable {Db Key Id Event Result Cell : Type}

/-- The program neither commits nor records anything, and all it answers is in `P`. -/
def Program.Quiet (P : Result → Prop) : Program Db Key Id Event Result → Prop
  | .ret r => P r
  | .now k => ∀ t, (k t).Quiet P
  | .fresh k => ∀ x, (k x).Quiet P
  | .query k => ∀ db, (k db).Quiet P
  | .select _ k => ∀ ids, (k ids).Quiet P
  | .lock _ k => ∀ db, (k db).Quiet P
  | .write _ k => k.Quiet P
  | .commit _ _ => False
  | .observe _ _ _ => False
  | .rollback k => k.Quiet P

/-- Each write of the program stays within `R`, and the events it records are in `E`. -/
def Program.Keeps (R : Db → Db → Prop) (E : Event → Prop) : Program Db Key Id Event Result → Prop
  | .ret _ => True
  | .now k => ∀ t, (k t).Keeps R E
  | .fresh k => ∀ x, (k x).Keeps R E
  | .query k => ∀ db, (k db).Keeps R E
  | .select _ k => ∀ ids, (k ids).Keeps R E
  | .lock _ k => ∀ db, (k db).Keeps R E
  | .write g k => (∀ db, R db (g db)) ∧ k.Keeps R E
  | .commit e k => E e ∧ k.Keeps R E
  | .observe _ e k => ∀ db ids, E (e db ids) ∧ (k db ids).Keeps R E
  | .rollback k => k.Keeps R E

namespace Spec
variable (S : Spec Db Key Id Event Cell)

/-- What a call may rely on while it holds the locks `L` and has drawn `D`. -/
structure Rely (L : List Key) (D : List Id) (w w' : World Db) : Prop where
  later : S.Later w w'
  same : ∀ k ∈ L, S.cell k w'.db = S.cell k w.db
  unused : ∀ x ∈ D, S.has x w'.db → S.has x w.db

/-- What a call promises: of the events it has recorded so far at any time, and
of its answer. -/
structure Contract (Db Event Result : Type) where
  trace : List Event → Prop
  answer : Result → List Event → World Db → Prop

def Contract.orAborted (aborted : Result) (C : Contract Db Event Result) :
    Contract Db Event Result where
  trace := C.trace
  answer r es w := r = aborted ∨ C.answer r es w

/-- The call keeps to the specification and to its contract from world `w` on:
each commit is a move of the event it records and touches only locked rows and
drawn identifiers, whatever the others do in between. -/
def Safe (C : Contract Db Event Result) :
    Program Db Key Id Event Result → List Key → List Id → (Db → Db) → List Event → World Db → Prop
  | .ret r, _, D, _, es, w => ∀ w', S.Rely [] D w w' → S.holds w'.clock w'.db → C.answer r es w'
  | .now k, L, D, f, es, w => ∀ w', S.Rely L D w w' → S.holds w'.clock w'.db →
      Safe C (k w'.clock) L D f es w'
  | .fresh k, L, D, f, es, w => ∀ w', S.Rely L D w w' → S.holds w'.clock w'.db →
      ∀ x, x ∉ D → ¬ S.has x w'.db → Safe C (k x) L (x :: D) f es w'
  | .query k, L, D, f, es, w => ∀ w', S.Rely L D w w' → S.holds w'.clock w'.db →
      Safe C (k (f w'.db)) L D f es w'
  | .select accept k, L, D, f, es, w => ∀ w', S.Rely L D w w' → S.holds w'.clock w'.db →
      ∀ ids, accept (f w'.db) ids = true → Safe C (k ids) L D f es w'
  | .lock key k, L, D, f, es, w => ∀ w', S.Rely L D w w' → S.holds w'.clock w'.db →
      Safe C (k (f w'.db)) (key :: L) D f es w'
  | .write g k, L, D, f, es, w => Safe C k L D (fun db => g (f db)) es w
  | .commit e k, L, D, f, es, w => ∀ w', S.Rely L D w w' → S.holds w'.clock w'.db →
      S.moves w'.clock w'.db e (f w'.db) ∧
      (∀ k ∉ L, S.cell k (f w'.db) = S.cell k w'.db) ∧
      (∀ x, S.has x (f w'.db) → S.has x w'.db ∨ x ∈ D) ∧
      C.trace (es ++ [e]) ∧ Safe C k [] D id (es ++ [e]) ⟨w'.clock, f w'.db⟩
  | .observe accept e k, L, D, f, es, w => ∀ w', S.Rely L D w w' → S.holds w'.clock w'.db →
      ∀ ids, accept (f w'.db) ids = true → S.moves w'.clock w'.db (e (f w'.db) ids) w'.db ∧
      C.trace (es ++ [e (f w'.db) ids]) ∧
      Safe C (k (f w'.db) ids) L D f (es ++ [e (f w'.db) ids]) w'
  | .rollback k, _, D, _, es, w => Safe C k [] D id es w

variable {S}

theorem Rely.refl (L : List Key) (D : List Id) (w : World Db) : S.Rely L D w w :=
  ⟨.refl w, fun _ _ => rfl, fun _ _ h => h⟩

theorem Rely.trans {L : List Key} {D : List Id} {u v w : World Db}
    (h : S.Rely L D u v) (h' : S.Rely L D v w) : S.Rely L D u w :=
  ⟨h.later.trans h'.later, fun k hk => (h'.same k hk).trans (h.same k hk),
    fun x hx hw => h.unused x hx (h'.unused x hx hw)⟩

theorem Rely.mono {L L' : List Key} {D D' : List Id} {w w' : World Db}
    (h : S.Rely L D w w') (hL : L' ⊆ L) (hD : D' ⊆ D) : S.Rely L' D' w w' :=
  ⟨h.later, fun k hk => h.same k (hL hk), fun x hx => h.unused x (hD hx)⟩

theorem Rely.drop {L : List Key} {D : List Id} {w w' : World Db}
    (h : S.Rely L D w w') : S.Rely [] D w w' :=
  h.mono (List.nil_subset L) (List.Subset.refl D)

theorem Rely.of_cons {k : Key} {L : List Key} {D : List Id} {w w' : World Db}
    (h : S.Rely (k :: L) D w w') : S.Rely L D w w' :=
  h.mono (List.subset_cons_self k L) (List.Subset.refl D)

theorem Rely.of_draw {x : Id} {L : List Key} {D : List Id} {w w' : World Db}
    (h : S.Rely L (x :: D) w w') : S.Rely L D w w' :=
  h.mono (List.Subset.refl L) (List.subset_cons_self x D)

variable (S) in
/-- A later point of a call that has given up no lock since. -/
structure Onward (D : List Id) (L : List Key) (w : World Db) (L' : List Key) (w' : World Db) :
    Prop where
  locks : L ⊆ L'
  rely : S.Rely L D w w'

theorem Onward.trans {D : List Id} {L L' L'' : List Key} {u v w : World Db}
    (h : S.Onward D L u L' v) (h' : S.Onward D L' v L'' w) : S.Onward D L u L'' w :=
  ⟨List.Subset.trans h.locks h'.locks, h.rely.trans (h'.rely.mono h.locks (List.Subset.refl D))⟩

variable (S) in
def Fresh (D : List Id) (w : World Db) : Prop := ∀ x ∈ D, ¬ S.has x w.db

theorem Fresh.nil (w : World Db) : S.Fresh [] w := fun _ hx => absurd hx List.not_mem_nil

theorem Fresh.rely {L : List Key} {D : List Id} {w w' : World Db} (h : S.Fresh D w)
    (hr : S.Rely L D w w') : S.Fresh D w' := fun x hx hw => h x hx (hr.unused x hx hw)

theorem Fresh.cons {x : Id} {D : List Id} {w : World Db} (h : S.Fresh D w)
    (hx : ¬ S.has x w.db) : S.Fresh (x :: D) w := by
  intro y hy
  rcases List.mem_cons.mp hy with rfl | hy
  · exact hx
  · exact h y hy

variable {C : Contract Db Event Result}

/-- An outline survives everything it may rely on. -/
theorem Safe.rely {p : Program Db Key Id Event Result} {L : List Key} {D : List Id}
    {f : Db → Db} {es : List Event} {w w' : World Db}
    (h : S.Safe C p L D f es w) (hr : S.Rely L D w w') : S.Safe C p L D f es w' := by
  induction p generalizing L f w w' with
  | ret r => exact fun v hv => h v (hr.drop.trans hv)
  | now k => exact fun v hv => h v (hr.trans hv)
  | fresh k => exact fun v hv => h v (hr.trans hv)
  | query k => exact fun v hv => h v (hr.trans hv)
  | select accept k => exact fun v hv => h v (hr.trans hv)
  | lock key k => exact fun v hv => h v (hr.trans hv)
  | write g k ih => exact ih h hr
  | commit e k => exact fun v hv => h v (hr.trans hv)
  | observe accept e k => exact fun v hv => h v (hr.trans hv)
  | rollback k ih => exact ih h hr.drop

theorem Safe.mono {C' : Contract Db Event Result} (ht : ∀ es, C.trace es → C'.trace es)
    (ha : ∀ r es w, C.answer r es w → C'.answer r es w)
    {p : Program Db Key Id Event Result} {L : List Key} {D : List Id}
    {f : Db → Db} {es : List Event} {w : World Db}
    (h : S.Safe C p L D f es w) : S.Safe C' p L D f es w := by
  induction p generalizing L D f es w with
  | ret r => exact fun v hv hi => ha r es v (h v hv hi)
  | now k ih => exact fun v hv hi => ih _ (h v hv hi)
  | fresh k ih => exact fun v hv hi x hx hn => ih x (h v hv hi x hx hn)
  | query k ih => exact fun v hv hi => ih _ (h v hv hi)
  | select accept k ih => exact fun v hv hi ids hacc => ih ids (h v hv hi ids hacc)
  | lock key k ih => exact fun v hv hi => ih _ (h v hv hi)
  | write g k ih => exact ih h
  | commit e k ih =>
    intro v hv hi
    obtain ⟨hm, hcell, hhas, hes, hk⟩ := h v hv hi
    exact ⟨hm, hcell, hhas, ht _ hes, ih hk⟩
  | observe accept e k ih =>
    intro v hv hi ids hacc
    obtain ⟨hm, hes, hk⟩ := h v hv hi ids hacc
    exact ⟨hm, ht _ hes, ih _ ids hk⟩
  | rollback k ih => exact ih h

/-- A call that commits nothing only has its answers to account for. -/
theorem Safe.of_quiet {P : Result → Prop} {p : Program Db Key Id Event Result} (hp : p.Quiet P)
    {L : List Key} {D : List Id} {f : Db → Db} {es : List Event} {w : World Db}
    (ha : ∀ r w, P r → C.answer r es w) : S.Safe C p L D f es w := by
  induction p generalizing L D f w with
  | ret r => exact fun v _ _ => ha r v hp
  | now k ih => exact fun v _ _ => ih _ (hp _)
  | fresh k ih => exact fun v _ _ x _ _ => ih x (hp x)
  | query k ih => exact fun v _ _ => ih _ (hp _)
  | select accept k ih => exact fun v _ _ ids _ => ih ids (hp ids)
  | lock key k ih => exact fun v _ _ => ih _ (hp _)
  | write g k ih => exact ih hp
  | commit e k ih => exact absurd hp id
  | observe accept e k ih => exact absurd hp id
  | rollback k ih => exact ih hp

variable (S) in
/-- Whatever stays within `R` is a move of each event in `E`, and touches nothing that locks protect. -/
structure Frames (R : Db → Db → Prop) (E : Event → Prop) : Prop where
  refl : ∀ db, R db db
  trans : ∀ {a b c}, R a b → R b c → R a c
  moves : ∀ c {db e db'}, E e → R db db' → S.moves c db e db'
  cell : ∀ k {db db'}, R db db' → S.cell k db' = S.cell k db
  has : ∀ x {db db'}, R db db' → S.has x db' → S.has x db

/-- A call that keeps to a frame is safe, if nothing is asked of its events and answers. -/
theorem Safe.of_keeps {R : Db → Db → Prop} {E : Event → Prop} (hS : S.Frames R E)
    (ht : ∀ es, C.trace es) (ha : ∀ r es w, C.answer r es w) {p : Program Db Key Id Event Result}
    (hp : p.Keeps R E) {L : List Key} {D : List Id} {f : Db → Db} {es : List Event} {w : World Db}
    (hf : ∀ db, R db (f db)) : S.Safe C p L D f es w := by
  induction p generalizing L D f es w with
  | ret r => exact fun v _ _ => ha r es v
  | now k ih => exact fun v _ _ => ih _ (hp _) hf
  | fresh k ih => exact fun v _ _ x _ _ => ih x (hp x) hf
  | query k ih => exact fun v _ _ => ih _ (hp _) hf
  | select accept k ih => exact fun v _ _ ids _ => ih ids (hp ids) hf
  | lock key k ih => exact fun v _ _ => ih _ (hp _) hf
  | write g k ih => exact ih hp.2 fun db => hS.trans (hf db) (hp.1 _)
  | commit e k ih =>
    intro v _ _
    refine ⟨hS.moves _ hp.1 (hf v.db), fun key _ => hS.cell key (hf v.db), ?_, ht _, ih hp.2 hS.refl⟩
    exact fun x hx => .inl (hS.has x (hf v.db) hx)
  | observe accept e k ih =>
    intro v _ _ ids _
    exact ⟨hS.moves _ (hp _ _).1 (hS.refl v.db), ht _, ih _ ids (hp _ _).2 hf⟩
  | rollback k ih => exact ih hp hS.refl

theorem Safe.lockAll {key : Id → Key} {k : Program Db Key Id Event Result}
    {D : List Id} {f : Db → Db} {es : List Event} (ids : List Id) {L : List Key} {w : World Db}
    (h : ∀ w', S.Rely L D w w' → S.holds w'.clock w'.db →
      ∀ L', (∀ i ∈ ids, key i ∈ L') → L ⊆ L' → S.Safe C k L' D f es w')
    (hi : S.holds w.clock w.db) : S.Safe C (Program.lockAll key ids k) L D f es w := by
  induction ids generalizing L w with
  | nil => exact h w (.refl L D w) hi L (by simp) (List.Subset.refl L)
  | cons i ids ih =>
    intro v hv hiv
    apply ih _ hiv
    intro u hu hiu L' hL' hsub
    apply h u (hv.trans hu.of_cons) hiu L'
    · simpa using ⟨hsub (List.mem_cons_self), hL'⟩
    · exact List.Subset.trans (List.subset_cons_self _ L) hsub

/-- Locking rows one by one and keeping those that still satisfy the `WHERE`
clause: `P` is what the clause says of a locked row. -/
theorem Safe.lockEach {key : Id → Key} {still : Id → Db → Bool}
    {k : List Id → Program Db Key Id Event Result} {P : Id → World Db → Prop}
    {D : List Id} {f : Db → Db} {es : List Event}
    (hstill : ∀ i w, S.holds w.clock w.db → still i (f w.db) = true → P i w)
    (hP : ∀ i L w w', key i ∈ L → S.Rely L D w w' → P i w → P i w')
    (ids kept : List Id) {L : List Key} {w : World Db}
    (hkept : ∀ i ∈ kept, key i ∈ L ∧ P i w)
    (h : ∀ w', S.Rely L D w w' → S.holds w'.clock w'.db →
      ∀ L' kept', (∀ i ∈ kept', key i ∈ L' ∧ P i w') → kept'.Sublist (kept ++ ids) → L ⊆ L' →
        S.Safe C (k kept') L' D f es w')
    (hi : S.holds w.clock w.db) :
    S.Safe C (Program.lockEach key still kept ids k) L D f es w := by
  induction ids generalizing L w kept with
  | nil =>
    exact h w (.refl L D w) hi L kept hkept (by simp) (List.Subset.refl L)
  | cons i ids ih =>
    intro v hv hiv
    have hold : ∀ j ∈ kept, key j ∈ key i :: L ∧ P j v := fun j hj =>
      ⟨List.mem_cons_of_mem _ (hkept j hj).1, hP j L w v (hkept j hj).1 hv (hkept j hj).2⟩
    by_cases hs : still i (f v.db) = true
    · simp only [hs, if_true]
      apply ih _ _ _ hiv
      · intro j hj
        rcases List.mem_append.mp hj with hj | hj
        · exact hold j hj
        · obtain rfl := List.mem_singleton.mp hj
          exact ⟨List.mem_cons_self, hstill j v hiv hs⟩
      · intro u hu hiu L' kept' hk hsub hL
        refine h u (hv.trans hu.of_cons) hiu L' kept' hk ?_ (List.Subset.trans (List.subset_cons_self _ L) hL)
        simpa only [List.append_assoc, List.singleton_append] using hsub
    · simp only [hs]
      apply ih _ hold _ hiv
      intro u hu hiu L' kept' hk hsub hL
      refine h u (hv.trans hu.of_cons) hiu L' kept' hk ?_ (List.Subset.trans (List.subset_cons_self _ L) hL)
      exact hsub.trans ((List.sublist_cons_self i ids).append_left kept)

end Spec

end ReadCommitted
