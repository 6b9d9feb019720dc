import GuffSuff.ReadCommitted.Faults
import GuffSuff.Services

/-! Calls of the backend that run on their own and meet a fault of the database
at one of their statements. -/

namespace GuffSuff

open ReadCommitted SessionService

section
variable {Row : Type} [Keyed Row Uuid] {t : List Row} {ids : List Uuid} {g : Row → Row}

theorem updated_all {P Q : Row → Prop} (hids : ∀ r ∈ t, P r → Keyed.key r ∈ ids) (hQ : ∀ r, Q (g r)) :
    ∀ r ∈ updateRows t ids g, P r → Q r := by
  intro r hr hP
  obtain ⟨s, hs, rfl⟩ := mem_updateRows.mp hr
  split at hP
  · rw [if_pos ‹_›]
    exact hQ s
  · exact absurd (hids s hs hP) ‹_›

theorem key_mem_iff (hnd : (keys t).Nodup) {p : Row → Bool} (hids : ∀ i, i ∈ ids ↔ i ∈ keys (t.filter p))
    {r : Row} (hr : r ∈ t) : Keyed.key r ∈ ids ↔ p r = true := by
  rw [hids]
  constructor
  · intro hin
    obtain ⟨s, hs, hkey⟩ := mem_keys.mp hin
    obtain ⟨hs, hp⟩ := List.mem_filter.mp hs
    obtain rfl : s = r := eq_of_key_eq hnd hs hr hkey
    exact hp
  · exact fun hp => key_mem_keys (List.mem_filter.mpr ⟨hr, hp⟩)

theorem updateRows_eq_self : updateRows t ids g = t ↔ ∀ r ∈ t, Keyed.key r ∈ ids → g r = r := by
  constructor
  · intro h r hr hid
    have hmap : t.map (fun r => if Keyed.key r ∈ ids then g r else r) = t.map id :=
      h.trans t.map_id.symm
    have hr' := List.map_inj_left.mp hmap r hr
    simpa [hid] using hr'
  · intro h
    have hmap : t.map (fun r => if Keyed.key r ∈ ids then g r else r) = t.map id := by
      refine List.map_inj_left.mpr fun r hr => ?_
      split
      · exact h r hr ‹_›
      · rfl
    exact hmap.trans t.map_id

end

section
variable {F : Program → List Uuid → List Event → Prop} {Fail : List Uuid → List Event → Db → Prop}
variable {Ret : Answer → List Uuid → List Event → Db → Prop} {d : List Uuid} {es : List Event}
variable {f : Db → Db} {w : World Db}

theorem stops_throw {x : Failure} (hfail : Fail d es w.db) (hret : Ret (.error x) d es w.db) :
    (throw x).Stops F Fail Ret d f es w := ⟨fun _ => hfail, hret⟩

theorem stops_updateWhere {rows : Db → List Uuid} {key : Uuid → Key}
    {u : List Uuid → Write} {k : List Uuid → Program} (hfail : Fail d es w.db)
    (hk : ∀ ids, (∀ i, i ∈ ids ↔ i ∈ rows (f w.db)) →
      (k ids).Stops F Fail Ret d (fun db => (u ids).apply (f db)) es w) :
    (updateWhere rows key u k).Stops F Fail Ret d f es w :=
  ⟨fun _ => hfail, fun ids hids => .lockAll ids hfail
    ⟨fun _ => hfail, hk ids fun _ => mem_of_exactly hids⟩⟩

theorem stops_insertRefreshToken {t : RefreshToken} {k : Program} (hfail : Fail d es w.db)
    (hu : ∀ name, Ret (.error (.uniqueViolation name)) d es w.db)
    (hf : ∀ name, Ret (.error (.foreignKeyViolation name)) d es w.db)
    (hk : k.Stops F Fail Ret d (fun db => (Write.insertRefreshToken t).apply (f db)) es w) :
    (insertRefreshToken t k).Stops F Fail Ret d f es w := by
  refine ⟨fun _ => hfail, fun _ => hfail, ?_⟩
  dsimp only
  repeat' split
  · exact stops_throw hfail (hu _)
  · exact stops_throw hfail (hu _)
  · exact stops_throw hfail (hf _)
  · exact stops_throw hfail (hf _)
  · exact ⟨fun _ => hfail, hk⟩

theorem stops_insertSecurityEvent {e : SecurityEvent} {k : Program} (hfail : Fail d es w.db)
    (hu : ∀ name, Ret (.error (.uniqueViolation name)) d es w.db)
    (hf : ∀ name, Ret (.error (.foreignKeyViolation name)) d es w.db)
    (hk : k.Stops F Fail Ret d (fun db => (Write.insertSecurityEvent e).apply (f db)) es w) :
    (insertSecurityEvent e k).Stops F Fail Ret d f es w := by
  refine ⟨fun _ => hfail, ?_⟩
  dsimp only
  repeat' split
  · exact stops_throw hfail (hu _)
  · exact stops_throw hfail (hf _)
  · exact stops_throw hfail (hf _)
  · exact ⟨fun _ => hfail, hk⟩

end

/-- A fault at some statement of the call `c` that process `p` makes on its own. -/
abbrev FaultyCall (pf : Platform) (fk : FkCheck) (s : Server) (p : Nat) (c : Call) (r : Answer)
    (sched : List Choice) : Prop :=
  ReadCommitted.Server.FaultyCall (Call.program pf fk) Call.aborted s p c r
    (fun prog _ _ => prog.isStatement = true) sched

abbrev struck (pf : Platform) (fk : FkCheck) (s : Server) (p : Nat) (sched : List Choice) :
    Option (Process Db Key Uuid Event Answer Call) :=
  s.struck (Call.program pf fk) Call.aborted p sched

end GuffSuff
