import Mathlib.Data.List.Nodup

/-! Rooms of a message hub: connected clients join rooms, and a message to a room
reaches the clients in it. -/

namespace Rooms

structure Hub (Id Room Client : Type) where
  clients : List (Id × Client)
  members : List (Room × Id)

namespace Hub

variable {Id Room Client : Type}

def empty : Hub Id Room Client := ⟨[], []⟩

def connect (h : Hub Id Room Client) (i : Id) (c : Client) : Hub Id Room Client :=
  { h with clients := h.clients ++ [(i, c)] }

def join (h : Hub Id Room Client) (i : Id) (r : Room) : Hub Id Room Client :=
  { h with members := (r, i) :: h.members }

def joinAll (h : Hub Id Room Client) (i : Id) (rs : List Room) : Hub Id Room Client :=
  rs.foldl (fun h r => h.join i r) h

/-- Every connected client is in the rooms that `rooms` gives it, and nobody else is in a room. -/
structure Joins (rooms : Client → List Room) (h : Hub Id Room Client) : Prop where
  ids : (h.clients.map Prod.fst).Nodup
  members : ∀ r i, (r, i) ∈ h.members ↔ ∃ c, (i, c) ∈ h.clients ∧ r ∈ rooms c

section
variable {rooms : Client → List Room} {h : Hub Id Room Client}

theorem joins_empty : Joins rooms (empty : Hub Id Room Client) := by
  constructor <;> simp [empty]

theorem joinAll_clients (h : Hub Id Room Client) (i : Id) (rs : List Room) :
    (h.joinAll i rs).clients = h.clients := by
  induction rs generalizing h with
  | nil => rfl
  | cons r rs ih => exact ih (h.join i r)

theorem mem_joinAll {i j : Id} {rs : List Room} {r : Room} :
    (r, j) ∈ (h.joinAll i rs).members ↔ (r, j) ∈ h.members ∨ j = i ∧ r ∈ rs := by
  induction rs generalizing h with
  | nil => simp [joinAll]
  | cons r' rs ih =>
    have hstep : (h.joinAll i (r' :: rs)).members = ((h.join i r').joinAll i rs).members := rfl
    rw [hstep, ih]
    simp only [join, List.mem_cons, Prod.mk.injEq]
    constructor
    · rintro ((⟨rfl, rfl⟩ | hold) | ⟨rfl, hr⟩)
      · exact .inr ⟨rfl, .inl rfl⟩
      · exact .inl hold
      · exact .inr ⟨rfl, .inr hr⟩
    · rintro (hold | ⟨rfl, rfl | hr⟩)
      · exact .inl (.inr hold)
      · exact .inl (.inl ⟨rfl, rfl⟩)
      · exact .inr ⟨rfl, hr⟩

theorem Joins.connect (hj : Joins rooms h) {i : Id} (hi : i ∉ h.clients.map Prod.fst) (c : Client) :
    Joins rooms ((h.connect i c).joinAll i (rooms c)) := by
  constructor
  · rw [joinAll_clients]
    simp only [Hub.connect, List.map_append, List.map_cons, List.map_nil]
    exact List.nodup_append.mpr ⟨hj.ids, List.nodup_singleton i, fun a ha b hb hab =>
      hi (List.mem_singleton.mp hb ▸ hab ▸ ha)⟩
  · intro r j
    rw [mem_joinAll, joinAll_clients]
    simp only [Hub.connect, List.mem_append, List.mem_singleton, Prod.mk.injEq]
    rw [hj.members]
    constructor
    · rintro (⟨d, hd, hr⟩ | ⟨rfl, hr⟩)
      · exact ⟨d, .inl hd, hr⟩
      · exact ⟨c, .inr ⟨rfl, rfl⟩, hr⟩
    · rintro ⟨d, hd | ⟨rfl, rfl⟩, hr⟩
      · exact .inl ⟨d, hd, hr⟩
      · exact .inr ⟨rfl, hr⟩

end

variable [DecidableEq Id]

def isConnected (h : Hub Id Room Client) (i : Id) : Bool := i ∈ h.clients.map Prod.fst

def disconnect (h : Hub Id Room Client) (i : Id) : Hub Id Room Client where
  clients := h.clients.filter fun x => x.1 ≠ i
  members := h.members.filter fun x => x.2 ≠ i

theorem Joins.disconnect {rooms : Client → List Room} {h : Hub Id Room Client} (hj : Joins rooms h)
    (i : Id) : Joins rooms (h.disconnect i) := by
  constructor
  · exact hj.ids.sublist (List.filter_sublist.map _)
  · intro r j
    simp only [Hub.disconnect, List.mem_filter, decide_eq_true_eq, hj.members]
    constructor
    · rintro ⟨⟨c, hc, hr⟩, hne⟩
      exact ⟨c, ⟨hc, hne⟩, hr⟩
    · rintro ⟨c, ⟨hc, hne⟩, hr⟩
      exact ⟨⟨c, hc, hr⟩, hne⟩

variable [DecidableEq Room]

def receivers (h : Hub Id Room Client) (r : Room) : List Client :=
  (h.clients.filter fun x => (r, x.1) ∈ h.members).map Prod.snd

theorem Joins.mem_receivers {rooms : Client → List Room} {h : Hub Id Room Client} (hj : Joins rooms h)
    {r : Room} {c : Client} : c ∈ h.receivers r ↔ (∃ i, (i, c) ∈ h.clients) ∧ r ∈ rooms c := by
  simp only [receivers, List.mem_map, List.mem_filter, decide_eq_true_eq, hj.members, Prod.exists]
  constructor
  · rintro ⟨i, d, ⟨hd, e, he, hr⟩, rfl⟩
    have heq := List.inj_on_of_nodup_map hj.ids he hd rfl
    obtain ⟨_, rfl⟩ := Prod.mk.inj heq
    exact ⟨⟨i, hd⟩, hr⟩
  · rintro ⟨⟨i, hc⟩, hr⟩
    exact ⟨i, c, ⟨hc, c, hc, hr⟩, rfl⟩

end Hub

end Rooms
