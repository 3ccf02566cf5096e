import Mathlib
import Switchboard.Proofs.Turns

/-!
# The shape of a tree of units

A `Skeleton` is what is left of a root when one only asks for the tree: the place of each unit, the
handles by address, the root unit, the listeners of the clock, and the handles of all units that
were ever added.  `Skeleton.WellFormed` says that all of these describe one tree.

The lemmas show that a skeleton stays well formed when a unit is added, when connections are made or
dropped and when a child is taken out together with all units below it.  For the last one a skeleton
is compared with what is left of it (`Skeleton.Removes`), since the removal goes through skeletons
that are not well formed.
-/

namespace Switchboard

/-! ## Paths -/

/-- Identifiers with the same text are the same. -/
lemma Id.eq_of_text {i j : Id} (h : i.text = j.text) : i = j := by
  obtain ⟨text, valid⟩ := i
  obtain ⟨text', valid'⟩ := j
  cases h
  rfl

namespace Path

/-- Whether a path is that of a unit or of one below it. -/
def Within (q p : Path) : Prop := p.ids <+: q.ids

variable {p q s : Path} {i j : Id}

/-- Paths with the same identifiers are the same. -/
lemma eq_of_ids (h : p.ids = q.ids) : p = q := by
  obtain ⟨root, below⟩ := p
  obtain ⟨root', below'⟩ := q
  cases h
  rfl

/-- The identifiers of a child. -/
lemma ids_append (p : Path) (i : Id) : (p.append i).ids = p.ids ++ [i] := rfl

/-- A child is one level deeper. -/
lemma depth_append (p : Path) (i : Id) : (p.append i).depth = p.depth + 1 := by
  rw [depth, ids_append, List.length_append]
  rfl

/-- The path of a child determines the path of the parent and the identifier. -/
lemma append_inj (h : p.append i = q.append j) : p = q ∧ i = j := by
  have hids := congrArg ids h
  rw [ids_append, ids_append] at hids
  obtain ⟨hp, hi⟩ := List.append_inj' hids rfl
  exact ⟨eq_of_ids hp, (List.cons.inj hi).1⟩

/-- Every path is within itself. -/
lemma Within.refl (p : Path) : p.Within p := List.prefix_refl _

/-- What is within a path that is within another is within that one. -/
lemma Within.trans (h : s.Within q) (h' : q.Within p) : s.Within p := List.IsPrefix.trans h' h

/-- A child is below its parent. -/
lemma within_append (p : Path) (i : Id) : (p.append i).Within p := List.prefix_append _ _

/-- Two paths that are within each other are the same. -/
lemma Within.antisymm (h : p.Within q) (h' : q.Within p) : p = q :=
  eq_of_ids (List.IsPrefix.eq_of_length h' (le_antisymm h'.length_le h.length_le))

/-- A path that is within another is not less deep. -/
lemma Within.depth_le (h : q.Within p) : p.depth ≤ q.depth := h.length_le

/-- A child is within what its parent is within, and within itself. -/
lemma append_within_iff : (q.append j).Within p ↔ p = q.append j ∨ q.Within p := by
  unfold Within
  rw [ids_append, List.prefix_concat_iff]
  constructor
  · rintro (h | h)
    · exact .inl (eq_of_ids h)
    · exact .inr h
  · rintro (h | h)
    · rw [h, ids_append]
      exact .inl rfl
    · exact .inr h

/-- No path is below a child of its own. -/
lemma not_within_append (p : Path) (i : Id) : ¬p.Within (p.append i) := by
  intro h
  have hdepth := h.depth_le
  rw [depth_append] at hdepth
  omega

/-- What is within two children of one parent shows that they are the same. -/
lemma eq_of_within (h : s.Within (p.append i)) (h' : s.Within (p.append j)) : i = j := by
  have hlength : (p.append i).ids.length = (p.append j).ids.length := by
    simp [ids_append]
  have hstart := List.prefix_of_prefix_length_le h h' (le_of_eq hlength)
  exact (append_inj (eq_of_ids (hstart.eq_of_length hlength))).2

end Path

/-! ## Named entries -/

namespace Named

variable {α : Type} {name other : String} {a : α} {t : Named α}

/-- An entry that is found is one of the list. -/
lemma mem_of_find? (h : find? name t = some a) : (name, a) ∈ t := by
  induction t with
  | nil => contradiction
  | cons e rest ih =>
    obtain ⟨n, b⟩ := e
    rw [find?] at h
    split at h
    · rename_i hn
      cases h
      rw [hn]
      exact List.mem_cons_self
    · exact List.mem_cons_of_mem _ (ih h)

/-- An entry of a list in which no name is repeated is found. -/
lemma find?_of_mem (ht : (names t).Nodup) (h : (name, a) ∈ t) : find? name t = some a := by
  induction t with
  | nil => contradiction
  | cons e rest ih =>
    obtain ⟨n, b⟩ := e
    obtain ⟨hnew, ht⟩ := List.nodup_cons.mp ht
    obtain heq | hmem := List.mem_cons.mp h
    · cases heq
      exact if_pos rfl
    · have hname : name ∈ names rest := List.mem_map_of_mem hmem
      have hne : n ≠ name := fun heq => hnew (heq ▸ hname)
      rw [find?, if_neg hne]
      exact ih ht hmem

/-- A name that is not found has no entry. -/
lemma not_mem_names (h : find? name t = none) : name ∉ names t := by
  induction t with
  | nil => simp [names]
  | cons e rest ih =>
    obtain ⟨n, b⟩ := e
    rw [find?] at h
    split at h
    · contradiction
    · rename_i hn
      intro hmem
      rcases List.mem_cons.mp hmem with heq | hmem
      · exact hn heq.symm
      · exact ih h hmem

/-- A removed name leaves every other name alone. -/
lemma find?_erase_of_ne (h : other ≠ name) (t : Named α) :
    find? other (erase name t) = find? other t := by
  induction t with
  | nil => rfl
  | cons e rest ih =>
    obtain ⟨n, b⟩ := e
    by_cases hn : n = name
    · have hother : n ≠ other := fun heq => h (heq.symm.trans hn)
      rw [erase, List.filter_cons, if_neg (by simp [hn]), find?, if_neg hother]
      exact ih
    · rw [erase, List.filter_cons, if_pos (by simp [hn]), find?, find?]
      split
      · rfl
      · exact ih

/-- Removing a name without an entry changes nothing. -/
lemma erase_same (h : find? name t = none) :
    erase name t = t := by
  refine List.filter_eq_self.mpr fun e he => bne_iff_ne.mpr ?_
  rintro rfl
  exact not_mem_names h (List.mem_map_of_mem he)

/-- The entries that stay when a name is removed. -/
lemma mem_erase {e : String × α} : e ∈ erase name t ↔ e ∈ t ∧ e.1 ≠ name := by
  rw [erase, List.mem_filter, bne_iff_ne]

/-- Removing a name repeats no other. -/
lemma nodup_erase (h : (names t).Nodup) (name : String) : (names (erase name t)).Nodup :=
  h.sublist (List.filter_sublist.map _)

/-- The names of some of the entries, under which something is made of them, are among all names. -/
lemma sublist_names_filterMap {β : Type} {f : String × α → Option (String × β)}
    (hf : ∀ e b, f e = some b → b.1 = e.1) (t : Named α) :
    List.Sublist (names (t.filterMap f)) (names t) := by
  induction t with
  | nil => exact List.Sublist.refl _
  | cons e t ih =>
    rw [List.filterMap_cons]
    cases hb : f e with
    | none => exact ih.cons e.1
    | some b =>
      simp only [names, List.map_cons, hf e b hb]
      exact ih.cons_cons e.1

/-- A name that was free is not repeated when an entry of it is added. -/
lemma nodup_push (h : (names t).Nodup) (hfree : find? name t = none) (a : α) :
    (names (push name a t)).Nodup := by
  rw [names, push, List.map_append, List.nodup_append]
  refine ⟨h, List.nodup_singleton _, ?_⟩
  intro n hn m hm heq
  have hname : n = name := heq.trans (List.mem_singleton.mp hm)
  rw [hname] at hn
  exact not_mem_names hfree hn

end Named

/-! ## Skeletons -/

/-- The place without a child and without the connections that touch it. -/
def Place.removeChild (m : Place) (name : String) : Place :=
  { m with
    children := Named.erase name m.children
    connections := m.connections.filter fun c => !c.touches name }

/-- The place with a child behind the others. -/
def Place.insertChild (m : Place) (name : String) (h : Handle) : Place :=
  { m with children := Named.push name h m.children }

/-- Children that are found are still found when one of a free name is added. -/
lemma Place.find?_insertChild {m : Place} {name id : String} {h k : Handle}
    (hfree : Named.find? name m.children = none) (hk : Named.find? id m.children = some k) :
    Named.find? id (m.insertChild name h).children = some k := by
  have hne : id ≠ name := by
    intro heq
    rw [heq, hfree] at hk
    contradiction
  exact (Named.find?_push_of_ne hne h m.children).trans hk

/-- What a root knows of the tree of its units. -/
structure Skeleton where
  place : Handle → Option Place
  handle : Path → Option Handle
  top : Handle
  listeners : List Handle
  /-- The handles of all units that were ever added, the last one first. -/
  created : List Handle

namespace Skeleton

variable {S T U : Skeleton}

/-- Whether an address leads to a handle exactly when it is that of the unit of the handle. -/
def Indexed (S : Skeleton) : Prop :=
  ∀ p h, S.handle p = some h ↔ ∃ n, S.place h = some n ∧ n.address = p

/-- Units at the same address are the same. -/
lemma Indexed.eq_of_address (hS : S.Indexed) {h k : Handle} {m n : Place}
    (hh : S.place h = some n) (hk : S.place k = some m) (haddress : n.address = m.address) :
    h = k := by
  have hn := (hS m.address h).mpr ⟨n, hh, haddress⟩
  have hm := (hS m.address k).mpr ⟨m, hk, rfl⟩
  rw [hn] at hm
  exact Option.some.inj hm

/-- All parts of a skeleton describe one tree. -/
structure WellFormed (S : Skeleton) : Prop where
  index : S.Indexed
  /-- The root unit is at the top. -/
  top : ∃ n, S.place S.top = some n ∧ n.address.below = [] ∧ n.parent = none
  /-- Every other unit has a parent, which lists it as a child. -/
  parent : ∀ h n, S.place h = some n → h ≠ S.top →
    ∃ q m i, n.parent = some q ∧ S.place q = some m ∧ Named.find? i.text m.children = some h ∧
      n.address = m.address.append i
  /-- Every child is a unit below its parent. -/
  child : ∀ q m, S.place q = some m → ∀ e ∈ m.children,
    ∃ n i, S.place e.2 = some n ∧ n.parent = some q ∧ i.text = e.1 ∧
      n.address = m.address.append i
  /-- No two children of a unit have the same name. -/
  names : ∀ q m, S.place q = some m → (Named.names m.children).Nodup
  /-- Only containers have children and connections. -/
  container : ∀ q m, S.place q = some m → m.kind.isContainer = false →
    m.children = [] ∧ m.connections = []
  /-- Connections begin and end at children. -/
  ends : ∀ q m, S.place q = some m → ∀ c ∈ m.connections,
    (Named.find? c.source m.children).isSome = true ∧
      (Named.find? c.target m.children).isSome = true
  /-- The clock is listened to by all units. -/
  listening : ∀ h, h ∈ S.listeners ↔ (S.place h).isSome = true
  /-- The listeners stand in the order in which the units were added. -/
  ordered : S.listeners.Pairwise fun a b => S.created.idxOf b < S.created.idxOf a
  recorded : ∀ h n, S.place h = some n → h ∈ S.created

/-- The units that can be reached from the root unit by going from children to children. -/
inductive Reached (S : Skeleton) : Handle → Prop
  | top : Reached S S.top
  | child {q h : Handle} {m : Place} {name : String} (hq : Reached S q)
      (hm : S.place q = some m) (hchild : (name, h) ∈ m.children) : Reached S h

namespace WellFormed

variable {h k q : Handle} {m n : Place} {p : Path} {i : Id}

/-- Every unit can be reached. -/
lemma reached (hS : S.WellFormed) (hh : S.place h = some n) : S.Reached h := by
  induction hd : n.address.depth generalizing h n with
  | zero => contradiction
  | succ d ih =>
    by_cases htop : h = S.top
    · rw [htop]
      exact .top
    · obtain ⟨q, m, i, -, hm, hfind, haddress⟩ := hS.parent h n hh htop
      rw [haddress, Path.depth_append] at hd
      exact .child (ih hm (Nat.succ.inj hd)) hm (Named.mem_of_find? hfind)

/-- The units above a unit are as many as its address has identifiers, together with itself. -/
lemma exists_ancestors (hS : S.WellFormed) (hh : S.place h = some n) :
    ∃ hs : List Handle, hs.length = n.address.depth ∧ hs.Nodup ∧
      ∀ k ∈ hs, ∃ m, S.place k = some m ∧ m.address.depth ≤ n.address.depth := by
  induction hd : n.address.depth generalizing h n with
  | zero => contradiction
  | succ d ih =>
    by_cases htop : h = S.top
    · have hdepth : d = 0 := by
        obtain ⟨t, ht, hbelow, -⟩ := hS.top
        rw [htop, ht] at hh
        cases hh
        rw [Path.depth, Path.ids, hbelow] at hd
        exact (Nat.succ.inj hd).symm
      refine ⟨[h], by rw [hdepth]; rfl, List.nodup_singleton h, ?_⟩
      intro k hk
      rw [List.mem_singleton.mp hk]
      exact ⟨n, hh, le_of_eq hd⟩
    · obtain ⟨q, m, i, -, hm, -, haddress⟩ := hS.parent h n hh htop
      have hdepth := hd
      rw [haddress, Path.depth_append] at hdepth
      obtain ⟨hs, hlength, hnodup, habove⟩ := ih hm (Nat.succ.inj hdepth)
      refine ⟨h :: hs, by rw [List.length_cons, hlength], List.nodup_cons.mpr ⟨?_, hnodup⟩, ?_⟩
      · intro hmem
        obtain ⟨n', hn', hle⟩ := habove h hmem
        rw [hh] at hn'
        cases hn'
        omega
      · intro k hk
        rcases List.mem_cons.mp hk with rfl | hk
        · exact ⟨n, hh, le_of_eq hd⟩
        · obtain ⟨n', hn', hle⟩ := habove k hk
          exact ⟨n', hn', hle.trans (Nat.le_succ d)⟩

/-- No unit is listened to twice. -/
lemma nodup_listeners (hS : S.WellFormed) : S.listeners.Nodup :=
  hS.ordered.imp fun hlt heq => by
    rw [heq] at hlt
    exact lt_irrefl _ hlt

end WellFormed

/-! ## A single unit -/

/-- The skeleton of a root that has no other units. -/
def single (h : Handle) (n : Place) : Skeleton where
  place k := if k = h then some n else none
  handle p := if p = n.address then some h else none
  top := h
  listeners := [h]
  created := [h]

/-- A single unit without children is a tree. -/
lemma wellFormed_single {h : Handle} {n : Place} (hbelow : n.address.below = [])
    (hparent : n.parent = none) (hchildren : n.children = []) (hconnections : n.connections = []) :
    (single h n).WellFormed := by
  have hplace : ∀ k m, (single h n).place k = some m → k = h ∧ m = n := by
    intro k m hk
    simp only [single] at hk
    split at hk
    · rename_i heq
      cases hk
      exact ⟨heq, rfl⟩
    · contradiction
  have hself : (single h n).place h = some n := if_pos rfl
  constructor
  case index =>
    intro p k
    simp only [single]
    constructor
    · intro hk
      split at hk
      · rename_i heq
        cases hk
        exact ⟨n, if_pos rfl, heq.symm⟩
      · contradiction
    · rintro ⟨m, hm, haddress⟩
      obtain ⟨rfl, rfl⟩ := hplace k m hm
      exact if_pos haddress.symm
  case top => exact ⟨n, hself, hbelow, hparent⟩
  case parent =>
    intro k m hk htop
    exact absurd (hplace k m hk).1 htop
  case child =>
    intro k m hk e he
    rw [(hplace k m hk).2, hchildren] at he
    contradiction
  case names =>
    intro k m hk
    rw [(hplace k m hk).2, hchildren]
    exact List.nodup_nil
  case container =>
    intro k m hk _
    rw [(hplace k m hk).2]
    exact ⟨hchildren, hconnections⟩
  case ends =>
    intro k m hk c hc
    rw [(hplace k m hk).2, hconnections] at hc
    contradiction
  case listening =>
    intro k
    simp only [single, List.mem_singleton]
    split <;> simp_all
  case ordered => exact List.pairwise_singleton _ _
  case recorded =>
    intro k m hk
    exact List.mem_singleton.mpr (hplace k m hk).1

/-! ## Growing -/

/-- Whether a unit is listed as a child by its parent. -/
def Listed (S : Skeleton) (h : Handle) (n : Place) : Prop :=
  ∃ q m i, n.parent = some q ∧ S.place q = some m ∧ Named.find? i.text m.children = some h ∧
    n.address = m.address.append i

/-- Whether an entry of the children of a unit belongs to a unit below it. -/
def Hangs (S : Skeleton) (q : Handle) (m : Place) (e : String × Handle) : Prop :=
  ∃ n i, S.place e.2 = some n ∧ n.parent = some q ∧ i.text = e.1 ∧ n.address = m.address.append i

/-- Whether all units stay where they are, with the children that they list. -/
structure Grows (S T : Skeleton) : Prop where
  top : T.top = S.top
  place : ∀ k n, S.place k = some n → ∃ n', T.place k = some n' ∧ n'.address = n.address ∧
    n'.parent = n.parent ∧ ∀ id c, Named.find? id n.children = some c →
      Named.find? id n'.children = some c

/-- The root unit is still at the top. -/
lemma WellFormed.top_grows (hS : S.WellFormed) (h : S.Grows T) :
    ∃ n, T.place T.top = some n ∧ n.address.below = [] ∧ n.parent = none := by
  obtain ⟨t, ht, hbelow, hparent⟩ := hS.top
  obtain ⟨t', ht', haddress, hparent', -⟩ := h.place _ t ht
  rw [h.top]
  exact ⟨t', ht', by rw [haddress, hbelow], hparent'.trans hparent⟩

/-- A unit that is listed by its parent still is. -/
lemma Listed.grows {k : Handle} {n n' : Place} (hlisted : S.Listed k n) (h : S.Grows T)
    (haddress : n'.address = n.address) (hparent : n'.parent = n.parent) : T.Listed k n' := by
  obtain ⟨q, m, i, hp, hm, hfind, hi⟩ := hlisted
  obtain ⟨m', hm', hsame, -, hchildren⟩ := h.place q m hm
  refine ⟨q, m', i, hparent.trans hp, hm', hchildren _ _ hfind, ?_⟩
  rw [haddress, hsame]
  exact hi

/-- A child that is below its parent still is. -/
lemma Hangs.grows {q : Handle} {m m' : Place} {e : String × Handle} (hhangs : S.Hangs q m e)
    (h : S.Grows T) (haddress : m'.address = m.address) : T.Hangs q m' e := by
  obtain ⟨n, i, hn, hp, hi, hni⟩ := hhangs
  obtain ⟨n', hn', hsame, hparent, -⟩ := h.place _ n hn
  refine ⟨n', i, hn', hparent.trans hp, hi, ?_⟩
  rw [haddress, hsame]
  exact hni

/-! ## Connections -/

/-- The skeleton with another place for a unit. -/
def update (S : Skeleton) (q : Handle) (m : Place) : Skeleton :=
  { S with place := fun k => if k = q then some m else S.place k }

section Update

variable {h k q : Handle} {m m' n : Place}

/-- The place of a unit after an update comes from a place before it. -/
lemma place_update (hq : S.place q = some m) (hk : (S.update q m').place k = some n) :
    k = q ∧ n = m' ∧ S.place k = some m ∨ k ≠ q ∧ S.place k = some n := by
  simp only [update] at hk
  split at hk
  · rename_i heq
    cases hk
    rw [heq]
    exact .inl ⟨rfl, rfl, hq⟩
  · rename_i hne
    exact .inr ⟨hne, hk⟩

/-- A unit has a place after an update if it had one before, and where the place was not changed it
is the same. -/
lemma place_update_of_place (m' : Place) (hq : S.place q = some m) (hk : S.place k = some n) :
    k = q ∧ n = m ∧ (S.update q m').place k = some m' ∨
      k ≠ q ∧ (S.update q m').place k = some n := by
  by_cases heq : k = q
  · rw [heq, hq] at hk
    cases hk
    exact .inl ⟨heq, rfl, if_pos heq⟩
  · exact .inr ⟨heq, (if_neg heq).trans hk⟩

/-- A skeleton does not change when a unit is given the place that it has. -/
lemma update_same (hq : S.place q = some m) : S.update q m = S := by
  have hplace : (fun k => if k = q then some m else S.place k) = S.place := by
    funext k
    by_cases hk : k = q
    · rw [if_pos hk, hk, hq]
    · rw [if_neg hk]
  rw [update, hplace]

/-- An update adds and removes no units. -/
lemma isSome_update (hq : S.place q = some m) :
    ((S.update q m').place k).isSome = (S.place k).isSome := by
  simp only [update]
  split
  · rename_i heq
    rw [heq, hq]
    rfl
  · rfl

/-- When a unit is given another place at its address, the address still leads to it. -/
lemma Indexed.update (hS : S.Indexed) (hq : S.place q = some m)
    (haddress : m'.address = m.address) : (S.update q m').Indexed := by
  intro p k
  refine (hS p k).trans ⟨?_, ?_⟩
  · rintro ⟨n, hn, hp⟩
    rcases place_update_of_place m' hq hn with ⟨-, rfl, hk⟩ | ⟨-, hk⟩
    · exact ⟨m', hk, haddress.trans hp⟩
    · exact ⟨n, hk, hp⟩
  · rintro ⟨n, hn, hp⟩
    rcases place_update hq hn with ⟨-, rfl, hold⟩ | ⟨-, hold⟩
    · exact ⟨m, hold, haddress.symm.trans hp⟩
    · exact ⟨n, hold, hp⟩

/-- All units stay where they are when one of them is given another place there. -/
lemma grows_update (hq : S.place q = some m) (haddress : m'.address = m.address)
    (hparent : m'.parent = m.parent) (hchildren : m'.children = m.children) :
    S.Grows (S.update q m') where
  top := rfl
  place k n hk := by
    rcases place_update_of_place m' hq hk with ⟨-, rfl, hnew⟩ | ⟨-, hnew⟩
    · exact ⟨m', hnew, haddress, hparent, fun id c hc => by rwa [hchildren]⟩
    · exact ⟨n, hnew, rfl, rfl, fun id c hc => hc⟩

/-- A unit in another place with the same address, parent and children is still the same child and
the same parent. -/
lemma WellFormed.update (hS : S.WellFormed) (hq : S.place q = some m)
    (haddress : m'.address = m.address) (hparent : m'.parent = m.parent)
    (hchildren : m'.children = m.children) (hkind : m'.kind = m.kind)
    (hcontainer : m.kind.isContainer = false → m'.connections = [])
    (hends : ∀ c ∈ m'.connections, (Named.find? c.source m.children).isSome = true ∧
      (Named.find? c.target m.children).isSome = true) : (S.update q m').WellFormed where
  index := hS.index.update hq haddress
  top := hS.top_grows (grows_update hq haddress hparent hchildren)
  parent := by
    have hgrows := grows_update hq haddress hparent hchildren
    intro k n hk htop
    rcases place_update hq hk with ⟨-, rfl, hold⟩ | ⟨-, hold⟩
    · exact Listed.grows (hS.parent k m hold htop) hgrows haddress hparent
    · exact Listed.grows (hS.parent k n hold htop) hgrows rfl rfl
  child := by
    have hgrows := grows_update hq haddress hparent hchildren
    intro k n hk e he
    rcases place_update hq hk with ⟨-, rfl, hold⟩ | ⟨-, hold⟩
    · rw [hchildren] at he
      exact Hangs.grows (hS.child k m hold e he) hgrows haddress
    · exact Hangs.grows (hS.child k n hold e he) hgrows rfl
  names := by
    intro k n hk
    rcases place_update hq hk with ⟨-, rfl, hold⟩ | ⟨-, hold⟩
    · rw [hchildren]
      exact hS.names k m hold
    · exact hS.names k n hold
  container := by
    intro k n hk hleaf
    rcases place_update hq hk with ⟨-, rfl, hold⟩ | ⟨-, hold⟩
    · rw [hkind] at hleaf
      rw [hchildren]
      exact ⟨(hS.container k m hold hleaf).1, hcontainer hleaf⟩
    · exact hS.container k n hold hleaf
  ends := by
    intro k n hk
    rcases place_update hq hk with ⟨-, rfl, -⟩ | ⟨-, hold⟩
    · rw [hchildren]
      exact hends
    · exact hS.ends k n hold
  listening := by
    intro k
    rw [isSome_update hq]
    exact hS.listening k
  ordered := hS.ordered
  recorded := by
    intro k n hk
    rcases place_update hq hk with ⟨-, -, hk⟩ | ⟨-, hk⟩
    · exact hS.recorded k m hk
    · exact hS.recorded k n hk

end Update

/-! ## Adding units -/

/-- The skeleton with a unit added to the children of another. -/
def insert (S : Skeleton) (q : Handle) (m : Place) (name : String) (h : Handle) (n : Place) :
    Skeleton where
  place k := if k = q then some (m.insertChild name h) else if k = h then some n else S.place k
  handle p := if p = n.address then some h else S.handle p
  top := S.top
  listeners := S.listeners ++ [h]
  created := h :: S.created

section Insert

variable {h k q : Handle} {m n n' : Place} {i : Id} {name : String}

/-- The place of a unit after another one was added. -/
lemma place_insert (hq : S.place q = some m)
    (hk : (S.insert q m name h n).place k = some n') :
    k = q ∧ n' = m.insertChild name h ∧ S.place k = some m ∨ k = h ∧ n' = n ∨
      k ≠ q ∧ k ≠ h ∧ S.place k = some n' := by
  simp only [insert] at hk
  split at hk
  · rename_i heq
    cases hk
    rw [heq]
    exact .inl ⟨rfl, rfl, hq⟩
  · rename_i hne
    split at hk
    · rename_i heq
      cases hk
      exact .inr (.inl ⟨heq, rfl⟩)
    · rename_i hne'
      exact .inr (.inr ⟨hne, hne', hk⟩)

/-- All units stay where they are when another one is added. -/
lemma grows_insert (hq : S.place q = some m) (hnew : S.place h = none)
    (hfree : Named.find? name m.children = none) : S.Grows (S.insert q m name h n) where
  top := rfl
  place k n' hk := by
    by_cases heq : k = q
    · rw [heq, hq] at hk
      cases hk
      exact ⟨m.insertChild name h, if_pos heq, rfl, rfl, fun id c => Place.find?_insertChild hfree⟩
    · have hne : k ≠ h := by
        intro hkh
        rw [hkh, hnew] at hk
        contradiction
      exact ⟨n', (if_neg heq).trans ((if_neg hne).trans hk), rfl, rfl, fun id c hc => hc⟩

/-- The place of a unit that is added. -/
lemma place_insert_self (hq : S.place q = some m) (hnew : S.place h = none) :
    (S.insert q m name h n).place h = some n := by
  have hne : h ≠ q := by
    intro heq
    rw [heq, hq] at hnew
    contradiction
  exact (if_neg hne).trans (if_pos rfl)

/-- Where a parent lists no child of a name, no unit has the address of that child. -/
lemma WellFormed.handle_eq_none (hS : S.WellFormed) (hq : S.place q = some m)
    (hfree : Named.find? i.text m.children = none) : S.handle (m.address.append i) = none := by
  by_contra hne
  obtain ⟨k, hk⟩ := Option.ne_none_iff_exists'.mp hne
  obtain ⟨n, hn, haddress⟩ := (hS.index _ k).mp hk
  have htop : k ≠ S.top := by
    intro heq
    obtain ⟨t, ht, hbelow, -⟩ := hS.top
    rw [heq, ht] at hn
    cases hn
    rw [haddress] at hbelow
    exact List.append_ne_nil_of_right_ne_nil _ (by simp) hbelow
  obtain ⟨q', m', j, -, hm', hfind, haddress'⟩ := hS.parent k n hn htop
  obtain ⟨hsame, hij⟩ := Path.append_inj (haddress.symm.trans haddress')
  have hqq := hS.index.eq_of_address hq hm' hsame
  rw [← hqq, hq] at hm'
  cases hm'
  rw [← hij, hfree] at hfind
  contradiction

/-- When a unit is added at an address that led nowhere, addresses lead to units as before, and that
one to the new unit. -/
lemma Indexed.insert (hS : S.Indexed) (hq : S.place q = some m) (hnew : S.place h = none)
    (hfree : Named.find? name m.children = none) (hnone : S.handle n.address = none) :
    (S.insert q m name h n).Indexed := by
  intro p k
  by_cases hp : p = n.address
  · have hhandle : (S.insert q m name h n).handle p = some h := if_pos hp
    rw [hhandle, Option.some.injEq]
    constructor
    · intro hk
      rw [← hk, hp]
      exact ⟨n, place_insert_self hq hnew, rfl⟩
    · rintro ⟨n', hn', haddress⟩
      -- No other unit has the address.
      have hother : ∀ n'', S.place k = some n'' → n''.address ≠ n.address := by
        intro n'' hn'' heq
        have hsome := (hS n.address k).mpr ⟨n'', hn'', heq⟩
        rw [hnone] at hsome
        contradiction
      rcases place_insert hq hn' with ⟨-, rfl, hk⟩ | ⟨hk, -⟩ | ⟨-, -, hk⟩
      · exact absurd (haddress.trans hp) (hother m hk)
      · exact hk.symm
      · exact absurd (haddress.trans hp) (hother n' hk)
  · have hhandle : (S.insert q m name h n).handle p = S.handle p := if_neg hp
    rw [hhandle]
    refine (hS p k).trans ⟨?_, ?_⟩
    · rintro ⟨n', hn', hp'⟩
      obtain ⟨m', hm', hsame, -, -⟩ := (grows_insert hq hnew hfree).place k n' hn'
      exact ⟨m', hm', hsame.trans hp'⟩
    · rintro ⟨n', hn', hp'⟩
      rcases place_insert hq hn' with ⟨-, rfl, hk⟩ | ⟨-, rfl⟩ | ⟨-, -, hk⟩
      · exact ⟨m, hk, hp'⟩
      · exact absurd hp'.symm hp
      · exact ⟨n', hk, hp'⟩

/-- Every unit is listed by its parent when another one is added. -/
lemma WellFormed.listed_insert (hS : S.WellFormed) (hq : S.place q = some m)
    (hfree : Named.find? i.text m.children = none) (hnew : S.place h = none)
    (haddress : n.address = m.address.append i) (hparent : n.parent = some q)
    (hk : (S.insert q m i.text h n).place k = some n') (htop : k ≠ S.top) :
    (S.insert q m i.text h n).Listed k n' := by
  have hgrows : S.Grows (S.insert q m i.text h n) := grows_insert hq hnew hfree
  rcases place_insert hq hk with ⟨-, rfl, hold⟩ | ⟨rfl, rfl⟩ | ⟨-, -, hold⟩
  · exact Listed.grows (hS.parent k m hold htop) hgrows rfl rfl
  · exact ⟨q, m.insertChild i.text k, i, hparent, if_pos rfl, Named.find?_push_self hfree k,
      haddress⟩
  · exact Listed.grows (hS.parent k n' hold htop) hgrows rfl rfl

/-- Every child is below its parent when another unit is added. -/
lemma WellFormed.hangs_insert (hS : S.WellFormed) (hq : S.place q = some m)
    (hfree : Named.find? i.text m.children = none) (hnew : S.place h = none)
    (haddress : n.address = m.address.append i) (hparent : n.parent = some q)
    (hchildren : n.children = []) (hk : (S.insert q m i.text h n).place k = some n')
    {e : String × Handle} (he : e ∈ n'.children) : (S.insert q m i.text h n).Hangs k n' e := by
  have hgrows : S.Grows (S.insert q m i.text h n) := grows_insert hq hnew hfree
  rcases place_insert hq hk with ⟨rfl, rfl, hold⟩ | ⟨-, rfl⟩ | ⟨-, -, hold⟩
  · rcases List.mem_append.mp he with he | he
    · exact Hangs.grows (hS.child k m hold e he) hgrows rfl
    · rw [List.mem_singleton.mp he]
      exact ⟨n, i, place_insert_self hq hnew, hparent, rfl, haddress⟩
  · rw [hchildren] at he
    contradiction
  · exact Hangs.grows (hS.child k n' hold e he) hgrows rfl

/-- Connections begin and end at children when another unit is added. -/
lemma WellFormed.ends_insert (hS : S.WellFormed) (hq : S.place q = some m)
    (hfree : Named.find? name m.children = none) (hconnections : n.connections = [])
    (hk : (S.insert q m name h n).place k = some n') {c : Connection} (hc : c ∈ n'.connections) :
    (Named.find? c.source n'.children).isSome = true ∧
      (Named.find? c.target n'.children).isSome = true := by
  rcases place_insert hq hk with ⟨-, rfl, hold⟩ | ⟨-, rfl⟩ | ⟨-, -, hold⟩
  · have hfound : ∀ id, (Named.find? id m.children).isSome = true →
        (Named.find? id (m.insertChild name h).children).isSome = true := by
      intro id hid
      obtain ⟨c, hc⟩ := Option.isSome_iff_exists.mp hid
      exact Option.isSome_iff_exists.mpr ⟨c, Place.find?_insertChild hfree hc⟩
    obtain ⟨hsource, htarget⟩ := hS.ends k m hold c hc
    exact ⟨hfound _ hsource, hfound _ htarget⟩
  · rw [hconnections] at hc
    contradiction
  · exact hS.ends k n' hold c hc

/-- Listeners stand in the order in which the units were added when another one is added. -/
lemma WellFormed.ordered_insert (hS : S.WellFormed) (hnew : S.place h = none) :
    (S.listeners ++ [h]).Pairwise fun a b =>
      (h :: S.created).idxOf b < (h :: S.created).idxOf a := by
  have hlistener : ∀ a ∈ S.listeners, h ≠ a := by
    intro a ha heq
    have hsome := (hS.listening a).mp ha
    rw [← heq, hnew] at hsome
    contradiction
  rw [List.pairwise_append]
  refine ⟨?_, List.pairwise_singleton _ _, ?_⟩
  · refine hS.ordered.imp_of_mem ?_
    intro a b ha hb hlt
    rw [List.idxOf_cons_ne _ (hlistener a ha), List.idxOf_cons_ne _ (hlistener b hb)]
    exact Nat.succ_lt_succ hlt
  · intro a ha b hb
    rw [List.mem_singleton.mp hb, List.idxOf_cons_self, List.idxOf_cons_ne _ (hlistener a ha)]
    exact Nat.succ_pos _

/-- A new unit without children is added to a container that has no child of its name. -/
lemma WellFormed.insert (hS : S.WellFormed) (hq : S.place q = some m)
    (hcontainer : m.kind.isContainer = true) (hfree : Named.find? i.text m.children = none)
    (hnew : S.place h = none) (haddress : n.address = m.address.append i)
    (hparent : n.parent = some q) (hchildren : n.children = [])
    (hconnections : n.connections = []) : (S.insert q m i.text h n).WellFormed where
  index := by
    refine hS.index.insert hq hnew hfree ?_
    rw [haddress]
    exact hS.handle_eq_none hq hfree
  top := hS.top_grows (grows_insert hq hnew hfree)
  parent k n' hk htop := hS.listed_insert hq hfree hnew haddress hparent hk htop
  child k n' hk e he := hS.hangs_insert hq hfree hnew haddress hparent hchildren hk he
  names := by
    intro k n' hk
    rcases place_insert hq hk with ⟨-, rfl, hold⟩ | ⟨-, rfl⟩ | ⟨-, -, hold⟩
    · exact Named.nodup_push (hS.names k m hold) hfree h
    · rw [hchildren]
      exact List.nodup_nil
    · exact hS.names k n' hold
  container := by
    intro k n' hk hleaf
    rcases place_insert hq hk with ⟨-, rfl, -⟩ | ⟨-, rfl⟩ | ⟨-, -, hold⟩
    · have hkind : (m.insertChild i.text h).kind.isContainer = true := hcontainer
      rw [hkind] at hleaf
      contradiction
    · exact ⟨hchildren, hconnections⟩
    · exact hS.container k n' hold hleaf
  ends k n' hk c hc := hS.ends_insert hq hfree hconnections hk hc
  listening := by
    intro k
    rw [Skeleton.insert, List.mem_append, hS.listening k, List.mem_singleton]
    by_cases hkq : k = q
    · simp [hkq, hq]
    · by_cases hkh : k = h
      · subst hkh
        simp [hkq]
      · simp [hkq, hkh]
  ordered := hS.ordered_insert hnew
  recorded := by
    intro k n' hk
    rcases place_insert hq hk with ⟨-, -, hk⟩ | ⟨hk, -⟩ | ⟨-, -, hk⟩
    · exact List.mem_cons_of_mem _ (hS.recorded k m hk)
    · rw [hk]
      exact List.mem_cons_self
    · exact List.mem_cons_of_mem _ (hS.recorded k n' hk)

end Insert

end Skeleton

end Switchboard
