import Mathlib
import Switchboard.Proofs.Properties
import Switchboard.Proofs.Trees

/-!
# Building from snapshots

A build adds a unit and then gives it the rest of its snapshot, which adds the units below it.
Whatever comes of that, it happens at and below the address of the new unit (`Root.Confined`).

The main theorem `failed_build` is about builds that fail.  Where the outermost unit cannot be added
the root stays as it is.  A fault further inside leaves the unit behind, with a part of what belongs
below it (`Root.LeftBehind`): all other units are as they were, their parent has one child more, and
when that child is removed the tree is again what it was.  `failed_build_stays` is such a build.
-/

namespace Switchboard

namespace Root

variable {r s t : Root} {h k q c : Handle} {n m : Node} {p p' : Path}

/-! ## Changes at and below an address -/

/-- The units after a turn of one of them. -/
lemma units_act (hn : r.units.get? h = some n) (f : Setting → Node → Turn → Node × Turn) :
    (r.act h f).units = r.units.set h (f (r.setting n.address) n r.turn).1 :=
  (sends_act hn f).units

/-- The index leads to the unit with the address. -/
lemma handle?_eq_some (hr : r.skeleton.Indexed) :
    r.handle? p = some h ↔ ∃ n, r.units.get? h = some n ∧ n.address = p := by
  refine (hr p h).trans ⟨?_, ?_⟩
  · rintro ⟨k, hk, haddress⟩
    obtain ⟨n, hn, rfl⟩ := exists_of_place hk
    exact ⟨n, hn, haddress⟩
  · rintro ⟨n, hn, haddress⟩
    exact ⟨n.place, place_skeleton hn, haddress⟩

/-- Nothing was changed but at and below an address, and no unit was taken out. -/
structure Confined (p : Path) (r s : Root) : Prop where
  apart : ∀ h n, ¬n.address.Within p → (s.units.get? h = some n ↔ r.units.get? h = some n)
  live : ∀ h n, r.units.get? h = some n → ∃ m, s.units.get? h = some m ∧ m.address = n.address

namespace Confined

/-- No unit was changed. -/
lemma ofUnits (h : s.units = r.units) (p : Path) : Confined p r s := by
  refine ⟨fun k n _ => by rw [h], fun k n hn => ⟨n, ?_, rfl⟩⟩
  rw [h]
  exact hn

/-- One change after another. -/
lemma trans (h : Confined p r s) (h' : Confined p s t) : Confined p r t := by
  refine ⟨fun k n hn => (h'.apart k n hn).trans (h.apart k n hn), fun k n hn => ?_⟩
  obtain ⟨m, hm, haddress⟩ := h.live k n hn
  obtain ⟨m', hm', haddress'⟩ := h'.live k m hm
  exact ⟨m', hm', haddress'.trans haddress⟩

/-- What is below an address is below those above it. -/
lemma widen (h : Confined p' r s) (hp : p'.Within p) : Confined p r s :=
  ⟨fun k n hn => h.apart k n fun hwithin => hn (hwithin.trans hp), h.live⟩

/-- A unit at or below an address in another state. -/
lemma set (hn : r.units.get? h = some n) (haddress : m.address = n.address)
    (hwithin : n.address.Within p) : Confined p r { r with units := r.units.set h m } := by
  constructor
  · intro k n' hn'
    simp only [Arena.get?_set hn]
    by_cases hk : k = h
    · rw [if_pos hk, hk, hn, Option.some.injEq, Option.some.injEq]
      constructor
      · rintro rfl
        exact absurd (haddress ▸ hwithin) hn'
      · rintro rfl
        exact absurd hwithin hn'
    · rw [if_neg hk]
  · intro k n' hn'
    simp only [Arena.get?_set hn]
    by_cases hk : k = h
    · rw [hk, hn] at hn'
      cases hn'
      exact ⟨m, if_pos hk, haddress⟩
    · exact ⟨n', (if_neg hk).trans hn', rfl⟩

/-- A unit at or below an address that is changed there. -/
lemma modify (hn : r.units.get? h = some n) {f : Node → Node}
    (haddress : (f n).address = n.address) (hwithin : n.address.Within p) :
    Confined p r { r with units := r.units.modify h f } := by
  have hmodify : r.units.modify h f = r.units.set h (f n) := by
    rw [Arena.modify, hn]
  rw [hmodify]
  exact set hn haddress hwithin

/-- Other addresses lead where they led. -/
lemma handle? (h : Confined p r s) (hr : r.skeleton.Indexed) (hs : s.skeleton.Indexed)
    (hp : ¬p'.Within p) : s.handle? p' = r.handle? p' := by
  refine Option.ext fun k => ?_
  rw [handle?_eq_some hs, handle?_eq_some hr]
  refine exists_congr fun n => and_congr_left fun haddress => h.apart k n ?_
  rw [haddress]
  exact hp

/-- Addresses lead where they led, and some more lead somewhere. -/
lemma handle?_of_eq_some (h : Confined p r s) (hr : r.skeleton.Indexed) (hs : s.skeleton.Indexed)
    (hp : r.handle? p' = some k) : s.handle? p' = some k := by
  obtain ⟨n, hn, haddress⟩ := (handle?_eq_some hr).mp hp
  obtain ⟨m, hm, haddress'⟩ := h.live k n hn
  exact (handle?_eq_some hs).mpr ⟨m, hm, haddress'.trans haddress⟩

end Confined

/-! ## Adding a unit -/

/-- The turn in which a unit is given an iteration. -/
def installing (r : Root) (i : Iteration) : Task :=
  .install { i with number := r.installed.length } r.clock.isActive

/-- A unit that is given an iteration has a turn, and no other unit has. -/
lemma get?_putIteration (hn : r.units.get? h = some n) (i : Iteration) (k : Handle) :
    (r.putIteration h i).units.get? k =
      if k = h then some ((r.installing i).run (r.setting n.address) n (r.enlist i).turn).1
      else r.units.get? k := by
  have hunits : (r.putIteration h i).units = r.units.set h
      ((r.installing i).run (r.setting n.address) n (r.enlist i).turn).1 :=
    units_act (r := r.enlist i) hn (r.installing i).run
  rw [hunits, Arena.get?_set hn]

/-- When a unit is inserted, the unit above it has one more child. -/
lemma get?_insertNode (hr : r.units.Valid) (hn : r.units.get? q = some n) (id : String) (m : Node)
    (k : Handle) :
    (r.insertNode q id m).2.units.get? k =
      if k = q then some (n.insertChild id (r.insertNode q id m).1)
      else if k = (r.insertNode q id m).1 then some m else r.units.get? k := by
  have hnew := Arena.get?_insert_fst hr m
  unfold insertNode
  simp only [Arena.get?_modify, Arena.get?_insert_snd hr]
  by_cases hk : k = q
  · have hne : k ≠ (r.units.insert m).1 := by
      intro heq
      rw [← heq, hk, hn] at hnew
      contradiction
    rw [if_pos hk, if_pos hk, if_neg hne, hk, hn]
    rfl
  · rw [if_neg hk, if_neg hk]

/-- A unit that was added has passed the check, was inserted and was given its iteration. -/
lemma addUnit_eq_ok {parent address : Path} {id typeName : String} {kind : NodeKind} {b : Behavior}
    (h : r.addUnit parent id typeName kind b = (.ok address, s)) :
    ∃ q i, r.checkUnit parent id b = .ok (q, address, i) ∧
      let added := r.insertNode q id ⟨address, some q, kind, typeName, .empty, false, [], [], []⟩
      s = added.2.putIteration added.1 i := by
  unfold addUnit at h
  match hcheck : r.checkUnit parent id b with
  | .error e =>
    rw [hcheck] at h
    cases h
  | .ok (q, a, i) =>
    rw [hcheck] at h
    cases h
    exact ⟨q, i, rfl, rfl⟩

/-- What has become of the units when one was added below a unit with the handle `q` and the state
`n`; the new one has the handle `c`. -/
structure Grafted (r s : Root) (above : Path) (i : Id) (q c : Handle) (n : Node) : Prop where
  catalog : s.catalog = r.catalog
  above : r.handle? above = some q
  node : r.units.get? q = some n
  free : Named.find? i.text n.children = none
  new : r.units.get? c = none
  child : ∃ m, s.units.get? c = some m ∧ m.address = n.address.append i
  extended : s.units.get? q = some (n.insertChild i.text c)
  others : ∀ k, k ≠ q → k ≠ c → s.units.get? k = r.units.get? k

/-- What a unit begins with that was just added: its type, the members of an iteration and the
properties that they declare, a number that no other behavior has had, and nothing else. -/
structure Begins (r s : Root) (c : Handle) (kind : NodeKind) (typeName : String)
    (j : Iteration) : Prop where
  installed : s.installed = j.members :: r.installed
  unit : ∃ address parent m, s.units.get? c = some m ∧ m.children = [] ∧ m.connections = [] ∧
    m.metadata = [] ∧
    Node.Follows ⟨address, parent, kind, typeName, { j with number := r.installed.length }, false,
      [], [], []⟩ m

/-- A unit that was added is a new child of the one above it. -/
lemma IsTree.grafted (hr : r.IsTree) {above address : Path} {id typeName : String}
    {kind : NodeKind} {b : Behavior} (h : r.addUnit above id typeName kind b = (.ok address, s)) :
    ∃ i q c n j, i.text = id ∧ address = above.append i ∧ n.address = above ∧
      r.Grafted s above i q c n ∧ Iteration.ofBehavior b = .ok j ∧
      r.Begins s c kind typeName j := by
  obtain ⟨q, i, hcheck, hs⟩ := addUnit_eq_ok h
  rw [hs]
  obtain ⟨n, j, hq, hn, -, hfree, rfl, rfl, hbehavior⟩ := checkUnit_eq_ok.mp hcheck
  have habove : n.address = above := address_of_handle hr.skeleton.index hq hn
  generalize hbare : (⟨above.append j, some q, kind, typeName, .empty, false, [], [], []⟩ : Node) =
    bare
  have hat : bare.address = above.append j := by
    rw [← hbare]
  have hnew : r.units.get? (r.insertNode q j.text bare).1 = none :=
    Arena.get?_insert_fst hr.units bare
  have hinserted := get?_insertNode hr.units hn j.text bare
  have hcatalog : (r.insertNode q j.text bare).2.catalog = r.catalog := rfl
  have hinstalled : (r.insertNode q j.text bare).2.installed = r.installed := rfl
  generalize r.insertNode q j.text bare = e at hnew hinserted hcatalog hinstalled
  obtain ⟨c, t⟩ := e
  simp only at hnew hinserted hcatalog hinstalled ⊢
  have hne : c ≠ q := by
    intro heq
    rw [heq, hn] at hnew
    contradiction
  have hc : t.units.get? c = some bare := by
    rw [hinserted, if_neg hne, if_pos rfl]
  have hput := get?_putIteration hc i
  have hplace := (t.installing i).place_run (t.setting bare.address) bare (t.enlist i).turn
  have hmetadata := (t.installing i).metadata_run (t.setting bare.address) bare (t.enlist i).turn
  have hact := catalog_act (t.enlist i) c (t.installing i).run
  have hgrafted : r.Grafted (t.putIteration c i) above j q c n := by
    refine ⟨hact.1.trans hcatalog, hq, hn, hfree, hnew, ⟨_, (hput c).trans (if_pos rfl), ?_⟩, ?_,
      fun k hk hk' => ?_⟩
    · rw [habove, ← hat]
      exact congrArg Place.address hplace
    · rw [hput, if_neg hne.symm, hinserted, if_pos rfl]
    · rw [hput, if_neg hk', hinserted, if_neg hk, if_neg hk']
  refine ⟨j, q, c, n, i, rfl, rfl, habove, hgrafted, hbehavior, ?_⟩
  refine ⟨hact.2.trans (congrArg (i.members :: ·) hinstalled), above.append j, some q, _,
    (hput c).trans (if_pos rfl), ?_, ?_, ?_, ?_⟩
  · rw [← hbare] at hplace ⊢
    exact congrArg Place.children hplace
  · rw [← hbare] at hplace ⊢
    exact congrArg Place.connections hplace
  · rw [← hbare] at hmetadata ⊢
    exact hmetadata
  · have hempty : bare.iteration = .empty := by
      rw [← hbare]
    have hfollows := Node.follows_install_first (t.setting bare.address)
      { i with number := t.installed.length } t.clock.isActive hempty (t.enlist i).turn
    rw [← hinstalled]
    rw [← hbare] at hfollows ⊢
    exact hfollows

namespace Grafted

variable {above : Path} {i : Id}

/-- Adding a unit changes the one above it and no others that were there. -/
lemma confined (h : r.Grafted s above i q c n) (habove : n.address = above) :
    Confined above r s := by
  obtain ⟨m, hm, haddress⟩ := h.child
  constructor
  · intro k n' hn'
    by_cases hk : k = q
    · rw [hk, h.extended, h.node, Option.some.injEq, Option.some.injEq]
      constructor
      · rintro rfl
        exact absurd (habove ▸ .refl above) hn'
      · rintro rfl
        exact absurd (habove ▸ .refl above) hn'
    · by_cases hk' : k = c
      · rw [hk', hm, h.new, Option.some.injEq]
        constructor
        · rintro rfl
          rw [haddress, habove] at hn'
          exact absurd (Path.within_append above i) hn'
        · intro hnone
          contradiction
      · rw [h.others k hk hk']
  · intro k n' hn'
    by_cases hk : k = q
    · rw [hk, h.node] at hn'
      cases hn'
      rw [hk]
      exact ⟨_, h.extended, rfl⟩
    · have hk' : k ≠ c := by
        intro heq
        rw [heq, h.new] at hn'
        contradiction
      exact ⟨n', (h.others k hk hk').trans hn', rfl⟩

end Grafted

/-! ## What a build changes -/

/-- A tree is left a tree, with changes at and below an address. -/
def Tends (p : Path) (r s : Root) : Prop := r.IsTree → s.IsTree ∧ Confined p r s

namespace Tends

/-- Nothing is changed. -/
lemma refl (p : Path) (r : Root) : Tends p r r := fun hr => ⟨hr, .ofUnits rfl p⟩

/-- One change after another. -/
lemma trans (h : Tends p r s) (h' : Tends p s t) : Tends p r t := fun hr =>
  ⟨(h' (h hr).1).1, (h hr).2.trans (h' (h hr).1).2⟩

/-- What is below an address is below those above it. -/
lemma widen (h : Tends p' r s) (hp : p'.Within p) : Tends p r s := fun hr =>
  ⟨(h hr).1, (h hr).2.widen hp⟩

end Tends

/-- A unit of a type that was added is one of that type in the catalog. -/
lemma addChild_eq_ok {above address : Path} {id typeName : String}
    (h : r.addChild above id typeName = (.ok address, s)) :
    ∃ t, r.catalog.find? typeName = .ok t ∧
      r.addUnit above id typeName (if t.container then .container else .component) t.behavior =
        (.ok address, s) := by
  unfold addChild at h
  cases hfind : r.catalog.find? typeName with
  | error e =>
    rw [hfind] at h
    cases h
  | ok t =>
    rw [hfind] at h
    exact ⟨t, rfl, h⟩

/-- A unit that cannot be added leaves no trace. -/
lemma addUnit_of_error {above : Path} {id typeName : String} {kind : NodeKind} {b : Behavior}
    {e : RuntimeError} (h : r.addUnit above id typeName kind b = (.error e, s)) : s = r := by
  unfold addUnit at h
  match hcheck : r.checkUnit above id b with
  | .error e =>
    rw [hcheck] at h
    cases h
    rfl
  | .ok (q, a, i) =>
    rw [hcheck] at h
    cases h

/-- A unit of a type that cannot be added leaves no trace. -/
lemma addChild_of_error {above : Path} {id typeName : String} {e : RuntimeError}
    (h : r.addChild above id typeName = (.error e, s)) : s = r := by
  unfold addChild at h
  cases hfind : r.catalog.find? typeName with
  | error e =>
    rw [hfind] at h
    cases h
    rfl
  | ok t =>
    rw [hfind] at h
    exact addUnit_of_error h

/-- Adding a unit of a type. -/
lemma tends_addChild (r : Root) (above : Path) (id typeName : String) :
    Tends above r (r.addChild above id typeName).2 := by
  intro hr
  refine ⟨hr.changes (chores_addChild r above id typeName).deeds.changes, ?_⟩
  match h : r.addChild above id typeName with
  | (.error e, s) =>
    rw [addChild_of_error h]
    exact .ofUnits rfl above
  | (.ok address, s) =>
    obtain ⟨t, -, hadd⟩ := addChild_eq_ok h
    obtain ⟨i, q, c, n, -, -, -, habove, hgrafted, -, -⟩ := hr.grafted hadd
    exact hgrafted.confined habove

/-- What comes of adding a unit of a type is a tree. -/
lemma IsTree.addChild (hr : r.IsTree) {above : Path} {id typeName : String}
    {result : Except RuntimeError Path} (h : r.addChild above id typeName = (result, s)) :
    s.IsTree := by
  have hadded := (tends_addChild r above id typeName hr).1
  rw [h] at hadded
  exact hadded

/-- Making a connection. -/
lemma tends_connect (r : Root) (p : Path) (d : Connection) : Tends p r (r.connect p d).2 := by
  intro hr
  refine ⟨hr.connect p d, ?_⟩
  unfold connect
  match hcheck : r.checkConnection p d with
  | .error e => exact .ofUnits rfl p
  | .ok (q, m) =>
    obtain ⟨n, hq, hn, -, -, -, -, rfl⟩ := checkConnection_eq_ok.mp hcheck
    have haddress := address_of_handle hr.skeleton.index hq hn
    exact .set hn rfl (haddress ▸ .refl p)

/-- Giving a unit the data that a snapshot holds of it. -/
lemma tends_modify (hq : r.lookup p = .ok q) (entries : Keyed Value) :
    Tends p r { r with units := r.units.modify q (restoreNode entries) } := by
  intro hr
  refine ⟨hr.keeps (keeps_modify r q (Edit.restore entries).retouch.place), ?_⟩
  have hhandle : r.handle? p = some q := by
    unfold lookup at hq
    split at hq
    · cases hq
      assumption
    · contradiction
  obtain ⟨n, hn, haddress⟩ := exists_of_handle hr.skeleton.index hhandle
  exact .modify hn rfl (haddress ▸ .refl p)

/-- A build changes the tree at and below an address. -/
lemma buildRelation_tends : BuildRelation Tends where
  refl := .refl
  trans h h' := h.trans h'
  addChild p r := tends_addChild r p
  modify := tends_modify
  connect p r := tends_connect r p
  nest := by
    intro above address r s t id typeName hadd habove hbelow hr
    obtain ⟨_, -, hunit⟩ := addChild_eq_ok hadd
    obtain ⟨i, -, -, -, -, -, haddress, -, -, -, -⟩ := hr.grafted hunit
    have hwithin : address.Within above := haddress ▸ Path.within_append above i
    exact (habove.trans (hbelow.widen hwithin)) hr

/-! ## Builds that fail -/

/-- Removing the child that was added last, and that no connection touches, gives back the place
that there was before. -/
lemma removeChild_insertChild {a : Place} {name : String}
    (hfree : Named.find? name a.children = none)
    (hends : ∀ d ∈ a.connections, (Named.find? d.source a.children).isSome = true ∧
      (Named.find? d.target a.children).isSome = true) :
    (a.insertChild name c).removeChild name = a := by
  have hchildren : Named.erase name (Named.push name c a.children) = a.children := by
    have hold : a.children.filter (fun e => e.1 != name) = a.children := by
      refine List.filter_eq_self.mpr fun e he => ?_
      rw [bne_iff_ne]
      intro heq
      exact Named.not_mem_names hfree (heq ▸ List.mem_map_of_mem he)
    simp [Named.erase, Named.push, hold]
  have hconnections : a.connections.filter (fun d => !d.touches name) = a.connections := by
    refine List.filter_eq_self.mpr fun d hd => ?_
    obtain ⟨hsource, htarget⟩ := hends d hd
    have hne : d.source ≠ name ∧ d.target ≠ name := by
      constructor
      · intro heq
        rw [heq, hfree] at hsource
        contradiction
      · intro heq
        rw [heq, hfree] at htarget
        contradiction
    simp [Connection.touches, hne]
  unfold Place.removeChild Place.insertChild
  simp only [hchildren, hconnections]

/-- What a build leaves behind that has failed after its first unit was added.  Nothing was at or
below the address of that unit, and all that is new is there.  All other units are as they were, but
that the one above has one child more; and when that child is removed, the places of all units and
the index are what they were. -/
structure LeftBehind (r s : Root) (above : Path) (i : Id) : Prop where
  fresh : ∀ p, p.Within (above.append i) → r.handle? p = none
  stays : s.contains (above.append i) = true
  index : ∀ p, ¬p.Within (above.append i) → s.handle? p = r.handle? p
  below : ∀ h n, s.units.get? h = some n → r.units.get? h = none → n.address.Within (above.append i)
  parent : ∃ q c n, r.handle? above = some q ∧ r.units.get? q = some n ∧
    s.handle? (above.append i) = some c ∧ s.units.get? q = some (n.insertChild i.text c)
  others : ∀ h n, r.units.get? h = some n → n.address ≠ above → s.units.get? h = some n
  removed : (s.removeChild above i.text).1 = .ok ()
  undone : (s.removeChild above i.text).2.skeleton.place = r.skeleton.place ∧
    (s.removeChild above i.text).2.skeleton.handle = r.skeleton.handle

/-- Where trees have the same places, the same addresses lead to the same units. -/
lemma handle_eq_of_place {S T : Skeleton} (hS : S.Indexed) (hT : T.Indexed)
    (h : T.place = S.place) : T.handle = S.handle := by
  funext p
  refine Option.ext fun k => ?_
  rw [hT p k, hS p k, h]

section LeftBehind

variable {above : Path} {i : Id}

/-- No unit is at or below the address of a child that there is not. -/
lemma Grafted.not_within (h : r.Grafted s above i q c n) (hr : r.IsTree) (hn : n.address = above)
    (hm : r.units.get? k = some m) : ¬m.address.Within (above.append i) := by
  rw [← hn]
  exact hr.skeleton.not_within_of_free (place_skeleton h.node) h.free rfl
    (fun _ _ hp => depth_le_capacity hr.skeleton hp) (place_skeleton hm)

/-- Whatever was done at and below the child, the units elsewhere are those that there were, but for
the parent. -/
lemma Grafted.elsewhere_iff (h : r.Grafted s above i q c n) (hr : r.IsTree) (hn : n.address = above)
    (hconfined : Confined (above.append i) s t) (hk : k ≠ q) :
    t.units.get? k = some m ∧ ¬m.address.Within (above.append i) ↔ r.units.get? k = some m := by
  constructor
  · rintro ⟨hm, hleft⟩
    have hold := (hconfined.apart k m hleft).mp hm
    have hkc : k ≠ c := by
      intro heq
      obtain ⟨m', hm', haddress⟩ := h.child
      rw [heq, hm'] at hold
      cases hold
      have hat : m.address = above.append i := haddress.trans (hn ▸ rfl)
      exact hleft (hat ▸ .refl _)
    rw [← h.others k hk hkc]
    exact hold
  · intro hm
    have hleft := h.not_within hr hn hm
    have hkc : k ≠ c := by
      intro heq
      rw [heq, h.new] at hm
      contradiction
    exact ⟨(hconfined.apart k m hleft).mpr ((h.others k hk hkc).trans hm), hleft⟩

/-- When the child is removed again, the tree is what it was before the child was added, whatever
was done at and below the child. -/
lemma Grafted.undone (h : r.Grafted s above i q c n) (hr : r.IsTree) (ht : t.IsTree)
    (hn : n.address = above) (hconfined : Confined (above.append i) s t) :
    (t.removeChild above i.text).2.skeleton.place = r.skeleton.place := by
  have habove : ¬n.address.Within (above.append i) := h.not_within hr hn h.node
  have hq : t.units.get? q = some (n.insertChild i.text c) :=
    (hconfined.apart q (n.insertChild i.text c) habove).mpr h.extended
  have hhandle : t.handle? above = some q := (handle?_eq_some ht.skeleton.index).mpr ⟨_, hq, hn⟩
  obtain ⟨-, hremoves⟩ := removes_removeChild ht hhandle hq i.text
  have hsame : (n.insertChild i.text c).place.removeChild i.text = n.place :=
    removeChild_insertChild h.free (hr.skeleton.ends q _ (place_skeleton h.node))
  rw [hsame] at hremoves
  have hdropped : ∀ a : Place, Skeleton.Below (n.insertChild i.text c).place i.text a.address ↔
      a.address.Within (above.append i) := by
    intro a
    rw [← hn]
    exact Skeleton.below_iff rfl
  funext k
  refine Option.ext fun a => ?_
  rw [hremoves.place k a, hdropped]
  by_cases hk : k = q
  · have hself : (t.skeleton.update q n.place).place k = some n.place := if_pos hk
    have hold : r.skeleton.place k = some n.place := hk ▸ place_skeleton h.node
    rw [hself, hold, Option.some.injEq]
    constructor
    · exact fun ha => ha.1
    · rintro rfl
      exact ⟨rfl, habove⟩
  · have hself : (t.skeleton.update q n.place).place k = t.skeleton.place k := if_neg hk
    rw [hself]
    constructor
    · rintro ⟨ha, hleft⟩
      obtain ⟨m, hm, rfl⟩ := exists_of_place ha
      exact place_skeleton ((h.elsewhere_iff hr hn hconfined hk).mp ⟨hm, hleft⟩)
    · intro ha
      obtain ⟨m, hm, rfl⟩ := exists_of_place ha
      obtain ⟨hm, hleft⟩ := (h.elsewhere_iff hr hn hconfined hk).mpr hm
      exact ⟨place_skeleton hm, hleft⟩

/-- What is left behind when a unit was added and something was done at and below it. -/
lemma Grafted.leftBehind (h : r.Grafted s above i q c n) (hr : r.IsTree) (hs : s.IsTree)
    (ht : t.IsTree) (hn : n.address = above) (hconfined : Confined (above.append i) s t) :
    r.LeftBehind t above i := by
  have habove : ¬n.address.Within (above.append i) := h.not_within hr hn h.node
  obtain ⟨m, hm, haddress⟩ := h.child
  rw [hn] at haddress
  have hq : t.units.get? q = some (n.insertChild i.text c) :=
    (hconfined.apart q (n.insertChild i.text c) habove).mpr h.extended
  have hhandle : t.handle? above = some q := (handle?_eq_some ht.skeleton.index).mpr ⟨_, hq, hn⟩
  have hc : t.handle? (above.append i) = some c :=
    hconfined.handle?_of_eq_some hs.skeleton.index ht.skeleton.index
      ((handle?_eq_some hs.skeleton.index).mpr ⟨m, hm, haddress⟩)
  have hundone := h.undone hr ht hn hconfined
  constructor
  case fresh =>
    intro p hp
    by_contra hne
    obtain ⟨k, hk⟩ := Option.ne_none_iff_exists'.mp hne
    obtain ⟨n', hn', rfl⟩ := (handle?_eq_some hr.skeleton.index).mp hk
    exact h.not_within hr hn hn' hp
  case stays =>
    rw [contains, hc]
    rfl
  case index =>
    intro p hp
    refine Option.ext fun k => ?_
    rw [handle?_eq_some ht.skeleton.index, handle?_eq_some hr.skeleton.index]
    by_cases hk : k = q
    · rw [hk, hq, h.node]
      constructor
      · rintro ⟨n', hn', rfl⟩
        cases hn'
        exact ⟨n, rfl, rfl⟩
      · rintro ⟨n', hn', rfl⟩
        cases hn'
        exact ⟨_, rfl, rfl⟩
    · constructor
      · rintro ⟨n', hn', rfl⟩
        exact ⟨n', (h.elsewhere_iff hr hn hconfined hk).mp ⟨hn', hp⟩, rfl⟩
      · rintro ⟨n', hn', rfl⟩
        exact ⟨n', ((h.elsewhere_iff hr hn hconfined hk).mpr hn').1, rfl⟩
  case below =>
    intro k n' hn' hnone
    by_contra hleft
    have hk : k ≠ q := by
      intro heq
      rw [heq, h.node] at hnone
      contradiction
    rw [(h.elsewhere_iff hr hn hconfined hk).mp ⟨hn', hleft⟩] at hnone
    contradiction
  case parent => exact ⟨q, c, n, h.above, h.node, hc, hq⟩
  case others =>
    intro k n' hn' hne
    have hk : k ≠ q := by
      intro heq
      rw [heq, h.node] at hn'
      cases hn'
      exact hne hn
    exact ((h.elsewhere_iff hr hn hconfined hk).mpr hn').1
  case removed =>
    have hlookup : t.lookup above = .ok q := by
      rw [lookup, hhandle]
    unfold removeChild
    simp only [hlookup, hq, Option.bind_some, Node.child?, Node.insertChild,
      Named.find?_push_self h.free]
  case undone =>
    exact ⟨hundone, handle_eq_of_place hr.skeleton.index
      (ht.removeChild above i.text).skeleton.index hundone⟩

end LeftBehind

/-- Whether the outermost unit of a snapshot can be added. -/
def Admits (r : Root) (above : Path) (id : String) (v : Value) : Prop :=
  ∃ typeName address, snapshotType v = .ok typeName ∧ (r.addChild above id typeName).1 = .ok address

/-- What becomes of a root when a build in it fails: nothing, unless the outermost unit of the
snapshot can be added; that unit is then left behind. -/
lemma IsTree.build_error (hr : r.IsTree) {above : Path} {id : String} {v : Value}
    {e : RuntimeError} (h : (r.build above id v).1 = .error e) :
    ¬r.Admits above id v ∧ (r.build above id v).2 = r ∨
    r.Admits above id v ∧ ∃ i : Id, i.text = id ∧ r.LeftBehind (r.build above id v).2 above i := by
  unfold build buildWith at h ⊢
  cases htype : snapshotType v with
  | error e =>
    refine .inl ⟨?_, rfl⟩
    rintro ⟨typeName, address, hname, -⟩
    rw [htype] at hname
    contradiction
  | ok typeName =>
    rw [htype] at h
    match hadd : r.addChild above id typeName with
    | (.error e, s) =>
      simp only [hadd]
      refine .inl ⟨?_, addChild_of_error hadd⟩
      rintro ⟨name, address, hname, hok⟩
      rw [htype] at hname
      cases hname
      rw [hadd] at hok
      contradiction
    | (.ok address, s) =>
      obtain ⟨t, -, hunit⟩ := addChild_eq_ok hadd
      obtain ⟨i, q, c, n, -, hi, ha, hn, hgrafted, -, -⟩ := hr.grafted hunit
      have hs : s.IsTree := hr.addChild hadd
      obtain ⟨ht, hconfined⟩ := buildRelation_tends.restoreWithin v.depth address v s hs
      simp only [hadd] at h ⊢
      match hrestore : restoreWithin v.depth address v s with
      | (.ok (), t) =>
        rw [hrestore] at h
        contradiction
      | (.error e, t) =>
        rw [hrestore, ha] at hconfined
        rw [hrestore] at ht
        refine .inr ⟨⟨typeName, address, htype, by rw [hadd]⟩, i, hi, ?_⟩
        exact hgrafted.leftBehind hr hs ht hn hconfined

/-- Builds that fail.  When a build fails whose outermost unit could not have been added, the root
stays as it is.  When it fails after that, the outermost unit is left behind with a part of what
belongs below it, and nothing else has changed: the address index, the units and their connections
are as before but for the new child of the one above, and removing that child undoes the rest.  A
text that is no snapshot is a build that fails at once. -/
theorem failed_build {r s : Root} (h : Reachable r) (hs : Changes r s) (above : Path)
    (id : String) :
    (∀ v e, (s.build above id v).1 = .error e →
      ¬s.Admits above id v ∧ (s.build above id v).2 = s ∨
      s.Admits above id v ∧ ∃ i : Id, i.text = id ∧ s.LeftBehind (s.build above id v).2 above i) ∧
    ∀ text e, (s.buildText above id text).1 = .error e →
      (s.buildText above id text).2 = s ∨
      ∃ i : Id, i.text = id ∧ s.LeftBehind (s.buildText above id text).2 above i := by
  have ht : s.IsTree := h.isTree.changes hs
  refine ⟨fun v e hfail => ht.build_error hfail, fun text e hfail => ?_⟩
  unfold buildText at hfail ⊢
  cases htext : Value.ofStored? text with
  | error e => exact .inl rfl
  | ok v =>
    rw [htext] at hfail
    rcases ht.build_error hfail with ⟨-, hsame⟩ | ⟨-, hleft⟩
    · exact .inl hsame
    · exact .inr hleft

/-- The snapshot of a container with a child of a type that there is not. -/
def faultySnapshot : Value :=
  .ofEntries [("type", .text Catalog.containerType),
    ("children", .ofEntries [("room", .ofEntries [("type", .text "room")])])]

/-- A container is left behind when its child cannot be built. -/
theorem failed_build_hall :
    ∃ r, Root.new {} .base = .ok r ∧ (∃ e, (r.build rootPath "hall" faultySnapshot).1 = .error e) ∧
      ∃ i : Id, i.text = "hall" ∧
        r.LeftBehind (r.build rootPath "hall" faultySnapshot).2 rootPath i := by
  obtain ⟨r, hr⟩ : ∃ r, Root.new {} .base = .ok r := ⟨_, rfl⟩
  obtain ⟨e, he⟩ : ∃ e, (r.build rootPath "hall" faultySnapshot).1 = .error e := by
    cases hr
    exact ⟨_, rfl⟩
  have hadmits : r.Admits rootPath "hall" faultySnapshot := by
    refine ⟨Catalog.containerType, hallPath, by rfl, ?_⟩
    cases hr
    rfl
  refine ⟨r, hr, ⟨e, he⟩, ?_⟩
  rcases (failed_build (.new hr) (.refl r) rootPath "hall").1 faultySnapshot e he with
    ⟨hnot, -⟩ | ⟨-, hleft⟩
  · exact absurd hadmits hnot
  · exact hleft

/-- A build can fail and leave a unit in the tree that was not there before. -/
theorem failed_build_stays :
    ∃ r, Root.new {} .base = .ok r ∧ Reachable r ∧ r.contains hallPath = false ∧
      (∃ e, (r.build rootPath "hall" faultySnapshot).1 = .error e) ∧
      (r.build rootPath "hall" faultySnapshot).2.contains hallPath = true := by
  obtain ⟨r, hr⟩ : ∃ r, Root.new {} .base = .ok r := ⟨_, rfl⟩
  refine ⟨r, hr, .new hr, ?_, ?_, ?_⟩
  · cases hr
    decide +kernel
  · cases hr
    exact ⟨_, rfl⟩
  · cases hr
    decide +kernel

end Root

end Switchboard
