import Mathlib
import Switchboard.Proofs.Origins

/-!
# What a snapshot says

A `Blueprint` is what the snapshot of a unit says about it, and `Root.Buildable` are the snapshots
of trees of units that can be made from a catalog.  A snapshot gives back what it was made of
(`Blueprint.childSnapshots_entries` and its neighbours).

The main lemma `buildable_snapshotNode` is that the snapshot of units of known types is buildable,
if these units are genuine: then each unit has the properties of its type with values that fit, and
each connection leads from port to port.
-/

namespace Switchboard

namespace Value

/-- Values in a map are less deep than the map. -/
lemma depth_le_depthEntries {key : String} {v : Value} {es : List (String × Value)}
    (h : (key, v) ∈ es) : v.depth ≤ depthEntries es := by
  induction es with
  | nil => contradiction
  | cons e es ih =>
    obtain ⟨k, w⟩ := e
    rw [depthEntries]
    rcases List.mem_cons.mp h with heq | h
    · cases heq
      exact le_max_left ..
    · exact (ih h).trans (le_max_right ..)

end Value

/-! ## Blueprints -/

/-- What the snapshot of a unit says. -/
structure Blueprint where
  typeName : String
  /-- Whether the unit may have children. -/
  container : Bool
  properties : Named Value
  metadata : Keyed Value
  /-- The snapshots of the children, in their order. -/
  children : Named Value
  connections : List Connection

namespace Blueprint

variable {b : Blueprint} {key : String} {v : Value}

/-- The entries of a snapshot, before they are put in order. -/
def pairs (b : Blueprint) : List (String × Value) :=
  [("type", .text b.typeName), ("properties", .ofEntries b.properties), ("meta", .map b.metadata)]
    ++ if b.container then
        [("children", .ofEntries b.children), ("order", .list (b.children.map fun e => .text e.1)),
          ("connections", .list (b.connections.map Connection.value))]
      else []

/-- The entries of a snapshot. -/
def entries (b : Blueprint) : Keyed Value := Keyed.ofList b.pairs

/-- The snapshot. -/
def value (b : Blueprint) : Value := .map b.entries

/-- What is found in a snapshot. -/
lemma find?_entries : Keyed.find? key b.entries = some v ↔ (key, v) ∈ b.pairs := by
  refine Keyed.find?_ofList ?_
  unfold pairs
  cases b.container <;> simp

/-- A snapshot names its type. -/
lemma snapshotType_value (b : Blueprint) : Root.snapshotType b.value = .ok b.typeName := by
  have htype : Keyed.find? "type" b.entries = some (.text b.typeName) :=
    find?_entries.mpr (by simp [pairs])
  simp only [Root.snapshotType, value, htype, Option.bind_some, Value.text?]

/-- A snapshot has properties. -/
lemma mapAt?_properties (b : Blueprint) :
    Root.mapAt? b.entries "properties" = some (Keyed.ofList b.properties) := by
  have hproperties : Keyed.find? "properties" b.entries = some (.ofEntries b.properties) :=
    find?_entries.mpr (by simp [pairs])
  simp only [Root.mapAt?, hproperties, Option.bind_some, Value.ofEntries, Value.map?]

/-- A snapshot has metadata. -/
lemma mapAt?_meta (b : Blueprint) : Root.mapAt? b.entries "meta" = some b.metadata := by
  have hmeta : Keyed.find? "meta" b.entries = some (.map b.metadata) :=
    find?_entries.mpr (by simp [pairs])
  simp only [Root.mapAt?, hmeta, Option.bind_some, Value.map?]

/-- A snapshot has its children, in their order. -/
lemma childSnapshots_entries (hnames : (Named.names b.children).Nodup)
    (hleaf : b.container = false → b.children = []) :
    Root.childSnapshots b.entries = b.children := by
  unfold Root.childSnapshots
  cases hcontainer : b.container with
  | false =>
    have hnone : Keyed.find? "children" b.entries = none := by
      by_contra hne
      obtain ⟨v, hv⟩ := Option.ne_none_iff_exists'.mp hne
      have hmem := find?_entries.mp hv
      simp [pairs, hcontainer] at hmem
    simp only [Root.mapAt?, hnone, Option.bind_none, hleaf hcontainer]
  | true =>
    have hchildren : Keyed.find? "children" b.entries = some (.ofEntries b.children) :=
      find?_entries.mpr (by simp [pairs, hcontainer])
    have horder : Keyed.find? "order" b.entries =
        some (.list (b.children.map fun e => .text e.1)) :=
      find?_entries.mpr (by simp [pairs, hcontainer])
    have hids : (b.children.map fun e => Value.text e.1).map Value.render =
        b.children.map Prod.fst := by
      rw [List.map_map]
      rfl
    simp only [Root.mapAt?, hchildren, Option.bind_some, Value.ofEntries, Value.map?,
      Root.childOrder, horder, hids, List.filterMap_map]
    refine (List.filterMap_congr fun e he => ?_).trans List.filterMap_some
    exact congrArg (Option.map _) ((Keyed.find?_ofList hnames).mpr he)

/-- A snapshot has its connections. -/
lemma connectionValues_entries (hleaf : b.container = false → b.connections = []) :
    Root.connectionValues b.entries = b.connections.map Connection.value := by
  unfold Root.connectionValues
  cases hcontainer : b.container with
  | false =>
    have hnone : Keyed.find? "connections" b.entries = none := by
      by_contra hne
      obtain ⟨v, hv⟩ := Option.ne_none_iff_exists'.mp hne
      have hmem := find?_entries.mp hv
      simp [pairs, hcontainer] at hmem
    simp only [hnone, hleaf hcontainer, List.map_nil]
  | true =>
    have hconnections : Keyed.find? "connections" b.entries =
        some (.list (b.connections.map Connection.value)) :=
      find?_entries.mpr (by simp [pairs, hcontainer])
    simp only [hconnections]

/-- A snapshot has a depth. -/
lemma depth_value (b : Blueprint) : b.value.depth = Value.depthEntries b.entries + 1 := by
  rw [value, Value.depth]

/-- No snapshot has no levels. -/
lemma exists_succ (b : Blueprint) {fuel : ℕ} (h : b.value.depth ≤ fuel) : ∃ k, fuel = k + 1 := by
  rw [depth_value] at h
  exact ⟨fuel - 1, by omega⟩

/-- The snapshot of a child is less deep than that of the unit. -/
lemma depth_child (hcontainer : b.container = true) (hnames : (Named.names b.children).Nodup)
    {e : String × Value} (he : e ∈ b.children) : e.2.depth < b.value.depth := by
  have hchildren : ("children", .ofEntries b.children) ∈ b.entries :=
    Keyed.mem_of_find? (find?_entries.mpr (by simp [pairs, hcontainer]))
  have houter := Value.depth_le_depthEntries hchildren
  have hinner := Value.depth_le_depthEntries
    (Keyed.mem_of_find? ((Keyed.find?_ofList hnames).mpr he))
  rw [Value.ofEntries, Value.depth] at houter
  rw [depth_value]
  omega

end Blueprint

/-! ## Snapshots that can be built -/

/-- The direction of a port of a unit that is built from a snapshot. -/
def Catalog.portDirection? (cat : Catalog) (v : Value) (port : String) : Option PortDirection :=
  match Root.snapshotType v with
  | .error _ => none
  | .ok name =>
    match cat.find? name with
    | .error _ => none
    | .ok t =>
      match Members.ofBehavior t.behavior with
      | .error _ => none
      | .ok ms => ms.portDirection? port

/-- Whether values are those of properties, one by one, and of their shapes. -/
def Fitting (shapes : Named Shape) (values : Named Value) : Prop :=
  List.Forall₂ (fun e f => e.1 = f.1 ∧ f.2.OfShape e.2) shapes values

/-- Whether a blueprint is one of a unit of a type, which has these members. -/
structure Blueprint.Sound (b : Blueprint) (cat : Catalog) (t : UnitType) (ms : Members) :
    Prop where
  type : cat.find? b.typeName = .ok t
  container : b.container = t.container
  members : Members.ofBehavior t.behavior = .ok ms
  properties : Fitting ms.shapes b.properties
  metadata : Keyed.Sorted b.metadata
  leaf : b.container = false → b.children = [] ∧ b.connections = []
  names : (Named.names b.children).Nodup
  ids : ∀ e ∈ b.children, isId e.1.toList = true
  ordered : Connection.Ordered b.connections
  ends : ∀ c ∈ b.connections,
    (∃ v, (c.source, v) ∈ b.children ∧ cat.portDirection? v c.sourcePort = some .output) ∧
      ∃ v, (c.target, v) ∈ b.children ∧ cat.portDirection? v c.targetPort = some .input

/-- A unit with children or connections may have children. -/
lemma Blueprint.Sound.isContainer {b : Blueprint} {cat : Catalog} {t : UnitType} {ms : Members}
    (h : b.Sound cat t ms) (hne : b.children ≠ [] ∨ b.connections ≠ []) : b.container = true := by
  by_contra hleaf
  obtain ⟨hchildren, hconnections⟩ := h.leaf (Bool.eq_false_of_not_eq_true hleaf)
  exact hne.elim (absurd hchildren) (absurd hconnections)

/-- Snapshots of trees of units whose types are in a catalog. -/
inductive Buildable (cat : Catalog) : Value → Prop
  | unit {b : Blueprint} {t : UnitType} {ms : Members} (hb : b.Sound cat t ms)
      (hchildren : ∀ e ∈ b.children, Buildable cat e.2) : Buildable cat b.value

/-- The ports of a unit that is built from a snapshot are those that its type declares. -/
lemma Blueprint.Sound.portDirection? {b : Blueprint} {cat : Catalog} {t : UnitType} {ms : Members}
    (h : b.Sound cat t ms) (port : String) :
    cat.portDirection? b.value port = ms.portDirection? port := by
  unfold Catalog.portDirection?
  simp only [b.snapshotType_value, h.type, h.members]

/-- Properties with values of their shapes. -/
lemma Iteration.fitting_properties {i : Iteration} (h : i.cells.Typed i.members.shapes) :
    Fitting i.members.shapes i.properties := by
  unfold Members.shapes at h ⊢
  unfold properties
  generalize i.members.controls = controls at h ⊢
  induction controls with
  | nil => exact .nil
  | cons e controls ih =>
    obtain ⟨name, control⟩ := e
    cases control with
    | property shape default =>
      obtain ⟨p, hp, -, hvalue⟩ := h name shape List.mem_cons_self
      have hrest := ih fun id shape hmem => h id shape (List.mem_cons_of_mem _ hmem)
      simp only [List.filterMap_cons, hp, Option.map_some]
      exact .cons ⟨rfl, hvalue⟩ hrest
    | _ => exact ih h

namespace Root

variable {r s : Root} {h k q : Handle} {n m : Node} {p : Path}

/-- The snapshots of the children of a unit. -/
def childValues (r : Root) (fuel : ℕ) (n : Node) : Named Value :=
  n.children.filterMap fun (id, h) => (r.units.get? h).map fun c => (id, r.snapshotNode fuel c)

/-- What the snapshot of a unit says. -/
def blueprint (r : Root) (fuel : ℕ) (n : Node) : Blueprint :=
  ⟨n.typeName, n.kind.isContainer, n.iteration.properties, n.metadata, r.childValues fuel n,
    n.connections⟩

/-- The snapshot of a unit. -/
lemma snapshotNode_succ (r : Root) (fuel : ℕ) (n : Node) :
    r.snapshotNode (fuel + 1) n = (r.blueprint fuel n).value := by
  rw [snapshotNode]
  rfl

/-- A child of a unit is a unit one level deeper. -/
lemma IsTree.child (hr : r.IsTree) (hn : r.units.get? h = some n) {e : String × Handle}
    (he : e ∈ n.children) :
    ∃ c i, r.units.get? e.2 = some c ∧ i.text = e.1 ∧ c.address = n.address.append i := by
  obtain ⟨a, i, ha, -, hi, haddress⟩ := hr.skeleton.child h n.place (place_skeleton hn) e he
  obtain ⟨c, hc, rfl⟩ := exists_of_place ha
  exact ⟨c, i, hc, hi, haddress⟩

/-- The snapshots of the children are those of all of them, in their order. -/
lemma IsTree.names_childValues (hr : r.IsTree) (hn : r.units.get? h = some n) (fuel : ℕ) :
    Named.names (r.childValues fuel n) = Named.names n.children := by
  have hlive (es : Named Handle) (hes : ∀ e ∈ es, ∃ c, r.units.get? e.2 = some c) :
      (es.filterMap fun (id, h) =>
        (r.units.get? h).map fun c => (id, r.snapshotNode fuel c)).map Prod.fst =
        es.map Prod.fst := by
    induction es with
    | nil => rfl
    | cons e es ih =>
      obtain ⟨c, hc⟩ := hes e List.mem_cons_self
      have hrest := ih fun e he => hes e (List.mem_cons_of_mem _ he)
      simp only [List.filterMap_cons, hc, Option.map_some, List.map_cons]
      exact congrArg (e.1 :: ·) hrest
  refine hlive n.children fun e he => ?_
  obtain ⟨c, -, hc, -, -⟩ := hr.child hn he
  exact ⟨c, hc⟩

/-- The snapshot of a child. -/
lemma mem_childValues {id : String} {v : Value} {fuel : ℕ} :
    (id, v) ∈ r.childValues fuel n ↔ ∃ h c, (id, h) ∈ n.children ∧ r.units.get? h = some c ∧
      v = r.snapshotNode fuel c := by
  unfold childValues
  rw [List.mem_filterMap]
  constructor
  · rintro ⟨⟨name, h⟩, hmem, heq⟩
    obtain ⟨c, hc, hv⟩ := Option.map_eq_some_iff.mp heq
    cases hv
    exact ⟨h, c, hmem, hc, rfl⟩
  · rintro ⟨h, c, hmem, hc, rfl⟩
    exact ⟨(id, h), hmem, congrArg (Option.map _) hc⟩

/-- No unit is deeper than there are slots in the arena. -/
lemma IsTree.depth_le (hr : r.IsTree) (hn : r.units.get? h = some n) :
    n.address.depth ≤ r.units.capacity := depth_le_capacity hr.skeleton (place_skeleton hn)

/-- The snapshot of a unit does not depend on the number of levels, if there are enough. -/
lemma IsTree.snapshotNode_eq (hr : r.IsTree) {fuel fuel' : ℕ} (hn : r.units.get? h = some n)
    (hfuel : r.units.capacity < fuel + n.address.depth)
    (hfuel' : r.units.capacity < fuel' + n.address.depth) :
    r.snapshotNode fuel n = r.snapshotNode fuel' n := by
  induction fuel generalizing fuel' h n with
  | zero =>
    have hdepth := hr.depth_le hn
    omega
  | succ fuel ih =>
    cases fuel' with
    | zero =>
      have hdepth := hr.depth_le hn
      omega
    | succ fuel' =>
      have hchildren : r.childValues fuel n = r.childValues fuel' n := by
        refine List.filterMap_congr fun e he => ?_
        obtain ⟨c, i, hc, -, haddress⟩ := hr.child hn he
        have hdepth : c.address.depth = n.address.depth + 1 := by
          rw [haddress, Path.depth_append]
        have hsame : r.snapshotNode fuel c = r.snapshotNode fuel' c :=
          ih hc (by omega) (by omega)
        simp only [hc, Option.map_some, hsame]
      rw [snapshotNode_succ, snapshotNode_succ, blueprint, blueprint, hchildren]

/-- Whether all units at and below an address are genuine units of types that are in the catalog,
with defaults of the shapes that are declared. -/
def Catalogued (r : Root) (p : Path) : Prop :=
  ∀ h n, r.units.get? h = some n → n.address.Within p →
    ∃ t, r.Genuine h t ∧ r.catalog.find? n.typeName = .ok t ∧ t.behavior.Typed

/-- The ports of a unit of a type in the catalog are those that its snapshot stands for. -/
lemma Native.portDirection? {t : UnitType} (h : r.Native k t n)
    (hfind : r.catalog.find? n.typeName = .ok t) (fuel : ℕ) (port : String) :
    r.catalog.portDirection? (r.snapshotNode (fuel + 1) n) port =
      n.iteration.members.portDirection? port := by
  unfold Catalog.portDirection?
  rw [snapshotNode_succ, Blueprint.snapshotType_value]
  simp only [blueprint, hfind, h.members]

/-- The children of a unit at or below an address are below it, and need fewer levels. -/
lemma IsTree.exists_child_within (hr : r.IsTree) {fuel : ℕ} (hn : r.units.get? h = some n)
    (hwithin : n.address.Within p) (hfuel : r.units.capacity < fuel + 1 + n.address.depth)
    {e : String × Handle} (he : e ∈ n.children) :
    ∃ (c : Node) (i : Id), r.units.get? e.2 = some c ∧ i.text = e.1 ∧ c.address.Within p ∧
      r.units.capacity < fuel + c.address.depth := by
  obtain ⟨c, i, hc, hi, haddress⟩ := hr.child hn he
  refine ⟨c, i, hc, hi, ?_, ?_⟩
  · rw [haddress]
    exact (Path.within_append _ i).trans hwithin
  · rw [haddress, Path.depth_append]
    omega

/-- What a connection says of its ends is what the snapshots of the children stand for. -/
lemma Catalogued.exists_childValue (hunits : r.Catalogued p) (hr : r.IsTree) {fuel : ℕ}
    (hn : r.units.get? h = some n) (hwithin : n.address.Within p)
    (hfuel : r.units.capacity < fuel + 1 + n.address.depth) {name port : String}
    {d : PortDirection} (hsome : (Named.find? name n.children).isSome = true)
    (huses : ∀ k, Named.find? name n.children = some k → r.Uses k port d) :
    ∃ v, (name, v) ∈ r.childValues fuel n ∧ r.catalog.portDirection? v port = some d := by
  obtain ⟨k, hk⟩ := Option.isSome_iff_exists.mp hsome
  have hmem := Named.mem_of_find? hk
  obtain ⟨c, i, hc, -, hbelow, hdeep⟩ := hr.exists_child_within hn hwithin hfuel hmem
  obtain ⟨t, hgenuine, hfind, -⟩ := hunits k c hc hbelow
  obtain ⟨-, c', hnative⟩ := hgenuine.native
  rw [hnative.unit] at hc
  cases hc
  refine ⟨_, mem_childValues.mpr ⟨k, c, hmem, hnative.unit, rfl⟩, ?_⟩
  cases fuel with
  | zero =>
    have hdepth := hr.depth_le hnative.unit
    omega
  | succ fuel =>
    rw [hnative.portDirection? hfind]
    exact hnative.matched port d (huses k hk)

/-- The snapshot of genuine units can be built. -/
lemma buildable_snapshotNode (hr : r.IsTree) (hordered : r.Ordered) (hunits : r.Catalogued p)
    (fuel : ℕ) (hn : r.units.get? h = some n) (hwithin : n.address.Within p)
    (hfuel : r.units.capacity < fuel + n.address.depth) :
    Buildable r.catalog (r.snapshotNode fuel n) := by
  induction fuel generalizing h n with
  | zero =>
    have hdepth := hr.depth_le hn
    omega
  | succ fuel ih =>
    obtain ⟨t, hgenuine, hfind, htyped⟩ := hunits h n hn hwithin
    obtain ⟨-, n', hnative⟩ := hgenuine.native
    rw [hnative.unit] at hn
    cases hn
    have hn := hnative.unit
    have hplace := place_skeleton hn
    rw [snapshotNode_succ]
    refine @Buildable.unit _ _ t n.iteration.members ⟨hfind, hnative.container, hnative.members,
      Iteration.fitting_properties (hnative.typed htyped), (hordered h n hn).1, fun hleaf => ?_, ?_,
      fun e he => ?_, (hordered h n hn).2, fun c hc => ?_⟩ fun e he => ?_
    · obtain ⟨hchildren, hconnections⟩ := hr.skeleton.container h n.place hplace hleaf
      have hnone : n.children = [] := hchildren
      refine ⟨?_, hconnections⟩
      simp only [blueprint, childValues, hnone, List.filterMap_nil]
    · have hnames := hr.names_childValues hn fuel
      rw [blueprint, hnames]
      exact hr.skeleton.names h n.place hplace
    · obtain ⟨k, c, hmem, -, -⟩ := mem_childValues.mp he
      obtain ⟨-, i, -, hi, -⟩ := hr.exists_child_within hn hwithin hfuel hmem
      rw [← hi]
      exact i.valid
    · obtain ⟨hsource, htarget⟩ := hr.skeleton.ends h n.place hplace c hc
      exact ⟨hunits.exists_childValue hr hn hwithin hfuel hsource fun k hk =>
          ⟨h, n.place, c, hplace, hc, hk, rfl⟩,
        hunits.exists_childValue hr hn hwithin hfuel htarget fun k hk =>
          ⟨h, n.place, c, hplace, hc, hk, rfl⟩⟩
    · obtain ⟨k, c, hmem, hc, hv⟩ := mem_childValues.mp he
      obtain ⟨c', -, hc', -, hbelow, hdeep⟩ := hr.exists_child_within hn hwithin hfuel hmem
      rw [hc] at hc'
      cases hc'
      rw [hv]
      exact ih hc hbelow hdeep

end Root

end Switchboard
