import Mathlib
import Switchboard.Proofs.Blueprints
import Switchboard.Proofs.StoredText

/-!
# Snapshots can be built again

A unit that is built from a buildable snapshot looks as the snapshot says (`Root.Shows`), and so do
the units below it.  This is shown by induction on the snapshot (`Buildable.buildWith`): the unit
is added and given its properties and metadata (`restoreNode_entries`), then its children are built
one after the other (`forEntries_buildEntry`), and then they are connected
(`restoreConnections_value`).

The main theorem `snapshot_round_trip` is about the snapshot of genuine units: wherever a child can
be added it can be built, and it then has the same snapshot.
-/

namespace Switchboard

/-! ## Giving a unit its properties -/

namespace Iteration

variable {i j : Iteration} {values : Named Value}

/-- Values that fit are what properties are given, and the other properties are left alone. -/
lemma restoreProperty_of_shape {id : String} {v : Value} {p : Property}
    (hp : i.cells.property? id = some p) (hv : v.OfShape p.shape) :
    i.restoreProperty id v = { i with cells := i.cells.setProperty id { p with value := v } } := by
  unfold restoreProperty
  simp only [hp, Property.replace, Property.coerce, hv.coerce?, Except.map]

/-- Each property is given its value, where the values are those of different properties and of
their shapes. -/
lemma foldl_restoreProperty (hnames : (Named.names values).Nodup)
    (hvalues : ∀ e ∈ values, ∃ p, i.cells.property? e.1 = some p ∧ e.2.OfShape p.shape) :
    (values.foldl (fun (i : Iteration) e => i.restoreProperty e.1 e.2) i).members = i.members ∧
      (∀ e ∈ values, ∃ p, (values.foldl (fun (i : Iteration) e => i.restoreProperty e.1 e.2)
        i).cells.property? e.1 = some p ∧ p.value = e.2) ∧
      ∀ id ∉ Named.names values, (values.foldl (fun (i : Iteration) e =>
        i.restoreProperty e.1 e.2) i).cells.property? id = i.cells.property? id := by
  induction values generalizing i with
  | nil => exact ⟨rfl, fun _ he => absurd he List.not_mem_nil, fun _ _ => rfl⟩
  | cons e rest ih =>
    obtain ⟨hfirst, hrest⟩ := List.nodup_cons.mp hnames
    obtain ⟨p, hp, hv⟩ := hvalues e List.mem_cons_self
    have hne : ∀ e' ∈ rest, e'.1 ≠ e.1 := fun e' he' heq =>
      hfirst (heq ▸ List.mem_map_of_mem he')
    have hset : ∀ id, id ≠ e.1 →
        (i.cells.setProperty e.1 { p with value := e.2 }).property? id = i.cells.property? id :=
      fun id hid => Keyed.find?_insert_of_ne hid _ _
    rw [List.foldl_cons, restoreProperty_of_shape hp hv]
    obtain ⟨hmembers, hgiven, hothers⟩ :=
      ih (i := { i with cells := i.cells.setProperty e.1 { p with value := e.2 } }) hrest
        fun e' he' => by
          obtain ⟨p', hp', hv'⟩ := hvalues e' (List.mem_cons_of_mem _ he')
          exact ⟨p', (hset e'.1 (hne e' he')).trans hp', hv'⟩
    refine ⟨hmembers, fun e' he' => ?_, fun id hid => ?_⟩
    · rcases List.mem_cons.mp he' with rfl | he'
      · exact ⟨_, (hothers e'.1 hfirst).trans (Keyed.find?_insert_self e'.1 _ _), rfl⟩
      · exact hgiven e' he'
    · obtain ⟨hid, hid'⟩ := List.ne_and_not_mem_of_not_mem_cons hid
      exact (hothers id hid').trans (hset id hid)

/-- The values of the properties are those that the cells hold. -/
lemma properties_eq (h : Fitting i.members.shapes values)
    (hcells : ∀ e ∈ values, ∃ p, i.cells.property? e.1 = some p ∧ p.value = e.2) :
    i.properties = values := by
  unfold Members.shapes at h
  unfold properties
  generalize i.members.controls = controls at h ⊢
  induction controls generalizing values with
  | nil =>
    cases h
    rfl
  | cons e controls ih =>
    obtain ⟨name, control⟩ := e
    cases control with
    | property shape default =>
      obtain ⟨v, rest, ⟨hname, -⟩, hrest, rfl⟩ := List.forall₂_cons_left_iff.mp h
      obtain ⟨p, hp, hvalue⟩ := hcells v List.mem_cons_self
      have htail := ih (fun e he => hcells e (List.mem_cons_of_mem _ he)) hrest
      simp only at hname
      subst hname
      simp only [List.filterMap_cons, hp, Option.map_some, htail, hvalue]
    | _ => exact ih hcells h

end Iteration

namespace Fitting

variable {shapes : Named Shape} {values : Named Value}

/-- Values of properties have the names of the properties. -/
lemma names_eq (h : Fitting shapes values) : Named.names values = Named.names shapes := by
  induction h with
  | nil => rfl
  | cons hfirst _ ih => exact congrArg₂ List.cons hfirst.1.symm ih

/-- Each value is that of a property, and of its shape. -/
lemma exists_shape (h : Fitting shapes values) {e : String × Value} (he : e ∈ values) :
    ∃ shape, (e.1, shape) ∈ shapes ∧ e.2.OfShape shape := by
  induction h with
  | nil => contradiction
  | @cons s v _ _ hfirst _ ih =>
    rcases List.mem_cons.mp he with rfl | he
    · exact ⟨s.2, hfirst.1 ▸ List.mem_cons_self, hfirst.2⟩
    · obtain ⟨shape, hmem, hshape⟩ := ih he
      exact ⟨shape, List.mem_cons_of_mem _ hmem, hshape⟩

end Fitting

/-- A unit without metadata that has the properties of its type is given the properties and the
metadata of a blueprint of the type. -/
lemma Root.restoreNode_entries {b : Blueprint} {n : Node}
    (hshaped : n.iteration.cells.Shaped n.iteration.members.shapes)
    (hdistinct : n.iteration.members.Distinct)
    (hproperties : Fitting n.iteration.members.shapes b.properties)
    (hsorted : Keyed.Sorted b.metadata) (hnone : n.metadata = []) :
    (restoreNode b.entries n).iteration.members = n.iteration.members ∧
      (restoreNode b.entries n).iteration.properties = b.properties ∧
      (restoreNode b.entries n).metadata = b.metadata := by
  have hnames : (b.properties.map Prod.fst).Nodup := by
    have heq := hproperties.names_eq
    unfold Named.names at heq
    rw [heq]
    exact hdistinct.nodup_shapes
  have hentries : ∀ e, e ∈ Keyed.ofList b.properties ↔ e ∈ b.properties := by
    intro e
    exact ⟨Keyed.mem_of_mem_ofList,
      fun he => Keyed.mem_of_find? ((Keyed.find?_ofList hnames).mpr he)⟩
  have hvalues : ∀ e ∈ Keyed.ofList b.properties, ∃ p,
      n.iteration.cells.property? e.1 = some p ∧ e.2.OfShape p.shape := by
    intro e he
    obtain ⟨shape, hmem, hshape⟩ := hproperties.exists_shape ((hentries e).mp he)
    obtain ⟨p, hp, rfl⟩ := hshaped e.1 shape hmem
    exact ⟨p, hp, hshape⟩
  obtain ⟨hmembers, hgiven, -⟩ :=
    Iteration.foldl_restoreProperty (Keyed.sorted_ofList b.properties).nodup hvalues
  unfold restoreNode Node.mergeMetadata
  simp only [b.mapAt?_properties, b.mapAt?_meta, Option.getD_some, hnone]
  refine ⟨hmembers, ?_, hsorted.ofList⟩
  refine Iteration.properties_eq ?_ fun e he => hgiven e ((hentries e).mpr he)
  rw [hmembers]
  exact hproperties

namespace Root

variable {r s t : Root} {h k q c : Handle} {n m : Node} {a above : Path} {v : Value}

/-! ## Units that look as snapshots say -/

/-- Units are left alone, but for the one at an address, and more may have come. -/
structure Spares (a : Path) (r s : Root) : Prop where
  catalog : s.catalog = r.catalog
  units : ∀ k m, r.units.get? k = some m → m.address ≠ a → s.units.get? k = some m

namespace Spares

/-- Nothing is changed. -/
lemma refl (a : Path) (r : Root) : Spares a r r := ⟨rfl, fun _ _ hm _ => hm⟩

/-- One change after another. -/
lemma trans (h : Spares a r s) (h' : Spares a s t) : Spares a r t :=
  ⟨h'.catalog.trans h.catalog, fun k m hm hne => h'.units k m (h.units k m hm hne) hne⟩

/-- The unit at the address comes to another state. -/
lemma set (hn : r.units.get? h = some n) (hm : n.address = a) :
    Spares a r { r with units := r.units.set h m } := by
  refine ⟨rfl, fun k m' hm' hne => ?_⟩
  simp only [Arena.get?_set hn]
  by_cases hk : k = h
  · rw [hk, hn] at hm'
    cases hm'
    exact absurd hm hne
  · rw [if_neg hk]
    exact hm'

end Spares

/-- Whether a unit looks as a snapshot says. -/
structure Shows (r : Root) (n : Node) (v : Value) : Prop where
  snapshot : ∀ fuel, v.depth ≤ fuel → r.snapshotNode fuel n = v
  port : ∀ port, n.iteration.portDirection? port = r.catalog.portDirection? v port

/-- Whether units below an address look as snapshots say. -/
def ShowAll (r : Root) (a : Path) (kids : Named Handle) (values : Named Value) : Prop :=
  List.Forall₂ (fun e f => e.1 = f.1 ∧ ∃ (i : Id) (n : Node), i.text = e.1 ∧
    r.units.get? e.2 = some n ∧ n.address = a.append i ∧ r.Shows n f.2) kids values

/-- What is not above a unit has nothing to do with its snapshot. -/
lemma Spares.snapshotNode (h : Spares a r s) (hr : r.IsTree) {i : Id} (fuel : ℕ)
    (hn : r.units.get? k = some n) (hwithin : n.address.Within (a.append i)) :
    s.snapshotNode fuel n = r.snapshotNode fuel n := by
  induction fuel generalizing k n with
  | zero => rfl
  | succ fuel ih =>
    have hchildren : s.childValues fuel n = r.childValues fuel n := by
      refine List.filterMap_congr fun e he => ?_
      obtain ⟨c, j, hc, -, haddress⟩ := hr.child hn he
      have hbelow : c.address.Within (a.append i) := by
        rw [haddress]
        exact (Path.within_append _ j).trans hwithin
      have hne : c.address ≠ a := by
        intro heq
        exact Path.not_within_append a i (heq ▸ hbelow)
      simp only [hc, h.units _ c hc hne, Option.map_some, ih hc hbelow]
    rw [snapshotNode_succ, snapshotNode_succ, blueprint, blueprint, hchildren]

/-- What is not above units has nothing to do with what they look like. -/
lemma Spares.showAll (h : Spares a r s) (hr : r.IsTree) {kids : Named Handle}
    {values : Named Value} (hkids : r.ShowAll a kids values) : s.ShowAll a kids values := by
  refine List.Forall₂.imp ?_ hkids
  rintro e f ⟨hname, i, n, hi, hn, haddress, hshows⟩
  have hwithin : n.address.Within (a.append i) := haddress ▸ .refl _
  have hne : n.address ≠ a := by
    intro heq
    exact Path.not_within_append a i (heq ▸ hwithin)
  refine ⟨hname, i, n, hi, h.units _ n hn hne, haddress, fun fuel hfuel => ?_, fun port => ?_⟩
  · rw [h.snapshotNode hr fuel hn hwithin]
    exact hshows.snapshot fuel hfuel
  · rw [h.catalog]
    exact hshows.port port

namespace ShowAll

variable {kids : Named Handle} {values : Named Value}

/-- Units have the names of their snapshots. -/
lemma names_eq (h : r.ShowAll a kids values) : Named.names kids = Named.names values := by
  induction h with
  | nil => rfl
  | cons hfirst _ ih => exact congrArg₂ List.cons hfirst.1 ih

/-- The snapshots of the units, where there are enough levels. -/
lemma childValues_eq {fuel : ℕ} (h : r.ShowAll a n.children values)
    (hfuel : ∀ e ∈ values, e.2.depth ≤ fuel) : r.childValues fuel n = values := by
  unfold childValues
  generalize n.children = kids at h
  induction h with
  | nil => rfl
  | @cons e f kids values hfirst _ ih =>
    obtain ⟨hname, i, m, -, hm, -, hshows⟩ := hfirst
    have hsnapshot := hshows.snapshot fuel (hfuel f List.mem_cons_self)
    have hrest := ih fun e he => hfuel e (List.mem_cons_of_mem _ he)
    simp only [List.filterMap_cons, hm, Option.map_some, hsnapshot, hname, hrest]

/-- A unit that is found under the name of a snapshot looks as it says. -/
lemma exists_find? (h : r.ShowAll a kids values) (hnames : (Named.names values).Nodup)
    {name : String} (hv : (name, v) ∈ values) :
    ∃ k m, Named.find? name kids = some k ∧ r.units.get? k = some m ∧ r.Shows m v := by
  have hnodup : (Named.names kids).Nodup := h.names_eq ▸ hnames
  obtain ⟨e, he, hname, i, m, -, hm, -, hshows⟩ : ∃ e ∈ kids, e.1 = name ∧ ∃ (i : Id) (m : Node),
      i.text = e.1 ∧ r.units.get? e.2 = some m ∧ m.address = a.append i ∧ r.Shows m v := by
    clear hnames hnodup
    induction h with
    | nil => contradiction
    | @cons e f kids values hfirst _ ih =>
      rcases List.mem_cons.mp hv with rfl | hv
      · exact ⟨e, List.mem_cons_self, hfirst⟩
      · obtain ⟨e', he', hrest⟩ := ih hv
        exact ⟨e', List.mem_cons_of_mem _ he', hrest⟩
  subst hname
  exact ⟨e.2, m, Named.find?_of_mem hnodup he, hm, hshows⟩

end ShowAll

/-! ## Making connections -/

/-- A connection that comes after all others is put behind them. -/
lemma insertSorted_of_ordered {d : Connection} {l : List Connection}
    (h : Connection.Ordered (l ++ [d])) : d.insertSorted l = l ++ [d] := by
  induction l with
  | nil => rfl
  | cons e rest ih =>
    obtain ⟨hfirst, hrest⟩ := List.pairwise_cons.mp h
    have hlt : e.fields < d.fields := hfirst d (List.mem_append_right _ List.mem_cons_self)
    have hge : ¬d.compare e = .lt := fun hd => hlt.asymm (compareIds_eq_lt.mp hd)
    rw [Connection.insertSorted, if_neg hge, ih hrest]
    rfl

/-- A connection that leads from an output to an input is made behind those that are before it. -/
lemma connect_value {values : Named Value} (hr : r.IsTree) (hn : r.units.get? c = some n)
    (hcontainer : n.kind.isContainer = true) (hkids : r.ShowAll n.address n.children values)
    (hnames : (Named.names values).Nodup) {d : Connection}
    (hordered : Connection.Ordered (n.connections ++ [d]))
    (hsource : ∃ v, (d.source, v) ∈ values ∧
      r.catalog.portDirection? v d.sourcePort = some .output)
    (htarget : ∃ v, (d.target, v) ∈ values ∧
      r.catalog.portDirection? v d.targetPort = some .input) :
    r.connect n.address d = (.ok (), { r with
      units := r.units.set c { n with connections := n.connections ++ [d] } }) := by
  obtain ⟨v, hv, hsource⟩ := hsource
  obtain ⟨w, hw, htarget⟩ := htarget
  have hnew : d ∉ n.connections := by
    intro hmem
    have hlt := (List.pairwise_append.mp hordered).2.2 d hmem d List.mem_cons_self
    exact lt_irrefl _ hlt
  have hcheck : r.checkConnection n.address d =
      .ok (c, { n with connections := n.connections ++ [d] }) := by
    refine checkConnection_eq_ok.mpr ⟨n, (handle?_eq_some hr.skeleton.index).mpr ⟨n, hn, rfl⟩,
      hn, hcontainer, checkEnd_eq_ok.mpr ?_, checkEnd_eq_ok.mpr ?_, hnew, ?_⟩
    · obtain ⟨k, m, hfind, hm, hshows⟩ := hkids.exists_find? hnames hv
      exact ⟨k, m, hfind, hm, (hshows.port _).trans hsource⟩
    · obtain ⟨k, m, hfind, hm, hshows⟩ := hkids.exists_find? hnames hw
      exact ⟨k, m, hfind, hm, (hshows.port _).trans htarget⟩
    · rw [insertSorted_of_ordered hordered]
  unfold connect
  simp only [hcheck]

/-- Connections that are in order are made one after the other, where each leads from an output to
an input. -/
lemma restoreConnections_value {values : Named Value} (hr : r.IsTree)
    (hn : r.units.get? c = some n) (rest : List Connection)
    (hcontainer : rest ≠ [] → n.kind.isContainer = true)
    (hkids : r.ShowAll n.address n.children values) (hnames : (Named.names values).Nodup)
    (hordered : Connection.Ordered (n.connections ++ rest))
    (hends : ∀ d ∈ rest,
      (∃ v, (d.source, v) ∈ values ∧ r.catalog.portDirection? v d.sourcePort = some .output) ∧
        ∃ v, (d.target, v) ∈ values ∧ r.catalog.portDirection? v d.targetPort = some .input) :
    ∃ s, restoreConnections n.address (rest.map Connection.value) r = (.ok (), s) ∧ s.IsTree ∧
      Spares n.address r s ∧
      s.units.get? c = some { n with connections := n.connections ++ rest } := by
  induction rest generalizing r n with
  | nil =>
    refine ⟨r, rfl, hr, .refl _ r, ?_⟩
    rw [List.append_nil]
    exact hn
  | cons d rest ih =>
    have hkind : n.kind.isContainer = true := hcontainer (List.cons_ne_nil d rest)
    have hfront : Connection.Ordered (n.connections ++ [d]) := by
      refine List.Pairwise.sublist ?_ hordered
      exact (List.Sublist.refl _).append (List.singleton_sublist.mpr List.mem_cons_self)
    obtain ⟨hsource, htarget⟩ := hends d List.mem_cons_self
    have hconnect := connect_value hr hn hkind hkids hnames hfront hsource htarget
    have hset : ({ r with
        units := r.units.set c { n with connections := n.connections ++ [d] } } : Root).units.get?
          c = some { n with connections := n.connections ++ [d] } :=
      (Arena.get?_set hn _ c).trans (if_pos rfl)
    have htree := hr.connect n.address d
    rw [hconnect] at htree
    have hspares : Spares n.address r { r with
        units := r.units.set c { n with connections := n.connections ++ [d] } } :=
      .set hn rfl
    obtain ⟨s, hs, hstree, hrest, hc⟩ := ih htree hset (fun _ => hkind)
      (hspares.showAll hr hkids) (by rw [List.append_assoc]; exact hordered) fun e he =>
        hends e (List.mem_cons_of_mem _ he)
    refine ⟨s, ?_, hstree, hspares.trans hrest, ?_⟩
    · rw [List.map_cons, restoreConnections, d.ofArgs_value]
      simp only [hconnect]
      exact hs
    · rw [hc, List.append_assoc]
      rfl

/-! ## Building -/

/-- What it is that something built a child of a unit from a snapshot. -/
structure Made (r s : Root) (n : Node) (q : Handle) (i : Id) (v : Value) : Prop where
  tree : s.IsTree
  spares : Spares n.address r s
  child : ∃ c m, s.units.get? q = some (n.insertChild i.text c) ∧ s.units.get? c = some m ∧
    m.address = n.address.append i ∧ s.Shows m v

/-- Whether a snapshot is built wherever there is a place for a unit, if there are enough levels. -/
def Builds (cat : Catalog) (v : Value) : Prop :=
  ∀ {r : Root} {q : Handle} {n : Node} {i : Id} {fuel : ℕ}, r.IsTree → r.catalog = cat →
    r.units.get? q = some n → n.kind.isContainer = true → Named.find? i.text n.children = none →
    v.depth ≤ fuel →
    ∃ s, buildWith (restoreWithin fuel) n.address i.text v r = (.ok (n.address.append i), s) ∧
      Made r s n q i v

/-- Children are built one after the other. -/
lemma forEntries_buildEntry {done rest : Named Value} {fuel : ℕ} (hr : r.IsTree)
    (hn : r.units.get? c = some n) (hcontainer : rest ≠ [] → n.kind.isContainer = true)
    (hkids : r.ShowAll n.address n.children done)
    (hnames : (Named.names (done ++ rest)).Nodup)
    (hids : ∀ e ∈ rest, isId e.1.toList = true)
    (hbuilds : ∀ e ∈ rest, Builds r.catalog e.2 ∧ e.2.depth ≤ fuel) :
    ∃ s kids, forEntries (buildEntry (restoreWithin fuel) n.address) rest r = (.ok (), s) ∧
      s.IsTree ∧ Spares n.address r s ∧ s.units.get? c = some { n with children := kids } ∧
      s.ShowAll n.address kids (done ++ rest) := by
  induction rest generalizing r n done with
  | nil =>
    refine ⟨r, n.children, rfl, hr, .refl _ r, hn, ?_⟩
    rw [List.append_nil]
    exact hkids
  | cons e rest ih =>
    obtain ⟨id, v⟩ := e
    obtain ⟨hbuild, hdepth⟩ := hbuilds (id, v) List.mem_cons_self
    obtain ⟨i, hi⟩ : ∃ i : Id, i.text = id := ⟨⟨id, hids (id, v) List.mem_cons_self⟩, rfl⟩
    subst hi
    have hfree : Named.find? i.text n.children = none := by
      by_contra hne
      obtain ⟨k, hk⟩ := Option.ne_none_iff_exists'.mp hne
      have hmem : i.text ∈ Named.names n.children := List.mem_map_of_mem (Named.mem_of_find? hk)
      rw [hkids.names_eq] at hmem
      unfold Named.names at hnames
      rw [List.map_append, List.map_cons] at hnames
      exact (List.disjoint_of_nodup_append hnames) hmem List.mem_cons_self
    obtain ⟨t, ht, hmade⟩ :=
      hbuild hr rfl hn (hcontainer (List.cons_ne_nil _ _)) hfree hdepth
    obtain ⟨k, m, hq, hm, haddress, hshows⟩ := hmade.child
    have hkids' : t.ShowAll n.address (n.insertChild i.text k).children (done ++ [(i.text, v)]) :=
      List.rel_append (hmade.spares.showAll hr hkids)
        (.cons ⟨rfl, i, m, rfl, hm, haddress, hshows⟩ .nil)
    obtain ⟨s, kids, hs, hstree, hspares, hc, hall⟩ := ih
      hmade.tree hq (fun _ => hcontainer (List.cons_ne_nil _ _)) hkids'
      (by rw [List.append_assoc]; exact hnames)
      (fun e he => hids e (List.mem_cons_of_mem _ he))
      fun e he => hmade.spares.catalog ▸ hbuilds e (List.mem_cons_of_mem _ he)
    refine ⟨s, kids, ?_, hstree, hmade.spares.trans hspares, hc, ?_⟩
    · have hentry : buildEntry (restoreWithin fuel) n.address i.text v r = (.ok (), t) := by
        unfold buildEntry
        simp only [ht]
      rw [forEntries]
      simp only [hentry]
      exact hs
    · rw [List.append_assoc] at hall
      exact hall

/-- What a unit of a type is when it has just been added. -/
structure Fresh (m : Node) (address : Path) (typeName : String) (ut : UnitType) (ms : Members) :
    Prop where
  address : m.address = address
  typeName : m.typeName = typeName
  container : m.kind.isContainer = ut.container
  members : m.iteration.members = ms
  shaped : m.iteration.cells.Shaped ms.shapes
  children : m.children = []
  connections : m.connections = []
  metadata : m.metadata = []

/-- A unit of a type is added below a container, if it has a name that is free. -/
lemma exists_addChild {i : Id} {typeName : String} {ut : UnitType} {ms : Members}
    (hr : r.IsTree) (hn : r.units.get? q = some n) (hcontainer : n.kind.isContainer = true)
    (hfree : Named.find? i.text n.children = none) (htype : r.catalog.find? typeName = .ok ut)
    (hms : Members.ofBehavior ut.behavior = .ok ms) :
    ∃ s c m, r.addChild n.address i.text typeName = (.ok (n.address.append i), s) ∧ s.IsTree ∧
      Spares n.address r s ∧ s.units.get? q = some (n.insertChild i.text c) ∧
      r.units.get? c = none ∧ s.units.get? c = some m ∧
      Fresh m (n.address.append i) typeName ut ms := by
  obtain ⟨j, hj, rfl⟩ : ∃ j, Iteration.ofBehavior ut.behavior = .ok j ∧ j.members = ms := by
    unfold Iteration.ofBehavior
    rw [hms]
    exact ⟨_, rfl, rfl⟩
  have hcheck : r.checkUnit n.address i.text ut.behavior = .ok (q, n.address.append i, j) :=
    checkUnit_eq_ok.mpr ⟨n, i, (handle?_eq_some hr.skeleton.index).mpr ⟨n, hn, rfl⟩, hn,
      hcontainer, hfree, rfl, rfl, hj⟩
  obtain ⟨s, hs⟩ : ∃ s, r.addUnit n.address i.text typeName
      (if ut.container then .container else .component) ut.behavior =
        (.ok (n.address.append i), s) := by
    unfold addUnit
    simp only [hcheck]
    exact ⟨_, rfl⟩
  have hadd : r.addChild n.address i.text typeName = (.ok (n.address.append i), s) := by
    unfold addChild
    simp only [htype]
    exact hs
  obtain ⟨i', q', c, n', j', htext, -, hsame, hgrafted, hj', hbegins⟩ := hr.grafted hs
  cases Id.eq_of_text htext
  rw [hj] at hj'
  cases hj'
  have hq : q' = q := hr.skeleton.index.eq_of_address (place_skeleton hgrafted.node)
    (place_skeleton hn) hsame
  subst hq
  have hnode := hgrafted.node
  rw [hn] at hnode
  cases hnode
  obtain ⟨m, hm, haddress⟩ := hgrafted.child
  obtain ⟨_, _, m', hm', hchildren, hconnections, hmetadata, hfollows⟩ := hbegins.unit
  rw [hm] at hm'
  cases hm'
  have hspares : Spares n.address r s := by
    refine ⟨hgrafted.catalog, fun k m' hm' hne => ?_⟩
    rw [hgrafted.others k ?_ ?_]
    · exact hm'
    · rintro rfl
      rw [hn] at hm'
      cases hm'
      exact hne rfl
    · rintro rfl
      rw [hgrafted.new] at hm'
      contradiction
  have hshaped : j.cells.Shaped j.members.shapes := Iteration.shaped_ofBehavior hj
  have hkind : m.kind.isContainer = ut.container := by
    rw [hfollows.kind]
    cases ut.container <;> rfl
  exact ⟨s, c, m, hadd, hr.addChild hadd, hspares, hgrafted.extended, hgrafted.new, hm, haddress,
    hfollows.typeName, hkind, hfollows.members, hfollows.cells.shaped hshaped, hchildren,
    hconnections, hmetadata⟩

/-- Children are less deep than the unit. -/
lemma depth_le_of_child {b : Blueprint} {ut : UnitType} {ms : Members} {cat : Catalog} {fuel : ℕ}
    (hb : b.Sound cat ut ms) (hfuel : b.value.depth ≤ fuel + 1) {e : String × Value}
    (he : e ∈ b.children) : e.2.depth ≤ fuel := by
  have hlt := b.depth_child (hb.isContainer (.inl (List.ne_nil_of_mem he))) hb.names he
  omega

/-- A unit of a type that has all that a blueprint of the type says looks as the snapshot says. -/
lemma shows_value {b : Blueprint} {ut : UnitType} (hb : b.Sound r.catalog ut n.iteration.members)
    (htype : n.typeName = b.typeName) (hcontainer : n.kind.isContainer = b.container)
    (hproperties : n.iteration.properties = b.properties) (hmetadata : n.metadata = b.metadata)
    (hkids : r.ShowAll a n.children b.children) (hconnections : n.connections = b.connections) :
    r.Shows n b.value where
  snapshot f hf := by
    obtain ⟨f, rfl⟩ := b.exists_succ hf
    have hchildren : r.childValues f n = b.children :=
      hkids.childValues_eq fun e he => depth_le_of_child hb hf he
    rw [snapshotNode_succ, blueprint, hchildren]
    simp only [htype, hcontainer, hproperties, hmetadata, hconnections]
  port port := by
    rw [hb.portDirection?]
    rfl

/-- A unit that was just added is given all that a blueprint of its type says, if the children can
be built. -/
lemma restoreWithin_value {b : Blueprint} {ut : UnitType} {ms : Members} {fuel : ℕ}
    (hb : b.Sound r.catalog ut ms) (hbuilds : ∀ e ∈ b.children, Builds r.catalog e.2)
    (hr : r.IsTree) (hm : r.units.get? c = some m) (hfresh : Fresh m a b.typeName ut ms)
    (hfuel : b.value.depth ≤ fuel) :
    ∃ s n, restoreWithin fuel a b.value r = (.ok (), s) ∧ s.IsTree ∧ Spares a r s ∧
      s.units.get? c = some n ∧ n.address = a ∧ s.Shows n b.value := by
  obtain ⟨fuel, rfl⟩ := b.exists_succ hfuel
  obtain ⟨hmembers, hproperties, hmetadata⟩ := restoreNode_entries (b := b) (n := m)
    (hfresh.members.symm ▸ hfresh.shaped)
    (hfresh.members.symm ▸ Members.distinct_ofBehavior hb.members)
    (hfresh.members.symm ▸ hb.properties) hb.metadata hfresh.metadata
  -- The unit with its properties and metadata.
  generalize hrestored : restoreNode b.entries m = n at hmembers hproperties hmetadata
  have haddress : n.address = a := hrestored ▸ hfresh.address
  subst haddress
  have hcontainer : n.kind.isContainer = b.container := by
    rw [← hrestored, hb.container]
    exact hfresh.container
  have hnone : n.children = [] := hrestored ▸ hfresh.children
  have hbare : n.connections = [] := hrestored ▸ hfresh.connections
  have hmodify : r.units.modify c (restoreNode b.entries) = r.units.set c n := by
    rw [Arena.modify, hm, ← hrestored]
  have htree : ({ r with units := r.units.set c n } : Root).IsTree :=
    hmodify ▸ hr.keeps (keeps_modify r c (Edit.restore b.entries).retouch.place)
  have hspares : Spares n.address r { r with units := r.units.set c n } := .set hm hfresh.address
  have hset : ({ r with units := r.units.set c n } : Root).units.get? c = some n :=
    (Arena.get?_set hm n c).trans (if_pos rfl)
  -- The unit with its children.
  have hnil : ({ r with units := r.units.set c n } : Root).ShowAll n.address n.children [] := by
    rw [hnone]
    exact .nil
  obtain ⟨s, kids, hs, hstree, hspares', hc, hall⟩ := forEntries_buildEntry htree hset
    (fun hne => hcontainer.trans (hb.isContainer (.inl hne))) hnil hb.names hb.ids
    fun e he => ⟨hbuilds e he, depth_le_of_child hb hfuel he⟩
  have hcatalog : s.catalog = r.catalog := hspares'.catalog
  -- The unit with its connections.
  obtain ⟨t, ht, httree, hspares'', hc'⟩ := restoreConnections_value hstree hc b.connections
    (fun hne => hcontainer.trans (hb.isContainer (.inr hne))) hall hb.names
    (by rw [hbare]; exact hb.ordered) (by rw [hcatalog]; exact hb.ends)
  simp only [hbare, List.nil_append] at hc'
  refine ⟨t, { n with children := kids, connections := b.connections }, ?_, httree,
    (hspares.trans hspares').trans hspares'', hc', rfl, ?_⟩
  · have hlookup : r.lookup n.address = .ok c := by
      rw [lookup, (handle?_eq_some hr.skeleton.index).mpr ⟨m, hm, hfresh.address⟩]
    rw [restoreWithin.eq_def]
    simp only [hlookup, Blueprint.value, hmodify,
      b.childSnapshots_entries hb.names fun hleaf => (hb.leaf hleaf).1,
      b.connectionValues_entries fun hleaf => (hb.leaf hleaf).2, hs]
    exact ht
  · have hsound : b.Sound t.catalog ut n.iteration.members := by
      rw [hspares''.catalog, hcatalog, hmembers, hfresh.members]
      exact hb
    exact shows_value hsound (hrestored ▸ hfresh.typeName) hcontainer hproperties hmetadata
      (hspares''.showAll hstree hall) rfl

/-- A buildable snapshot is built wherever there is a place for a unit. -/
lemma builds_of_buildable {cat : Catalog} (hv : Buildable cat v) : Builds cat v := by
  induction hv with
  | @unit b ut ms hb _ ih =>
    intro r q n i fuel hr hcat hn hcontainer hfree hfuel
    subst hcat
    obtain ⟨s, c, m, hadd, hs, hspares, hq, hnew, hm, hfresh⟩ :=
      exists_addChild hr hn hcontainer hfree hb.type hb.members
    obtain ⟨t, m', ht, httree, hspares', hc, haddress, hshows⟩ :=
      restoreWithin_value (hspares.catalog ▸ hb) (hspares.catalog ▸ ih) hs hm hfresh hfuel
    -- No unit was at the address of the new one.
    have hne : ∀ k n', r.units.get? k = some n' → n'.address ≠ n.address →
        n'.address ≠ n.address.append i := by
      intro k n' hn' hne heq
      have hk := hspares.units k n' hn' hne
      have hsame : k = c := hs.skeleton.index.eq_of_address (place_skeleton hk)
        (place_skeleton hm) (heq.trans hfresh.address.symm)
      rw [hsame, hnew] at hn'
      contradiction
    refine ⟨t, ?_, httree, ⟨hspares'.catalog.trans hspares.catalog, fun k n' hn' hk => ?_⟩,
      c, m', ?_, hc, haddress, hshows⟩
    · unfold buildWith
      rw [b.snapshotType_value]
      simp only [hadd, ht]
    · exact hspares'.units k n' (hspares.units k n' hn' hk) (hne k n' hn' hk)
    · refine hspares'.units q _ hq fun heq => ?_
      have hself : n.address = n.address.append i := heq
      exact Path.not_within_append n.address i (hself ▸ .refl _)

/-! ## The round trip -/

/-- A unit that looks as a snapshot says has that snapshot. -/
lemma IsTree.snapshot_eq (hr : r.IsTree) (hn : r.units.get? h = some n) (hshows : r.Shows n v) :
    r.snapshot n.address = .ok v := by
  have hlookup : r.lookupNode n.address = .ok (h, n) :=
    lookupNode_eq_ok.mpr ⟨(handle?_eq_some hr.skeleton.index).mpr ⟨n, hn, rfl⟩, hn⟩
  have hdepth : 0 < n.address.depth := Nat.succ_pos _
  have hlevels : r.snapshotNode r.units.capacity n =
      r.snapshotNode (max v.depth r.units.capacity) n :=
    hr.snapshotNode_eq hn (by omega) (by omega)
  have hsame := hlevels.trans (hshows.snapshot _ (le_max_left ..))
  rw [snapshot, hlookup]
  exact congrArg Except.ok hsame

/-- The text of a snapshot is built as the snapshot, if its document can be read back. -/
lemma buildText_stored (r : Root) (above : Path) (id : String) (hsorted : v.Sorted)
    (hread : Preserves.ofText? v.toPreserves.render = some v.toPreserves) :
    r.buildText above id v.stored = r.build above id v := by
  have hstored : Value.ofStored? v.stored = .ok v := Value.ofStoredBy?_storedBy hsorted hread
  unfold buildText
  rw [hstored]

/-- Snapshots can be built again.  At an address where all units are genuine and of types that the
catalog still has, a snapshot can be taken; it can be built as a new child of any container with any
identifier that is free there; and the snapshot of the new child is the same.  This also holds for
the texts of snapshots, if documents are read back as they were written. -/
theorem snapshot_round_trip {r s : Root} (h : Reachable r) (hs : Later r s) {p above : Path}
    {i : Id} {q : Handle} {m : Node} (hp : s.contains p = true) (hunits : s.Catalogued p)
    (habove : s.lookupContainer above = .ok (q, m)) (hfree : m.child? i.text = none) :
    ∃ v, s.snapshot p = .ok v ∧
      ((s.build above i.text v).1 = .ok (above.append i) ∧
        (s.build above i.text v).2.snapshot (above.append i) = .ok v) ∧
      (v.Sorted → Preserves.ofText? v.toPreserves.render = some v.toPreserves →
        ∃ text, s.snapshotText p = .ok text ∧
          (s.buildText above i.text text).1 = .ok (above.append i) ∧
          (s.buildText above i.text text).2.snapshot (above.append i) = .ok v ∧
          (s.buildText above i.text text).2.snapshotText (above.append i) = .ok text) := by
  have hstree : s.IsTree := h.isTree.later hs
  obtain ⟨k, hk⟩ := Option.isSome_iff_exists.mp hp
  obtain ⟨n, hn, hat⟩ := (handle?_eq_some hstree.skeleton.index).mp hk
  have hsnapshot : s.snapshot p = .ok (s.snapshotNode s.units.capacity n) := by
    rw [snapshot, lookupNode_eq_ok.mpr ⟨hk, hn⟩]
    rfl
  have hdepth : 0 < n.address.depth := Nat.succ_pos _
  have hbuildable : Buildable s.catalog (s.snapshotNode s.units.capacity n) :=
    buildable_snapshotNode hstree (h.ordered.later h.isTree hs) hunits _ hn (hat ▸ .refl _)
      (by omega)
  generalize s.snapshotNode s.units.capacity n = v at hsnapshot hbuildable
  obtain ⟨hq, hm, hcontainer⟩ := lookupContainer_eq_ok.mp habove
  have haddress : m.address = above := address_of_handle hstree.skeleton.index hq hm
  subst haddress
  obtain ⟨t, ht, hmade⟩ := builds_of_buildable hbuildable hstree rfl hm hcontainer hfree le_rfl
  obtain ⟨c, m', -, hm', hbelow, hshows⟩ := hmade.child
  have hagain : t.snapshot (m.address.append i) = .ok v := by
    rw [← hbelow]
    exact hmade.tree.snapshot_eq hm' hshows
  have hbuild : s.build m.address i.text v = (.ok (m.address.append i), t) := ht
  refine ⟨v, hsnapshot, ?_, fun hsorted hread => ⟨v.stored, ?_, ?_⟩⟩
  · rw [hbuild]
    exact ⟨rfl, hagain⟩
  · rw [snapshotText, hsnapshot]
    rfl
  · rw [buildText_stored s _ _ hsorted hread, hbuild]
    refine ⟨rfl, hagain, ?_⟩
    rw [snapshotText, hagain]
    rfl

/-- Below the top of a new root there are no units that could fail to be genuine. -/
lemma catalogued_of_new {config : Config} {catalog : Catalog}
    (h : Root.new config catalog = .ok r) (hp : a.below ≠ []) : r.Catalogued a := by
  intro k n hn hwithin
  have hempty : ({} : Arena Node).Valid := ⟨List.nodup_nil, by simp⟩
  obtain ⟨address, hbelow, rfl⟩ := new_eq_ok h
  simp only [Arena.get?_insert_snd hempty] at hn
  split at hn
  · cases hn
    have hlength := hwithin.depth_le
    unfold Path.depth Path.ids at hlength
    simp only [hbelow, List.length_cons, List.length_nil] at hlength
    exact absurd (List.length_eq_zero_iff.mp (by omega)) hp
  · contradiction

/-- Genuine units stay so when another one is added, which is genuine too. -/
lemma Catalogued.addChild (hr₀ : Reachable r) (hr : Later r s) (hunits : s.Catalogued a)
    {id typeName : String} {address : Path} {ut : UnitType}
    (hfind : s.catalog.find? typeName = .ok ut) (htyped : ut.behavior.Typed)
    (hadd : s.addChild above id typeName = (.ok address, t)) : t.Catalogued a := by
  intro k n' hn' hwithin
  have hs : s.IsTree := hr₀.isTree.later hr
  have ht : t.IsTree := hs.addChild hadd
  obtain ⟨ut', hfind', hunit⟩ := addChild_eq_ok hadd
  rw [hfind] at hfind'
  cases hfind'
  obtain ⟨i, q, c, n, j, -, rfl, habove, hgrafted, -, hbegins⟩ := hs.grafted hunit
  have hstride : Stride s t := by
    have hkind : (if ut.container then NodeKind.container else .component) ≠ .root := by
      cases ut.container <;> simp
    have hdeed : Deed s (s.addUnit above id typeName _ ut.behavior).2 :=
      .add above id typeName hkind ut.behavior
    rw [hunit] at hdeed
    exact .deed hdeed
  have hkept : ∀ n, s.units.get? k = some n → n.address = n'.address →
      n'.typeName = n.typeName → n'.iteration.number = n.iteration.number →
      ∃ t', t.Genuine k t' ∧ t.catalog.find? n'.typeName = .ok t' ∧ t'.behavior.Typed := by
    intro n hn haddress htype hnumber
    obtain ⟨t', hgenuine, hfound, htyped'⟩ := hunits k n hn (haddress ▸ hwithin)
    refine ⟨t', .kept hgenuine hstride hn hn' hnumber, ?_, htyped'⟩
    rw [hgrafted.catalog, htype]
    exact hfound
  by_cases hk : k = q
  · rw [hk, hgrafted.extended] at hn'
    cases hn'
    exact hkept n (hk ▸ hgrafted.node) rfl rfl rfl
  · by_cases hkc : k = c
    · subst hkc
      obtain ⟨_, _, m', hm', -, -, -, hfollows⟩ := hbegins.unit
      rw [hn'] at hm'
      cases hm'
      obtain ⟨m', hm', haddress⟩ := hgrafted.child
      rw [hn'] at hm'
      cases hm'
      refine ⟨ut, .added hr₀ hr hfind hadd ?_, ?_, htyped⟩
      · exact (handle?_eq_some ht.skeleton.index).mpr ⟨n', hn', haddress.trans (habove ▸ rfl)⟩
      · rw [hgrafted.catalog, hfollows.typeName]
        exact hfind
    · rw [hgrafted.others k hk hkc] at hn'
      exact hkept n' hn' rfl rfl rfl

/-- A root to which a unit has been added comes later. -/
lemma later_addChild {id typeName : String} {address : Path}
    (h : r.addChild above id typeName = (.ok address, s)) : Later r s := by
  have hlater := (chores_addChild r above id typeName).deeds.later
  rw [h] at hlater
  exact hlater

/-- Genuine units stay so as long as no behavior is put in place, if the catalog is the same in the
end. -/
lemma Catalogued.later (hr : r.IsTree) (hunits : r.Catalogued a) (h : Later r s)
    (hinstalled : s.installed.length = r.installed.length) (hcatalog : s.catalog = r.catalog) :
    s.Catalogued a := by
  intro k m hm hwithin
  obtain ⟨n, hn, hfollows, hgenuine⟩ := hr.follows_later h hinstalled hm
  rw [hfollows.address] at hwithin
  obtain ⟨t, ht, hfind, htyped⟩ := hunits k n hn hwithin
  refine ⟨t, hgenuine t ht, ?_, htyped⟩
  rw [hcatalog, hfollows.typeName]
  exact hfind

/-- A type of leaves with a property and an output port. -/
def lampType : UnitType :=
  ⟨[.control "level" (.property .int (.int 3)), .port "light" .output], false⟩

/-- A type of leaves with an input port. -/
def eyeType : UnitType := ⟨[.port "sight" (.input fun values => .done (.ok values))], false⟩

/-- A catalog with these types. -/
def hallCatalog : Catalog := (Catalog.base.register "lamp" lampType).register "eye" eyeType

/-- The name of the lamp can be used in paths. -/
lemma isId_lamp : isId "lamp".toList = true := by decide

/-- The name of the property of the lamp can be used in endpoints. -/
lemma isEndpointId_level : isEndpointId "level".toList = true := by decide

/-- The path of the lamp in the hall. -/
def hallLampPath : Path := hallPath.append ⟨"lamp", isId_lamp⟩

/-- A call that sets the property of the lamp. -/
def callLevel : Call :=
  ⟨1, none, ⟨hallLampPath, ⟨"level", isEndpointId_level⟩⟩, 0, .quiet, [.int 7]⟩

/-- A call that gives the lamp an entry of metadata. -/
def callColour : Call :=
  ⟨2, none, ⟨hallLampPath, ⟨"meta", by decide⟩⟩, 0, .quiet, [.text "colour", .text "red"]⟩

/-- A root whose lamp has been connected to the eye, set, and given metadata. -/
def adorned (r : Root) : Root :=
  Operation.runUntilIdle.run ((Operation.send callColour).run ((Operation.send callLevel).run
    ((Operation.connect hallPath ⟨"lamp", "light", "eye", "sight"⟩).run r)))

/-- A root that has been adorned comes later. -/
lemma later_adorned (r : Root) : Later r (adorned r) := by
  have hconnected := Operation.later (r := r)
    (o := .connect hallPath ⟨"lamp", "light", "eye", "sight"⟩) trivial
  have hlevel := hconnected.trans
    (Operation.later (o := .send callLevel) fun hc => absurd hc Bool.false_ne_true)
  have hcolour := hlevel.trans
    (Operation.later (o := .send callColour) fun hc => absurd hc Bool.false_ne_true)
  exact hcolour.trans (Operation.later (o := .runUntilIdle) trivial)

/-- The snapshot of a hall with a lamp and an eye. -/
def hallSnapshot : Value :=
  .map [("children", .map [
      ("eye", .map [("meta", .map []), ("properties", .map []), ("type", .text "eye")]),
      ("lamp", .map [("meta", .map [("colour", .text "red")]),
        ("properties", .map [("level", .int 7)]), ("type", .text "lamp")])]),
    ("connections",
      .list [.list [.text "lamp", .text "light", .text "eye", .text "sight"]]),
    ("meta", .map []), ("order", .list [.text "lamp", .text "eye"]),
    ("properties", .map []), ("type", .text Catalog.containerType)]

/-- The maps in this snapshot are sorted. -/
lemma sorted_hallSnapshot : hallSnapshot.Sorted := by
  simp only [hallSnapshot, Value.Sorted, Value.SortedEntries, Value.SortedItems, Keyed.Sorted,
    List.forall_mem_cons, List.not_mem_nil, false_imp_iff, implies_true, and_true]
  decide

/-- The document of this snapshot reads back. -/
lemma ofText?_hallSnapshot :
    Preserves.ofText? hallSnapshot.toPreserves.render = some hallSnapshot.toPreserves := by
  have hfloats : hallSnapshot.floats = [] := rfl
  refine Preserves.ofText?_render (Value.readable_toPreserves _ ?_)
  rw [hfloats]
  exact List.forall_mem_nil _

/-- A hall with a lamp, whose property and metadata have been set, and an eye, to which the lamp is
connected, can be built again beside it. -/
theorem snapshot_round_trip_hall :
    ∃ r s t u, Root.new {} hallCatalog = .ok r ∧
      r.addChild rootPath "hall" Catalog.containerType = (.ok hallPath, s) ∧
      s.addChild hallPath "lamp" "lamp" = (.ok hallLampPath, t) ∧
      t.addChild hallPath "eye" "eye" = (.ok (hallPath.append ⟨"eye", by decide⟩), u) ∧
      ∃ text, (adorned u).snapshot hallPath = .ok hallSnapshot ∧
        (adorned u).snapshotText hallPath = .ok text ∧
        ((adorned u).build rootPath "copy" hallSnapshot).2.snapshot
          (rootPath.append ⟨"copy", by decide⟩) = .ok hallSnapshot ∧
        ((adorned u).buildText rootPath "copy" text).2.snapshotText
          (rootPath.append ⟨"copy", by decide⟩) = .ok text := by
  obtain ⟨r, hr⟩ : ∃ r, Root.new {} hallCatalog = .ok r := ⟨_, rfl⟩
  obtain ⟨s, hs⟩ : ∃ s, r.addChild rootPath "hall" Catalog.containerType = (.ok hallPath, s) := by
    cases hr
    exact ⟨_, rfl⟩
  obtain ⟨t, ht⟩ : ∃ t, s.addChild hallPath "lamp" "lamp" = (.ok hallLampPath, t) := by
    cases hr
    cases hs
    exact ⟨_, rfl⟩
  obtain ⟨u, hu⟩ : ∃ u, t.addChild hallPath "eye" "eye" =
      (.ok (hallPath.append ⟨"eye", by decide⟩), u) := by
    cases hr
    cases hs
    cases ht
    exact ⟨_, rfl⟩
  have hlater : Later r s := later_addChild hs
  have hlater' : Later r t := hlater.trans (later_addChild ht)
  have hlater'' : Later r u := hlater'.trans (later_addChild hu)
  have hhall : s.Catalogued hallPath := by
    have hfind : r.catalog.find? Catalog.containerType = .ok ⟨.empty, true⟩ := by
      cases hr
      rfl
    have htyped : Behavior.Typed .empty := fun id shape default hmem => by contradiction
    exact (catalogued_of_new hr (a := hallPath) (by decide)).addChild (.new hr) .refl hfind htyped
      hs
  have hlamp : t.Catalogued hallPath := by
    have hfind : s.catalog.find? "lamp" = .ok lampType := by
      cases hr
      cases hs
      rfl
    have htyped : lampType.behavior.Typed := by
      intro id shape default hmem
      simp only [lampType, List.mem_cons, Declaration.control.injEq, Control.property.injEq,
        reduceCtorEq, List.not_mem_nil, or_false] at hmem
      obtain ⟨rfl, rfl, rfl⟩ := hmem
      exact .inr rfl
    exact hhall.addChild (.new hr) hlater hfind htyped ht
  have hunits : u.Catalogued hallPath := by
    have hfind : t.catalog.find? "eye" = .ok eyeType := by
      cases hr
      cases hs
      cases ht
      rfl
    have htyped : eyeType.behavior.Typed := by
      intro id shape default hmem
      simp [eyeType] at hmem
    exact hlamp.addChild (.new hr) hlater' hfind htyped hu
  obtain ⟨hinstalled, hcatalog, hvalue, hcontains, q, m, habove, hfree⟩ :
      (adorned u).installed.length = u.installed.length ∧ (adorned u).catalog = u.catalog ∧
        (adorned u).snapshot hallPath = .ok hallSnapshot ∧
        (adorned u).contains hallPath = true ∧
        ∃ q m, (adorned u).lookupContainer rootPath = .ok (q, m) ∧ m.child? "copy" = none := by
    cases hr
    cases hs
    cases ht
    cases hu
    exact ⟨rfl, rfl, rfl, by decide +kernel, _, _, rfl, by decide⟩
  have hadorned : (adorned u).Catalogued hallPath :=
    hunits.later ((Reachable.new hr).isTree.later hlater'') (later_adorned u) hinstalled hcatalog
  obtain ⟨v, hv, ⟨-, hagain⟩, htext⟩ := snapshot_round_trip (i := ⟨"copy", by decide⟩) (.new hr)
    (hlater''.trans (later_adorned u)) hcontains hadorned habove hfree
  rw [hvalue] at hv
  cases hv
  obtain ⟨text, hwritten, -, -, hagain'⟩ := htext sorted_hallSnapshot ofText?_hallSnapshot
  exact ⟨r, s, t, u, hr, hs, ht, hu, text, hvalue, hwritten, hagain, hagain'⟩

end Root

end Switchboard
