import Mathlib
import Switchboard.Proofs.UnitInvariants

/-!
# Members and their state

An iteration keeps the members of a behavior apart from the state that they share.  The two belong
together: there is a property of a shape exactly where a property of that shape is declared, and
there is a reference of a kind exactly where a typed reference of that kind is declared
(`Iteration.Coherent`).  An iteration begins so, whatever its members do leaves the frame of its
state as it is (`Cells.SameFrame`), and so it holds of every unit of every root that can be reached
(`Root.Reachable.coherent`).
-/

namespace Switchboard

/-! ## Forms of members -/

/-- The form of a built-in member: what kind of member it is, and its shape. -/
inductive Form where
  | function
  | raw
  | property (shape : Shape)
  | input
  | output
  | reference (kind : RefKind)
deriving DecidableEq

/-- The form of a control, if it is built in. -/
def Control.form? : Control → Option Form
  | .function _ => some .function
  | .raw _ => some .raw
  | .property shape _ => some (.property shape)
  | .observer _ => none

/-- The form of a port, if it is built in. -/
def Port.form? : Port → Option Form
  | .input _ => some .input
  | .output => some .output
  | .observer _ _ => none

/-- The form of a reference, if it is built in. -/
def ReferenceMember.form? : ReferenceMember → Option Form
  | .typed spec => some (.reference spec.kind)
  | .observer _ => none

/-- The form of the member of a category and a name, if there is such a member and if it is built
in. -/
def Members.form? (m : Members) : Category → String → Option (Option Form)
  | .control, id => (Named.find? id m.controls).map Control.form?
  | .port, id => (Named.find? id m.ports).map Port.form?
  | .reference, id => (Named.find? id m.references).map ReferenceMember.form?

/-- A control takes over another one exactly if both are built in and have the same form. -/
lemma Control.takesOver_iff {a b : Control} :
    a.takesOver b = true ↔ b.form? ≠ none ∧ a.form? = b.form? := by
  cases a <;> cases b <;> simp [takesOver, form?]

/-- A port takes over another one exactly if both are built in and have the same form. -/
lemma Port.takesOver_iff {a b : Port} :
    a.takesOver b = true ↔ b.form? ≠ none ∧ a.form? = b.form? := by
  cases a <;> cases b <;> simp [takesOver, form?]

/-- A reference takes over another one exactly if both are typed and of the same kind. -/
lemma ReferenceMember.takesOver_iff {a b : ReferenceMember} :
    a.takesOver b = true ↔ b.form? ≠ none ∧ a.form? = b.form? := by
  cases a <;> cases b <;> simp [takesOver, form?]

namespace Members

variable {m : Members} {id : String}

/-- Where a property of a shape is declared. -/
lemma form?_control_eq_property {shape : Shape} :
    m.form? .control id = some (some (.property shape)) ↔
      ∃ default, Named.find? id m.controls = some (.property shape default) := by
  unfold form?
  rw [Option.map_eq_some_iff]
  constructor
  · rintro ⟨c, hc, hform⟩
    cases c with
    | property shape' default =>
      cases hform
      exact ⟨default, hc⟩
    | _ => cases hform
  · rintro ⟨default, h⟩
    exact ⟨_, h, rfl⟩

/-- Where a typed reference of a kind is declared. -/
lemma form?_reference_eq_reference {kind : RefKind} :
    m.form? .reference id = some (some (.reference kind)) ↔
      ∃ spec, Named.find? id m.references = some (.typed spec) ∧ spec.kind = kind := by
  unfold form?
  rw [Option.map_eq_some_iff]
  constructor
  · rintro ⟨r, hr, hform⟩
    cases r with
    | typed spec =>
      cases hform
      exact ⟨spec, hr, rfl⟩
    | observer o => cases hform
  · rintro ⟨spec, h, rfl⟩
    exact ⟨_, h, rfl⟩

end Members

/-! ## Frames of states -/

namespace Cells

variable {c : Cells} {id other : String} {r : Reference}

/-- A reference that was given another state. -/
@[simp] lemma find?_setReference_self (c : Cells) (id : String) (r : Reference) :
    (c.setReference id r).references.find? id = some r :=
  Keyed.find?_insert_self id r c.references

/-- References with other names. -/
lemma find?_setReference_of_ne (h : other ≠ id) (c : Cells) (r : Reference) :
    (c.setReference id r).references.find? other = c.references.find? other :=
  Keyed.find?_insert_of_ne h r c.references

/-- The value of a reference that was given another state. -/
lemma value?_setReference_self (c : Cells) (id : String) (r : Reference) :
    (c.setReference id r).value? id = r.value := by
  rw [value?, find?_setReference_self]
  rfl

/-- References look the same where they are. -/
lemma value?_congr {d : Cells} (h : d.references.find? id = c.references.find? id) :
    d.value? id = c.value? id := by
  rw [value?, value?, h]

end Cells

/-- Whether two states have properties and references of the same shapes and kinds. -/
structure Cells.SameFrame (d c : Cells) : Prop where
  property : ∀ id, (d.property? id).map Property.shape = (c.property? id).map Property.shape
  reference : ∀ id,
    (d.references.find? id).map Reference.kind = (c.references.find? id).map Reference.kind

namespace Cells

variable {c d e : Cells} {id : String}

/-- Nothing is changed. -/
lemma SameFrame.refl (c : Cells) : c.SameFrame c := ⟨fun _ => rfl, fun _ => rfl⟩

/-- One change after another. -/
lemma SameFrame.trans (h' : e.SameFrame d) (h : d.SameFrame c) : e.SameFrame c :=
  ⟨fun id => (h'.property id).trans (h.property id),
    fun id => (h'.reference id).trans (h.reference id)⟩

/-- A property is given another value. -/
lemma sameFrame_setProperty {p q : Property} (hp : c.property? id = some p)
    (hq : q.shape = p.shape) : (c.setProperty id q).SameFrame c where
  property := by
    intro other
    by_cases hother : other = id
    · have hset : (c.setProperty id q).property? id = some q :=
        Keyed.find?_insert_self id q c.properties
      rw [hother, hset, hp, Option.map_some, Option.map_some, hq]
    · have hset : (c.setProperty id q).property? other = c.property? other :=
        Keyed.find?_insert_of_ne hother q c.properties
      rw [hset]
  reference := fun _ => rfl

/-- A reference is given another value. -/
lemma sameFrame_setReference {r r' : Reference} (hr : c.references.find? id = some r)
    (hr' : r'.kind = r.kind) : (c.setReference id r').SameFrame c where
  property := fun _ => rfl
  reference := by
    intro other
    by_cases hother : other = id
    · rw [hother, find?_setReference_self, hr, Option.map_some, Option.map_some, hr']
    · rw [find?_setReference_of_ne hother]

/-- Writing to a reference. -/
lemma sameFrame_write (c : Cells) (id : String) (v : RefValue) : (c.write id v).SameFrame c := by
  unfold write
  split
  · rename_i r hr
    split
    · split
      · exact sameFrame_setReference hr rfl
      · exact .refl c
    · exact .refl c
  · exact .refl c

/-- Taking the value of a reference. -/
lemma sameFrame_take (c : Cells) (id : String) : (c.take id).2.SameFrame c := by
  unfold take
  split
  · rename_i r hr
    exact sameFrame_setReference hr rfl
  · exact .refl c

/-- The frame is left as it is by what programs and hooks do to cells. -/
lemma hookRule_sameFrame : HookRule SameFrame where
  refl := .refl
  trans := .trans
  set hp hq := by
    refine sameFrame_setProperty hp ?_
    rcases Property.set_eq_ok hq with rfl | ⟨hshape, -⟩
    · rfl
    · exact hshape
  replace hp hq := sameFrame_setProperty hp (Property.replace_eq_ok hq).1
  write := sameFrame_write
  take := sameFrame_take

end Cells

namespace Iteration

/-- Making a value for a reference of its kind. -/
lemma sameFrame_makeValue (s : Setting) (m : MemberId) (spec : ReferenceSpec) (w : Workbench)
    (hm : (w.cells.references.find? m.id).map Reference.kind = some spec.kind) :
    (makeValue s m spec w).cells.SameFrame w.cells := by
  have hrun := Cells.hookRule_sameFrame.run s spec.init w
  unfold makeValue
  split
  · exact .refl _
  · split
    · rename_i values w' h
      rw [h] at hrun
      obtain ⟨r, hr, hkind⟩ := Option.map_eq_some_iff.mp ((hrun.reference m.id).trans hm)
      exact (Cells.sameFrame_setReference hr hkind.symm).trans hrun
    · rename_i f w' h
      rw [h] at hrun
      exact hrun

/-- The arrival of a reference of its kind. -/
lemma sameFrame_attachReference (s : Setting) (m : MemberId) (spec : ReferenceSpec)
    (former : Cells) (w : Workbench)
    (hm : (w.cells.references.find? m.id).map Reference.kind = some spec.kind) :
    (attachReference s m (.typed spec) former w).2.cells.SameFrame w.cells := by
  obtain ⟨r, hr, hkind⟩ := Option.map_eq_some_iff.mp hm
  have hmove : (moveValue m.id spec.kind w.cells former).1.SameFrame w.cells := by
    unfold moveValue
    split
    · split
      · exact Cells.sameFrame_setReference hr hkind.symm
      · exact .refl _
    · exact .refl _
  exact (sameFrame_makeValue s m spec
    { w with cells := (moveValue m.id spec.kind w.cells former).1 }
    ((hmove.reference m.id).trans hm)).trans hmove

/-- The arrival of references, each of its kind. -/
lemma sameFrame_attachReferences (s : Setting) (number : ℕ) (rs : Named ReferenceMember)
    (former : Cells) (w : Workbench)
    (hrs : ∀ id spec, (id, .typed spec) ∈ rs →
      (w.cells.references.find? id).map Reference.kind = some spec.kind) :
    (attachReferences s number rs former w).2.cells.SameFrame w.cells := by
  induction rs generalizing former w with
  | nil => exact .refl _
  | cons e rest ih =>
    obtain ⟨id, r⟩ := e
    have hfirst : (attachReference s ⟨number, .reference, id⟩ r former w).2.cells.SameFrame
        w.cells := by
      cases r with
      | observer o => exact .refl _
      | typed spec =>
        exact sameFrame_attachReference s _ spec former w (hrs id spec List.mem_cons_self)
    refine (ih _ _ fun other spec hmem => ?_).trans hfirst
    exact (hfirst.reference other).trans (hrs other spec (List.mem_cons_of_mem _ hmem))

/-! ## Coherent iterations -/

/-- Whether the members of an iteration have different names, and its state has exactly the
properties and the references that are declared. -/
structure Coherent (i : Iteration) : Prop where
  distinct : i.members.Distinct
  property : ∀ id shape, (i.cells.property? id).map Property.shape = some shape ↔
    i.members.form? .control id = some (some (.property shape))
  reference : ∀ id kind, (i.cells.references.find? id).map Reference.kind = some kind ↔
    i.members.form? .reference id = some (some (.reference kind))

variable {i j : Iteration} {b : Behavior}

/-- An iteration of which nothing is changed but the cells, and not their frame. -/
lemma Coherent.of_sameFrame (h : i.Coherent) (hj : j = { i with cells := j.cells })
    (hcells : j.cells.SameFrame i.cells) : j.Coherent := by
  have hmembers : j.members = i.members := by rw [hj]
  constructor
  case distinct => exact hmembers ▸ h.distinct
  case property =>
    intro id shape
    rw [hcells.property, hmembers]
    exact h.property id shape
  case reference =>
    intro id kind
    rw [hcells.reference, hmembers]
    exact h.reference id kind

/-- Without members there is nothing to keep. -/
lemma coherent_empty : Coherent {} where
  distinct := ⟨List.nodup_nil, List.nodup_nil, List.nodup_nil⟩
  property := fun _ _ => ⟨nofun, nofun⟩
  reference := fun _ _ => ⟨nofun, nofun⟩

/-- A property as it is declared. -/
lemma property?_initialCells {m : Members} (hm : m.Distinct) {id : String} {p : Property} :
    (initialCells m).property? id = some p ↔ ∃ shape default,
      Named.find? id m.controls = some (.property shape default) ∧
        p = { shape := shape, value := default } := by
  constructor
  · intro h
    obtain ⟨⟨id', c⟩, hmem, hentry⟩ :=
      List.mem_filterMap.mp (Keyed.mem_of_mem_ofList (Keyed.mem_of_find? h))
    cases c with
    | property shape default =>
      cases hentry
      exact ⟨shape, default, Named.find?_of_mem hm.controls hmem, rfl⟩
    | _ => cases hentry
  · rintro ⟨shape, default, hfind, rfl⟩
    exact Members.property?_initialCells hm (Named.mem_of_find? hfind)

/-- A reference as it is declared. -/
lemma find?_references_initialCells {m : Members} (hm : m.Distinct) {id : String} {r : Reference} :
    (initialCells m).references.find? id = some r ↔ ∃ spec,
      Named.find? id m.references = some (.typed spec) ∧ r = { kind := spec.kind } := by
  unfold initialCells
  refine (Keyed.find?_ofList ?_).trans ?_
  · refine hm.references.sublist (Named.sublist_names_filterMap (fun e b hb => ?_) m.references)
    split at hb
    · cases hb
      rfl
    · contradiction
  rw [List.mem_filterMap]
  constructor
  · rintro ⟨⟨id', member⟩, hmem, hentry⟩
    cases member with
    | typed spec =>
      cases hentry
      exact ⟨spec, Named.find?_of_mem hm.references hmem, rfl⟩
    | observer o => cases hentry
  · rintro ⟨spec, hfind, rfl⟩
    exact ⟨_, Named.mem_of_find? hfind, rfl⟩

/-- An iteration is coherent with the state that is declared. -/
lemma coherent_initialCells (hm : i.members.Distinct)
    (hcells : i.cells.SameFrame (initialCells i.members)) : i.Coherent where
  distinct := hm
  property := by
    intro id shape
    rw [hcells.property, Members.form?_control_eq_property, Option.map_eq_some_iff]
    constructor
    · rintro ⟨p, hp, rfl⟩
      obtain ⟨shape, default, hfind, rfl⟩ := (property?_initialCells hm).mp hp
      exact ⟨default, hfind⟩
    · rintro ⟨default, hfind⟩
      exact ⟨_, (property?_initialCells hm).mpr ⟨shape, default, hfind, rfl⟩, rfl⟩
  reference := by
    intro id kind
    rw [hcells.reference, Members.form?_reference_eq_reference, Option.map_eq_some_iff]
    constructor
    · rintro ⟨r, hr, rfl⟩
      obtain ⟨spec, hfind, rfl⟩ := (find?_references_initialCells hm).mp hr
      exact ⟨spec, hfind, rfl⟩
    · rintro ⟨spec, hfind, rfl⟩
      exact ⟨_, (find?_references_initialCells hm).mpr ⟨spec, hfind, rfl⟩, rfl⟩

/-- What a property is carried over to has its shape. -/
lemma shape_carryProperty (former : Cells) (id : String) (p : Property) :
    (carryProperty former id p).shape = p.shape := by
  unfold carryProperty
  split
  · split
    · next hshape => exact hshape.symm
    · rfl
  · rfl

/-- A property of a table that was changed entry by entry. -/
lemma property?_carryProperties (cells former : Cells) (id : String) :
    (carryProperties cells former).property? id =
      (cells.property? id).map (carryProperty former id) := by
  unfold carryProperties Cells.property?
  induction cells.properties with
  | nil => rfl
  | cons e rest ih =>
    rw [List.map_cons, Keyed.find?, Keyed.find?]
    split
    · next hid =>
      subst hid
      rfl
    · exact ih

/-- Carrying properties over. -/
lemma sameFrame_carryProperties (cells former : Cells) :
    (carryProperties cells former).SameFrame cells where
  property := by
    intro id
    rw [property?_carryProperties, Option.map_map]
    cases cells.property? id with
    | none => rfl
    | some p => exact congrArg some (shape_carryProperty former id p)
  reference := fun _ => rfl

/-- An iteration that follows another is coherent, whatever the other one is. -/
lemma coherent_attach (s : Setting) {next : Iteration} (hdistinct : next.members.Distinct)
    (hcells : next.cells = initialCells next.members) (former : Iteration) (t : Turn) :
    (attach s next former t).1.Coherent := by
  refine coherent_initialCells hdistinct ?_
  have hcarried := sameFrame_carryProperties next.cells former.cells
  rw [hcells] at hcarried
  have hattached := sameFrame_attachReferences s next.number next.members.references former.cells
    ⟨carryProperties next.cells former.cells,
      { t with attached := t.attached ++ Named.names next.members.controls }⟩
    fun id spec hmem => by
      rw [hcells, hcarried.reference, Option.map_eq_some_iff]
      exact ⟨_, (find?_references_initialCells hdistinct).mpr
        ⟨spec, Named.find?_of_mem hdistinct.references hmem, rfl⟩, rfl⟩
  rw [hcells] at hattached
  unfold attach
  rw [hcells]
  exact hattached.trans hcarried

/-- A hook leaves an iteration coherent. -/
lemma Coherent.runHook (hi : i.Coherent) (s : Setting) (h : Hook) (t : Turn) :
    (i.runHook s h t).1.Coherent :=
  hi.of_sameFrame rfl (Cells.hookRule_sameFrame.runHook s h i t)

/-- A tick leaves an iteration coherent. -/
lemma Coherent.tick (hi : i.Coherent) (s : Setting) (t : Turn) : (i.tick s t).1.Coherent :=
  hi.of_sameFrame (i.fst_tick s t) (Cells.hookRule_sameFrame.tick s i t)

/-- Values for a port leave an iteration coherent. -/
lemma Coherent.receive (hi : i.Coherent) (s : Setting) (port : String) (values : List Value)
    (t : Turn) : (i.receive s port values t).1.Coherent :=
  hi.of_sameFrame (i.fst_receive s port values t)
    (Cells.hookRule_sameFrame.receive s port values i t)

/-- A call leaves an iteration coherent. -/
lemma Coherent.invoke (hi : i.Coherent) (s : Setting) (c : Call) (t : Turn) :
    (i.invoke s c t).2.1.Coherent :=
  hi.of_sameFrame (i.fst_invoke s c t) (Cells.hookRule_sameFrame.invoke s c i t)

/-- Giving properties values from a snapshot leaves an iteration coherent. -/
lemma Coherent.restoreProperty (hi : i.Coherent) (id : String) (v : Value) :
    (i.restoreProperty id v).Coherent :=
  hi.of_sameFrame (i.restoreProperty_eq id v) (Cells.hookRule_sameFrame.restoreProperty i id v)

end Iteration

namespace Node

variable {n : Node}

/-- Becoming active leaves a unit coherent. -/
lemma coherent_activate (hn : n.iteration.Coherent) (s : Setting) (t : Turn) :
    (n.activate s t).1.iteration.Coherent := by
  have hinit := hn.runHook s .init t
  unfold activate
  simp only
  split
  · exact hinit
  · exact Iteration.Coherent.runHook hinit s .start _

/-- A unit that is given a behavior is coherent. -/
lemma coherent_install (s : Setting) (next : Iteration) (hdistinct : next.members.Distinct)
    (hcells : next.cells = Iteration.initialCells next.members) (active : Bool) (n : Node)
    (t : Turn) : (n.install s next active t).1.iteration.Coherent := by
  have hsucceed : (n.succeed s next t).1.iteration.Coherent :=
    Iteration.coherent_attach s hdistinct hcells n.iteration t
  rw [install_eq]
  split
  · exact coherent_activate hsucceed ..
  · exact hsucceed

end Node

/-! ## All units of a root -/

namespace Root

/-- Coherence is an invariant of units, whatever members are put in place. -/
lemma unitInvariant_coherent :
    UnitInvariant (fun _ => True) fun _ n => n.iteration.Coherent where
  grows _ hn := hn
  same _ hiteration hn := hiteration ▸ hn
  bare hempty := hempty ▸ Iteration.coherent_empty
  restore id v hn := hn.restoreProperty id v
  turn := by
    intro k s n t hk _ hn
    cases hk with
    | activate => exact Node.coherent_activate hn s t
    | stop => exact hn.runHook s .stop t
    | reset => exact hn.runHook s .reset t
    | plain hk =>
      cases hk with
      | tick => exact hn.tick s t
      | receive port values => exact hn.receive s port values t
      | invoke c => exact hn.invoke s c t
  install := by
    intro i number active s n t hi _ _ _
    obtain ⟨b, j, source, hj, rfl⟩ := hi
    obtain ⟨-, hdistinct, hcells⟩ := Iteration.ofBehavior_eq_ok hj
    exact Node.coherent_install s { j with source := source, number := number } hdistinct hcells
      active n t

/-- The iterations of all units are coherent in every root that can be reached. -/
theorem Reachable.coherent {r : Root} (hr : Reachable r) :
    r.All fun _ n => n.iteration.Coherent :=
  hr.all unitInvariant_coherent fun _ _ => trivial

end Root

end Switchboard
