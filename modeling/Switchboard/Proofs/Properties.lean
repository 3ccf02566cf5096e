import Mathlib
import Switchboard.Proofs.Changes
import Switchboard.Proofs.Tables

/-!
# What units keep of their properties

Whatever a behavior does in its turn, its properties stay: each has the shape with which it was
declared, and a value of that shape has only values of that shape after it (`Cells.Keeps`).  A unit
follows itself from turn to turn (`Node.Follows`): it keeps its type, its members, their source and
its properties, and its metadata stays sorted.  Only the installation of a behavior breaks this off.
-/

namespace Switchboard

/-! ## Values of a shape -/

namespace Value

/-- Whether a value is of a shape. -/
def OfShape (v : Value) (s : Shape) : Prop := s = .any ∨ v.shape = s

/-- A value of a shape is its own view as a value of that shape. -/
lemma OfShape.coerce? {v : Value} {s : Shape} (h : v.OfShape s) : v.coerce? s = some v := by
  rcases h with rfl | rfl
  · rfl
  · cases v <;> rfl

/-- The view of a value as a value of a shape is of that shape. -/
lemma ofShape_of_coerce? {v w : Value} {s : Shape} (h : v.coerce? s = some w) : w.OfShape s := by
  cases s with
  | any => exact .inl rfl
  | text =>
    cases h
    exact .inr rfl
  | list =>
    cases h
    exact .inr rfl
  | _ =>
    obtain ⟨_, -, rfl⟩ := Option.map_eq_some_iff.mp h
    exact .inr rfl

end Value

/-! ## Properties that are kept -/

namespace Property

variable {p q : Property} {v : Value}

/-- What is made to fit a property is of its shape. -/
lemma ofShape_of_coerce {w : Value} (h : p.coerce v = .ok w) : w.OfShape p.shape := by
  unfold coerce at h
  split at h
  · rename_i hcoerce
    cases h
    exact Value.ofShape_of_coerce? hcoerce
  · contradiction

/-- A property with another value has its shape and a value of it. -/
lemma replace_eq_ok (h : p.replace v = .ok q) : q.shape = p.shape ∧ q.value.OfShape q.shape := by
  unfold replace at h
  cases hcoerce : p.coerce v with
  | error f =>
    rw [hcoerce] at h
    contradiction
  | ok w =>
    rw [hcoerce] at h
    cases h
    exact ⟨rfl, ofShape_of_coerce hcoerce⟩

/-- A property after a set is as it was, or has its shape and a value of it. -/
lemma set_eq_ok {time : Int64} {accepted : Bool} (h : p.set v time = .ok (accepted, q)) :
    q = p ∨ q.shape = p.shape ∧ q.value.OfShape q.shape := by
  unfold set at h
  cases hcoerce : p.coerce v with
  | error f =>
    rw [hcoerce] at h
    contradiction
  | ok w =>
    rw [hcoerce] at h
    simp only [Except.map, Except.ok.injEq] at h
    split at h
    · cases h
      exact .inr ⟨rfl, ofShape_of_coerce hcoerce⟩
    · cases h
      exact .inl rfl

end Property

/-- Whether the properties that there were are still there, each with its shape, and with a value of
its shape if it had one. -/
structure Cells.Keeps (d c : Cells) : Prop where
  property : ∀ id p, c.property? id = some p → ∃ q, d.property? id = some q ∧
    q.shape = p.shape ∧ (p.value.OfShape p.shape → q.value.OfShape q.shape)

namespace Cells

variable {c d e : Cells}

/-- Properties that are the same are kept. -/
lemma Keeps.of_properties (h : d.properties = c.properties) : d.Keeps c := by
  refine ⟨fun id p hp => ⟨p, ?_, rfl, fun hp => hp⟩⟩
  rw [property?, h]
  exact hp

/-- Nothing happens to properties. -/
lemma Keeps.refl (c : Cells) : c.Keeps c := .of_properties rfl

/-- What keeps what keeps properties keeps them. -/
lemma Keeps.trans (h' : e.Keeps d) (h : d.Keeps c) : e.Keeps c := by
  refine ⟨fun id p hp => ?_⟩
  obtain ⟨q, hq, hshape, hvalue⟩ := h.property id p hp
  obtain ⟨q', hq', hshape', hvalue'⟩ := h'.property id q hq
  exact ⟨q', hq', hshape'.trans hshape, fun hp => hvalue' (hvalue hp)⟩

/-- A property that is given a value of its shape. -/
lemma keeps_setProperty {id : String} {p q : Property} (hp : c.property? id = some p)
    (hq : q = p ∨ q.shape = p.shape ∧ q.value.OfShape q.shape) :
    (c.setProperty id q).Keeps c := by
  refine ⟨fun other p' hp' => ?_⟩
  by_cases hother : other = id
  · rw [hother, hp] at hp'
    cases hp'
    refine ⟨q, ?_, ?_⟩
    · rw [hother]
      exact Keyed.find?_insert_self id q c.properties
    · rcases hq with rfl | ⟨hshape, hvalue⟩
      · exact ⟨rfl, fun hp => hp⟩
      · exact ⟨hshape, fun _ => hvalue⟩
  · exact ⟨p', (Keyed.find?_insert_of_ne hother q c.properties).trans hp', rfl, fun hp => hp⟩

/-- Writing to a reference has nothing to do with properties. -/
lemma properties_write (c : Cells) (id : String) (v : RefValue) :
    (c.write id v).properties = c.properties := by
  unfold write
  split
  · split
    · split <;> rfl
    · rfl
  · rfl

/-- Taking the value of a reference has nothing to do with properties. -/
lemma properties_take (c : Cells) (id : String) : (c.take id).2.properties = c.properties := by
  unfold take
  split <;> rfl

/-- Properties are kept by what programs and hooks do to cells. -/
lemma hookRule_keeps : HookRule Keeps where
  refl := .refl
  trans := .trans
  set hp hq := keeps_setProperty hp (Property.set_eq_ok hq)
  replace hp hq := keeps_setProperty hp (.inr (Property.replace_eq_ok hq))
  write c id v := .of_properties (c.properties_write id v)
  take c id := .of_properties (c.properties_take id)

end Cells

namespace Iteration

/-- Making a value keeps the properties. -/
lemma keeps_makeValue (s : Setting) (m : MemberId) (spec : ReferenceSpec) (w : Workbench) :
    (makeValue s m spec w).cells.Keeps w.cells := by
  have hrun := Cells.hookRule_keeps.run s spec.init w
  unfold makeValue
  split
  · exact .refl _
  · split
    · rename_i values w' h
      rw [h] at hrun
      exact Cells.Keeps.trans (d := w'.cells) (.of_properties rfl) hrun
    · rename_i f w' h
      rw [h] at hrun
      exact hrun

/-- The arrival of a reference keeps the properties. -/
lemma keeps_attachReference (s : Setting) (m : MemberId) (r : ReferenceMember) (former : Cells)
    (w : Workbench) : (attachReference s m r former w).2.cells.Keeps w.cells := by
  cases r with
  | observer o => exact .refl _
  | typed spec =>
    have hmove : (moveValue m.id spec.kind w.cells former).1.properties = w.cells.properties := by
      unfold moveValue
      split
      · split <;> rfl
      · rfl
    exact (keeps_makeValue s m spec _).trans (.of_properties hmove)

/-- The arrival of references keeps the properties. -/
lemma keeps_attachReferences (s : Setting) (number : ℕ) (rs : Named ReferenceMember)
    (former : Cells) (w : Workbench) :
    (attachReferences s number rs former w).2.cells.Keeps w.cells := by
  induction rs generalizing former w with
  | nil => exact .refl _
  | cons e rest ih =>
    exact (ih _ _).trans (keeps_attachReference s ⟨number, .reference, e.1⟩ e.2 former w)

/-- An iteration that follows another keeps the properties that it begins with. -/
lemma keeps_attach (s : Setting) (next former : Iteration) (t : Turn) :
    (attach s next former t).1.cells.Keeps (carryProperties next.cells former.cells) :=
  keeps_attachReferences ..

/-- Where there were no properties before, properties begin as they are declared. -/
lemma carryProperties_empty (c : Cells) : carryProperties c {} = c := by
  unfold carryProperties carryProperty
  exact congrArg (fun p => { c with properties := p }) (List.map_id c.properties)

end Iteration

/-! ## Units from turn to turn -/

/-- What a unit keeps as long as no other behavior is installed. -/
structure Node.Follows (n m : Node) : Prop where
  address : m.address = n.address
  kind : m.kind = n.kind
  typeName : m.typeName = n.typeName
  number : m.iteration.number = n.iteration.number
  members : m.iteration.members = n.iteration.members
  source : m.iteration.source = n.iteration.source
  cells : m.iteration.cells.Keeps n.iteration.cells
  metadata : Keyed.Sorted n.metadata → Keyed.Sorted m.metadata

namespace Node

variable {n m o : Node}

/-- A unit that is left alone. -/
lemma Follows.refl (n : Node) : n.Follows n := ⟨rfl, rfl, rfl, rfl, rfl, rfl, .refl _, fun h => h⟩

/-- A unit that is followed by one that is followed by another. -/
lemma Follows.trans (h : n.Follows m) (h' : m.Follows o) : n.Follows o where
  address := h'.address.trans h.address
  kind := h'.kind.trans h.kind
  typeName := h'.typeName.trans h.typeName
  number := h'.number.trans h.number
  members := h'.members.trans h.members
  source := h'.source.trans h.source
  cells := h'.cells.trans h.cells
  metadata hn := h'.metadata (h.metadata hn)

/-- A unit whose iteration has other cells only, which keep the properties. -/
lemma follows_of_cells (n : Node) {i : Iteration} (hi : i = { n.iteration with cells := i.cells })
    (hcells : i.cells.Keeps n.iteration.cells) : n.Follows { n with iteration := i } := by
  have hnumber : i.number = n.iteration.number := by rw [hi]
  have hmembers : i.members = n.iteration.members := by rw [hi]
  have hsource : i.source = n.iteration.source := by rw [hi]
  exact ⟨rfl, rfl, rfl, hnumber, hmembers, hsource, hcells, fun h => h⟩

/-- A hook. -/
lemma follows_runHook (s : Setting) (h : Hook) (n : Node) (t : Turn) :
    n.Follows (n.runHook s h t).1 :=
  n.follows_of_cells rfl (Cells.hookRule_keeps.runHook s h n.iteration t)

/-- Becoming active. -/
lemma follows_activate (s : Setting) (n : Node) (t : Turn) : n.Follows (n.activate s t).1 := by
  have hinit := n.follows_runHook s .init t
  have hstart := (n.runHook s .init t).1.follows_runHook s .start (n.runHook s .init t).2
  unfold activate
  simp only
  split
  · exact hinit
  · exact hinit.trans ⟨hstart.address, hstart.kind, hstart.typeName, hstart.number, hstart.members,
      hstart.source, hstart.cells, hstart.metadata⟩

/-- In the turn in which a unit is given an iteration it keeps its type, and it begins with the
properties of the iteration or with what they carry on. -/
lemma follows_install (s : Setting) (next : Iteration) (active : Bool) (n : Node) (t : Turn) :
    Follows { n with iteration :=
        { next with cells := Iteration.carryProperties next.cells n.iteration.cells } }
      (n.install s next active t).1 := by
  have hsucceed : Follows { n with iteration :=
      { next with cells := Iteration.carryProperties next.cells n.iteration.cells } }
      (n.succeed s next t).1 :=
    ⟨rfl, rfl, rfl, rfl, rfl, rfl, Iteration.keeps_attach s next n.iteration t, fun h => h⟩
  rw [install_eq]
  split
  · exact hsucceed.trans (follows_activate ..)
  · exact hsucceed

/-- A unit that had no behavior begins with the properties of its first one. -/
lemma follows_install_first (s : Setting) (next : Iteration) (active : Bool)
    (hn : n.iteration = .empty) (t : Turn) :
    Follows { n with iteration := next } (n.install s next active t).1 := by
  have hfollows := follows_install s next active n t
  rw [hn] at hfollows
  have hcells : Iteration.carryProperties next.cells Iteration.empty.cells = next.cells :=
    Iteration.carryProperties_empty next.cells
  rw [hcells] at hfollows
  exact hfollows

/-- Metadata that are put in order stay so. -/
lemma sorted_mergeMetadata (entries : Keyed Value) (h : Keyed.Sorted n.metadata) :
    Keyed.Sorted (n.mergeMetadata entries).metadata := h.foldl_insert entries

/-- More metadata. -/
lemma follows_mergeMetadata (n : Node) (entries : Keyed Value) :
    n.Follows (n.mergeMetadata entries) :=
  ⟨rfl, rfl, rfl, rfl, rfl, rfl, .refl _, sorted_mergeMetadata entries⟩

end Node

namespace Task

/-- The tasks in which a unit keeps its behavior. -/
inductive Lasting : Task → Prop
  | activate : Lasting .activate
  | stop : Lasting .stop
  | reset : Lasting .reset
  | plain {k : Task} (h : k.Plain) : Lasting k

/-- A unit follows itself in a turn in which it keeps its behavior. -/
lemma Lasting.follows_run {k : Task} (hk : k.Lasting) (s : Setting) (n : Node) (t : Turn) :
    n.Follows (k.run s n t).1 := by
  cases hk with
  | activate => exact n.follows_activate s t
  | stop => exact n.follows_runHook s .stop t
  | reset => exact n.follows_runHook s .reset t
  | plain hk =>
    cases hk with
    | tick =>
      exact n.follows_of_cells (n.iteration.fst_tick s t) (Cells.hookRule_keeps.tick ..)
    | receive port values =>
      exact n.follows_of_cells (n.iteration.fst_receive s port values t)
        (Cells.hookRule_keeps.receive ..)
    | invoke c =>
      exact n.follows_of_cells (n.iteration.fst_invoke s c t) (Cells.hookRule_keeps.invoke ..)

/-- A unit keeps its metadata during a turn. -/
lemma metadata_run (k : Task) (s : Setting) (n : Node) (t : Turn) :
    (k.run s n t).1.metadata = n.metadata := by
  have hactivate (n : Node) (t : Turn) : (n.activate s t).1.metadata = n.metadata := by
    unfold Node.activate
    simp only
    split <;> rfl
  cases k with
  | activate => exact hactivate n t
  | install next active =>
    simp only [run, Node.install]
    split
    · exact hactivate ..
    · rfl
  | _ => rfl

end Task

/-- A unit that is edited follows itself. -/
lemma Root.Edit.follows {f : Node → Node} (hf : Edit f) (n : Node) : n.Follows (f n) := by
  cases hf with
  | setMetadata key v => exact ⟨rfl, rfl, rfl, rfl, rfl, rfl, .refl _, fun h => h.insert key v⟩
  | mergeMetadata entries => exact n.follows_mergeMetadata entries
  | restore entries =>
    have hrestored := n.follows_of_cells (Iteration.restoreProperties_eq _ n.iteration)
      (Cells.hookRule_keeps.restoreProperties ((mapAt? entries "properties").getD []) n.iteration)
    exact hrestored.trans (Node.follows_mergeMetadata _ _)

end Switchboard
