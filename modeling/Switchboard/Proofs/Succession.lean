import Mathlib
import Switchboard.Proofs.Coherence

/-!
# One behavior after another

When a unit is given another behavior, the new iteration takes over what fits and the rest of the
former one is disposed of.  The main theorem `Iteration.carries_over` says what exactly: the value
of every property and of every reference afterwards, and for each former member whether it is taken
over or disposed of.  What fits is a matter of forms (`Form`): a built-in member takes over the
former one of its category and name if both have the same form, and a member of its own kind is
never taken over.

The references arrive one after the other, and the values of those that have none are made on the
way by programs that may look at anything; so what is said of such a value refers to the workbench
as it is when the references before it have arrived (`Iteration.arrivals`).
-/

namespace Switchboard

/-- Whether a program leaves the properties and references of its behavior as they are. -/
def Program.LeavesCells (p : Program) : Prop := ∀ s w, (p.run s w).2.cells = w.cells

/-- Whether two states look the same to programs. -/
def Cells.LooksLike (d c : Cells) : Prop :=
  ∀ id, d.property? id = c.property? id ∧ d.value? id = c.value? id

/-- The names of the members of a category. -/
def Members.namesOf (m : Members) : Category → List String
  | .control => Named.names m.controls
  | .port => Named.names m.ports
  | .reference => Named.names m.references

/-- The members of a behavior with a number. -/
lemma Members.mem_ids {m : Members} {number : ℕ} {x : MemberId} :
    x ∈ m.ids number ↔ x.installation = number ∧ x.id ∈ m.namesOf x.category := by
  obtain ⟨number', category, id⟩ := x
  unfold ids
  cases category <;> simp [namesOf, eq_comm, and_comm]

namespace Iteration

/-! ## References that arrive -/

variable {s : Setting} {number : ℕ} {former : Cells} {w : Workbench} {id : String}
  {spec : ReferenceSpec}

/-- First some references arrive and then others. -/
lemma attachReferences_append (s : Setting) (number : ℕ) (front back : Named ReferenceMember)
    (former : Cells) (w : Workbench) :
    attachReferences s number (front ++ back) former w =
      attachReferences s number back (attachReferences s number front former w).1
        (attachReferences s number front former w).2 := by
  induction front generalizing former w with
  | nil => rfl
  | cons e rest ih => exact ih _ _

/-- A value moves exactly if there is a former reference of the name and the kind. -/
lemma moveValue_eq (id : String) (kind : RefKind) (cells former : Cells) :
    (∃ r, former.references.find? id = some r ∧ r.kind = kind ∧
      moveValue id kind cells former =
        (cells.setReference id ⟨kind, r.holding⟩,
          former.setReference id { r with holding := none })) ∨
      (∀ r, former.references.find? id = some r → r.kind ≠ kind) ∧
        moveValue id kind cells former = (cells, former) := by
  unfold moveValue Cells.take
  cases hr : former.references.find? id with
  | none => exact .inr ⟨nofun, rfl⟩
  | some r =>
    by_cases hkind : r.kind = kind
    · refine .inl ⟨r, rfl, hkind, ?_⟩
      simp only [hkind, if_true]
    · refine .inr ⟨fun r' hr' => ?_, by simp only [if_neg hkind]⟩
      cases hr'
      exact hkind

/-- What the arrival of references leaves alone: the properties, and references of other names. -/
structure Aside (names : List String) (former former' cells cells' : Cells) : Prop where
  properties : cells'.properties = cells.properties
  former : ∀ id ∉ names, former'.references.find? id = former.references.find? id
  next : ∀ id ∉ names, cells'.references.find? id = cells.references.find? id

/-- A value is made without regard to other references. -/
lemma aside_makeValue (s : Setting) (m : MemberId) (hinit : spec.init.LeavesCells) (former : Cells)
    (w : Workbench) : Aside [m.id] former former w.cells (makeValue s m spec w).cells := by
  have hrun := hinit s w
  unfold makeValue
  split
  · exact ⟨rfl, fun _ _ => rfl, fun _ _ => rfl⟩
  · split
    · rename_i values w' h
      rw [h] at hrun
      have hcells : w'.cells = w.cells := hrun
      refine ⟨?_, fun _ _ => rfl, fun other hother => ?_⟩
      · show w'.cells.properties = w.cells.properties
        rw [hcells]
      · show (w'.cells.setReference m.id _).references.find? other = _
        rw [Cells.find?_setReference_of_ne (List.ne_of_not_mem_cons hother), hcells]
    · rename_i f w' h
      rw [h] at hrun
      have hcells : w'.cells = w.cells := hrun
      refine ⟨?_, fun _ _ => rfl, fun other _ => ?_⟩
      · show w'.cells.properties = w.cells.properties
        rw [hcells]
      · show w'.cells.references.find? other = w.cells.references.find? other
        rw [hcells]

/-- A reference arrives without regard to others. -/
lemma aside_attachReference (s : Setting) (number : ℕ) (id : String) (r : ReferenceMember)
    (hinit : ∀ spec, r = .typed spec → spec.init.LeavesCells) (former : Cells) (w : Workbench) :
    Aside [id] former (attachReference s ⟨number, .reference, id⟩ r former w).1 w.cells
      (attachReference s ⟨number, .reference, id⟩ r former w).2.cells := by
  cases r with
  | observer o => exact ⟨rfl, fun _ _ => rfl, fun _ _ => rfl⟩
  | typed spec =>
    obtain ⟨hproperties, -, hnext⟩ := aside_makeValue s ⟨number, .reference, id⟩ (hinit spec rfl)
      former { w with cells := (moveValue id spec.kind w.cells former).1 }
    have hmove : Aside [id] former (moveValue id spec.kind w.cells former).2 w.cells
        (moveValue id spec.kind w.cells former).1 := by
      obtain ⟨r, -, -, heq⟩ | ⟨-, heq⟩ := moveValue_eq id spec.kind w.cells former
      · rw [heq]
        exact ⟨rfl,
          fun _ hother => Cells.find?_setReference_of_ne (List.ne_of_not_mem_cons hother) ..,
          fun _ hother => Cells.find?_setReference_of_ne (List.ne_of_not_mem_cons hother) ..⟩
      · rw [heq]
        exact ⟨rfl, fun _ _ => rfl, fun _ _ => rfl⟩
    exact ⟨hproperties.trans hmove.properties, hmove.former,
      fun other hother => (hnext other hother).trans (hmove.next other hother)⟩

/-- References arrive without regard to others. -/
lemma aside_attachReferences (s : Setting) (number : ℕ) (rs : Named ReferenceMember)
    (hinit : ∀ id spec, (id, .typed spec) ∈ rs → spec.init.LeavesCells) (former : Cells)
    (w : Workbench) :
    Aside (Named.names rs) former (attachReferences s number rs former w).1 w.cells
      (attachReferences s number rs former w).2.cells := by
  induction rs generalizing former w with
  | nil => exact ⟨rfl, fun _ _ => rfl, fun _ _ => rfl⟩
  | cons e rest ih =>
    obtain ⟨id, r⟩ := e
    have hfirst := aside_attachReference s number id r
      (fun spec hr => hinit id spec (hr ▸ List.mem_cons_self)) former w
    have hrest := ih (fun id spec hmem => hinit id spec (List.mem_cons_of_mem _ hmem))
      (attachReference s ⟨number, .reference, id⟩ r former w).1
      (attachReference s ⟨number, .reference, id⟩ r former w).2
    refine ⟨hrest.properties.trans hfirst.properties, fun other hother => ?_,
      fun other hother => ?_⟩
    · obtain ⟨hne, hother⟩ := List.ne_and_not_mem_of_not_mem_cons hother
      exact (hrest.former other hother).trans (hfirst.former other (by simpa using hne))
    · obtain ⟨hne, hother⟩ := List.ne_and_not_mem_of_not_mem_cons hother
      exact (hrest.next other hother).trans (hfirst.next other (by simpa using hne))

/-- The error line about a reference whose value could not be made. -/
def initFailure (s : Setting) (id : String) (f : Fault) : LogEntry :=
  ⟨.error, s.time, "reference '" ++ id ++ "' init failed: " ++ f.message⟩

/-- The value of a reference that has none is what the program for it gives, and if the program
fails that is logged and there is no value. -/
lemma makeValue_of_none (m : MemberId) (hinit : spec.init.LeavesCells)
    (hnone : w.cells.value? m.id = none) :
    (∀ values, (spec.init.run s w).1 = .ok values →
      (makeValue s m spec w).cells.value? m.id = some (spec.make values)) ∧
    ∀ f, (spec.init.run s w).1 = .error f →
      (makeValue s m spec w).cells.value? m.id = none ∧
        initFailure s m.id f ∈ (makeValue s m spec w).turn.outbox.log := by
  have hrun := hinit s w
  unfold makeValue
  rw [hnone, if_neg (by simp)]
  rcases h : spec.init.run s w with ⟨f | values, w'⟩
  · rw [h] at hrun
    refine ⟨nofun, fun f' hf => ?_⟩
    cases hf
    refine ⟨?_, List.mem_concat_self⟩
    rw [show w'.cells = w.cells from hrun]
    exact hnone
  · refine ⟨fun values' hvalues => ?_, nofun⟩
    cases hvalues
    exact Cells.value?_setReference_self ..

/-- A reference that arrives has the value of the former one of its name and kind. -/
lemma value?_attachReference_of_kept {r : Reference} {v : RefValue}
    (hr : former.references.find? id = some r) (hkind : r.kind = spec.kind)
    (hv : r.value = some v) :
    (attachReference s ⟨number, .reference, id⟩ (.typed spec) former w).2.cells.value? id =
      some v := by
  obtain ⟨r', hr', -, heq⟩ | ⟨hne, -⟩ := moveValue_eq id spec.kind w.cells former
  · rw [hr] at hr'
    cases hr'
    have hvalue : (w.cells.setReference id ⟨spec.kind, r.holding⟩).value? id = some v :=
      (Cells.value?_setReference_self ..).trans hv
    unfold attachReference makeValue
    simp only [heq, hvalue, Option.isSome_some, if_true]
  · exact absurd hkind (hne r hr)

/-- A reference that arrives where there is no value to take over is given a new one. -/
lemma value?_attachReference_of_made (s : Setting) (number : ℕ) (hinit : spec.init.LeavesCells)
    (hfree : w.cells.value? id = none)
    (hnone : ∀ r, former.references.find? id = some r → r.kind = spec.kind → r.value = none) :
    ∃ cells, cells.LooksLike w.cells ∧
      (∀ values, (spec.init.run s ⟨cells, w.turn⟩).1 = .ok values →
        (attachReference s ⟨number, .reference, id⟩ (.typed spec) former w).2.cells.value? id =
          some (spec.make values)) ∧
      ∀ f, (spec.init.run s ⟨cells, w.turn⟩).1 = .error f →
        (attachReference s ⟨number, .reference, id⟩ (.typed spec) former w).2.cells.value? id =
          none ∧
        initFailure s id f ∈ (attachReference s ⟨number, .reference, id⟩ (.typed spec) former
          w).2.turn.outbox.log := by
  have hlooks : (moveValue id spec.kind w.cells former).1.LooksLike w.cells := by
    obtain ⟨r, hr, hkind, heq⟩ | ⟨-, heq⟩ := moveValue_eq id spec.kind w.cells former
    · rw [heq]
      refine fun other => ⟨rfl, ?_⟩
      by_cases hother : other = id
      · rw [hother, Cells.value?_setReference_self, hfree]
        exact hnone r hr hkind
      · exact Cells.value?_congr (Cells.find?_setReference_of_ne hother ..)
    · rw [heq]
      exact fun _ => ⟨rfl, rfl⟩
  refine ⟨_, hlooks, ?_⟩
  exact makeValue_of_none (w := { w with cells := (moveValue id spec.kind w.cells former).1 })
    ⟨number, .reference, id⟩ hinit ((hlooks id).2.trans hfree)

/-! ## Members that arrive and members that are given up -/

/-- The former state and the workbench when the properties and the first references of an iteration
have arrived. -/
def arrivals (s : Setting) (next former : Iteration) (t : Turn) (front : Named ReferenceMember) :
    Cells × Workbench :=
  attachReferences s next.number front former.cells
    ⟨carryProperties next.cells former.cells,
      { t with attached := t.attached ++ Named.names next.members.controls }⟩

variable {next i : Iteration} {t : Turn} {front rest : Named ReferenceMember}

/-- When everything has arrived the members that are given up are disposed of. -/
lemma attach_eq (s : Setting) (next former : Iteration) (t : Turn) :
    attach s next former t =
      ({ next with cells := (arrivals s next former t next.members.references).2.cells },
        (disposeMembers s (givenUp next former)
          ⟨(arrivals s next former t next.members.references).1,
            (arrivals s next former t next.members.references).2.turn⟩).turn) := rfl

/-- One more reference arrives. -/
lemma arrivals_concat (s : Setting) (next former : Iteration) (t : Turn)
    (front : Named ReferenceMember) (id : String) (r : ReferenceMember) :
    arrivals s next former t (front ++ [(id, r)]) =
      attachReference s ⟨next.number, .reference, id⟩ r (arrivals s next former t front).1
        (arrivals s next former t front).2 :=
  attachReferences_append ..

/-- The references behind some others do not touch these. -/
lemma aside_arrivals_append (s : Setting) (next i : Iteration) (t : Turn)
    (front rest : Named ReferenceMember)
    (hinit : ∀ id spec, (id, .typed spec) ∈ front ++ rest → spec.init.LeavesCells) :
    Aside (Named.names rest) (arrivals s next i t front).1 (arrivals s next i t (front ++ rest)).1
      (arrivals s next i t front).2.cells (arrivals s next i t (front ++ rest)).2.cells := by
  have happend : arrivals s next i t (front ++ rest) =
      attachReferences s next.number rest (arrivals s next i t front).1
        (arrivals s next i t front).2 := attachReferences_append ..
  rw [happend]
  exact aside_attachReferences s next.number rest
    (fun id spec hmem => hinit id spec (List.mem_append_right _ hmem)) _ _

/-- Before a reference arrives its former state and its own are as they were. -/
lemma aside_arrivals (s : Setting) (next i : Iteration) (t : Turn)
    (hinit : ∀ id spec, (id, .typed spec) ∈ front → spec.init.LeavesCells) :
    Aside (Named.names front) i.cells (arrivals s next i t front).1
      (carryProperties next.cells i.cells) (arrivals s next i t front).2.cells :=
  aside_attachReferences s next.number front hinit _ _

/-- The former members of a category that are given up are those that no new one of their name takes
over. -/
lemma mem_names_dropped {α : Type} {takesOver : α → α → Bool} {next former : Named α}
    (hnext : (Named.names next).Nodup) (hformer : (Named.names former).Nodup) {id : String} :
    id ∈ Named.names (rejected takesOver next former ++ left next former) ↔
      ∃ b, Named.find? id former = some b ∧
        ∀ a, Named.find? id next = some a → takesOver a b = false := by
  unfold Named.names
  rw [List.map_append, List.mem_append]
  constructor
  · rintro (h | h)
    · obtain ⟨⟨id, b⟩, he, rfl⟩ := List.mem_map.mp h
      obtain ⟨a, ha, hfind, htakes⟩ := mem_rejected.mp he
      refine ⟨b, hfind, fun a' ha' => ?_⟩
      rw [Named.find?_of_mem hnext ha] at ha'
      cases ha'
      exact htakes
    · obtain ⟨e, he, rfl⟩ := List.mem_map.mp h
      obtain ⟨hmem, hfind⟩ := mem_left.mp he
      refine ⟨e.2, Named.find?_of_mem hformer hmem, fun a ha => ?_⟩
      rw [hfind] at ha
      contradiction
  · rintro ⟨b, hfind, htakes⟩
    cases ha : Named.find? id next with
    | none => exact .inr (List.mem_map.mpr ⟨_, mem_left.mpr ⟨Named.mem_of_find? hfind, ha⟩, rfl⟩)
    | some a =>
      exact .inl (List.mem_map.mpr
        ⟨_, mem_rejected.mpr ⟨a, Named.mem_of_find? ha, hfind, htakes a ha⟩, rfl⟩)

/-- The members of a category that are given up, in terms of forms: those that are not built in, and
those for which there is no new one of their name and form. -/
lemma mem_names_dropped_iff {α : Type} {takesOver : α → α → Bool} {form? : α → Option Form}
    (htakes : ∀ a b, takesOver a b = true ↔ form? b ≠ none ∧ form? a = form? b)
    {next former : Named α} (hnext : (Named.names next).Nodup)
    (hformer : (Named.names former).Nodup) (id : String) :
    id ∈ Named.names (rejected takesOver next former ++ left next former) ↔
      ∃ x, (Named.find? id former).map form? = some x ∧
        (x = none ∨ (Named.find? id next).map form? ≠ some x) := by
  have htakes' (a b : α) : takesOver a b = false ↔ form? b = none ∨ form? a ≠ form? b := by
    rw [← Bool.not_eq_true, htakes]
    tauto
  rw [mem_names_dropped hnext hformer]
  constructor
  · rintro ⟨b, hb, h⟩
    refine ⟨form? b, by rw [hb, Option.map_some], ?_⟩
    cases ha : Named.find? id next with
    | none => exact .inr nofun
    | some a => simpa using (htakes' a b).mp (h a ha)
  · rintro ⟨x, hx, h⟩
    obtain ⟨b, hb, rfl⟩ := Option.map_eq_some_iff.mp hx
    refine ⟨b, hb, fun a ha => (htakes' a b).mpr ?_⟩
    rw [ha] at h
    simpa using h

/-- The members that are given up, in terms of forms. -/
lemma mem_ids_givenUp {next former : Iteration} (hnext : next.members.Distinct)
    (hformer : former.members.Distinct) {m : MemberId} :
    m ∈ (givenUp next former).map Prod.fst ↔ m.installation = former.number ∧
      ∃ x, former.members.form? m.category m.id = some x ∧
        (x = none ∨ next.members.form? m.category m.id ≠ some x) := by
  have hcontrols (name : String) := mem_names_dropped_iff
    (fun a b => @Control.takesOver_iff a b) hnext.controls hformer.controls name
  have hports (name : String) := mem_names_dropped_iff
    (fun a b => @Port.takesOver_iff a b) hnext.ports hformer.ports name
  have hreferences (name : String) := mem_names_dropped_iff
    (fun a b => @ReferenceMember.takesOver_iff a b) hnext.references hformer.references name
  rw [(perm_givenUp next former).mem_iff, Members.mem_ids]
  refine and_congr_right fun _ => ?_
  cases m.category with
  | control => exact hcontrols m.id
  | port => exact hports m.id
  | reference => exact hreferences m.id

/-! ## What is carried over -/

/-- Which members take part when an iteration follows another, and what becomes of their values; the
members `given` are those that are disposed of. -/
structure CarriesOver (s : Setting) (next former : Iteration) (t : Turn) (given : List MemberId) :
    Prop where
  /-- A property goes on with the value and the stamp of the former one of its name and shape. -/
  property_kept : ∀ id shape default,
    Named.find? id next.members.controls = some (.property shape default) →
      former.members.form? .control id = some (some (.property shape)) →
        ∃ p, former.cells.property? id = some p ∧
          (attach s next former t).1.cells.property? id = some p
  /-- Where there was none it has its default and no stamp. -/
  property_made : ∀ id shape default,
    Named.find? id next.members.controls = some (.property shape default) →
      former.members.form? .control id ≠ some (some (.property shape)) →
        (attach s next former t).1.cells.property? id = some { shape := shape, value := default }
  /-- A reference goes on with the value of the former one of its name and kind. -/
  value_kept : ∀ id spec v, Named.find? id next.members.references = some (.typed spec) →
    former.members.form? .reference id = some (some (.reference spec.kind)) →
      former.cells.value? id = some v → (attach s next former t).1.cells.value? id = some v
  /-- Where there was none, or none with a value, a value is made in the state in which the
  references before it have arrived; if that fails there is no value, and the log says so. -/
  value_made : ∀ front id spec rest,
    next.members.references = front ++ (id, .typed spec) :: rest →
      (former.members.form? .reference id = some (some (.reference spec.kind)) →
        former.cells.value? id = none) →
        ∃ cells, cells.LooksLike (arrivals s next former t front).2.cells ∧
          (∀ values, (spec.init.run s ⟨cells, (arrivals s next former t front).2.turn⟩).1 =
              .ok values →
            (attach s next former t).1.cells.value? id = some (spec.make values)) ∧
          ∀ f, (spec.init.run s ⟨cells, (arrivals s next former t front).2.turn⟩).1 = .error f →
            (attach s next former t).1.cells.value? id = none ∧
              initFailure s id f ∈ (attach s next former t).2.outbox.log
  /-- The former members that are disposed of are those whose form no new one of their category and
  name has, and those that are not built in. -/
  given_iff : ∀ m, m ∈ given ↔ m.installation = former.number ∧
    ∃ x, former.members.form? m.category m.id = some x ∧
      (x = none ∨ next.members.form? m.category m.id ≠ some x)
  /-- Each of them is disposed of once, and no other member is. -/
  disposed : given.Nodup ∧ (attach s next former t).2.chronicle.moments =
    (given.map fun m => (m, .dispose)).reverse ++ t.chronicle.moments
  /-- Nothing is disposed of before the last member has arrived. -/
  late : (arrivals s next former t next.members.references).2.turn.chronicle.moments =
    t.chronicle.moments

section

variable (hinit : ∀ id spec, (id, .typed spec) ∈ next.members.references → spec.init.LeavesCells)

include hinit

/-- A property afterwards. -/
lemma property?_attach (s : Setting) (i : Iteration) (t : Turn) (id : String) :
    (attach s next i t).1.cells.property? id =
      (next.cells.property? id).map (carryProperty i.cells id) := by
  have hproperties := (aside_arrivals s next i t hinit).properties
  have hattach : (attach s next i t).1.cells.property? id =
      (carryProperties next.cells i.cells).property? id :=
    congrArg (Keyed.find? id) hproperties
  rw [hattach, property?_carryProperties]

variable (hnames : (Named.names next.members.references).Nodup)
  (hsplit : next.members.references = front ++ (id, .typed spec) :: rest)

include hnames hsplit

/-- A reference afterwards has the value that it has when it has arrived; and it arrives with the
former state and its own as they were. -/
lemma aside_around (s : Setting) (i : Iteration) (t : Turn) :
    (arrivals s next i t front).1.references.find? id = i.cells.references.find? id ∧
      (arrivals s next i t front).2.cells.references.find? id =
        next.cells.references.find? id ∧
      (attach s next i t).1.cells.value? id =
        (attachReference s ⟨next.number, .reference, id⟩ (.typed spec)
          (arrivals s next i t front).1 (arrivals s next i t front).2).2.cells.value? id := by
  rw [hsplit] at hnames hinit
  unfold Named.names at hnames
  rw [List.map_append, List.map_cons] at hnames
  have hfront : id ∉ Named.names front := fun hmem =>
    (List.nodup_append.mp hnames).2.2 id hmem id List.mem_cons_self rfl
  have hrest : id ∉ Named.names rest :=
    (List.nodup_cons.mp (List.nodup_append.mp hnames).2.1).1
  have hbefore := aside_arrivals s next i t
    fun name spec hmem => hinit name spec (List.mem_append_left _ hmem)
  have happend : front ++ (id, ReferenceMember.typed spec) :: rest =
      (front ++ [(id, .typed spec)]) ++ rest := by simp
  have hbehind := aside_arrivals_append s next i t (front ++ [(id, .typed spec)]) rest
    (happend ▸ hinit)
  refine ⟨hbefore.former id hfront, hbefore.next id hfront, ?_⟩
  rw [attach_eq, ← arrivals_concat, hsplit, happend]
  exact Cells.value?_congr (hbehind.next id hrest)

end

/-- What is logged while references arrive is still in the log afterwards. -/
lemma logs_arrivals_attach (s : Setting) (next i : Iteration) (t : Turn)
    (front rest : Named ReferenceMember) (hsplit : next.members.references = front ++ rest) :
    (arrivals s next i t front).2.turn.Logs (attach s next i t).2 := by
  have happend : arrivals s next i t (front ++ rest) =
      attachReferences s next.number rest (arrivals s next i t front).1
        (arrivals s next i t front).2 := attachReferences_append ..
  have hrest := Turn.hookRule_logs.attachReferences s next.number rest
    (arrivals s next i t front).1 (arrivals s next i t front).2
  rw [← happend, ← hsplit] at hrest
  rw [attach_eq]
  exact Turn.hookRule_logs.trans hrest (Turn.hookRule_logs.disposeMembers s (givenUp next i)
    ⟨(arrivals s next i t next.members.references).1,
      (arrivals s next i t next.members.references).2.turn⟩)

/-- A reference without a former value of its kind. -/
lemma value?_eq_none_of_form? {i : Iteration} (hi : i.Coherent) {kind : RefKind} {r : Reference}
    (hfree : i.members.form? .reference id = some (some (.reference kind)) →
      i.cells.value? id = none)
    (hr : i.cells.references.find? id = some r) (hkind : r.kind = kind) : r.value = none := by
  have hform := (hi.reference id kind).mp (by rw [hr, Option.map_some, hkind])
  have hvalue := hfree hform
  unfold Cells.value? at hvalue
  rwa [hr, Option.bind_some] at hvalue

section

variable {former : Iteration} (hnext : next.members.Distinct)
  (hinit : ∀ id spec, (id, .typed spec) ∈ next.members.references → spec.init.LeavesCells)
  (hformer : former.Coherent)

include hnext hinit hformer

/-- A property that takes over a former one. -/
lemma property_kept (hcells : next.cells = initialCells next.members) (s : Setting) (t : Turn)
    {shape : Shape} {default : Value}
    (hdeclared : Named.find? id next.members.controls = some (.property shape default))
    (hform : former.members.form? .control id = some (some (.property shape))) :
    ∃ p, former.cells.property? id = some p ∧
      (attach s next former t).1.cells.property? id = some p := by
  obtain ⟨p, hp, hshape⟩ := Option.map_eq_some_iff.mp ((hformer.property id shape).mpr hform)
  refine ⟨p, hp, ?_⟩
  rw [property?_attach hinit, hcells,
    (property?_initialCells hnext).mpr ⟨shape, default, hdeclared, rfl⟩, Option.map_some]
  simp only [carryProperty, hp, hshape, if_true]

/-- A property that starts anew. -/
lemma property_made (hcells : next.cells = initialCells next.members) (s : Setting) (t : Turn)
    {shape : Shape} {default : Value}
    (hdeclared : Named.find? id next.members.controls = some (.property shape default))
    (hform : former.members.form? .control id ≠ some (some (.property shape))) :
    (attach s next former t).1.cells.property? id = some { shape := shape, value := default } := by
  rw [property?_attach hinit, hcells,
    (property?_initialCells hnext).mpr ⟨shape, default, hdeclared, rfl⟩, Option.map_some]
  unfold carryProperty
  cases hp : former.cells.property? id with
  | none => rfl
  | some p =>
    have hne : shape ≠ p.shape := fun hshape =>
      hform ((hformer.property id shape).mp (by rw [hp, Option.map_some, hshape]))
    simp only [if_neg hne]

/-- A reference that takes over the value of a former one. -/
lemma value_kept (s : Setting) (t : Turn) {v : RefValue}
    (hdeclared : Named.find? id next.members.references = some (.typed spec))
    (hform : former.members.form? .reference id = some (some (.reference spec.kind)))
    (hv : former.cells.value? id = some v) :
    (attach s next former t).1.cells.value? id = some v := by
  obtain ⟨r, hr, hkind⟩ := Option.map_eq_some_iff.mp ((hformer.reference id spec.kind).mpr hform)
  obtain ⟨front, rest, hsplit⟩ := List.append_of_mem (Named.mem_of_find? hdeclared)
  obtain ⟨hbefore, -, hafter⟩ := aside_around hinit hnext.references hsplit s former t
  have hr' : r.value = some v := by
    unfold Cells.value? at hv
    rwa [hr, Option.bind_some] at hv
  rw [hafter]
  exact value?_attachReference_of_kept (hbefore.trans hr) hkind hr'

/-- A reference that is given a new value, or none if that fails. -/
lemma value_made (hcells : next.cells = initialCells next.members) (s : Setting) (t : Turn)
    (hsplit : next.members.references = front ++ (id, .typed spec) :: rest)
    (hfree : former.members.form? .reference id = some (some (.reference spec.kind)) →
      former.cells.value? id = none) :
    ∃ cells, cells.LooksLike (arrivals s next former t front).2.cells ∧
      (∀ values, (spec.init.run s ⟨cells, (arrivals s next former t front).2.turn⟩).1 =
          .ok values →
        (attach s next former t).1.cells.value? id = some (spec.make values)) ∧
      ∀ f, (spec.init.run s ⟨cells, (arrivals s next former t front).2.turn⟩).1 = .error f →
        (attach s next former t).1.cells.value? id = none ∧
          initFailure s id f ∈ (attach s next former t).2.outbox.log := by
  obtain ⟨hbefore, hown, hafter⟩ := aside_around hinit hnext.references hsplit s former t
  have hmem : (id, ReferenceMember.typed spec) ∈ next.members.references := by
    rw [hsplit]
    exact List.mem_append_right _ List.mem_cons_self
  have hempty : (arrivals s next former t front).2.cells.value? id = none := by
    rw [Cells.value?_congr hown, hcells, Cells.value?,
      (find?_references_initialCells hnext).mpr
        ⟨spec, Named.find?_of_mem hnext.references hmem, rfl⟩]
    rfl
  obtain ⟨cells, hlooks, hok, herror⟩ := value?_attachReference_of_made s next.number
    (hinit id spec hmem) hempty
    fun r hr hkind => value?_eq_none_of_form? hformer hfree (hbefore ▸ hr) hkind
  have hlogs := logs_arrivals_attach s next former t (front ++ [(id, .typed spec)]) rest
    (by simp [hsplit])
  rw [arrivals_concat] at hlogs
  rw [← hafter] at hok herror
  exact ⟨cells, hlooks, hok, fun f hf => ⟨(herror f hf).1, hlogs.subset (herror f hf).2⟩⟩

/-- Nothing that is built in is lost if the new members have the forms of the former ones. -/
lemma kept_of_form? (hcells : next.cells = initialCells next.members) (s : Setting) (t : Turn)
    (hsame : ∀ category id, next.members.form? category id = former.members.form? category id) :
    (∀ id p, former.cells.property? id = some p →
      (attach s next former t).1.cells.property? id = some p) ∧
    (∀ id v, former.cells.value? id = some v →
      (attach s next former t).1.cells.value? id = some v) ∧
    ∀ m ∈ (givenUp next former).map Prod.fst,
      former.members.form? m.category m.id = some none := by
  refine ⟨fun id p hp => ?_, fun id v hv => ?_, fun m hm => ?_⟩
  · have hform := (hformer.property id p.shape).mp (by rw [hp, Option.map_some])
    obtain ⟨default, hdeclared⟩ :=
      Members.form?_control_eq_property.mp ((hsame .control id).trans hform)
    obtain ⟨p', hp', hkept⟩ := property_kept hnext hinit hformer hcells s t hdeclared hform
    rw [hp] at hp'
    cases hp'
    exact hkept
  · obtain ⟨r, hr, -⟩ := Option.bind_eq_some_iff.mp hv
    have hform := (hformer.reference id r.kind).mp (by rw [hr, Option.map_some])
    obtain ⟨spec, hdeclared, hkind⟩ :=
      Members.form?_reference_eq_reference.mp ((hsame .reference id).trans hform)
    rw [← hkind] at hform
    exact value_kept hnext hinit hformer s t hdeclared hform hv
  · obtain ⟨-, x, hx, rfl | hne⟩ := (mem_ids_givenUp hnext hformer.distinct).mp hm
    · exact hx
    · exact absurd ((hsame m.category m.id).trans hx) hne

end

/-- Hot swap carries over exactly what is compatible.  When an iteration, as its behavior declares
it, follows another one, it takes over the values of the properties and references of the same
category, name and form, and starts anew with the others; of the former members exactly those that
are not taken over are disposed of, once each, when everything has arrived.  In particular nothing
that is built in is lost or disposed of if the new behavior has the same forms as the former one.

What is asked of the former iteration holds of every unit of every root (`Root.Reachable.coherent`),
and what is asked of the next one of every iteration that is made of a behavior. -/
theorem carries_over (s : Setting) (next former : Iteration) (t : Turn)
    (hnext : next.members.Distinct) (hcells : next.cells = initialCells next.members)
    (hinit : ∀ id spec, (id, .typed spec) ∈ next.members.references → spec.init.LeavesCells)
    (hformer : former.Coherent) :
    ∃ given, CarriesOver s next former t given ∧
      ((∀ category id, next.members.form? category id = former.members.form? category id) →
        (∀ id p, former.cells.property? id = some p →
          (attach s next former t).1.cells.property? id = some p) ∧
        (∀ id v, former.cells.value? id = some v →
          (attach s next former t).1.cells.value? id = some v) ∧
        ∀ m ∈ given, former.members.form? m.category m.id = some none) := by
  refine ⟨(givenUp next former).map Prod.fst, ?_, kept_of_form? hnext hinit hformer hcells s t⟩
  exact {
    property_kept := fun _ _ _ => property_kept hnext hinit hformer hcells s t
    property_made := fun _ _ _ => property_made hnext hinit hformer hcells s t
    value_kept := fun _ _ _ => value_kept hnext hinit hformer s t
    value_made := fun _ _ _ _ => value_made hnext hinit hformer hcells s t
    given_iff := fun _ => mem_ids_givenUp hnext hformer.distinct
    disposed := ⟨(ids_givenUp hnext hformer.distinct).1, by
      rw [moments_attach, Chronicle.moments_momentAll, List.map_map]⟩
    late := moments_attachReferences .. }

/-- A reference that is made without doing anything, or fails to be. -/
def counter (result : Except Fault (List Value)) : ReferenceMember :=
  .typed { kind := .int, init := .done result, make := fun _ => .int 0 }

/-- An iteration with a level that was set, a value and a member of its own kind. -/
def worn : Iteration where
  members :=
    { controls := [("level", .property .int (.int 0)), ("probe", .observer {})]
      references := [("count", counter (.ok []))] }
  cells :=
    { properties := [("level", { shape := .int, value := .int 7, lastSet := some 3 })]
      references := [("count", ⟨.int, some ⟨.int 5, ⟨0, .reference, "count"⟩⟩⟩)] }

/-- One that has the same members without the last one, and a reference that cannot be made. -/
def renewed : Iteration where
  members :=
    { controls := [("level", .property .int (.int 1))]
      references := [("count", counter (.ok [])), ("spare", counter (.error (.other "empty")))] }
  cells :=
    { properties := [("level", { shape := .int, value := .int 1 })]
      references := [("count", { kind := .int }), ("spare", { kind := .int })] }
  number := 1

/-- The surroundings of a unit of its own. -/
def plain : Setting := ⟨none, 0, [], .info⟩

/-- The one in the place of the other. -/
def swapped : Iteration × Turn := attach plain renewed worn { ledger := {} }

/-- The level and the value are kept, the other reference has no value and the log says why, and the
member of its own kind is given up. -/
theorem carries_over_renewed :
    renewed.members.Distinct ∧ renewed.cells = initialCells renewed.members ∧
      (∀ id spec, (id, ReferenceMember.typed spec) ∈ renewed.members.references →
        spec.init.LeavesCells) ∧ worn.Coherent ∧
      swapped.1.cells.property? "level" =
        some { shape := .int, value := .int 7, lastSet := some 3 } ∧
      swapped.1.cells.value? "count" = some (.int 5) ∧
      swapped.1.cells.value? "spare" = none ∧
      initFailure plain "spare" (.other "empty") ∈ swapped.2.outbox.log ∧
      (⟨0, .control, "probe"⟩, .dispose) ∈ swapped.2.chronicle.moments := by
  have hdistinct : renewed.members.Distinct := ⟨by decide, by decide, by decide⟩
  have hcells : renewed.cells = initialCells renewed.members := by rfl
  have hinit (id : String) (spec : ReferenceSpec)
      (hmem : (id, ReferenceMember.typed spec) ∈ renewed.members.references) :
      spec.init.LeavesCells := by
    have hmem' : (id, ReferenceMember.typed spec) ∈
      [("count", counter (.ok [])), ("spare", counter (.error (.other "empty")))] := hmem
    simp only [counter, List.mem_cons, Prod.mk.injEq, ReferenceMember.typed.injEq,
      List.not_mem_nil, or_false] at hmem'
    obtain ⟨-, rfl⟩ | ⟨-, rfl⟩ := hmem' <;> exact fun _ _ => rfl
  have hworn : worn.Coherent := by
    refine coherent_initialCells ⟨by decide, by decide, by decide⟩ ⟨fun id => ?_, fun id => ?_⟩
    · by_cases hid : id = "level"
      · rw [hid]
        rfl
      · simp [worn, initialCells, Cells.property?, Keyed.find?, Keyed.ofList, Keyed.insert,
          Ne.symm hid]
    · by_cases hid : id = "count"
      · rw [hid]
        rfl
      · simp [worn, initialCells, Keyed.find?, Keyed.ofList, Keyed.insert, counter, Ne.symm hid]
  obtain ⟨given, h, -⟩ := carries_over plain renewed worn { ledger := {} } hdistinct
    hcells hinit hworn
  have hform : worn.members.form? .reference "spare" = none := rfl
  obtain ⟨cells, -, -, hspare⟩ := h.value_made [("count", counter (.ok []))] "spare" _ [] rfl
    fun hsome => absurd (hform.symm.trans hsome) (Option.some_ne_none _).symm
  obtain ⟨p, hp, hlevel⟩ := h.property_kept "level" .int (.int 1) rfl rfl
  cases hp
  obtain ⟨hnone, hlog⟩ := hspare _ rfl
  refine ⟨hdistinct, hcells, hinit, hworn, hlevel,
    h.value_kept "count" _ (.int 5) rfl rfl rfl, hnone, hlog, ?_⟩
  have hprobe : (⟨0, .control, "probe"⟩ : MemberId) ∈ given :=
    (h.given_iff _).mpr ⟨rfl, none, rfl, .inl rfl⟩
  have hmoments : swapped.2.chronicle.moments = (given.map fun m => (m, .dispose)).reverse ++ [] :=
    h.disposed.2
  rw [hmoments, List.append_nil, List.mem_reverse]
  exact List.mem_map_of_mem hprobe

end Iteration

end Switchboard
