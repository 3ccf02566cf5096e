import Mathlib
import Switchboard.Proofs.Coherence
import Switchboard.Proofs.Custody

/-!
# Executors in references

An executor is abstract to the members of a behavior: they are given it by a reference, have it do
something and put it back, but they can neither look into it nor make one up.  Programs as they are
defined could do that, so it is said of members (`Members.Abstract`) in this form: whatever property
new executors have, and those that a member is given, all executors that it uses have it.

So a property that executors keep in whatever they are asked to do (`ScriptExecutor.Invariant`) is
one of all executors that the references of units hold, in every root that can be reached with such
members (`Root.Reachable.executor`).
-/

namespace Switchboard

/-! ## What programs do with executors -/

/-- Whether a value is not an executor without a property. -/
def RefValue.Within (P : ScriptExecutor → Prop) : RefValue → Prop
  | .executor x => P x
  | _ => True

/-- Whether the executors that a program uses have a property, if those that it is given have it. -/
def Program.Within (P : ScriptExecutor → Prop) : Program → Prop
  | .done _ => True
  | .look next => ∀ s attached, (next s attached).Within P
  | .request _ _ _ _ next => ∀ c, (next c).Within P
  | .quiet _ _ _ _ next => ∀ c, (next c).Within P
  | .reply _ _ next => ∀ r, (next r).Within P
  | .error _ _ next => ∀ r, (next r).Within P
  | .emit _ _ next => next.Within P
  | .log _ _ _ next => next.Within P
  | .note _ _ next => next.Within P
  | .noteCall _ _ next => next.Within P
  | .getProperty _ next => ∀ p, (next p).Within P
  | .setProperty _ _ _ next => ∀ r, (next r).Within P
  | .getReference _ next => ∀ v : Option RefValue, (∀ w ∈ v, w.Within P) → (next v).Within P
  | .setReference _ v next => v.Within P ∧ next.Within P
  | .execute x _ next => P x ∧ ∀ r y, P y → (next r y).Within P

/-- Whether the executors have a property that a reference is given or uses. -/
structure ReferenceSpec.Within (P : ScriptExecutor → Prop) (spec : ReferenceSpec) : Prop where
  init : spec.init.Within P
  make : ∀ values, (spec.make values).Within P
  hook : ∀ h handler v, spec.hook h = some handler → v.Within P → (handler v).Within P

/-- Whether the executors have a property that the members of a behavior use, if those that they are
given have it. -/
structure Members.Within (P : ScriptExecutor → Prop) (m : Members) : Prop where
  function : ∀ id handler args, (id, .function handler) ∈ m.controls → (handler args).Within P
  raw : ∀ id handler c, (id, .raw handler) ∈ m.controls → (handler c).Within P
  input : ∀ id handler values, (id, .input handler) ∈ m.ports → (handler values).Within P
  reference : ∀ id spec, (id, .typed spec) ∈ m.references → spec.Within P
  tick : ∀ p ∈ m.tick, p.Within P

/-- Whether executors are abstract to a reference. -/
def ReferenceSpec.Abstract (spec : ReferenceSpec) : Prop :=
  ∀ P : ScriptExecutor → Prop, P .new → spec.Within P

/-- Whether executors are abstract to a program that is made of the value of a reference. -/
def RefValue.AbstractTo (f : RefValue → Program) : Prop :=
  ∀ P : ScriptExecutor → Prop, P .new → ∀ v : RefValue, v.Within P → (f v).Within P

/-- A hook of a reference to which executors are abstract. -/
lemma ReferenceSpec.Abstract.hook {spec : ReferenceSpec} (hspec : spec.Abstract) {h : Hook}
    {handler : RefValue → Program} (hhandler : spec.hook h = some handler) :
    RefValue.AbstractTo handler :=
  fun P hP v => (hspec P hP).hook h handler v hhandler

/-- Whether executors are abstract to the members of a behavior. -/
def Members.Abstract (m : Members) : Prop := ∀ P : ScriptExecutor → Prop, P .new → m.Within P

/-- Without members there is nothing that could use executors. -/
lemma Members.abstract_empty : Members.Abstract {} := fun _ _ =>
  ⟨by simp, by simp, by simp, by simp, by simp⟩

/-! ## What cells keep -/

/-- Whether all executors that cells keep have a property. -/
def Cells.Within (P : ScriptExecutor → Prop) (c : Cells) : Prop :=
  ∀ id v, c.value? id = some v → v.Within P

/-- An executor has a weaker property, too. -/
lemma RefValue.Within.mono {P P' : ScriptExecutor → Prop} {v : RefValue} (hP : ∀ x, P x → P' x)
    (hv : v.Within P) : v.Within P' := by
  cases v with
  | executor x => exact hP x hv
  | _ => trivial

namespace Cells

variable {P P' : ScriptExecutor → Prop} {c : Cells}

/-- Without references there are no executors. -/
lemma within_empty : Within P {} := nofun

/-- Executors have a weaker property, too. -/
lemma Within.mono (hP : ∀ x, P x → P' x) (hc : c.Within P) : c.Within P' :=
  fun id v hv => (hc id v hv).mono hP

/-- The references are left as they are. -/
lemma Within.of_references {d : Cells} (hc : c.Within P) (h : d.references = c.references) :
    d.Within P := fun id v hv => hc id v (value?_congr (congrArg (Keyed.find? id) h) ▸ hv)

/-- A reference is given another state. -/
lemma Within.setReference (hc : c.Within P) (id : String) {r : Reference}
    (hr : ∀ v, r.value = some v → v.Within P) : (c.setReference id r).Within P := by
  intro other v hv
  by_cases hother : other = id
  · subst hother
    rw [value?_setReference_self] at hv
    exact hr v hv
  · rw [value?_congr (find?_setReference_of_ne hother c r)] at hv
    exact hc other v hv

/-- Writing to a reference. -/
lemma Within.write (hc : c.Within P) (id : String) {v : RefValue} (hv : v.Within P) :
    (c.write id v).Within P := by
  unfold Cells.write
  split
  · split
    · split
      · refine hc.setReference id fun w hw => ?_
        cases hw
        exact hv
      · exact hc
    · exact hc
  · exact hc

/-- Taking the value of a reference. -/
lemma Within.take (hc : c.Within P) (id : String) :
    (∀ held, (c.take id).1 = some held → held.value.Within P) ∧ (c.take id).2.Within P := by
  unfold Cells.take
  split
  · next r hr =>
    refine ⟨fun held hheld => hc id held.value ?_,
      hc.setReference id fun _ hnone => absurd hnone (Option.some_ne_none _).symm⟩
    have hheld : r.holding = some held := hheld
    rw [value?, hr, Option.bind_some, Reference.value, hheld]
    rfl
  · exact ⟨fun _ hnone => absurd hnone (Option.some_ne_none _).symm, hc⟩

end Cells

/-! ## Invariants of executors -/

/-- A property of executors, given the address of the unit and calls that have been made, that they
keep in whatever they are asked to do: also where more calls are taken to have been made than
were. -/
structure ScriptExecutor.Invariant (Q : Option Path → List Call → ScriptExecutor → Prop) :
    Prop where
  new : ∀ home made, Q home made .new
  grows : ∀ {home} {made made' : List Call} {x}, made ⊆ made' → Q home made x → Q home made' x
  execute : ∀ {made : List Call} {s : Setting} {x t} task, Q s.address made x →
    (Program.executeOn s x task t).2.2.ledger.made ⊆ made →
    Q s.address made (Program.executeOn s x task t).2.1

variable {Q : Option Path → List Call → ScriptExecutor → Prop}

/-- The calls that have been made before something in a turn have been made after it. -/
lemma Turn.Course.made {t u : Turn} (h : Turn.Course t u) : t.ledger.made ⊆ u.ledger.made := by
  obtain ⟨cs, -, hexchange⟩ := h.exchange
  exact fun _ hc => hexchange.1.made hc

namespace Program

/-- The calls that have been made before a program have been made after it. -/
lemma made_run (s : Setting) (p : Program) (w : Workbench) :
    w.turn.ledger.made ⊆ (p.run s w).2.turn.ledger.made :=
  (Turn.hookRule_course.run s p w).made

/-- Setting a property leaves the references as they are. -/
lemma references_setOn (c : Cells) (id : String) (v : Value) (time : Option Int64) :
    (setOn c id v time).2.references = c.references := by
  unfold setOn
  split
  · rfl
  · split <;> rfl
  · split <;> rfl

/-- A program keeps executors in cells that have an invariant property. -/
lemma within_run (hQ : ScriptExecutor.Invariant Q) {s : Setting} {made : List Call} {p : Program}
    (hp : p.Within (Q s.address made)) {w : Workbench} (hw : w.cells.Within (Q s.address made))
    (hmade : (p.run s w).2.turn.ledger.made ⊆ made) :
    (p.run s w).2.cells.Within (Q s.address made) := by
  induction p generalizing w with
  | done result => exact hw
  | look next ih => exact ih s w.turn.attached (hp s w.turn.attached) hw hmade
  | request target source time args next ih => exact ih _ (hp _) hw hmade
  | quiet target source time args next ih => exact ih _ (hp _) hw hmade
  | reply c args next ih => exact ih _ (hp _) hw hmade
  | error c args next ih => exact ih _ (hp _) hw hmade
  | emit port values next ih => exact ih hp hw hmade
  | log always level message next ih => exact ih hp hw hmade
  | note tag values next ih => exact ih hp hw hmade
  | noteCall tag c next ih => exact ih hp hw hmade
  | getProperty id next ih => exact ih _ (hp _) hw hmade
  | setProperty id v time next ih =>
    exact ih _ (hp _) (hw.of_references (references_setOn w.cells id v time)) hmade
  | getReference id next ih => exact ih _ (hp _ (hw id)) hw hmade
  | setReference id v next ih => exact ih hp.2 (hw.write id hp.1) hmade
  | execute x task next ih =>
    have hexecuted : (executeOn s x task w.turn).2.2.ledger.made ⊆ made :=
      List.Subset.trans (made_run s _ { w with turn := (executeOn s x task w.turn).2.2 }) hmade
    exact ih _ _ (hp.2 _ _ (hQ.execute task hp.1 hexecuted)) hw hmade

end Program

namespace Workbench

/-- Whether all executors in the cells of a workbench have a property. -/
def Within (Q : Option Path → List Call → ScriptExecutor → Prop) (s : Setting) (w : Workbench) :
    Prop := w.cells.Within (Q s.address w.turn.ledger.made)

variable {s : Setting} {w w' : Workbench}

/-- Something happens that leaves the references as they are. -/
lemma Within.later (hQ : ScriptExecutor.Invariant Q) (hw : w.Within Q s)
    (hreferences : w'.cells.references = w.cells.references)
    (hcourse : Turn.Course w.turn w'.turn) : w'.Within Q s :=
  (hw.of_references hreferences).mono fun _ => hQ.grows hcourse.made

/-- A program to which executors are abstract. -/
lemma Within.run (hQ : ScriptExecutor.Invariant Q) (hw : w.Within Q s) {p : Program}
    (hp : ∀ P : ScriptExecutor → Prop, P .new → p.Within P) : (p.run s w).2.Within Q s :=
  Program.within_run hQ (hp _ (hQ.new _ _))
    (Cells.Within.mono (fun _ => hQ.grows (Program.made_run s p w)) hw) (List.Subset.refl _)

/-- A program made of a value to which executors are abstract. -/
lemma Within.run_value (hQ : ScriptExecutor.Invariant Q) (hw : w.Within Q s)
    {f : RefValue → Program} (hf : RefValue.AbstractTo f) {v : RefValue}
    (hv : v.Within (Q s.address w.turn.ledger.made)) : ((f v).run s w).2.Within Q s := by
  have hgrows : ∀ x, Q s.address w.turn.ledger.made x →
      Q s.address ((f v).run s w).2.turn.ledger.made x :=
    fun _ => hQ.grows (Program.made_run s (f v) w)
  exact Program.within_run hQ (hf _ (hQ.new _ _) v (hv.mono hgrows))
    (Cells.Within.mono hgrows hw) (List.Subset.refl _)

end Workbench

/-! ## Iterations -/

namespace Upkeep

variable {s : Setting} {w : Workbench}

/-- Whether executors are abstract to a member in the course of its life. -/
def Abstract : Upkeep → Prop
  | .reference spec => spec.Abstract
  | _ => True

/-- The report of a failure leaves the cells as they are. -/
lemma runReported_eq (s : Setting) (what id : String) (p : Program) (w : Workbench) :
    (runReported s what id p w).cells = (p.run s w).2.cells ∧
      Turn.Course (p.run s w).2.turn (runReported s what id p w).turn := by
  unfold runReported
  match h : p.run s w with
  | (.ok _, w') => exact ⟨rfl, Turn.hookRule_course.refl _⟩
  | (.error f, w') => exact ⟨rfl, Turn.hookRule_course.log s w'.turn .error _⟩

/-- A member at a moment of its life. -/
lemma within_run (hQ : ScriptExecutor.Invariant Q) (h : Hook) (m : MemberId) {u : Upkeep}
    (hu : u.Abstract) (hw : w.Within Q s) : (u.run s h m w).Within Q s := by
  have hrecord (f : Chronicle → Chronicle) {w : Workbench} (hw : w.Within Q s) :
      (record w f).Within Q s := hw
  have hreported {p : Program} {w : Workbench} (what id : String) (hp : (p.run s w).2.Within Q s) :
      (runReported s what id p w).Within Q s := by
    obtain ⟨hcells, hcourse⟩ := runReported_eq s what id p w
    exact hp.later hQ (congrArg Cells.references hcells) hcourse
  cases u with
  | none => exact hw
  | observer o =>
    exact hreported _ _ ((hrecord _ hw).run hQ fun P _ => trivial)
  | reference spec =>
    have hspec : spec.Abstract := hu
    unfold run runReference
    cases h with
    | dispose =>
      obtain ⟨hheld, hleft⟩ := hw.take m.id
      simp only
      split
      · next held handler hvalue hhandler =>
        have htaken : Workbench.Within Q s
            (record { record w (·.moment m .dispose) with cells := (w.cells.take m.id).2 }
              (·.dispose ⟨held.maker, m, true⟩)) := hleft
        exact htaken.run_value hQ (hspec.hook hhandler) (hheld held hvalue)
      · exact hleft
      · exact hleft
    | _ =>
      simp only
      split
      · next v handler hv hhandler =>
        exact hreported _ _ ((hrecord _ hw).run_value hQ (hspec.hook hhandler) (hw m.id v hv))
      · exact hw

end Upkeep

namespace Iteration

variable {s : Setting} {i : Iteration} {t : Turn}

/-- Whether all executors in the cells of an iteration have a property. -/
def Within (Q : Option Path → List Call → ScriptExecutor → Prop) (s : Setting)
    (r : Iteration × Turn) : Prop := (⟨r.1.cells, r.2⟩ : Workbench).Within Q s

/-- The members of a behavior in the course of their lives. -/
lemma abstract_of_mem_upkeeps (hi : i.members.Abstract) {e : MemberId × Upkeep}
    (he : e ∈ i.upkeeps) : e.2.Abstract := by
  obtain ⟨m, u⟩ := e
  cases u with
  | reference spec =>
    obtain ⟨-, hspec⟩ := mem_upkeeps.mp he
    exact fun P hP => (hi P hP).reference m.id spec hspec
  | _ => trivial

/-- A moment in the life of all members. -/
lemma within_runHook (hQ : ScriptExecutor.Invariant Q) (h : Hook) (hi : i.members.Abstract)
    (hw : Within Q s (i, t)) : Within Q s (i.runHook s h t) := by
  have hfold (es : List (MemberId × Upkeep)) (hes : ∀ e ∈ es, e.2.Abstract) (w : Workbench)
      (hw : w.Within Q s) : (es.foldl (fun w e => e.2.run s h e.1 w) w).Within Q s := by
    induction es generalizing w with
    | nil => exact hw
    | cons e es ih =>
      exact ih (fun e he => hes e (List.mem_cons_of_mem _ he)) _
        (Upkeep.within_run hQ h e.1 (hes e List.mem_cons_self) hw)
  exact hfold i.upkeeps (fun e he => abstract_of_mem_upkeeps hi he) ⟨i.cells, t⟩ hw

/-- A tick. -/
lemma within_tick (hQ : ScriptExecutor.Invariant Q) (hi : i.members.Abstract)
    (hw : Within Q s (i, t)) : Within Q s (i.tick s t) := by
  unfold tick
  split
  · exact hw
  · next p hp =>
    have hrun : (p.run s ⟨i.cells, t⟩).2.Within Q s :=
      Workbench.Within.run hQ hw fun P hP => (hi P hP).tick p hp
    obtain ⟨hcells, hcourse⟩ := Upkeep.runReported_eq s "tick" "tick" p ⟨i.cells, t⟩
    exact hrun.later hQ (congrArg Cells.references hcells) hcourse

/-- Values for a port. -/
lemma within_receive (hQ : ScriptExecutor.Invariant Q) (hi : i.members.Abstract)
    (hw : Within Q s (i, t)) (port : String) (values : List Value) :
    Within Q s (i.receive s port values t) := by
  unfold receive
  split
  · next handler hport =>
    have hrun : ((handler values).run s ⟨i.cells, t⟩).2.Within Q s :=
      Workbench.Within.run hQ hw fun P hP =>
        (hi P hP).input port handler values (Named.mem_of_find? hport)
    match h : (handler values).run s ⟨i.cells, t⟩ with
    | (.ok result, w) =>
      rw [h] at hrun
      exact hrun
    | (.error f, w) =>
      rw [h] at hrun
      exact hrun.later hQ rfl (Turn.hookRule_course.log s w.turn .error _)
  · exact hw

/-- A call. -/
lemma within_invoke (hQ : ScriptExecutor.Invariant Q) (hi : i.members.Abstract)
    (hw : Within Q s (i, t)) (c : Call) : Within Q s (i.invoke s c t).2 := by
  unfold invoke
  split
  · exact hw
  · next control hcontrol =>
    have hmem := Named.mem_of_find? hcontrol
    have hcontrols : (callControl s c.target.id.text control c ⟨i.cells, t⟩).2.Within Q s := by
      cases control with
      | function handler =>
        have hrun : ((handler c.args).run s ⟨i.cells, t⟩).2.Within Q s :=
          Workbench.Within.run hQ hw fun P hP => (hi P hP).function _ handler c.args hmem
        unfold callControl callFunction
        simp only
        split
        · exact hw
        · match h : (handler c.args).run s ⟨i.cells, t⟩ with
          | (.error f, w) =>
            rw [h] at hrun
            exact hrun
          | (.ok result, w) =>
            rw [h] at hrun
            exact hrun.later hQ rfl (Turn.hookRule_course.replyIfExpected c result w.turn)
      | raw handler =>
        exact Workbench.Within.run hQ hw fun P hP => (hi P hP).raw _ handler c hmem
      | property shape default =>
        refine Workbench.Within.later hQ hw ?_
          (Turn.hookRule_course.callProperty _ c ⟨i.cells, t⟩)
        unfold callControl callProperty
        simp only
        split
        · rfl
        · split
          · rfl
          · split
            · rfl
            · exact Program.references_setOn ..
      | observer o => exact hw
    exact hcontrols

/-- Making the value of a reference. -/
lemma within_makeValue (hQ : ScriptExecutor.Invariant Q) (m : MemberId) {spec : ReferenceSpec}
    (hspec : spec.Abstract) {w : Workbench} (hw : w.Within Q s) :
    (makeValue s m spec w).Within Q s := by
  have hrun := hw.run hQ fun P hP => (hspec P hP).init
  unfold makeValue
  split
  · exact hw
  · match h : spec.init.run s w with
    | (.ok values, w') =>
      rw [h] at hrun
      refine Cells.Within.setReference hrun m.id fun v hv => ?_
      cases hv
      exact (hspec _ (hQ.new _ _)).make values
    | (.error f, w') =>
      rw [h] at hrun
      exact hrun.later hQ rfl (Turn.hookRule_course.log s w'.turn .error _)

/-- The arrival of a reference. -/
lemma within_attachReference (hQ : ScriptExecutor.Invariant Q) (m : MemberId)
    {spec : ReferenceSpec} (hspec : spec.Abstract)
    {former : Cells} {w : Workbench} (hw : w.Within Q s)
    (hformer : former.Within (Q s.address w.turn.ledger.made)) :
    (attachReference s m (.typed spec) former w).1.Within (Q s.address w.turn.ledger.made) ∧
      (attachReference s m (.typed spec) former w).2.Within Q s := by
  have hmove : (moveValue m.id spec.kind w.cells former).2.Within (Q s.address w.turn.ledger.made) ∧
      (moveValue m.id spec.kind w.cells former).1.Within (Q s.address w.turn.ledger.made) := by
    obtain ⟨hheld, hleft⟩ := hformer.take m.id
    unfold moveValue
    split
    · split
      · refine ⟨hleft, hw.setReference m.id fun v hv => ?_⟩
        obtain ⟨held, hholding, rfl⟩ := Option.map_eq_some_iff.mp hv
        exact hheld held hholding
      · exact ⟨hformer, hw⟩
    · exact ⟨hformer, hw⟩
  exact ⟨hmove.1, within_makeValue hQ m hspec
    (w := { w with cells := (moveValue m.id spec.kind w.cells former).1 }) hmove.2⟩

/-- The arrival of references. -/
lemma within_attachReferences (hQ : ScriptExecutor.Invariant Q) (number : ℕ)
    {rs : Named ReferenceMember} (hrs : ∀ id spec, (id, .typed spec) ∈ rs → spec.Abstract)
    {former : Cells} {w : Workbench} (hw : w.Within Q s)
    (hformer : former.Within (Q s.address w.turn.ledger.made)) :
    (attachReferences s number rs former w).2.Within Q s := by
  induction rs generalizing former w with
  | nil => exact hw
  | cons e rest ih =>
    obtain ⟨id, r⟩ := e
    have hrest : ∀ other spec, (other, .typed spec) ∈ rest → spec.Abstract :=
      fun other spec hmem => hrs other spec (List.mem_cons_of_mem _ hmem)
    cases r with
    | observer o => exact ih hrest hw hformer
    | typed spec =>
      obtain ⟨hformer', hw'⟩ := within_attachReference hQ ⟨number, .reference, id⟩
        (hrs id spec List.mem_cons_self) hw hformer
      have hcourse := Turn.hookRule_course.attachReference s ⟨number, .reference, id⟩ (.typed spec)
        former w
      exact ih hrest hw' (hformer'.mono fun _ => hQ.grows hcourse.made)

/-- An iteration that follows another. -/
lemma within_attach (hQ : ScriptExecutor.Invariant Q) {next : Iteration}
    (hmembers : next.members.Abstract) (hcells : ∀ id, next.cells.value? id = none)
    (hw : Within Q s (i, t)) : Within Q s (next.attach s i t) := by
  have hnext : (carryProperties next.cells i.cells).Within (Q s.address t.ledger.made) := by
    intro id v hv
    have hnone : (carryProperties next.cells i.cells).value? id = none := hcells id
    rw [hnone] at hv
    contradiction
  have hattached := within_attachReferences hQ (s := s) next.number
    (fun id spec hmem P hP => (hmembers P hP).reference id spec hmem)
    (w := ⟨carryProperties next.cells i.cells,
      { t with attached := t.attached ++ Named.names next.members.controls }⟩) hnext hw
  unfold attach
  rcases h : attachReferences s next.number next.members.references i.cells
    ⟨carryProperties next.cells i.cells,
      { t with attached := t.attached ++ Named.names next.members.controls }⟩ with ⟨former, w⟩
  rw [h] at hattached
  simp only [h]
  exact hattached.later hQ rfl
    (Turn.hookRule_course.disposeMembers s (givenUp next i) ⟨former, w.turn⟩)

/-- The iteration of a behavior does not hold anything yet. -/
lemma value?_ofBehavior {b : Behavior} {i : Iteration} (h : ofBehavior b = .ok i) (id : String) :
    i.cells.value? id = none := by
  obtain ⟨-, hdistinct, hcells⟩ := ofBehavior_eq_ok h
  rw [hcells, Cells.value?]
  cases hr : (initialCells i.members).references.find? id with
  | none => rfl
  | some r =>
    obtain ⟨spec, -, rfl⟩ := (find?_references_initialCells hdistinct).mp hr
    rfl

end Iteration

/-! ## Units -/

namespace Node

variable {s : Setting} {n : Node} {t : Turn}

/-- Becoming active. -/
lemma within_activate (hQ : ScriptExecutor.Invariant Q) (hn : n.iteration.members.Abstract)
    (hw : Iteration.Within Q s (n.iteration, t)) :
    Iteration.Within Q s ((n.activate s t).1.iteration, (n.activate s t).2) := by
  have hinit := Iteration.within_runHook hQ .init hn hw
  unfold activate
  simp only
  split
  · exact hinit
  · exact Iteration.within_runHook hQ .start hn hinit

/-- A behavior is put in place. -/
lemma within_install (hQ : ScriptExecutor.Invariant Q) (next : Iteration)
    (hmembers : next.members.Abstract) (hcells : ∀ id, next.cells.value? id = none) (active : Bool)
    (hw : Iteration.Within Q s (n.iteration, t)) :
    Iteration.Within Q s
      ((n.install s next active t).1.iteration, (n.install s next active t).2) := by
  have hattach := Iteration.within_attach hQ hmembers hcells hw
  rw [install_eq]
  split
  · exact within_activate (n := (n.succeed s next t).1) hQ hmembers hattach
  · exact hattach

end Node

namespace Root

/-- A turn of a unit that keeps its behavior. -/
lemma within_run (hQ : ScriptExecutor.Invariant Q) {k : Task} (hk : k.Lasting) {s : Setting}
    {n : Node} {t : Turn} (hmembers : n.iteration.members.Abstract)
    (hw : Iteration.Within Q s (n.iteration, t)) :
    Iteration.Within Q s ((k.run s n t).1.iteration, (k.run s n t).2) := by
  cases hk with
  | activate => exact Node.within_activate hQ hmembers hw
  | stop => exact Iteration.within_runHook hQ .stop hmembers hw
  | reset => exact Iteration.within_runHook hQ .reset hmembers hw
  | plain hk =>
    cases hk with
    | tick => exact Iteration.within_tick hQ hmembers hw
    | receive port values => exact Iteration.within_receive hQ hmembers hw port values
    | invoke c => exact Iteration.within_invoke hQ hmembers hw c

/-- That the executors of a unit have an invariant property, and are abstract to its members, is an
invariant of units. -/
lemma unitInvariant_executors (hQ : ScriptExecutor.Invariant Q) :
    UnitInvariant Members.Abstract fun made n =>
      n.iteration.members.Abstract ∧ n.iteration.cells.Within (Q (some n.address) made) where
  grows hmade hn := ⟨hn.1, hn.2.mono fun _ => hQ.grows hmade⟩
  same haddress hiteration hn := by
    rw [haddress, hiteration]
    exact hn
  bare hempty := by
    rw [hempty]
    exact ⟨Members.abstract_empty, Cells.within_empty⟩
  restore id v hn := by
    unfold Iteration.restoreProperty
    split
    · split
      · exact hn
      · exact hn
    · exact hn
  turn := by
    intro k s n t hk hs ⟨hmembers, hcells⟩
    have haddress : (k.run s n t).1.address = n.address :=
      congrArg Place.address (k.place_run s n t)
    have hkept : (k.run s n t).1.iteration.members = n.iteration.members :=
      (hk.follows_run s n t).members
    rw [← hs] at hcells
    rw [haddress, hkept, ← hs]
    exact ⟨hmembers, within_run hQ hk hmembers hcells⟩
  install := by
    intro i number active s n t hi hmembers hs ⟨_, hcells⟩
    obtain ⟨b, j, source, hj, rfl⟩ := hi
    have haddress : (n.install s { j with source := source, number := number } active t).1.address =
        n.address := congrArg Place.address ((Task.install _ active).place_run s n t)
    have hkept :=
      (n.follows_install s { j with source := source, number := number } active t).members
    have hnone : ∀ id, j.cells.value? id = none := Iteration.value?_ofBehavior hj
    rw [← hs] at hcells
    rw [haddress, hkept, ← hs]
    exact ⟨hmembers, Node.within_install hQ { j with source := source, number := number } hmembers
      hnone active hcells⟩

/-- All executors that the references of a unit hold have an invariant property, in every root that
can be reached, if executors are abstract to all members that were put in place. -/
theorem Reachable.executor (hQ : ScriptExecutor.Invariant Q) {r : Root} (hr : Reachable r)
    (habstract : ∀ ms ∈ r.installed, ms.Abstract) {h : Handle} {n : Node}
    (hn : r.units.get? h = some n) {id : String} {x : ScriptExecutor}
    (hx : n.iteration.cells.value? id = some (.executor x)) :
    Q (some n.address) r.ledger.made x :=
  (hr.all (unitInvariant_executors hQ) habstract h n hn).2 id _ hx

end Root

end Switchboard
