import Mathlib
import Switchboard.Iteration

/-!
# What is done to cells

Programs do three things to the cells of a behavior: they set a property at a time, they set one
whatever the time, and they write to references.  The hook of a reference may take its value
besides.  A relation between what cells come to and what they were is a rule for programs if it
holds of these changes and of changes one after the other (`Cells.Rule`), and a rule for hooks if it
holds of taking values as well (`Cells.HookRule`).  A rule then holds of whatever the members of an
iteration do, so what is to be said of cells is shown for the single changes only.

Calls, ticks and values for ports change nothing of an iteration but its cells.
-/

namespace Switchboard

/-! ## Rules -/

/-- Whether a relation holds between what cells come to and what they were when properties are set
and references are written to. -/
structure Cells.Rule (R : Cells → Cells → Prop) : Prop where
  refl : ∀ c, R c c
  trans : ∀ {c d e}, R e d → R d c → R e c
  set : ∀ {c : Cells} {id : String} {p q : Property} {v : Value} {time : Int64} {accepted : Bool},
    c.property? id = some p → p.set v time = .ok (accepted, q) → R (c.setProperty id q) c
  replace : ∀ {c : Cells} {id : String} {p q : Property} {v : Value},
    c.property? id = some p → p.replace v = .ok q → R (c.setProperty id q) c
  write : ∀ (c : Cells) (id : String) (v : RefValue), R (c.write id v) c

/-- Whether a relation holds of these changes, and also when the value of a reference is taken. -/
structure Cells.HookRule (R : Cells → Cells → Prop) : Prop extends Cells.Rule R where
  take : ∀ (c : Cells) (id : String), R (c.take id).2 c

namespace Cells.Rule

variable {R : Cells → Cells → Prop} (K : Cells.Rule R)

include K

/-- Setting a property, with a time or without. -/
lemma setOn (c : Cells) (id : String) (v : Value) (time : Option Int64) :
    R (Program.setOn c id v time).2 c := by
  unfold Program.setOn
  split
  · exact K.refl c
  · rename_i p time hp
    split
    · exact K.refl c
    · rename_i q hq
      exact K.set hp hq
  · rename_i p hp
    split
    · exact K.refl c
    · rename_i q hq
      exact K.replace hp hq

/-- A program is under every rule, whatever it does. -/
lemma run (s : Setting) (p : Program) (w : Workbench) : R (p.run s w).2.cells w.cells := by
  induction p generalizing w with
  | done result => exact K.refl _
  | look next ih => exact ih s w.turn.attached w
  | request target source time args next ih => exact ih _ _
  | quiet target source time args next ih => exact ih _ _
  | reply c args next ih => exact ih _ _
  | error c args next ih => exact ih _ _
  | emit port values next ih => exact ih _
  | log always level message next ih => exact ih _
  | note tag values next ih => exact ih _
  | noteCall tag c next ih => exact ih _
  | getProperty id next ih => exact ih _ w
  | setProperty id v time next ih =>
    exact K.trans (ih _ { w with cells := (Program.setOn w.cells id v time).2 })
      (K.setOn w.cells id v time)
  | getReference id next ih => exact ih _ w
  | setReference id v next ih =>
    exact K.trans (ih { w with cells := w.cells.write id v }) (K.write w.cells id v)
  | execute x task next ih => exact ih _ _ _

/-- A program that reports its failure. -/
lemma runReported (s : Setting) (what id : String) (p : Program) (w : Workbench) :
    R (Upkeep.runReported s what id p w).cells w.cells := by
  have hrun := K.run s p w
  unfold Upkeep.runReported
  split
  · rename_i h
    rw [h] at hrun
    exact hrun
  · rename_i h
    rw [h] at hrun
    exact hrun

/-- A tick. -/
lemma tick (s : Setting) (i : Iteration) (t : Turn) : R (i.tick s t).1.cells i.cells := by
  unfold Iteration.tick
  split
  · exact K.refl _
  · exact K.runReported s "tick" "tick" _ ⟨i.cells, t⟩

/-- Values for a port. -/
lemma receive (s : Setting) (port : String) (values : List Value) (i : Iteration) (t : Turn) :
    R (i.receive s port values t).1.cells i.cells := by
  unfold Iteration.receive
  split
  · rename_i handler _
    have hrun := K.run s (handler values) ⟨i.cells, t⟩
    split
    · rename_i h
      rw [h] at hrun
      exact hrun
    · rename_i h
      rw [h] at hrun
      exact hrun
  · exact K.refl _

/-- A call to a function. -/
lemma callFunction (s : Setting) (handler : List Value → Program) (c : Call) (w : Workbench) :
    R (Iteration.callFunction s handler c w).2.cells w.cells := by
  have hrun := K.run s (handler c.args) w
  unfold Iteration.callFunction
  split
  · exact K.refl _
  · split
    · rename_i h
      rw [h] at hrun
      exact hrun
    · rename_i h
      rw [h] at hrun
      exact hrun

/-- A call to a property. -/
lemma callProperty (id : String) (c : Call) (w : Workbench) :
    R (Iteration.callProperty id c w).2.cells w.cells := by
  unfold Iteration.callProperty
  split
  · exact K.refl _
  · simp only
    split
    · exact K.refl _
    · split
      · exact K.refl _
      · exact K.setOn ..

/-- A call to a control. -/
lemma callControl (s : Setting) (id : String) (control : Control) (c : Call) (w : Workbench) :
    R (Iteration.callControl s id control c w).2.cells w.cells := by
  cases control with
  | function handler => exact K.callFunction s handler c w
  | raw handler => exact K.run s (handler c) w
  | property shape default => exact K.callProperty id c w
  | observer o => exact K.refl _

/-- A call to a unit. -/
lemma invoke (s : Setting) (c : Call) (i : Iteration) (t : Turn) :
    R (i.invoke s c t).2.1.cells i.cells := by
  unfold Iteration.invoke
  split
  · exact K.refl _
  · exact K.callControl s _ _ c ⟨i.cells, t⟩

/-- A property that is given a value from a snapshot. -/
lemma restoreProperty (i : Iteration) (id : String) (v : Value) :
    R (i.restoreProperty id v).cells i.cells := by
  unfold Iteration.restoreProperty
  split
  · rename_i p hp
    split
    · rename_i q hq
      exact K.replace hp hq
    · exact K.refl _
  · exact K.refl _

/-- Properties that are given values from a snapshot, one after the other. -/
lemma restoreProperties (values : Named Value) (i : Iteration) :
    R (values.foldl (fun (i : Iteration) e => i.restoreProperty e.1 e.2) i).cells i.cells := by
  induction values generalizing i with
  | nil => exact K.refl _
  | cons e rest ih => exact K.trans (ih _) (K.restoreProperty i e.1 e.2)

end Cells.Rule

namespace Cells.HookRule

variable {R : Cells → Cells → Prop} (K : Cells.HookRule R)

include K

/-- A hook of a reference. -/
lemma runReference (s : Setting) (h : Hook) (m : MemberId) (spec : ReferenceSpec)
    (w : Workbench) : R (Upkeep.runReference s h m spec w).cells w.cells := by
  have htake := K.take w.cells m.id
  unfold Upkeep.runReference
  cases h with
  | dispose =>
    simp only
    split
    · exact K.trans (K.run ..) htake
    · exact htake
    · exact htake
  | _ =>
    simp only
    split
    · exact K.runReported ..
    · exact K.refl _

/-- A hook of a member. -/
lemma upkeep (s : Setting) (h : Hook) (m : MemberId) (w : Workbench) (u : Upkeep) :
    R (u.run s h m w).cells w.cells := by
  cases u with
  | none => exact K.refl _
  | observer o => exact K.runReported s _ _ _ (Upkeep.record w (·.moment m h))
  | reference spec => exact K.runReference s h m spec (Upkeep.record w (·.moment m h))

/-- A hook of all members. -/
lemma runHook (s : Setting) (h : Hook) (i : Iteration) (t : Turn) :
    R (i.runHook s h t).1.cells i.cells := by
  have hfold (es : List (MemberId × Upkeep)) (w : Workbench) :
      R (es.foldl (fun w e => e.2.run s h e.1 w) w).cells w.cells := by
    induction es generalizing w with
    | nil => exact K.refl _
    | cons e es ih => exact K.trans (ih _) (K.upkeep s h e.1 w e.2)
  exact hfold i.upkeeps ⟨i.cells, t⟩

end Cells.HookRule

/-! ## What stays of an iteration -/

namespace Iteration

/-- A tick changes the cells only. -/
lemma fst_tick (s : Setting) (i : Iteration) (t : Turn) :
    (i.tick s t).1 = { i with cells := (i.tick s t).1.cells } := by
  unfold tick
  split <;> rfl

/-- Values for a port change the cells only. -/
lemma fst_receive (s : Setting) (port : String) (values : List Value) (i : Iteration) (t : Turn) :
    (i.receive s port values t).1 = { i with cells := (i.receive s port values t).1.cells } := by
  unfold receive
  split
  · split <;> rfl
  · rfl

/-- A call changes the cells only. -/
lemma fst_invoke (s : Setting) (c : Call) (i : Iteration) (t : Turn) :
    (i.invoke s c t).2.1 = { i with cells := (i.invoke s c t).2.1.cells } := by
  unfold invoke
  split <;> rfl

/-- A value from a snapshot changes the cells only. -/
lemma restoreProperty_eq (i : Iteration) (id : String) (v : Value) :
    i.restoreProperty id v = { i with cells := (i.restoreProperty id v).cells } := by
  unfold restoreProperty
  split
  · split <;> rfl
  · rfl

/-- Values from a snapshot change the cells only. -/
lemma restoreProperties_eq (values : Named Value) (i : Iteration) :
    values.foldl (fun (i : Iteration) e => i.restoreProperty e.1 e.2) i =
      { i with cells :=
          (values.foldl (fun (i : Iteration) e => i.restoreProperty e.1 e.2) i).cells } := by
  induction values generalizing i with
  | nil => rfl
  | cons e rest ih =>
    rw [List.foldl_cons, ih (i.restoreProperty e.1 e.2)]
    rw [restoreProperty_eq i e.1 e.2]

end Iteration

end Switchboard
