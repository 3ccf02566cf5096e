import Mathlib
import Switchboard.Proofs.Arenas
import Switchboard.Proofs.Operations

/-!
# Behaviors in a root

`Root.stage` is the part of a root that has to do with the life of behaviors: the tenures of the
units, the listeners of the clock, whether the root is active, and the records of installations and
of what became of members and values.  Sending changes nothing of it and of the tree
(`Root.Sends`), and a turn changes the tenure of one unit (`Root.stage_act`).
-/

namespace Switchboard

namespace Root

/-! ## Sending -/

/-- Nothing but the calls, the emissions and the books of a root has changed. -/
structure Sends (r s : Root) : Prop where
  units : s.units = r.units
  index : s.index = r.index
  top : s.top = r.top
  clock : s.clock = r.clock
  created : s.created = r.created
  installed : s.installed = r.installed
  chronicle : s.chronicle = r.chronicle
  catalog : s.catalog = r.catalog

namespace Sends

variable {r s t : Root}

/-- Nothing was sent. -/
lemma refl (r : Root) : Sends r r := ⟨rfl, rfl, rfl, rfl, rfl, rfl, rfl, rfl⟩

/-- One thing was sent after another. -/
lemma trans (h : Sends r s) (h' : Sends s t) : Sends r t where
  units := h'.units.trans h.units
  index := h'.index.trans h.index
  top := h'.top.trans h.top
  clock := h'.clock.trans h.clock
  created := h'.created.trans h.created
  installed := h'.installed.trans h.installed
  chronicle := h'.chronicle.trans h.chronicle
  catalog := h'.catalog.trans h.catalog

/-- Things were sent, one for each item of a list. -/
lemma foldl {α : Type} {f : Root → α → Root} (h : ∀ r a, Sends r (f r a)) (l : List α)
    (r : Root) : Sends r (l.foldl f r) :=
  l.foldlRecOn f (refl r) fun s hs a _ => hs.trans (h s a)

end Sends

/-- Sending a call. -/
lemma sends_send (r : Root) (c : Call) : Sends r (r.send c) := by
  unfold send
  simp only
  split <;> exact ⟨rfl, rfl, rfl, rfl, rfl, rfl, rfl, rfl⟩

/-- Emitting values on a port. -/
lemma sends_emit (source : Path) (r : Root) (e : String × List Value) :
    Sends r (emit source r e) := by
  unfold emit
  split <;> exact ⟨rfl, rfl, rfl, rfl, rfl, rfl, rfl, rfl⟩

/-- Changing the ledger. -/
lemma sends_ledger (r : Root) (l : Ledger) : Sends r { r with ledger := l } :=
  ⟨rfl, rfl, rfl, rfl, rfl, rfl, rfl, rfl⟩

/-- Sending the log lines of a unit. -/
lemma sends_sendLog (source : Path) (r : Root) (lines : List LogEntry) :
    Sends r (sendLog source r lines) := by
  unfold sendLog
  split
  · exact .refl r
  · split
    · exact .refl r
    · exact (sends_ledger r _).trans (sends_send _ _)

/-- Sending what a unit has produced. -/
lemma sends_flush (source : Path) (r : Root) (o : Outbox) : Sends r (r.flush source o) :=
  ((Sends.foldl sends_send o.calls r).trans
    (.foldl (fun r e => sends_emit source r e) o.emissions _)).trans (sends_sendLog source _ o.log)

/-- Sending an answer. -/
lemma sends_sendAnswer (r : Root) (c : Call) (kind : CallKind) (args : List Value) :
    Sends r (r.sendAnswer c kind args) := by
  unfold sendAnswer
  split
  · exact (sends_ledger r _).trans (sends_send _ _)
  · exact .refl r

/-! ## Stages -/

end Root

/-- What has to do with the life of behaviors. -/
structure Stage where
  unit : Handle → Option Tenure
  listeners : List Handle
  active : Bool
  installed : List Members
  chronicle : Chronicle

namespace Stage

/-- The stage with another tenure of a unit and another chronicle. -/
def turn (S : Stage) (h : Handle) (t : Option Tenure) (c : Chronicle) : Stage :=
  { S with unit := Function.update S.unit h t, chronicle := c }

end Stage

namespace Root

/-- What a root has to do with the life of behaviors. -/
def stage (r : Root) : Stage where
  unit h := (r.units.get? h).map Node.tenure
  listeners := r.clock.listeners
  active := r.clock.isActive
  installed := r.installed
  chronicle := r.chronicle

variable {r s : Root} {h : Handle} {n : Node}

/-- Sending leaves the stage alone. -/
lemma Sends.stage (hs : Sends r s) : s.stage = r.stage := by
  unfold Root.stage
  rw [hs.units, hs.clock, hs.installed, hs.chronicle]

/-- The tenure of a unit. -/
lemma unit_stage (hn : r.units.get? h = some n) : r.stage.unit h = some n.tenure :=
  congrArg (Option.map Node.tenure) hn

/-- A tenure is that of a unit. -/
lemma exists_of_unit {t : Tenure} (ht : r.stage.unit h = some t) :
    ∃ n, r.units.get? h = some n ∧ n.tenure = t := Option.map_eq_some_iff.mp ht

/-- Nothing happens in a turn of a unit that does not exist. -/
lemma act_of_none (hn : r.units.get? h = none) (f : Setting → Node → Turn → Node × Turn) :
    r.act h f = r := by
  unfold act inTurn
  rw [hn]

/-- After the turn of a unit all that is left to do is to send what it has produced. -/
lemma sends_act (hn : r.units.get? h = some n) (f : Setting → Node → Turn → Node × Turn) :
    Sends
      { r with
        units := r.units.set h (f (r.setting n.address) n r.turn).1
        ledger := (f (r.setting n.address) n r.turn).2.ledger
        journal := (f (r.setting n.address) n r.turn).2.journal
        chronicle := (f (r.setting n.address) n r.turn).2.chronicle } (r.act h f) := by
  unfold act inTurn
  rw [hn]
  exact sends_flush ..

/-- A turn changes neither the catalog nor what was put in place. -/
lemma catalog_act (r : Root) (h : Handle) (f : Setting → Node → Turn → Node × Turn) :
    (r.act h f).catalog = r.catalog ∧ (r.act h f).installed = r.installed := by
  cases hn : r.units.get? h with
  | none => rw [act_of_none hn]; exact ⟨rfl, rfl⟩
  | some n => exact ⟨(sends_act hn f).catalog, (sends_act hn f).installed⟩

/-- A turn changes the tenure of the unit and the chronicle. -/
lemma stage_act (hn : r.units.get? h = some n) (f : Setting → Node → Turn → Node × Turn) :
    (r.act h f).stage =
      r.stage.turn h (f (r.setting n.address) n r.turn).1.tenure
        (f (r.setting n.address) n r.turn).2.chronicle := by
  rw [(sends_act hn f).stage]
  unfold stage Stage.turn
  congr 1
  funext k
  rw [Arena.get?_set hn]
  by_cases hk : k = h
  · rw [if_pos hk, hk, Function.update_self]
    rfl
  · rw [if_neg hk, Function.update_of_ne hk]

/-- A turn changes neither the activity nor the listeners. -/
lemma clock_act (r : Root) (h : Handle) (f : Setting → Node → Turn → Node × Turn) :
    (r.act h f).stage.active = r.stage.active ∧
      (r.act h f).stage.listeners = r.stage.listeners := by
  cases hn : r.units.get? h with
  | none => rw [act_of_none hn]; exact ⟨rfl, rfl⟩
  | some n => rw [stage_act hn]; exact ⟨rfl, rfl⟩

/-- Turns change neither the activity nor the listeners. -/
lemma clock_actAll (r : Root) (hs : List Handle) (f : Setting → Node → Turn → Node × Turn) :
    (r.actAll hs f).stage.active = r.stage.active ∧
      (r.actAll hs f).stage.listeners = r.stage.listeners := by
  induction hs generalizing r with
  | nil => exact ⟨rfl, rfl⟩
  | cons h hs ih =>
    obtain ⟨hactive, hlisteners⟩ := clock_act r h f
    obtain ⟨hactive', hlisteners'⟩ := ih (r.act h f)
    exact ⟨hactive'.trans hactive, hlisteners'.trans hlisteners⟩

/-- The stage when a unit has come to another state in the same tenure. -/
lemma stage_set (hn : r.units.get? h = some n) {m : Node} (hm : m.tenure = n.tenure) :
    { r with units := r.units.set h m }.stage = r.stage := by
  unfold stage
  congr 1
  funext k
  rw [Arena.get?_set hn]
  by_cases hk : k = h
  · rw [if_pos hk, hk, hn]
    exact congrArg some hm
  · rw [if_neg hk]

/-- The stage when a unit was changed in its tenure. -/
lemma stage_modify (r : Root) (h : Handle) {f : Node → Node}
    (hf : ∀ n, (f n).tenure = n.tenure) :
    { r with units := r.units.modify h f }.stage = r.stage := by
  cases hn : r.units.get? h with
  | none =>
    have hmodify : r.units.modify h f = r.units := by
      rw [Arena.modify, hn]
    rw [hmodify]
  | some n =>
    have hmodify : r.units.modify h f = r.units.set h (f n) := by
      rw [Arena.modify, hn]
    rw [hmodify]
    exact stage_set hn (hf n)

/-- A turn that lets no hook run leaves the stage alone. -/
lemma stage_act_plain (r : Root) (h : Handle) {k : Task} (hk : k.Plain) :
    (r.act h k.run).stage = r.stage := by
  cases hn : r.units.get? h with
  | none => rw [act_of_none hn]
  | some n =>
    obtain ⟨htenure, hchronicle⟩ := hk.tenure_run (r.setting n.address) n r.turn
    rw [stage_act hn, htenure, hchronicle, ← unit_stage hn]
    unfold Stage.turn
    rw [Function.update_eq_self]
    rfl

/-! ## Adding and dropping units -/

/-- Adding a unit. -/
lemma stage_insertNode (hr : r.units.Valid) (parent : Handle) (id : String) (n : Node)
    (hlisteners : (r.units.insert n).1 ∉ r.clock.listeners) :
    (r.insertNode parent id n).2.stage =
      { r.stage with
        unit := Function.update r.stage.unit (r.units.insert n).1 n.tenure
        listeners := r.stage.listeners ++ [(r.units.insert n).1] } := by
  have hclock : r.clock.attach (r.units.insert n).1 =
      { r.clock with listeners := r.clock.listeners ++ [(r.units.insert n).1] } := by
    rw [Clock.attach, if_neg hlisteners]
  unfold insertNode stage
  simp only [hclock]
  congr 1
  funext k
  rw [Arena.get?_modify, Arena.get?_insert_snd hr]
  by_cases hk : k = (r.units.insert n).1
  · subst hk
    rw [if_pos rfl, Function.update_self]
    split <;> rfl
  · rw [if_neg hk, Function.update_of_ne hk]
    split
    · cases r.units.get? k <;> rfl
    · rfl

/-- Dropping a unit after it has been disposed of. -/
lemma stage_dropNode (r : Root) (h : Handle) :
    (r.dropNode h).stage =
      { (r.act h Node.dispose).stage with
        unit := Function.update (r.act h Node.dispose).stage.unit h none
        listeners := (r.act h Node.dispose).stage.listeners.filter fun k => k ≠ h } := by
  unfold dropNode stage
  simp only
  congr 1
  funext k
  rw [Arena.get?_remove]
  by_cases hk : k = h
  · rw [if_pos hk, hk, Function.update_self]
    rfl
  · rw [if_neg hk, Function.update_of_ne hk]

/-- What dropping units keeps, the removal of a child keeps. -/
lemma preserve_removeChild {P : Stage → Prop}
    (hdrop : ∀ (r : Root) (h : Handle), P r.stage → P (r.dropNode h).stage) {r : Root}
    (hr : P r.stage) (parent : Path) (id : String) : P (r.removeChild parent id).2.stage := by
  have hsubtree (fuel : ℕ) (h : Handle) (r : Root) (hr : P r.stage) :
      P (removeSubtree fuel h r).stage := by
    induction fuel generalizing h r with
    | zero => exact hr
    | succ fuel ih =>
      have hchildren (es : Named Handle) (r : Root) (hr : P r.stage) :
          P (es.foldl (fun r e => removeSubtree fuel e.2 r) r).stage := by
        induction es generalizing r with
        | nil => exact hr
        | cons e es ih' => exact ih' _ (ih e.2 r hr)
      unfold removeSubtree
      split
      · exact hr
      · exact hdrop _ h (hchildren _ r hr)
  unfold removeChild
  split
  · exact hr
  · rename_i h _
    have hparent : P { r with units := r.units.modify h fun n => n.removeChild id }.stage := by
      rw [stage_modify]
      · exact hr
      · exact fun _ => rfl
    simp only
    split
    · exact hparent
    · exact hsubtree _ _ _ hparent

end Root

end Switchboard
