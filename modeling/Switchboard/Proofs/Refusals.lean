import Mathlib
import Switchboard.Proofs.Trees

/-!
# Refused operations

An operation on the tree of a root that is refused leaves the root as it was, in all its parts: the
units with their children, connections and behaviors, the index, the listeners, the queues, and the
records of what was put in place and of what became of members and values.

Six of the seven operations find out whether they are refused before they change anything.  The
removal of a child forgets the child and the connections that touch it before it looks whether there
was such a child.  That this changes nothing where there was none is a property of the tree, whose
connections begin and end at children.
-/

namespace Switchboard

/-- A child that is not there can be removed without a change, where connections begin and end at
children. -/
lemma Node.removeChild_same {n : Node} {id : String} (hid : n.child? id = none)
    (hends : ∀ c ∈ n.connections, (n.child? c.source).isSome = true ∧
      (n.child? c.target).isSome = true) : n.removeChild id = n := by
  have hconnections : (n.connections.filter fun c => !c.touches id) = n.connections := by
    refine List.filter_eq_self.mpr fun c hc => ?_
    obtain ⟨hsource, htarget⟩ := hends c hc
    have hne : ∀ {end' : String}, (n.child? end').isSome = true → end' ≠ id := by
      rintro end' hsome rfl
      rw [hid] at hsome
      contradiction
    simp [Connection.touches, hne hsource, hne htarget]
  rw [removeChild, Named.erase_same hid, hconnections]

namespace Root

/-- Whether an operation on a root leaves it as it was if the answer is an error. -/
def Intact {α : Type} (r : Root) (result : Except RuntimeError α × Root) : Prop :=
  ∀ e, result.1 = .error e → result.2 = r

section Intact

variable {r : Root}

/-- Adding a unit checks before it changes anything. -/
lemma intact_addUnit (r : Root) (parent : Path) (id typeName : String) (kind : NodeKind)
    (b : Behavior) : r.Intact (r.addUnit parent id typeName kind b) := by
  intro e he
  unfold addUnit at he ⊢
  split at he
  · rfl
  · contradiction

/-- Adding a unit of a type of the catalog checks before it changes anything. -/
lemma intact_addChild (r : Root) (parent : Path) (id typeName : String) :
    r.Intact (r.addChild parent id typeName) := by
  intro e he
  unfold addChild at he ⊢
  split at he
  · rfl
  · exact intact_addUnit r _ _ _ _ _ e he

/-- Making a connection checks before it changes anything. -/
lemma intact_connect (r : Root) (p : Path) (c : Connection) : r.Intact (r.connect p c) := by
  intro e he
  unfold connect at he ⊢
  split at he
  · rfl
  · contradiction

/-- Dropping a connection looks for it before it changes anything. -/
lemma intact_disconnect (r : Root) (p : Path) (c : Connection) : r.Intact (r.disconnect p c) := by
  intro e he
  unfold disconnect at he ⊢
  split at he
  · rfl
  · split at he
    · contradiction
    · rfl

/-- Replacing a behavior checks before it changes anything. -/
lemma intact_install (r : Root) (p : Path) (b : Behavior) : r.Intact (r.install p b) := by
  intro e he
  unfold install at he ⊢
  split at he
  · rfl
  · contradiction

/-- Replacing a behavior by a compiled one checks and compiles before it changes anything. -/
lemma intact_installSource (r : Root) (p : Path) (source : String) :
    r.Intact (r.installSource p source) := by
  intro e he
  unfold installSource at he ⊢
  split at he
  · rfl
  · rfl
  · contradiction

/-- In a tree, what the removal of a child forgets before it looks for the child is nothing if there
is no such child. -/
lemma IsTree.intact_removeChild (hr : r.IsTree) (parent : Path) (id : String) :
    r.Intact (r.removeChild parent id) := by
  intro e he
  unfold Root.removeChild lookup at he ⊢
  cases hh : r.handle? parent with
  | none => rfl
  | some h =>
    obtain ⟨n, hn, -⟩ := exists_of_handle hr.skeleton.index hh
    simp only [hh, hn, Option.bind_some] at he ⊢
    cases hid : n.child? id with
    | some c =>
      rw [hid] at he
      contradiction
    | none =>
      have hsame : n.removeChild id = n :=
        Node.removeChild_same hid (hr.skeleton.ends h n.place (place_skeleton hn))
      simp only
      rw [Arena.modify_same hn hsame]

end Intact

/-- An operation on the tree that is refused changes nothing.  At every moment of a run, if one of
the seven operations that add and remove units, make and drop connections and replace behaviors
answers with an error, whatever the error and whatever the behavior or the compiler, then the root
is the same as before. -/
theorem refusal {r s : Root} (h : Reachable r) (hs : Changes r s) :
    (∀ parent id typeName, s.Intact (s.addChild parent id typeName)) ∧
      (∀ parent id typeName b, s.Intact (s.addChildWith parent id typeName b)) ∧
      (∀ parent id, s.Intact (s.removeChild parent id)) ∧
      (∀ p c, s.Intact (s.connect p c)) ∧
      (∀ p c, s.Intact (s.disconnect p c)) ∧
      (∀ p b, s.Intact (s.install p b)) ∧
      ∀ p source, s.Intact (s.installSource p source) :=
  ⟨intact_addChild s, fun parent id typeName b => intact_addUnit s parent id typeName _ b,
    (h.isTree.changes hs).intact_removeChild, intact_connect s, intact_disconnect s,
    intact_install s, intact_installSource s⟩

/-- The removal of a child from a container whose own child has another name is refused, and the
container keeps its child. -/
theorem refusal_hall :
    ∃ r, Root.new {} .base = .ok r ∧
      let s := (Operation.addChild hallPath "room" Catalog.containerType).run
        ((Operation.addChild rootPath "hall" Catalog.containerType).run r)
      (s.removeChild hallPath "attic").1 = .error (.container (.unknownChild "attic")) ∧
      (s.removeChild hallPath "attic").2 = s := by
  obtain ⟨r, hr⟩ : ∃ r, Root.new {} .base = .ok r := ⟨_, rfl⟩
  have hreach : Reachable ((Operation.addChild hallPath "room" Catalog.containerType).run
      ((Operation.addChild rootPath "hall" Catalog.containerType).run r)) := by
    have hhall : Reachable ((Operation.addChild rootPath "hall" Catalog.containerType).run r) :=
      .operate (.new hr) trivial
    exact .operate hhall trivial
  have hrefused : (removeChild ((Operation.addChild hallPath "room" Catalog.containerType).run
      ((Operation.addChild rootPath "hall" Catalog.containerType).run r)) hallPath "attic").1 =
      .error (.container (.unknownChild "attic")) := by
    cases hr
    rfl
  obtain ⟨-, -, hremove, -⟩ := refusal hreach (.refl _)
  exact ⟨r, hr, hrefused, hremove hallPath "attic" _ hrefused⟩

end Root

end Switchboard
