import Mathlib
import Switchboard.Proofs.Cells
import Switchboard.Proofs.Skeletons

/-!
# Behaviors in office

The `Tenure` of a unit is what it has of the life of its behavior: the members, the number of the
installation, whether it has been started, and for each reference the kind of its values and the
member that its value was made for.  Programs change nothing of it, and they enter nothing in the
chronicle, so that turns that let no hook run leave both alone (`Task.Plain.tenure_run`).  For the
other tasks the lemmas say which hooks they let run on which members, in which order.
-/

namespace Switchboard

/-! ## Tenures -/

/-- The kind of each reference and the member that its value was made for, if it has a value. -/
abbrev Shelf := String → Option (RefKind × Option MemberId)

/-- What a unit has of the life of its behavior. -/
structure Tenure where
  members : Members
  number : ℕ
  /-- Whether the unit has been started since the installation. -/
  started : Bool
  shelf : Shelf

/-- The kinds and the makers of what references hold. -/
def Cells.shelf (c : Cells) : Shelf := fun id =>
  (c.references.find? id).map fun r => (r.kind, r.holding.map Holding.maker)

/-- The tenure of an iteration in a unit. -/
def Iteration.tenure (i : Iteration) (started : Bool) : Tenure :=
  ⟨i.members, i.number, started, i.cells.shelf⟩

/-- The tenure of a unit. -/
def Node.tenure (n : Node) : Tenure := n.iteration.tenure n.started

/-- The members of behaviors that have the number of an installation. -/
def Members.ids (m : Members) (number : ℕ) : List MemberId :=
  (Named.names m.controls).map (⟨number, .control, ·⟩) ++
    (Named.names m.ports).map (⟨number, .port, ·⟩) ++
    (Named.names m.references).map (⟨number, .reference, ·⟩)

/-- The members of a unit. -/
def Tenure.ids (t : Tenure) : List MemberId := t.members.ids t.number

/-- The members that take part in the life of an iteration are all its members. -/
lemma Iteration.map_fst_upkeeps (i : Iteration) :
    i.upkeeps.map Prod.fst = i.members.ids i.number := by
  unfold upkeeps upkeepsOf Members.ids Named.names
  simp only [List.map_append, List.map_map]
  rfl

/-! ## Members with different names -/

namespace Members

/-- No two members of one category have the same name. -/
structure Distinct (m : Members) : Prop where
  controls : (Named.names m.controls).Nodup
  ports : (Named.names m.ports).Nodup
  references : (Named.names m.references).Nodup

/-- A name that may be given to a member is not taken. -/
lemma free_of_checkId {α β : Type} {id : String} {reserved : Bool} {t : Named α} {f : Unit → β}
    {b : β} (h : (checkId id reserved (Named.has id t)).map f = .ok b) :
    Named.find? id t = none ∧ f () = b := by
  unfold checkId at h
  split at h
  · contradiction
  · split at h
    · contradiction
    · split at h
      · contradiction
      · rename_i hfree
        have hnone : (Named.find? id t).isSome = false := Bool.eq_false_iff.mpr hfree
        cases h
        exact ⟨Option.isSome_eq_false_iff.mp hnone |> Option.isNone_iff_eq_none.mp, rfl⟩

/-- A declaration that is accepted keeps the names different. -/
lemma Distinct.declare {m m' : Members} (hm : m.Distinct) {d : Declaration}
    (h : m.declare d = .ok m') : m'.Distinct := by
  cases d with
  | control id c =>
    obtain ⟨hfree, rfl⟩ := free_of_checkId h
    exact ⟨Named.nodup_push hm.controls hfree c, hm.ports, hm.references⟩
  | port id p =>
    obtain ⟨hfree, rfl⟩ := free_of_checkId h
    exact ⟨hm.controls, Named.nodup_push hm.ports hfree p, hm.references⟩
  | reference id r =>
    obtain ⟨hfree, rfl⟩ := free_of_checkId h
    exact ⟨hm.controls, hm.ports, Named.nodup_push hm.references hfree r⟩
  | tick handler =>
    cases h
    exact ⟨hm.controls, hm.ports, hm.references⟩
  | fail reasons => contradiction

/-- The members of a behavior have different names. -/
lemma distinct_ofBehavior {b : Behavior} {m : Members} (h : ofBehavior b = .ok m) :
    m.Distinct := by
  unfold ofBehavior at h
  have hfold (ds : List Declaration) (m₀ : Members) (hm₀ : m₀.Distinct)
      (h : ds.foldlM declare m₀ = .ok m) : m.Distinct := by
    induction ds generalizing m₀ with
    | nil =>
      cases h
      exact hm₀
    | cons d ds ih =>
      rw [List.foldlM_cons] at h
      match hd : m₀.declare d with
      | .error e =>
        rw [hd] at h
        contradiction
      | .ok m₁ =>
        rw [hd] at h
        exact ih m₁ (hm₀.declare hd) h
  exact hfold b {} ⟨List.nodup_nil, List.nodup_nil, List.nodup_nil⟩ h

/-- Members with different names are different. -/
lemma Distinct.nodup_ids {m : Members} (hm : m.Distinct) (number : ℕ) : (m.ids number).Nodup := by
  have hcategory (category : Category) {names : List String} (h : names.Nodup) :
      (names.map (⟨number, category, ·⟩ : String → MemberId)).Nodup :=
    h.map fun _ _ heq => congrArg MemberId.id heq
  unfold ids
  refine List.Nodup.append (List.Nodup.append (hcategory _ hm.controls) (hcategory _ hm.ports) ?_)
    (hcategory _ hm.references) ?_
  · intro m hcontrol hport
    obtain ⟨_, -, rfl⟩ := List.mem_map.mp hcontrol
    obtain ⟨_, -, heq⟩ := List.mem_map.mp hport
    exact absurd (congrArg MemberId.category heq) nofun
  · intro m hother hreference
    obtain ⟨_, -, rfl⟩ := List.mem_map.mp hreference
    obtain hcontrol | hport := List.mem_append.mp hother
    · obtain ⟨_, -, heq⟩ := List.mem_map.mp hcontrol
      exact absurd (congrArg MemberId.category heq) nofun
    · obtain ⟨_, -, heq⟩ := List.mem_map.mp hport
      exact absurd (congrArg MemberId.category heq) nofun

/-- Members have the number of their installation. -/
lemma installation_of_mem_ids {m : Members} {number : ℕ} {id : MemberId}
    (h : id ∈ m.ids number) : id.installation = number := by
  unfold ids at h
  simp only [List.mem_append, List.mem_map] at h
  obtain (⟨_, -, rfl⟩ | ⟨_, -, rfl⟩) | ⟨_, -, rfl⟩ := h <;> rfl

end Members

/-! ## Programs -/

namespace Cells

/-- The shelf after a reference was given another state. -/
lemma shelf_setReference (c : Cells) (id : String) (r : Reference) :
    (c.setReference id r).shelf =
      Function.update c.shelf id (some (r.kind, r.holding.map Holding.maker)) := by
  funext other
  unfold shelf setReference
  by_cases hother : other = id
  · subst hother
    rw [Keyed.find?_insert_self, Function.update_self]
    rfl
  · rw [Keyed.find?_insert_of_ne hother, Function.update_of_ne hother]

/-- Another value of a reference counts as made for the same member. -/
lemma shelf_write (c : Cells) (id : String) (v : RefValue) : (c.write id v).shelf = c.shelf := by
  unfold write
  split
  · rename_i r hr
    split
    · rename_i held hheld
      split
      · rw [shelf_setReference]
        refine Function.update_eq_self_iff.mpr ?_
        simp [shelf, hr, hheld]
      · rfl
    · rfl
  · rfl

/-- The shelf after the value of a reference was taken. -/
lemma shelf_take (c : Cells) (id : String) :
    (c.take id).2.shelf =
      Function.update c.shelf id ((c.shelf id).map fun e => (e.1, none)) := by
  unfold take
  cases hr : c.references.find? id with
  | none =>
    refine (Function.update_eq_self_iff.mpr ?_).symm
    simp [shelf, hr]
  | some r =>
    rw [shelf_setReference]
    simp [shelf, hr]

/-- What is taken from a reference was made for the member on the shelf. -/
lemma maker_take (c : Cells) (id : String) :
    (c.take id).1.map Holding.maker = (c.shelf id).bind Prod.snd := by
  unfold take shelf
  cases c.references.find? id <;> rfl

/-- The shelf is left alone by what programs do to cells. -/
lemma rule_shelf : Cells.Rule fun d c => d.shelf = c.shelf where
  refl _ := rfl
  trans h' h := h'.trans h
  set _ _ := rfl
  replace _ _ := rfl
  write := shelf_write

end Cells

namespace Program

/-- A program enters nothing in the chronicle. -/
lemma chronicle_run (s : Setting) (p : Program) (w : Workbench) :
    (p.run s w).2.turn.chronicle = w.turn.chronicle := (Turn.rule_steps.run s p w).chronicle

end Program

/-! ## Hooks -/

namespace Upkeep

/-- A program that reports its failure enters nothing in the chronicle. -/
lemma chronicle_runReported (s : Setting) (what id : String) (p : Program) (w : Workbench) :
    (runReported s what id p w).turn.chronicle = w.turn.chronicle :=
  (Turn.rule_steps.runReported s what id p w).chronicle

/-- A hook that is not the last one leaves the shelf alone, and that it was let run is all that it
enters in the chronicle. -/
lemma run_of_ne_dispose (s : Setting) {h : Hook} (hh : h ≠ .dispose) (m : MemberId)
    (w : Workbench) (u : Upkeep) :
    (u.run s h m w).cells.shelf = w.cells.shelf ∧
      (u.run s h m w).turn.chronicle = w.turn.chronicle.moment m h := by
  cases u with
  | none => exact ⟨rfl, rfl⟩
  | observer o =>
    exact ⟨Cells.rule_shelf.runReported s h.name m.id _ (record w (·.moment m h)),
      chronicle_runReported s h.name m.id _ (record w (·.moment m h))⟩
  | reference spec =>
    have hreference : ∀ w : Workbench, (runReference s h m spec w).cells.shelf = w.cells.shelf ∧
        (runReference s h m spec w).turn.chronicle = w.turn.chronicle := by
      intro w
      unfold runReference
      cases h with
      | dispose => contradiction
      | _ =>
        simp only
        split
        · exact ⟨Cells.rule_shelf.runReported .., chronicle_runReported ..⟩
        · exact ⟨rfl, rfl⟩
    exact hreference (record w (·.moment m h))

end Upkeep

/-- The chronicle after members were let act, one after the other. -/
def Chronicle.momentAll (c : Chronicle) (ms : List MemberId) (h : Hook) : Chronicle :=
  ms.foldl (fun c m => c.moment m h) c

/-- What is entered for one hook of several members. -/
lemma Chronicle.moments_momentAll (c : Chronicle) (ms : List MemberId) (h : Hook) :
    (c.momentAll ms h).moments = (ms.map fun m => (m, h)).reverse ++ c.moments := by
  induction ms generalizing c with
  | nil => rfl
  | cons m ms ih =>
    refine (ih (c.moment m h)).trans ?_
    simp [moment]

namespace Iteration

/-- A hook that is not the last one is let run on all members, whichever of them fail, and changes
nothing else. -/
lemma runHook_of_ne_dispose (s : Setting) {h : Hook} (hh : h ≠ .dispose) (i : Iteration)
    (t : Turn) (started : Bool) :
    (i.runHook s h t).1.tenure started = i.tenure started ∧
      (i.runHook s h t).2.chronicle = t.chronicle.momentAll (i.members.ids i.number) h := by
  have hfold (es : List (MemberId × Upkeep)) (w : Workbench) :
      (es.foldl (fun w e => e.2.run s h e.1 w) w).cells.shelf = w.cells.shelf ∧
        (es.foldl (fun w e => e.2.run s h e.1 w) w).turn.chronicle =
          w.turn.chronicle.momentAll (es.map Prod.fst) h := by
    induction es generalizing w with
    | nil => exact ⟨rfl, rfl⟩
    | cons e es ih =>
      obtain ⟨hshelf, hchronicle⟩ := Upkeep.run_of_ne_dispose s hh e.1 w e.2
      obtain ⟨hshelf', hchronicle'⟩ := ih (e.2.run s h e.1 w)
      refine ⟨hshelf'.trans hshelf, hchronicle'.trans ?_⟩
      rw [hchronicle]
      rfl
  obtain ⟨hshelf, hchronicle⟩ := hfold i.upkeeps ⟨i.cells, t⟩
  rw [map_fst_upkeeps] at hchronicle
  refine ⟨?_, hchronicle⟩
  unfold tenure runHook
  rw [hshelf]

end Iteration

/-! ## Members that are given up -/

namespace Upkeep

/-- The last hook of a member enters one moment, and else nothing but what becomes of a value. -/
lemma moments_run (s : Setting) (h : Hook) (m : MemberId) (w : Workbench) (u : Upkeep) :
    (u.run s h m w).turn.chronicle.moments = (m, h) :: w.turn.chronicle.moments := by
  by_cases hh : h = .dispose
  · subst hh
    cases u with
    | none => rfl
    | observer o =>
      exact congrArg Chronicle.moments
        (chronicle_runReported s _ m.id _ (record w (·.moment m .dispose)))
    | reference spec =>
      unfold run runReference
      simp only
      split
      · exact congrArg Chronicle.moments (Program.chronicle_run ..)
      · rfl
      · rfl
  · exact congrArg Chronicle.moments (run_of_ne_dispose s hh m w u).2

end Upkeep

namespace Iteration

/-- Members that are disposed of are let act once each, in their order. -/
lemma moments_disposeMembers (s : Setting) (es : List (MemberId × Upkeep)) (w : Workbench) :
    (disposeMembers s es w).turn.chronicle.moments =
      (w.turn.chronicle.momentAll (es.map Prod.fst) .dispose).moments := by
  have hmoments (c c' : Chronicle) (hc : c.moments = c'.moments) (ms : List MemberId) :
      (c.momentAll ms .dispose).moments = (c'.momentAll ms .dispose).moments := by
    rw [Chronicle.moments_momentAll, Chronicle.moments_momentAll, hc]
  induction es generalizing w with
  | nil => rfl
  | cons e es ih =>
    exact (ih _).trans (hmoments _ (w.turn.chronicle.moment e.1 .dispose)
      (Upkeep.moments_run s .dispose e.1 w e.2) _)

/-- Making a value is no moment. -/
lemma moments_makeValue (s : Setting) (m : MemberId) (spec : ReferenceSpec) (w : Workbench) :
    (makeValue s m spec w).turn.chronicle.moments = w.turn.chronicle.moments := by
  have hrun := spec.init.chronicle_run s w
  unfold makeValue
  split
  · rfl
  · split
    · rename_i values w' h
      rw [h] at hrun
      have hmade : (w'.turn.record (·.make m)).chronicle.moments = w'.turn.chronicle.moments := rfl
      exact hmade.trans (congrArg Chronicle.moments hrun)
    · rename_i f w' h
      rw [h] at hrun
      exact congrArg Chronicle.moments
        ((Turn.rule_steps.log s w'.turn .error _).chronicle.trans hrun)

/-- The arrival of references is no moment. -/
lemma moments_attachReferences (s : Setting) (number : ℕ) (rs : Named ReferenceMember)
    (former : Cells) (w : Workbench) :
    (attachReferences s number rs former w).2.turn.chronicle.moments =
      w.turn.chronicle.moments := by
  induction rs generalizing former w with
  | nil => rfl
  | cons e rest ih =>
    refine (ih _ _).trans ?_
    cases e.2 with
    | observer o => rfl
    | typed spec => exact moments_makeValue ..

/-- The former members that are given up when an iteration follows another. -/
def dropped (next former : Iteration) : Members where
  controls := rejected Control.takesOver next.members.controls former.members.controls ++
    left next.members.controls former.members.controls
  ports := rejected Port.takesOver next.members.ports former.members.ports ++
    left next.members.ports former.members.ports
  references := rejected ReferenceMember.takesOver next.members.references
      former.members.references ++
    left next.members.references former.members.references

/-- The former members that are rejected are those that a new one of their name does not take
over. -/
lemma mem_rejected {α : Type} {takesOver : α → α → Bool} {next former : Named α} {name : String}
    {b : α} : (name, b) ∈ rejected takesOver next former ↔
      ∃ a, (name, a) ∈ next ∧ Named.find? name former = some b ∧ takesOver a b = false := by
  unfold rejected
  rw [List.mem_filterMap]
  constructor
  · rintro ⟨⟨name', a⟩, ha, hmatch⟩
    cases hfind : Named.find? name' former with
    | none => simp [hfind] at hmatch
    | some b' =>
      cases htakes : takesOver a b' with
      | true => simp [hfind, htakes] at hmatch
      | false =>
        simp only [hfind, htakes, Bool.false_eq_true, ↓reduceIte, Option.some.injEq,
          Prod.mk.injEq] at hmatch
        obtain ⟨rfl, rfl⟩ := hmatch
        exact ⟨a, ha, hfind, htakes⟩
  · rintro ⟨a, ha, hfind, htakes⟩
    exact ⟨(name, a), ha, by simp [hfind, htakes]⟩

/-- The names of rejected members are names of new ones, in their order. -/
lemma names_rejected {α : Type} (takesOver : α → α → Bool) (next former : Named α) :
    List.Sublist (Named.names (rejected takesOver next former)) (Named.names next) := by
  refine Named.sublist_names_filterMap (fun e b hb => ?_) next
  simp only at hb
  split at hb
  · split at hb
    · contradiction
    · cases hb
      rfl
  · contradiction

/-- The former members that are left are those whose name no new one has. -/
lemma mem_left {α : Type} {next former : Named α} {e : String × α} :
    e ∈ left next former ↔ e ∈ former ∧ Named.find? e.1 next = none := by
  unfold left Named.has
  rw [List.mem_filter]
  cases Named.find? e.1 next <;> simp

/-- The names of the members of a category that are given up are different, and former ones. -/
lemma names_dropped {α : Type} (takesOver : α → α → Bool) {next former : Named α}
    (hnext : (Named.names next).Nodup) (hformer : (Named.names former).Nodup) :
    (Named.names (rejected takesOver next former ++ left next former)).Nodup ∧
      ∀ name ∈ Named.names (rejected takesOver next former ++ left next former),
        name ∈ Named.names former := by
  have hleft : List.Sublist (Named.names (left next former)) (Named.names former) :=
    List.filter_sublist.map Prod.fst
  have hsplit : Named.names (rejected takesOver next former ++ left next former) =
      Named.names (rejected takesOver next former) ++ Named.names (left next former) :=
    List.map_append
  rw [hsplit]
  have hrejected := names_rejected takesOver next former
  refine ⟨List.Nodup.append (hnext.sublist hrejected) (hformer.sublist hleft) ?_, ?_⟩
  · -- What is left has a name that no new member has.
    intro name hnew hname
    obtain ⟨e, he, rfl⟩ := List.mem_map.mp hname
    exact Named.not_mem_names (mem_left.mp he).2 (hrejected.subset hnew)
  · intro name hname
    obtain hname | hname := List.mem_append.mp hname
    · obtain ⟨⟨name, b⟩, he, rfl⟩ := List.mem_map.mp hname
      obtain ⟨a, -, hfind, -⟩ := mem_rejected.mp he
      exact List.mem_map_of_mem (Named.mem_of_find? hfind)
    · exact hleft.subset hname

/-- What is given up are the dropped members. -/
lemma perm_givenUp (next former : Iteration) :
    ((givenUp next former).map Prod.fst).Perm ((dropped next former).ids former.number) := by
  unfold givenUp dropped Members.ids upkeepsOf Named.names
  refine List.perm_iff_count.mpr fun m => ?_
  simp only [List.map_append, List.map_map, List.count_append, Function.comp_def]
  omega

/-- The members that are given up are different, and former ones. -/
lemma ids_givenUp {next former : Iteration} (hnext : next.members.Distinct)
    (hformer : former.members.Distinct) :
    ((givenUp next former).map Prod.fst).Nodup ∧
      ∀ m ∈ (givenUp next former).map Prod.fst, m ∈ former.members.ids former.number := by
  obtain ⟨hcontrols, hcontrols'⟩ :=
    names_dropped Control.takesOver hnext.controls hformer.controls
  obtain ⟨hports, hports'⟩ := names_dropped Port.takesOver hnext.ports hformer.ports
  obtain ⟨hreferences, hreferences'⟩ :=
    names_dropped ReferenceMember.takesOver hnext.references hformer.references
  have hdistinct : (dropped next former).Distinct := ⟨hcontrols, hports, hreferences⟩
  have hperm := perm_givenUp next former
  refine ⟨hperm.nodup_iff.mpr (hdistinct.nodup_ids former.number), fun m hm => ?_⟩
  have hm := hperm.mem_iff.mp hm
  unfold Members.ids at hm ⊢
  simp only [List.mem_append, List.mem_map] at hm ⊢
  obtain (⟨name, hname, rfl⟩ | ⟨name, hname, rfl⟩) | ⟨name, hname, rfl⟩ := hm
  · exact .inl (.inl ⟨name, hcontrols' name hname, rfl⟩)
  · exact .inl (.inr ⟨name, hports' name hname, rfl⟩)
  · exact .inr ⟨name, hreferences' name hname, rfl⟩

/-- When an iteration follows another, the members that are given up are let act for the last
time. -/
lemma moments_attach (s : Setting) (next former : Iteration) (t : Turn) :
    (attach s next former t).2.chronicle.moments =
      (t.chronicle.momentAll ((givenUp next former).map Prod.fst) .dispose).moments := by
  have hreferences := moments_attachReferences s next.number next.members.references former.cells
    ⟨carryProperties next.cells former.cells,
      { t with attached := t.attached ++ Named.names next.members.controls }⟩
  unfold attach
  rcases h : attachReferences s next.number next.members.references former.cells
    ⟨carryProperties next.cells former.cells,
      { t with attached := t.attached ++ Named.names next.members.controls }⟩ with ⟨cells, w⟩
  rw [h] at hreferences
  simp only [h]
  rw [moments_disposeMembers, Chronicle.moments_momentAll, hreferences,
    Chronicle.moments_momentAll]

end Iteration

/-! ## Tasks -/

namespace Node

/-- A hook that is not the last one leaves a unit in its tenure. -/
lemma tenure_runHook (s : Setting) {h : Hook} (hh : h ≠ .dispose) (n : Node) (t : Turn) :
    (n.runHook s h t).1.tenure = n.tenure ∧
      (n.runHook s h t).2.chronicle = t.chronicle.momentAll n.tenure.ids h :=
  n.iteration.runHook_of_ne_dispose s hh t n.started

/-- A unit that becomes active initializes its members, and starts them if they are new. -/
lemma tenure_activate (s : Setting) (n : Node) (t : Turn) :
    (n.activate s t).1.tenure = { n.tenure with started := true } ∧
      (n.activate s t).2.chronicle =
        if n.started then t.chronicle.momentAll n.tenure.ids .init
        else (t.chronicle.momentAll n.tenure.ids .init).momentAll n.tenure.ids .start := by
  obtain ⟨htenure, hchronicle⟩ := n.tenure_runHook s (h := .init) nofun t
  obtain ⟨htenure', hchronicle'⟩ :=
    (n.runHook s .init t).1.tenure_runHook s (h := .start) nofun (n.runHook s .init t).2
  have hstarted : (n.runHook s .init t).1.started = n.started := rfl
  unfold activate
  simp only [hstarted]
  split
  · rename_i h
    refine ⟨htenure.trans ?_, hchronicle⟩
    rw [← h]
    rfl
  · rw [htenure] at htenure' hchronicle'
    rw [hchronicle] at hchronicle'
    refine ⟨?_, hchronicle'⟩
    exact congrArg (fun t : Tenure => { t with started := true }) htenure'

/-- A unit that is disposed of has no members any more, and they were let act for the last time. -/
lemma tenure_dispose (s : Setting) (n : Node) (t : Turn) :
    (n.dispose s t).1.tenure.ids = [] ∧
      (n.dispose s t).2.chronicle.moments =
        (t.chronicle.momentAll n.tenure.ids .dispose).moments := by
  have hmoments := Iteration.moments_disposeMembers s n.iteration.upkeeps ⟨n.iteration.cells, t⟩
  rw [Iteration.map_fst_upkeeps] at hmoments
  exact ⟨rfl, hmoments⟩

/-- A unit with another behavior, before it becomes active with it. -/
def succeed (s : Setting) (next : Iteration) (n : Node) (t : Turn) : Node × Turn :=
  ({ n with iteration := (next.attach s n.iteration t).1, started := false },
    (next.attach s n.iteration t).2)

/-- In an active root a unit becomes active with its new behavior. -/
lemma install_eq (s : Setting) (next : Iteration) (active : Bool) (n : Node) (t : Turn) :
    n.install s next active t =
      if active then (n.succeed s next t).1.activate s (n.succeed s next t).2
      else n.succeed s next t := rfl

/-- A unit with another behavior has its members and has not been started. -/
lemma tenure_succeed (s : Setting) (next : Iteration) (n : Node) (t : Turn) :
    (n.succeed s next t).1.tenure =
      ⟨next.members, next.number, false, (next.attach s n.iteration t).1.cells.shelf⟩ ∧
    (n.succeed s next t).2.chronicle.moments =
      (t.chronicle.momentAll ((Iteration.givenUp next n.iteration).map Prod.fst)
        .dispose).moments :=
  ⟨rfl, Iteration.moments_attach s next n.iteration t⟩

end Node

namespace Task

/-- The tasks that let no hook run. -/
inductive Plain : Task → Prop
  | tick : Plain .tick
  | receive (port : String) (values : List Value) : Plain (.receive port values)
  | invoke (c : Call) : Plain (.invoke c)

end Task

namespace Iteration

variable {i : Iteration}

/-- Other cells with the same shelf leave the tenure alone. -/
lemma tenure_of_cells {c : Cells} (h : c.shelf = i.cells.shelf) (started : Bool) :
    ({ i with cells := c } : Iteration).tenure started = i.tenure started := by
  unfold tenure
  rw [h]

/-- A tick leaves the tenure alone. -/
lemma tenure_tick (s : Setting) (i : Iteration) (t : Turn) (started : Bool) :
    (i.tick s t).1.tenure started = i.tenure started := by
  rw [fst_tick]
  exact tenure_of_cells (Cells.rule_shelf.tick s i t) started

/-- Values for a port leave the tenure alone. -/
lemma tenure_receive (s : Setting) (port : String) (values : List Value) (i : Iteration)
    (t : Turn) (started : Bool) :
    (i.receive s port values t).1.tenure started = i.tenure started := by
  rw [fst_receive]
  exact tenure_of_cells (Cells.rule_shelf.receive s port values i t) started

/-- A call leaves the tenure alone. -/
lemma tenure_invoke (s : Setting) (c : Call) (i : Iteration) (t : Turn) (started : Bool) :
    (i.invoke s c t).2.1.tenure started = i.tenure started := by
  rw [fst_invoke]
  exact tenure_of_cells (Cells.rule_shelf.invoke s c i t) started

/-- Values from a snapshot leave the tenure alone. -/
lemma tenure_restoreProperties (values : Named Value) (i : Iteration) (started : Bool) :
    (values.foldl (fun (i : Iteration) e => i.restoreProperty e.1 e.2) i).tenure started =
      i.tenure started := by
  rw [restoreProperties_eq]
  exact tenure_of_cells (Cells.rule_shelf.restoreProperties values i) started

end Iteration

namespace Task

/-- A turn that lets no hook run leaves the tenure and the chronicle alone. -/
lemma Plain.tenure_run {k : Task} (hk : k.Plain) (s : Setting) (n : Node) (t : Turn) :
    (k.run s n t).1.tenure = n.tenure ∧ (k.run s n t).2.chronicle = t.chronicle := by
  cases hk with
  | tick =>
    exact ⟨n.iteration.tenure_tick s t n.started, (Turn.rule_steps.tick s n.iteration t).chronicle⟩
  | receive port values =>
    exact ⟨n.iteration.tenure_receive s port values t n.started,
      (Turn.rule_steps.receive s port values n.iteration t).chronicle⟩
  | invoke c =>
    exact ⟨n.iteration.tenure_invoke s c t n.started,
      (Turn.rule_steps.invoke s c n.iteration t).chronicle⟩

end Task

end Switchboard
