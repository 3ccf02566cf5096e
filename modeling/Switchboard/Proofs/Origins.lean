import Mathlib
import Switchboard.Proofs.Builds

/-!
# Where units come from

A unit that was made from the catalog and has had its first behavior ever since is `Genuine`.  Such
a unit still is what its type says (`Root.Native`): it has the members that the type declares, each
of its properties has the shape and a value of the shape that was declared for it, and whatever
connection of the container above it begins or ends at the unit does so at a port that has the right
direction.  This is shown along the history of the unit, from stride to stride (`Stride`), beginning
with its addition (`Genuine.native`).

What holds of all units, whatever their origin, is that their metadata and their connections are in
order (`Root.Ordered`).
-/

namespace Switchboard

open Relation

/-! ## The order of connections -/

/-- The order of lists of texts is that of their first texts that differ. -/
lemma compareIds_eq_lt {as bs : List String} : compareIds as bs = .lt ↔ as < bs := by
  induction as generalizing bs with
  | nil => cases bs <;> simp [compareIds]
  | cons a as ih =>
    cases bs with
    | nil => simp [compareIds]
    | cons b bs =>
      have heq : compareTexts a b = .eq ↔ a = b := by
        unfold compareTexts compareOfLessAndEq
        split
        · next hlt => simp [hlt.ne]
        · split <;> simp_all
      rw [compareIds, Ordering.then_eq_lt, List.cons_lt_cons_iff, ih, heq]
      exact or_congr_left compareOfLessAndEq_eq_lt

namespace Connection

variable {c d : Connection} {l : List Connection}

/-- Connections that are sorted, none of them twice. -/
def Ordered (l : List Connection) : Prop := l.Pairwise fun a b => a.fields < b.fields

/-- Connections with the same words are the same. -/
lemma eq_of_fields (h : c.fields = d.fields) : c = d := by
  obtain ⟨source, sourcePort, target, targetPort⟩ := c
  cases h
  rfl

/-- The child and the port where a connection begins, or ends. -/
def endAt (c : Connection) : PortDirection → String × String
  | .output => (c.source, c.sourcePort)
  | .input => (c.target, c.targetPort)

/-- A connection that is put into its place leaves the others in order. -/
lemma Ordered.insertSorted (hl : Ordered l) (hc : c ∉ l) : Ordered (c.insertSorted l) := by
  induction l with
  | nil => exact List.pairwise_singleton _ c
  | cons d rest ih =>
    obtain ⟨hd, hrest⟩ := List.pairwise_cons.mp hl
    unfold Connection.insertSorted
    split
    · next hlt =>
      have hlt := compareIds_eq_lt.mp hlt
      refine List.pairwise_cons.mpr ⟨fun e he => ?_, hl⟩
      rcases List.mem_cons.mp he with rfl | he
      · exact hlt
      · exact hlt.trans (hd e he)
    · next hnlt =>
      have hne : c.fields ≠ d.fields := fun heq => hc (eq_of_fields heq ▸ List.mem_cons_self)
      have hlt : d.fields < c.fields :=
        lt_of_le_of_ne (not_lt.mp fun hlt => hnlt (compareIds_eq_lt.mpr hlt)) hne.symm
      refine List.pairwise_cons.mpr ⟨fun e he => ?_, ih hrest ?_⟩
      · rcases Root.mem_insertSorted he with rfl | he
        · exact hlt
        · exact hd e he
      · exact fun hmem => hc (List.mem_cons_of_mem d hmem)

/-- Connections stay in order when some are dropped. -/
lemma Ordered.filter (hl : Ordered l) (p : Connection → Bool) : Ordered (l.filter p) :=
  List.Pairwise.filter p hl

end Connection

/-! ## What is declared -/

namespace Members

variable {m : Members}

/-- The shapes of the properties, in the order of their declaration. -/
def shapes (m : Members) : Named Shape :=
  m.controls.filterMap fun e =>
    match e.2 with
    | .property shape _ => some (e.1, shape)
    | _ => none

/-- The direction of a port, if one of that name is declared. -/
def portDirection? (m : Members) (id : String) : Option PortDirection :=
  (Named.find? id m.ports).bind Port.direction

/-- The shapes are those of the properties that are declared. -/
lemma mem_shapes {id : String} {shape : Shape} :
    (id, shape) ∈ m.shapes ↔ ∃ default, (id, .property shape default) ∈ m.controls := by
  unfold shapes
  rw [List.mem_filterMap]
  constructor
  · rintro ⟨⟨name, control⟩, hmem, hmatch⟩
    cases control with
    | property shape' default =>
      cases hmatch
      exact ⟨default, hmem⟩
    | _ => contradiction
  · rintro ⟨default, hmem⟩
    exact ⟨_, hmem, rfl⟩

/-- The controls of a behavior are those that are declared. -/
lemma control_of_mem {b : Behavior} (h : ofBehavior b = .ok m) {id : String} {c : Control}
    (hc : (id, c) ∈ m.controls) : Declaration.control id c ∈ b := by
  unfold ofBehavior at h
  have hfold (ds : List Declaration) (m₀ : Members) (h : ds.foldlM declare m₀ = .ok m) :
      (id, c) ∈ m₀.controls ∨ Declaration.control id c ∈ ds := by
    induction ds generalizing m₀ with
    | nil =>
      cases h
      exact .inl hc
    | cons d ds ih =>
      rw [List.foldlM_cons] at h
      match hd : m₀.declare d with
      | .error e =>
        rw [hd] at h
        contradiction
      | .ok m₁ =>
        rw [hd] at h
        refine (ih m₁ h).elim (fun hmem => ?_) fun hmem => .inr (List.mem_cons_of_mem d hmem)
        cases d with
        | control id' c' =>
          obtain ⟨-, rfl⟩ := free_of_checkId hd
          rcases List.mem_append.mp hmem with hmem | hmem
          · exact .inl hmem
          · cases List.mem_singleton.mp hmem
            exact .inr List.mem_cons_self
        | port id' p =>
          obtain ⟨-, rfl⟩ := free_of_checkId hd
          exact .inl hmem
        | reference id' r =>
          obtain ⟨-, rfl⟩ := free_of_checkId hd
          exact .inl hmem
        | tick handler =>
          cases hd
          exact .inl hmem
        | fail reasons => contradiction
  exact (hfold b {} h).resolve_left List.not_mem_nil

/-- A property begins with its shape and its default. -/
lemma property?_initialCells (hm : m.Distinct) {id : String} {shape : Shape} {default : Value}
    (h : (id, .property shape default) ∈ m.controls) :
    (Iteration.initialCells m).property? id = some { shape := shape, value := default } := by
  refine (Keyed.find?_ofList ?_).mpr (List.mem_filterMap.mpr ⟨_, h, rfl⟩)
  refine hm.controls.sublist (Named.sublist_names_filterMap (fun e b hb => ?_) m.controls)
  split at hb
  · cases hb
    rfl
  · contradiction

/-- No property is declared twice. -/
lemma Distinct.nodup_shapes (hm : m.Distinct) : (Named.names m.shapes).Nodup := by
  refine hm.controls.sublist (Named.sublist_names_filterMap (fun e b hb => ?_) m.controls)
  split at hb
  · cases hb
    rfl
  · contradiction

end Members

/-- Whether the defaults of all properties are of the shapes that are declared with them. -/
def Behavior.Typed (b : Behavior) : Prop :=
  ∀ id shape default, Declaration.control id (.property shape default) ∈ b → default.OfShape shape

/-- Whether there are properties of these shapes. -/
def Cells.Shaped (c : Cells) (shapes : Named Shape) : Prop :=
  ∀ id shape, (id, shape) ∈ shapes → ∃ p, c.property? id = some p ∧ p.shape = shape

/-- Whether there are properties of these shapes, each with a value of its shape. -/
def Cells.Typed (c : Cells) (shapes : Named Shape) : Prop :=
  ∀ id shape, (id, shape) ∈ shapes →
    ∃ p, c.property? id = some p ∧ p.shape = shape ∧ p.value.OfShape shape

namespace Cells

variable {c d : Cells} {shapes : Named Shape}

/-- Properties that are kept keep their shapes. -/
lemma Keeps.shaped (h : d.Keeps c) (hc : c.Shaped shapes) : d.Shaped shapes := by
  intro id shape hmem
  obtain ⟨p, hp, hshape⟩ := hc id shape hmem
  obtain ⟨q, hq, hsame, -⟩ := h.property id p hp
  exact ⟨q, hq, hsame.trans hshape⟩

/-- Properties that are kept go on to have values of their shapes. -/
lemma Keeps.typed (h : d.Keeps c) (hc : c.Typed shapes) : d.Typed shapes := by
  intro id shape hmem
  obtain ⟨p, hp, rfl, hvalue⟩ := hc id shape hmem
  obtain ⟨q, hq, hsame, hvalue'⟩ := h.property id p hp
  exact ⟨q, hq, hsame, hsame ▸ hvalue' hvalue⟩

end Cells

namespace Iteration

variable {b : Behavior} {i : Iteration}

/-- The iteration of a behavior has its members, which have different names, and begins with its
properties. -/
lemma ofBehavior_eq_ok (h : ofBehavior b = .ok i) :
    Members.ofBehavior b = .ok i.members ∧ i.members.Distinct ∧
      i.cells = initialCells i.members := by
  unfold ofBehavior at h
  cases hm : Members.ofBehavior b with
  | error e =>
    rw [hm] at h
    contradiction
  | ok m =>
    rw [hm] at h
    cases h
    exact ⟨rfl, Members.distinct_ofBehavior hm, rfl⟩

/-- The iteration of a behavior has no source of its own. -/
lemma source_ofBehavior (h : ofBehavior b = .ok i) : i.source = none := by
  unfold ofBehavior at h
  cases hm : Members.ofBehavior b with
  | error e =>
    rw [hm] at h
    contradiction
  | ok m =>
    rw [hm] at h
    cases h
    rfl

/-- An iteration begins with properties of the shapes that are declared. -/
lemma shaped_ofBehavior (h : ofBehavior b = .ok i) : i.cells.Shaped i.members.shapes := by
  obtain ⟨-, hdistinct, hcells⟩ := ofBehavior_eq_ok h
  intro id shape hmem
  obtain ⟨default, hcontrol⟩ := Members.mem_shapes.mp hmem
  exact ⟨_, hcells ▸ Members.property?_initialCells hdistinct hcontrol, rfl⟩

/-- An iteration begins with values of the shapes that are declared, if the defaults are. -/
lemma typed_ofBehavior (h : ofBehavior b = .ok i) (hb : b.Typed) :
    i.cells.Typed i.members.shapes := by
  obtain ⟨hmembers, hdistinct, hcells⟩ := ofBehavior_eq_ok h
  intro id shape hmem
  obtain ⟨default, hcontrol⟩ := Members.mem_shapes.mp hmem
  exact ⟨_, hcells ▸ Members.property?_initialCells hdistinct hcontrol, rfl,
    hb id shape default (Members.control_of_mem hmembers hcontrol)⟩

end Iteration

namespace Root

variable {r s : Root} {h k q c : Handle} {n m : Node}

/-! ## Strides -/

/-- A deed of a root, or something that its host does with a call of its own. -/
inductive Stride (r : Root) : Root → Prop
  | deed {s : Root} (h : Deed r s) : Stride r s
  | send (c : Call) (hc : c.isResponse = true → ∃ q, (q, c) ∈ r.ledger.answers) :
      Stride r (r.send c)
  | keepAnswer {c a : Call} {kind : CallKind} {args : List Value} {l : Ledger}
      (hkind : kind = .reply ∨ kind = .error) (h : r.ledger.answer c kind args = .ok (a, l)) :
      Stride r { r with ledger := l }

/-- What a root can become. -/
def Later : Root → Root → Prop := ReflTransGen Stride

/-- What becomes of a root by an operation of the host comes later. -/
lemma Operation.later {o : Operation} (ho : o.Admitted r) : Later r (o.run r) :=
  Operation.preserve (P := Later r) (fun _ _ hdeed hr => ReflTransGen.tail hr (.deed hdeed))
    (fun _ c hc hr => ReflTransGen.tail hr (.send c hc))
    (fun _ _ _ _ _ _ hkind h hr => ReflTransGen.tail hr (.keepAnswer hkind h))
    ReflTransGen.refl ho

/-- Deeds come one after the other. -/
lemma Deeds.later (h : Deeds r s) : Later r s :=
  ReflTransGen.mono (fun _ _ hdeed => Stride.deed hdeed) r s h

/-- A stride leaves a tree. -/
lemma IsTree.stride (hr : r.IsTree) (h : Stride r s) : s.IsTree := by
  cases h with
  | deed h => exact hr.changes h.move.changes
  | send c hc => exact hr.keeps ((sends_send r c).keeps)
  | keepAnswer hkind h => exact hr.keeps ⟨rfl, id⟩

/-- What comes later is a tree. -/
lemma IsTree.later (hr : r.IsTree) (h : Later r s) : s.IsTree := by
  induction h with
  | refl => exact hr
  | tail _ hstride ih => exact ih.stride hstride

/-! ## Units from stride to stride -/

/-- Whether every unit that there is now follows itself. -/
structure Follows (r s : Root) : Prop where
  installed : s.installed = r.installed
  units : ∀ k m, s.units.get? k = some m → ∃ n, r.units.get? k = some n ∧ n.Follows m

namespace Follows

variable {t : Root}

/-- Nothing happens to units. -/
lemma of_units (hunits : s.units = r.units) (hinstalled : s.installed = r.installed) :
    r.Follows s := ⟨hinstalled, fun _ m hm => ⟨m, hunits ▸ hm, .refl m⟩⟩

/-- Nothing happens. -/
lemma refl (r : Root) : r.Follows r := of_units rfl rfl

/-- One thing happens after another. -/
lemma trans (h : r.Follows s) (h' : s.Follows t) : r.Follows t := by
  refine ⟨h'.installed.trans h.installed, fun k o ho => ?_⟩
  obtain ⟨m, hm, hfollows'⟩ := h'.units k o ho
  obtain ⟨n, hn, hfollows⟩ := h.units k m hm
  exact ⟨n, hn, hfollows.trans hfollows'⟩

/-- Something happens for each item of a list. -/
lemma foldl {α : Type} {f : Root → α → Root} (h : ∀ (r : Root) a, r.Follows (f r a)) (l : List α)
    (r : Root) : r.Follows (l.foldl f r) :=
  l.foldlRecOn f (refl r) fun s hs a _ => hs.trans (h s a)

/-- A unit comes to another state. -/
lemma set (hn : r.units.get? h = some n) (hm : n.Follows m) :
    r.Follows { r with units := r.units.set h m } := by
  refine ⟨rfl, fun k o ho => ?_⟩
  simp only [Arena.get?_set hn] at ho
  split at ho
  · next hk =>
    cases ho
    exact ⟨n, hk ▸ hn, hm⟩
  · exact ⟨o, ho, .refl o⟩

/-- A unit is changed. -/
lemma modify (r : Root) (h : Handle) {f : Node → Node} (hf : ∀ n : Node, n.Follows (f n)) :
    r.Follows { r with units := r.units.modify h f } := by
  cases hn : r.units.get? h with
  | none =>
    have hmodify : r.units.modify h f = r.units := by
      rw [Arena.modify, hn]
    exact of_units hmodify rfl
  | some n =>
    have hmodify : r.units.modify h f = r.units.set h (f n) := by
      rw [Arena.modify, hn]
    rw [hmodify]
    exact set hn (hf n)

/-- Nothing is sent but what was produced. -/
lemma sends (h : Sends r s) : r.Follows s := of_units h.units h.installed

end Follows

/-- A turn of a unit that keeps its behavior. -/
lemma follows_act (r : Root) (h : Handle) {k : Task} (hk : k.Lasting) :
    r.Follows (r.act h k.run) := by
  cases hn : r.units.get? h with
  | none =>
    rw [act_of_none hn]
    exact .refl r
  | some n =>
    refine (Follows.set hn (hk.follows_run (r.setting n.address) n r.turn)).trans
      (.of_units (units_act hn k.run) ?_)
    exact (catalog_act r h k.run).2

/-- Turns of units that keep their behaviors. -/
lemma follows_actAll (r : Root) (hs : List Handle) {k : Task} (hk : k.Lasting) :
    r.Follows (r.actAll hs k.run) := .foldl (fun r h => follows_act r h hk) hs r

/-- A unit is taken out, and all others are left alone. -/
lemma follows_dropNode (r : Root) (h : Handle) : r.Follows (r.dropNode h) := by
  refine ⟨(catalog_act r h Node.dispose).2, fun k m hm => ?_⟩
  have hleft : ((r.act h Node.dispose).units.remove h).2.get? k = some m := hm
  rw [Arena.get?_remove] at hleft
  split at hleft
  · contradiction
  · next hk =>
    cases hn : r.units.get? h with
    | none =>
      rw [act_of_none hn] at hleft
      exact ⟨m, hleft, .refl m⟩
    | some n =>
      rw [units_act hn, Arena.get?_set hn, if_neg hk] at hleft
      exact ⟨m, hleft, .refl m⟩

/-- A child is taken out with everything below it, and all other units are left alone. -/
lemma follows_removeChild (r : Root) (parent : Path) (id : String) :
    r.Follows (r.removeChild parent id).2 := by
  have hsubtree (fuel : ℕ) (h : Handle) (r : Root) : r.Follows (removeSubtree fuel h r) := by
    induction fuel generalizing h r with
    | zero => exact .refl r
    | succ fuel ih =>
      unfold removeSubtree
      split
      · exact .refl r
      · exact (Follows.foldl (f := fun r (e : String × Handle) => removeSubtree fuel e.2 r)
          (fun r e => ih e.2 r) _ r).trans (follows_dropNode _ h)
  unfold removeChild
  split
  · exact .refl r
  · rename_i h _
    have hparent : r.Follows { r with units := r.units.modify h fun n => n.removeChild id } :=
      .modify r h fun n => ⟨rfl, rfl, rfl, rfl, rfl, rfl, .refl _, fun h => h⟩
    simp only
    split
    · exact hparent
    · exact hparent.trans (hsubtree _ _ _)

/-- Starting a root leaves the behaviors of its units in place. -/
lemma follows_start (r : Root) : r.Follows r.start.2 := by
  unfold start
  cases h : r.clock.become? .active with
  | none => exact .refl r
  | some clock =>
    have hclock : r.Follows { r with clock := clock } := .of_units rfl rfl
    exact hclock.trans (follows_actAll _ clock.listeners .activate)

/-- Stopping a root leaves the behaviors of its units in place. -/
lemma follows_stop (r : Root) : r.Follows r.stop.2 := by
  unfold stop
  cases h : r.clock.become? .idle with
  | none => exact .refl r
  | some clock =>
    have hclock : r.Follows { r with clock := clock } := .of_units rfl rfl
    have hstopped := hclock.trans (follows_actAll _ clock.listeners .stop)
    exact hstopped.trans (follows_actAll _ clock.listeners .reset)

/-- What a stride does to the behaviors of units: it leaves them in place, it puts another one in
place, or it adds a unit. -/
lemma Stride.cases_behavior (h : Stride r s) :
    r.Follows s ∨ (∃ k i, s = r.putIteration k i) ∨
      ∃ above id typeName kind b, s = (r.addUnit above id typeName kind b).2 := by
  cases h with
  | send c hc => exact .inl (.sends (sends_send r c))
  | keepAnswer hkind h => exact .inl (.of_units rfl rfl)
  | deed h =>
    cases h with
    | turn k hk => exact .inl (follows_act r k (.plain hk))
    | answer c hkind args => exact .inl (.sends (sends_sendAnswer r c _ args))
    | start => exact .inl (follows_start r)
    | stop => exact .inl (follows_stop r)
    | add above id typeName hkind b => exact .inr (.inr ⟨above, id, typeName, _, b, rfl⟩)
    | install k hi => exact .inr (.inl ⟨k, _, rfl⟩)
    | remove above id => exact .inl (follows_removeChild r above id)
    | connect p c =>
      refine .inl ?_
      unfold connect
      match hcheck : r.checkConnection p c with
      | .error e => exact .refl r
      | .ok (q, m) =>
        obtain ⟨n, -, hn, -, -, -, -, rfl⟩ := checkConnection_eq_ok.mp hcheck
        exact .set hn ⟨rfl, rfl, rfl, rfl, rfl, rfl, .refl _, fun h => h⟩
    | disconnect p c =>
      refine .inl ?_
      unfold disconnect
      cases r.lookup p with
      | error e => exact .refl r
      | ok q =>
        simp only
        split
        · rename_i m hm
          obtain ⟨n, hn, hdisconnect⟩ := Option.bind_eq_some_iff.mp hm
          unfold Node.disconnect? at hdisconnect
          split at hdisconnect
          · cases hdisconnect
            exact .set hn ⟨rfl, rfl, rfl, rfl, rfl, rfl, .refl _, fun h => h⟩
          · contradiction
        · exact .refl r
    | edit k hf => exact .inl (.modify r k hf.follows)
    | send hc => exact .inl (.sends (sends_send r _))
    | more h => exact .inl (.of_units h.units_eq h.installed_eq)
    | _ => exact .inl (.of_units rfl rfl)

/-- When an iteration is put in place, the unit is given its number and its members. -/
lemma get?_putIteration_eq_some (i : Iteration) (hm : (r.putIteration h i).units.get? k = some m) :
    r.units.get? k = some m ∨ ∃ n, r.units.get? k = some n ∧ k = h ∧ m.metadata = n.metadata ∧
      m.place = n.place ∧ m.iteration.number = r.installed.length := by
  cases hn : r.units.get? h with
  | none =>
    refine .inl ?_
    unfold putIteration at hm
    rw [act_of_none (r := r.enlist i) hn] at hm
    exact hm
  | some n =>
    rw [get?_putIteration hn] at hm
    split at hm
    · next hk =>
      cases hm
      refine .inr ⟨n, hk ▸ hn, hk, (r.installing i).metadata_run _ n _,
        (r.installing i).place_run _ n _, ?_⟩
      exact (Node.follows_install _ { i with number := r.installed.length } _ n _).number
    · exact .inl hm

/-- What a stride has made of a unit that is there afterwards. -/
inductive Becomes (r s : Root) (k : Handle) (m : Node) : Prop
  /-- The unit has kept its behavior. -/
  | follows {n : Node} (hn : r.units.get? k = some n) (hfollows : n.Follows m)
  /-- A behavior was put in place at the unit. -/
  | installed {n : Node} {i : Iteration} (hn : r.units.get? k = some n)
      (hs : s = r.putIteration k i) (hmetadata : m.metadata = n.metadata)
      (hnumber : m.iteration.number = r.installed.length)
  /-- The unit was added. -/
  | added {above : Path} {i : Id} {q : Handle} {n : Node} (hgrafted : r.Grafted s above i q k n)
      (hmetadata : m.metadata = []) (hsource : m.iteration.source = none)

/-- A unit that is there after a stride has been there before, or it was added. -/
lemma Stride.becomes (h : Stride r s) (hr : r.IsTree) (hm : s.units.get? k = some m) :
    r.Becomes s k m := by
  rcases h.cases_behavior with h | ⟨q, i, rfl⟩ | ⟨above, id, typeName, kind, b, rfl⟩
  · obtain ⟨n, hn, hfollows⟩ := h.units k m hm
    exact .follows hn hfollows
  · rcases get?_putIteration_eq_some i hm with hsame | ⟨n, hn, rfl, hmetadata, -, hnumber⟩
    · exact .follows hsame (.refl m)
    · exact .installed hn rfl hmetadata hnumber
  · match hadd : r.addUnit above id typeName kind b with
    | (.error e, t) =>
      rw [hadd, addUnit_of_error hadd] at hm
      exact .follows hm (.refl m)
    | (.ok address, t) =>
      obtain ⟨i, q, c, n, j, -, -, -, hgrafted, hbehavior, hbegins⟩ := hr.grafted hadd
      rw [hadd] at hm
      by_cases hkc : k = c
      · subst hkc
        obtain ⟨_, _, m', hm', -, -, hmetadata, hfollows⟩ := hbegins.unit
        cases hm.symm.trans hm'
        have hsource : m.iteration.source = j.source := hfollows.source
        exact .added hgrafted hmetadata (hsource.trans (Iteration.source_ofBehavior hbehavior))
      · by_cases hk : k = q
        · have hn : r.units.get? k = some n := hk ▸ hgrafted.node
          rw [hk, hgrafted.extended] at hm
          cases hm
          exact .follows hn ⟨rfl, rfl, rfl, rfl, rfl, rfl, .refl _, fun h => h⟩
        · rw [hgrafted.others k hk hkc] at hm
          exact .follows hm (.refl m)

/-- Where a stride does not leave all behaviors in place, it puts one in place and remembers it. -/
lemma Stride.follows_or_installs (h : Stride r s) (hr : r.IsTree) :
    r.Follows s ∨ s.installed.length = r.installed.length + 1 := by
  rcases h.cases_behavior with h | ⟨q, i, rfl⟩ | ⟨above, id, typeName, kind, b, rfl⟩
  · exact .inl h
  · have hinstalled : (r.putIteration q i).installed = i.members :: r.installed :=
      (catalog_act (r.enlist i) q _).2
    exact .inr (congrArg List.length hinstalled)
  · match hadd : r.addUnit above id typeName kind b with
    | (.error e, t) =>
      rw [addUnit_of_error hadd]
      exact .inl (.refl r)
    | (.ok address, t) =>
      obtain ⟨i, q, c, n, j, -, -, -, -, -, hbegins⟩ := hr.grafted hadd
      exact .inr (congrArg List.length hbegins.installed)

/-- The behaviors that were put in place are not forgotten. -/
lemma Stride.installed_le (h : Stride r s) (hr : r.IsTree) :
    r.installed.length ≤ s.installed.length := by
  rcases h.follows_or_installs hr with hfollows | hmore
  · exact (congrArg List.length hfollows.installed).ge
  · omega

/-- The behaviors that were put in place are not forgotten later. -/
lemma IsTree.installed_le (hr : r.IsTree) (h : Later r s) :
    r.installed.length ≤ s.installed.length := by
  induction h with
  | refl => exact le_rfl
  | tail hbefore hstride ih => exact ih.trans (hstride.installed_le (hr.later hbefore))

/-- A unit that is there before and after a stride, with the same behavior, follows itself. -/
lemma Stride.follows (h : Stride r s) (hr : r.IsTree) (hn : r.units.get? k = some n)
    (hlt : n.iteration.number < r.installed.length) (hm : s.units.get? k = some m)
    (hnumber : m.iteration.number = n.iteration.number) :
    n.Follows m ∧ m.iteration.number < s.installed.length := by
  refine ⟨?_, hnumber ▸ hlt.trans_le (h.installed_le hr)⟩
  cases h.becomes hr hm with
  | follows hn' hfollows =>
    cases hn.symm.trans hn'
    exact hfollows
  | installed _ _ _ hlast => omega
  | added hgrafted =>
    rw [hgrafted.new] at hn
    contradiction

/-! ## Connections from stride to stride -/

/-- Whether a connection leads from an output port of a child to an input port of one. -/
structure Joins (r : Root) (a : Place) (c : Connection) : Prop where
  source : ∃ k n, Named.find? c.source a.children = some k ∧ r.units.get? k = some n ∧
    n.iteration.portDirection? c.sourcePort = some .output
  target : ∃ k n, Named.find? c.target a.children = some k ∧ r.units.get? k = some n ∧
    n.iteration.portDirection? c.targetPort = some .input

/-- A connection between ports of children has a child at both ends that declares the port. -/
lemma Joins.declares {a : Place} {c : Connection} (h : r.Joins a c) (d : PortDirection) :
    ∃ k n, Named.find? (c.endAt d).1 a.children = some k ∧ r.units.get? k = some n ∧
      n.iteration.portDirection? (c.endAt d).2 = some d := by
  cases d with
  | output => exact h.source
  | input => exact h.target

/-- What becomes of the connections of containers: they stay in order, and what is new among them
joins children. -/
structure Wires (r s : Root) : Prop where
  ordered : ∀ q a, s.skeleton.place q = some a →
    (∀ b, r.skeleton.place q = some b → Connection.Ordered b.connections) →
    Connection.Ordered a.connections
  links : ∀ q a name k, s.skeleton.place q = some a → Named.find? name a.children = some k →
    (r.skeleton.place k).isSome = true →
    ∃ b, r.skeleton.place q = some b ∧ Named.find? name b.children = some k ∧
      ∀ c ∈ a.connections, c ∈ b.connections ∨ r.Joins b c

/-- What leaves the tree alone leaves its connections alone. -/
lemma Keeps.wires (h : Keeps r s) : r.Wires s := by
  constructor
  · intro q a ha hb
    rw [h.skeleton] at ha
    exact hb a ha
  · intro q a name k ha hk _
    rw [h.skeleton] at ha
    exact ⟨a, ha, hk, fun c hc => .inl hc⟩

/-- One unit is in another place. -/
lemma wires_set (hn : r.units.get? h = some n)
    (hordered : Connection.Ordered n.connections → Connection.Ordered m.connections)
    (hlinks : ∀ name k, Named.find? name m.children = some k →
      Named.find? name n.children = some k)
    (hjoins : ∀ c ∈ m.connections, c ∈ n.connections ∨ r.Joins n.place c) :
    r.Wires { r with units := r.units.set h m } := by
  constructor
  · intro q a ha hb
    rw [skeleton_set hn] at ha
    rcases Skeleton.place_update (place_skeleton hn) ha with ⟨rfl, rfl, -⟩ | ⟨-, hold⟩
    · exact hordered (hb n.place (place_skeleton hn))
    · exact hb a hold
  · intro q a name k ha hk _
    rw [skeleton_set hn] at ha
    rcases Skeleton.place_update (place_skeleton hn) ha with ⟨rfl, rfl, hold⟩ | ⟨-, hold⟩
    · exact ⟨n.place, hold, hlinks name k hk, hjoins⟩
    · exact ⟨a, hold, hk, fun c hc => .inl hc⟩

/-- Making a connection. -/
lemma wires_connect (r : Root) (p : Path) (c : Connection) : r.Wires (r.connect p c).2 := by
  unfold connect
  match hcheck : r.checkConnection p c with
  | .error e => exact (Keeps.refl r).wires
  | .ok (q, m) =>
    obtain ⟨n, -, hn, -, hsource, htarget, hnew, rfl⟩ := checkConnection_eq_ok.mp hcheck
    refine wires_set hn (fun hordered => hordered.insertSorted hnew) (fun _ _ hk => hk) ?_
    intro d hd
    rcases mem_insertSorted hd with rfl | hd
    · exact .inr ⟨checkEnd_eq_ok.mp hsource, checkEnd_eq_ok.mp htarget⟩
    · exact .inl hd

/-- Dropping a connection. -/
lemma wires_disconnect (r : Root) (p : Path) (c : Connection) : r.Wires (r.disconnect p c).2 := by
  unfold disconnect
  cases r.lookup p with
  | error e => exact (Keeps.refl r).wires
  | ok q =>
    simp only
    split
    · rename_i m hm
      obtain ⟨n, hn, hdisconnect⟩ := Option.bind_eq_some_iff.mp hm
      unfold Node.disconnect? at hdisconnect
      split at hdisconnect
      · cases hdisconnect
        exact wires_set hn (fun hordered => hordered.filter _) (fun _ _ hk => hk)
          fun d hd => .inl (List.mem_filter.mp hd).1
      · contradiction
    · exact (Keeps.refl r).wires

/-- Taking out a child with everything below it. -/
lemma wires_removeChild (hr : r.IsTree) (above : Path) (id : String) :
    r.Wires (r.removeChild above id).2 := by
  cases hq : r.handle? above with
  | none =>
    have hlookup : r.lookup above = .error (notFound above) := by
      rw [lookup, hq]
    unfold removeChild
    rw [hlookup]
    exact (Keeps.refl r).wires
  | some q =>
    obtain ⟨n, hn, -⟩ := exists_of_handle hr.skeleton.index hq
    obtain ⟨-, hremoves⟩ := removes_removeChild hr hq hn id
    have hplace := place_skeleton hn
    constructor
    · intro k a ha hb
      obtain ⟨hold, -⟩ := (hremoves.place k a).mp ha
      rcases Skeleton.place_update hplace hold with ⟨rfl, rfl, -⟩ | ⟨-, hold⟩
      · exact (hb n.place hplace).filter _
      · exact hb a hold
    · intro k a name l ha hl _
      obtain ⟨hold, -⟩ := (hremoves.place k a).mp ha
      rcases Skeleton.place_update hplace hold with ⟨rfl, rfl, -⟩ | ⟨-, hold⟩
      · refine ⟨n.place, hplace, ?_, fun c hc => .inl (List.mem_filter.mp hc).1⟩
        have hname : name ≠ id := by
          rintro rfl
          have hnone := Named.find?_erase_self name n.place.children
          rw [show Named.find? name (Named.erase name n.place.children) = some l from hl] at hnone
          contradiction
        exact (Named.find?_erase_of_ne hname n.place.children).symm.trans hl
      · exact ⟨a, hold, hl, fun c hc => .inl hc⟩

/-- Adding a unit. -/
lemma wires_addUnit (hr : r.IsTree) (above : Path) (id typeName : String) (kind : NodeKind)
    (b : Behavior) : r.Wires (r.addUnit above id typeName kind b).2 := by
  match hadd : r.addUnit above id typeName kind b with
  | (.error e, t) =>
    rw [addUnit_of_error hadd]
    exact (Keeps.refl r).wires
  | (.ok address, t) =>
    obtain ⟨i, q, c, n, j, -, -, -, hgrafted, -, hbegins⟩ := hr.grafted hadd
    obtain ⟨-, -, m, hm, hchildren, hconnections, -, -⟩ := hbegins.unit
    have hplace : ∀ k a, t.skeleton.place k = some a →
        k = q ∧ a = (n.insertChild i.text c).place ∨ k = c ∧ a = m.place ∨
          r.skeleton.place k = some a := by
      intro k a ha
      obtain ⟨n', hn', rfl⟩ := exists_of_place ha
      by_cases hk : k = q
      · rw [hk, hgrafted.extended] at hn'
        cases hn'
        exact .inl ⟨hk, rfl⟩
      · by_cases hkc : k = c
        · rw [hkc, hm] at hn'
          cases hn'
          exact .inr (.inl ⟨hkc, rfl⟩)
        · rw [hgrafted.others k hk hkc] at hn'
          exact .inr (.inr (place_skeleton hn'))
    have hq := place_skeleton hgrafted.node
    constructor
    · intro k a ha hb
      rcases hplace k a ha with ⟨rfl, rfl⟩ | ⟨-, rfl⟩ | hold
      · exact hb n.place hq
      · have hnone : m.place.connections = [] := hconnections
        rw [hnone]
        exact List.Pairwise.nil
      · exact hb a hold
    · intro k a name l ha hl hlive
      rcases hplace k a ha with ⟨rfl, rfl⟩ | ⟨-, rfl⟩ | hold
      · refine ⟨n.place, hq, ?_, fun c hc => .inl hc⟩
        have hname : name ≠ i.text := by
          rintro rfl
          have hself := Named.find?_push_self hgrafted.free c
          rw [show Named.find? i.text (Named.push i.text c n.children) = some l from hl] at hself
          cases hself
          have hnone : r.skeleton.place c = none := congrArg (Option.map Node.place) hgrafted.new
          rw [hnone] at hlive
          contradiction
        exact (Named.find?_push_of_ne hname c n.children).symm.trans hl
      · have hnone : m.place.children = [] := hchildren
        rw [hnone] at hl
        contradiction
      · exact ⟨a, hold, hl, fun c hc => .inl hc⟩

/-- Turns of units, one after the other. -/
lemma keeps_actAll (r : Root) (hs : List Handle) (k : Task) : Keeps r (r.actAll hs k.run) := by
  induction hs generalizing r with
  | nil => exact .refl r
  | cons h hs ih => exact (keeps_act r h k).trans (ih _)

/-- A change of the activity. -/
lemma keeps_become {a : Activity} {clock : Clock Handle} (h : r.clock.become? a = some clock) :
    Keeps r { r with clock := clock } := by
  rw [Clock.become?_eq_some h]
  exact keeps_clock r rfl

/-- Putting an iteration in place leaves the tree alone. -/
lemma keeps_putIteration (r : Root) (h : Handle) (i : Iteration) :
    Keeps r (r.putIteration h i) := by
  have henlist : Keeps r (r.enlist i) := ⟨rfl, id⟩
  exact henlist.trans (keeps_act (r.enlist i) h (r.installing i))

/-- Services leave the tree alone. -/
lemma keeps_service (h : Service r s) : Keeps r s := by
  cases h with
  | @advance time clock h =>
    obtain ⟨rfl, -⟩ := Clock.tick?_eq_some h
    have hclock : Keeps r { r with clock := { r.clock with time := time } } := keeps_clock r rfl
    exact hclock.trans ⟨rfl, id⟩
  | _ => exact ⟨rfl, id⟩

/-- What becomes of connections in a stride. -/
lemma Stride.wires (h : Stride r s) (hr : r.IsTree) : r.Wires s := by
  cases h with
  | send c hc => exact (sends_send r c).keeps.wires
  | keepAnswer hkind h => exact Keeps.wires ⟨rfl, id⟩
  | deed h =>
    cases h with
    | turn k hk => exact (keeps_act r k _).wires
    | answer c hkind args => exact (sends_sendAnswer r c _ args).keeps.wires
    | start =>
      unfold start
      cases h : r.clock.become? .active with
      | none => exact (Keeps.refl r).wires
      | some clock => exact ((keeps_become h).trans (keeps_actAll _ _ .activate)).wires
    | stop =>
      unfold stop
      cases h : r.clock.become? .idle with
      | none => exact (Keeps.refl r).wires
      | some clock =>
        have hstopped := (keeps_become h).trans (keeps_actAll _ clock.listeners .stop)
        exact (hstopped.trans (keeps_actAll _ clock.listeners .reset)).wires
    | add above id typeName hkind b => exact wires_addUnit hr above id typeName _ b
    | install k hi => exact (keeps_putIteration r k _).wires
    | remove above id => exact wires_removeChild hr above id
    | connect p c => exact wires_connect r p c
    | disconnect p c => exact wires_disconnect r p c
    | edit k hf => exact (keeps_modify r k hf.retouch.place).wires
    | send hc => exact (sends_send r _).keeps.wires
    | more h => exact (keeps_service h).wires
    | _ => exact Keeps.wires ⟨rfl, id⟩

/-! ## What holds of all units -/

/-- Whether the metadata and the connections of all units are in order. -/
def Ordered (r : Root) : Prop :=
  ∀ k n, r.units.get? k = some n →
    Keyed.Sorted n.metadata ∧ Connection.Ordered n.connections

/-- A stride leaves everything in order. -/
lemma Ordered.stride (hr : r.Ordered) (htree : r.IsTree) (h : Stride r s) : s.Ordered := by
  intro k m hm
  constructor
  · cases h.becomes htree hm with
    | follows hn hfollows => exact hfollows.metadata (hr k _ hn).1
    | installed hn _ hmetadata _ =>
      rw [hmetadata]
      exact (hr k _ hn).1
    | added _ hmetadata _ =>
      rw [hmetadata]
      trivial
  · refine (h.wires htree).ordered k m.place (place_skeleton hm) fun b hb => ?_
    obtain ⟨n, hn, rfl⟩ := exists_of_place hb
    exact (hr k n hn).2

/-- Everything stays in order. -/
lemma Ordered.later (hr : r.Ordered) (htree : r.IsTree) (h : Later r s) : s.Ordered := by
  induction h with
  | refl => exact hr
  | tail hbefore hstride ih => exact ih.stride (htree.later hbefore) hstride

/-- In every root that a new one can become, everything is in order. -/
lemma Reachable.ordered (h : Reachable r) : r.Ordered := by
  induction h with
  | new h =>
    intro k n hn
    have hempty : ({} : Arena Node).Valid := ⟨List.nodup_nil, by simp⟩
    obtain ⟨address, -, rfl⟩ := new_eq_ok h
    simp only [Arena.get?_insert_snd hempty] at hn
    split at hn
    · cases hn
      exact ⟨trivial, List.Pairwise.nil⟩
    · contradiction
  | operate hr ho ih => exact ih.later hr.isTree (Operation.later ho)

/-! ## Genuine units -/

/-- A unit that was made from the catalog, as one of a type, and has had its first behavior ever
since. -/
inductive Genuine : Root → Handle → UnitType → Prop
  | added {r₀ r s : Root} (hr₀ : Reachable r₀) (hr : Later r₀ r) {above address : Path}
      {id typeName : String} {t : UnitType} (hfind : r.catalog.find? typeName = .ok t)
      (hadd : r.addChild above id typeName = (.ok address, s)) {h : Handle}
      (hh : s.handle? address = some h) : Genuine s h t
  | kept {r s : Root} {h : Handle} {t : UnitType} (hr : Genuine r h t) (hs : Stride r s)
      {n m : Node} (hn : r.units.get? h = some n) (hm : s.units.get? h = some m)
      (hnumber : m.iteration.number = n.iteration.number) : Genuine s h t

/-- As long as no behavior is put in place every unit follows itself, and genuine units stay so. -/
lemma IsTree.follows_later (hr : r.IsTree) (h : Later r s)
    (hinstalled : s.installed.length = r.installed.length) (hm : s.units.get? k = some m) :
    ∃ n, r.units.get? k = some n ∧ n.Follows m ∧ ∀ t, Genuine r k t → Genuine s k t := by
  induction h generalizing m with
  | refl => exact ⟨m, hm, .refl m, fun _ => id⟩
  | tail hbefore hstride ih =>
    have hle := hr.installed_le hbefore
    rcases hstride.follows_or_installs (hr.later hbefore) with hfollows | hmore
    · obtain ⟨n', hn', hlast⟩ := hfollows.units k m hm
      rw [hfollows.installed] at hinstalled
      obtain ⟨n, hn, hfirst, hgenuine⟩ := ih hinstalled hn'
      exact ⟨n, hn, hfirst.trans hlast, fun t ht =>
        .kept (hgenuine t ht) hstride hn' hm hlast.number⟩
    · omega

/-- Whether a connection of a container begins, or ends, at a port of a unit. -/
def Uses (r : Root) (k : Handle) (port : String) (d : PortDirection) : Prop :=
  ∃ q a c, r.skeleton.place q = some a ∧ c ∈ a.connections ∧
    Named.find? (c.endAt d).1 a.children = some k ∧ (c.endAt d).2 = port

/-- Whether the connections that begin or end at a unit, which has these members, do so at ports of
the right direction. -/
def Matched (r : Root) (k : Handle) (ms : Members) : Prop :=
  ∀ port d, r.Uses k port d → ms.portDirection? port = some d

/-- A port of a unit that is used after a stride was used before, or the unit declares it. -/
lemma Stride.uses (h : Stride r s) (hr : r.IsTree) (hn : r.units.get? k = some n) {port : String}
    {d : PortDirection} (huse : s.Uses k port d) :
    r.Uses k port d ∨ n.iteration.portDirection? port = some d := by
  obtain ⟨q, a, c, ha, hc, hk, rfl⟩ := huse
  have hlive : (r.skeleton.place k).isSome = true := by
    rw [place_skeleton hn]
    rfl
  obtain ⟨b, hb, hold, hconnections⟩ := (h.wires hr).links q a _ k ha hk hlive
  rcases hconnections c hc with hc | hjoins
  · exact .inl ⟨q, b, c, hb, hc, hold, rfl⟩
  · obtain ⟨k', n', hfind, hn', hport⟩ := hjoins.declares d
    cases hold.symm.trans hfind
    cases hn.symm.trans hn'
    exact .inr hport

/-- Connections at a unit keep to its ports in every stride. -/
lemma Stride.matched (h : Stride r s) (hr : r.IsTree) (hn : r.units.get? k = some n)
    (hmatched : r.Matched k n.iteration.members) : s.Matched k n.iteration.members :=
  fun port d huse => (h.uses hr hn huse).elim (hmatched port d) id

/-- No connection begins or ends at a unit that was just added. -/
lemma Grafted.not_uses {above : Path} {i : Id} (h : r.Grafted s above i q c n) (hr : r.IsTree)
    (hs : s.IsTree) (port : String) (d : PortDirection) : ¬s.Uses c port d := by
  -- The unit is the last child of the one above, whose connections are between the others.
  rintro ⟨p, a, e, ha, he, hname, -⟩
  obtain ⟨m, hm, haddress⟩ := h.child
  have hends := hs.skeleton.child p a ha (_, c) (Named.mem_of_find? hname)
  obtain ⟨b, l, hb, -, hl, hbelow⟩ := hends
  rw [place_skeleton hm] at hb
  cases hb
  have hat : a.address.append l = n.address.append i := hbelow.symm.trans haddress
  obtain ⟨hsame, rfl⟩ := Path.append_inj hat
  have hp : p = q :=
    hs.skeleton.index.eq_of_address ha (place_skeleton h.extended) hsame
  rw [hp, place_skeleton h.extended] at ha
  cases ha
  obtain ⟨hsource, htarget⟩ := hr.skeleton.ends q _ (place_skeleton h.node) e he
  have hfree : Named.find? (e.endAt d).1 n.place.children = none := by
    rw [← hl]
    exact h.free
  cases d with
  | output =>
    rw [show Named.find? e.source n.place.children = none from hfree] at hsource
    contradiction
  | input =>
    rw [show Named.find? e.target n.place.children = none from hfree] at htarget
    contradiction

/-- A unit that is what its type says. -/
structure Native (r : Root) (k : Handle) (t : UnitType) (n : Node) : Prop where
  unit : r.units.get? k = some n
  members : Members.ofBehavior t.behavior = .ok n.iteration.members
  container : n.kind.isContainer = t.container
  number : n.iteration.number < r.installed.length
  typed : t.behavior.Typed → n.iteration.cells.Typed n.iteration.members.shapes
  matched : r.Matched k n.iteration.members

/-- A unit that was just added is what its type says. -/
lemma IsTree.native (hr : r.IsTree) {above address : Path} {id typeName : String} {t : UnitType}
    (hfind : r.catalog.find? typeName = .ok t)
    (hadd : r.addChild above id typeName = (.ok address, s)) (hh : s.handle? address = some h) :
    ∃ n, s.Native h t n := by
  obtain ⟨t', hfind', hunit⟩ := addChild_eq_ok hadd
  rw [hfind] at hfind'
  cases hfind'
  have hs : s.IsTree := hr.addChild hadd
  obtain ⟨i, q, c, n, j, -, rfl, habove, hgrafted, hbehavior, hbegins⟩ := hr.grafted hunit
  obtain ⟨m, hm, haddress⟩ := hgrafted.child
  have hc : h = c := by
    have hindex := (handle?_eq_some hs.skeleton.index).mpr ⟨m, hm, haddress⟩
    rw [habove, hh] at hindex
    exact Option.some.inj hindex
  obtain ⟨_, _, m', hm', -, -, -, hfollows⟩ := hbegins.unit
  rw [hm] at hm'
  cases hm'
  obtain ⟨hmembers, -, -⟩ := Iteration.ofBehavior_eq_ok hbehavior
  refine ⟨m, hc ▸ hm, ?_, ?_, ?_, fun htyped => ?_, ?_⟩
  · rw [hfollows.members]
    exact hmembers
  · rw [hfollows.kind]
    cases t.container <;> rfl
  · rw [hfollows.number, hbegins.installed]
    exact Nat.lt_succ_self _
  · have hdeclared := Iteration.typed_ofBehavior hbehavior htyped
    rw [hfollows.members]
    exact hfollows.cells.typed hdeclared
  · exact hc ▸ fun port d huse => absurd huse (hgrafted.not_uses hr hs port d)

/-- A unit that is what its type says is so after a stride, if it is still there and has the same
behavior. -/
lemma Native.stride {t : UnitType} (hnative : r.Native k t n) (hr : r.IsTree) (h : Stride r s)
    (hm : s.units.get? k = some m) (hnumber : m.iteration.number = n.iteration.number) :
    s.Native k t m := by
  obtain ⟨hfollows, hlt⟩ := h.follows hr hnative.unit hnative.number hm hnumber
  have hmatched := h.matched hr hnative.unit hnative.matched
  rw [← hfollows.members] at hmatched
  refine ⟨hm, ?_, ?_, hlt, fun htyped => ?_, hmatched⟩
  · rw [hfollows.members]
    exact hnative.members
  · rw [hfollows.kind]
    exact hnative.container
  · rw [hfollows.members]
    exact hfollows.cells.typed (hnative.typed htyped)

/-- A genuine unit is what its type says. -/
lemma Genuine.native {t : UnitType} (h : Genuine r k t) : r.IsTree ∧ ∃ n, r.Native k t n := by
  induction h with
  | added hr₀ hr hfind hadd hh =>
    have htree := hr₀.isTree.later hr
    exact ⟨htree.addChild hadd, htree.native hfind hadd hh⟩
  | kept _ hs hn hm hnumber ih =>
    obtain ⟨htree, n, hnative⟩ := ih
    rw [hnative.unit] at hn
    cases hn
    exact ⟨htree.stride hs, _, hnative.stride htree hs hm hnumber⟩

end Root

end Switchboard
