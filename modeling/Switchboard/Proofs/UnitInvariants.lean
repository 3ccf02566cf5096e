import Mathlib
import Switchboard.Proofs.Answers
import Switchboard.Proofs.Origins

/-!
# What holds of all units

A property of a unit may depend on its address, on the behavior that it has in place, and on the
calls that have been made.  It is an invariant (`Root.UnitInvariant`) if units have it as long as
they have no behavior, get it with every behavior of a certain kind, and keep it in their turns and
when their values are restored.  Then all units of all roots that can be reached have it, provided
that all behaviors which were put in place are of that kind (`Root.Reachable.all`).
-/

namespace Switchboard

namespace Root

/-- A property of units, given the calls that have been made, that units have as long as all their
members are of a kind. -/
structure UnitInvariant (A : Members → Prop) (P : List Call → Node → Prop) : Prop where
  grows : ∀ {made made' : List Call} {n}, made ⊆ made' → P made n → P made' n
  /-- Nothing counts but the address and the iteration. -/
  same : ∀ {made} {n m : Node}, m.address = n.address → m.iteration = n.iteration → P made n →
    P made m
  bare : ∀ {made} {n : Node}, n.iteration = .empty → P made n
  restore : ∀ {made} {n : Node} id v, P made n →
    P made { n with iteration := n.iteration.restoreProperty id v }
  turn : ∀ {k : Task} {s : Setting} {n : Node} {t : Turn}, k.Lasting →
    s.address = some n.address → P t.ledger.made n → P (k.run s n t).2.ledger.made (k.run s n t).1
  install : ∀ {i : Iteration} {number active} {s : Setting} {n : Node} {t : Turn}, Declared i →
    A i.members → s.address = some n.address → P t.ledger.made n →
    P (n.install s { i with number := number } active t).2.ledger.made
      (n.install s { i with number := number } active t).1

/-- Whether all units have a property. -/
def All (P : List Call → Node → Prop) (r : Root) : Prop :=
  ∀ k n, r.units.get? k = some n → P r.ledger.made n

/-- Whether what was put in place stays on record, and all units go on to have a property if all
members that were put in place are of a kind. -/
structure Upholds (A : Members → Prop) (P : List Call → Node → Prop) (r s : Root) : Prop where
  installed : r.installed ⊆ s.installed
  units : (∀ ms ∈ s.installed, A ms) → r.All P → s.All P

/-! ## Calls that have been made -/

/-- Whatever happens to the traffic of a root, the calls that have been made stay on record. -/
lemma made_of_steps {r s : Root} (h : Traffic.Steps r.traffic s.traffic) :
    r.ledger.made ⊆ s.ledger.made := fun _ hc => h.ledger_steps.made hc

/-- The calls that were made in a turn are on record afterwards. -/
lemma made_act {r : Root} {h : Handle} {n : Node} (hn : r.units.get? h = some n)
    (f : Setting → Node → Turn → Node × Turn) :
    (f (r.setting n.address) n r.turn).2.ledger.made ⊆ (r.act h f).ledger.made := by
  have hflush := (steps_flush n.address
    { r with
      units := r.units.set h (f (r.setting n.address) n r.turn).1
      ledger := (f (r.setting n.address) n r.turn).2.ledger
      journal := (f (r.setting n.address) n r.turn).2.journal
      chronicle := (f (r.setting n.address) n r.turn).2.chronicle }
    (f (r.setting n.address) n r.turn).2.outbox).ledger_steps
  rw [Traffic.ledger_sendAll] at hflush
  unfold act inTurn
  rw [hn]
  exact fun _ hc => hflush.made hc

/-- The calls that have been made before a turn are on record afterwards. -/
lemma made_run (k : Task) (s : Setting) (n : Node) (t : Turn) :
    t.ledger.made ⊆ (k.run s n t).2.ledger.made := by
  obtain ⟨cs, -, hexchange⟩ := (Turn.hookRule_course.task k s n t).exchange
  exact fun _ hc => hexchange.1.made hc

namespace Upholds

variable {A : Members → Prop} {P : List Call → Node → Prop} {r s t : Root} {h : Handle}

/-- Nothing happens. -/
lemma refl (r : Root) : Upholds A P r r := ⟨List.Subset.refl _, fun _ hr => hr⟩

/-- One thing happens after another. -/
lemma trans (h : Upholds A P r s) (h' : Upholds A P s t) : Upholds A P r t where
  installed := List.Subset.trans h.installed h'.installed
  units ht hr := h'.units ht (h.units (fun ms hms => ht ms (h'.installed hms)) hr)

/-- Something happens for each item of a list. -/
lemma foldl {α : Type} {f : Root → α → Root} (h : ∀ r a, Upholds A P r (f r a)) (l : List α)
    (r : Root) : Upholds A P r (l.foldl f r) :=
  l.foldlRecOn f (refl r) fun s hs a _ => hs.trans (h s a)

end Upholds

/-! ## Invariants -/

namespace UnitInvariant

variable {A : Members → Prop} {P : List Call → Node → Prop} {r s : Root} {h : Handle}

/-- Nothing happens to units. -/
lemma upholds_of_units (hP : UnitInvariant A P) (hunits : s.units = r.units)
    (hinstalled : s.installed = r.installed) (hmade : r.ledger.made ⊆ s.ledger.made) :
    Upholds A P r s where
  installed := hinstalled ▸ List.Subset.refl _
  units _ hr k n hn := hP.grows hmade (hr k n (hunits ▸ hn))

/-- Something is sent. -/
lemma upholds_sends (hP : UnitInvariant A P) (hsends : Sends r s)
    (hmade : r.ledger.made ⊆ s.ledger.made) : Upholds A P r s :=
  hP.upholds_of_units hsends.units hsends.installed hmade

/-- A unit comes to another state. -/
lemma all_set (hP : UnitInvariant A P) (hr : r.All P) {n m : Node}
    (hn : r.units.get? h = some n) (hunits : s.units = r.units.set h m)
    (hmade : r.ledger.made ⊆ s.ledger.made) (hm : P s.ledger.made m) : s.All P := by
  intro k o ho
  rw [hunits, Arena.get?_set hn] at ho
  split at ho
  · cases ho
    exact hm
  · exact hP.grows hmade (hr k o ho)

/-- A unit is changed. -/
lemma upholds_modify (hP : UnitInvariant A P) (r : Root) (h : Handle) {f : Node → Node}
    (hf : ∀ made n, P made n → P made (f n)) :
    Upholds A P r { r with units := r.units.modify h f } := by
  refine ⟨List.Subset.refl _, fun _ hr => ?_⟩
  cases hn : r.units.get? h with
  | none =>
    have hmodify : r.units.modify h f = r.units := by
      rw [Arena.modify, hn]
    rw [hmodify]
    exact hr
  | some n =>
    have hmodify : r.units.modify h f = r.units.set h (f n) := by
      rw [Arena.modify, hn]
    rw [hmodify]
    exact hP.all_set hr hn rfl (List.Subset.refl _) (hf _ n (hr h n hn))

/-- A turn of a unit. -/
lemma all_act (hP : UnitInvariant A P) (hr : r.All P) (h : Handle) {k : Task}
    (hk : ∀ s n t, s.address = some n.address → P t.ledger.made n →
      P (k.run s n t).2.ledger.made (k.run s n t).1) : (r.act h k.run).All P := by
  cases hn : r.units.get? h with
  | none =>
    rw [act_of_none hn]
    exact hr
  | some n =>
    have hmade := made_act hn k.run
    exact hP.all_set hr hn (units_act hn k.run) (List.Subset.trans (made_run k _ n r.turn) hmade)
      (hP.grows hmade (hk _ n r.turn rfl (hr h n hn)))

/-- A turn of a unit that keeps its behavior. -/
lemma upholds_act (hP : UnitInvariant A P) (r : Root) (h : Handle) {k : Task} (hk : k.Lasting) :
    Upholds A P r (r.act h k.run) where
  installed := (catalog_act r h k.run).2 ▸ List.Subset.refl _
  units _ hr := hP.all_act hr h fun _ _ _ => hP.turn hk

/-- Turns of units that keep their behaviors. -/
lemma upholds_actAll (hP : UnitInvariant A P) (r : Root) (hs : List Handle) {k : Task}
    (hk : k.Lasting) : Upholds A P r (r.actAll hs k.run) :=
  .foldl (fun r h => hP.upholds_act r h hk) hs r

/-- A unit is given a behavior. -/
lemma upholds_putIteration (hP : UnitInvariant A P) (r : Root) (h : Handle) {i : Iteration}
    (hi : Declared i) : Upholds A P r (r.putIteration h i) := by
  have hinstalled : (r.putIteration h i).installed = i.members :: r.installed :=
    (catalog_act (r.enlist i) h _).2
  refine ⟨hinstalled ▸ List.subset_cons_self _ _, fun hkind hr => ?_⟩
  rw [hinstalled] at hkind
  have hmembers : A i.members := hkind _ List.mem_cons_self
  exact hP.all_act (r := r.enlist i) hr h
    (k := .install { i with number := r.installed.length } r.clock.isActive)
    fun _ _ _ => hP.install hi hmembers

/-- A unit is taken out. -/
lemma upholds_dropNode (hP : UnitInvariant A P) (r : Root) (h : Handle) :
    Upholds A P r (r.dropNode h) := by
  refine ⟨(catalog_act r h Node.dispose).2 ▸ List.Subset.refl _, fun _ hr k m hm => ?_⟩
  have hleft : ((r.act h Node.dispose).units.remove h).2.get? k = some m := hm
  rw [Arena.get?_remove] at hleft
  split at hleft
  · contradiction
  · next hk =>
    refine hP.grows (made_of_steps (steps_dropNode r h)) ?_
    cases hn : r.units.get? h with
    | none =>
      rw [act_of_none hn] at hleft
      exact hr k m hleft
    | some n =>
      rw [units_act hn, Arena.get?_set hn, if_neg hk] at hleft
      exact hr k m hleft

/-- A child is taken out with everything below it. -/
lemma upholds_removeChild (hP : UnitInvariant A P) (r : Root) (parent : Path) (id : String) :
    Upholds A P r (r.removeChild parent id).2 := by
  have hsubtree (fuel : ℕ) (h : Handle) (r : Root) : Upholds A P r (removeSubtree fuel h r) := by
    induction fuel generalizing h r with
    | zero => exact .refl r
    | succ fuel ih =>
      unfold removeSubtree
      split
      · exact .refl r
      · exact (Upholds.foldl (f := fun r (e : String × Handle) => removeSubtree fuel e.2 r)
          (fun r e => ih e.2 r) _ r).trans (hP.upholds_dropNode _ h)
  unfold removeChild
  split
  · exact .refl r
  · next q _ =>
    have hparent : Upholds A P r { r with units := r.units.modify q fun n => n.removeChild id } :=
      hP.upholds_modify r q fun _ n hn => hP.same (n := n) rfl rfl hn
    simp only
    split
    · exact hparent
    · exact hparent.trans (hsubtree _ _ _)

/-- A unit is added. -/
lemma upholds_addUnit (hP : UnitInvariant A P) (hvalid : r.units.Valid) (parent : Path)
    (id typeName : String) (kind : NodeKind) (b : Behavior) :
    Upholds A P r (r.addUnit parent id typeName kind b).2 := by
  unfold addUnit
  match hcheck : r.checkUnit parent id b with
  | .error e => exact .refl r
  | .ok (q, address, i) =>
    obtain ⟨n, -, -, hn, -⟩ := checkUnit_eq_ok.mp hcheck
    have hinsert : Upholds A P r (r.insertNode q id
        { address := address, parent := some q, kind := kind, typeName := typeName }).2 := by
      refine ⟨List.Subset.refl _, fun _ hr k m hm => ?_⟩
      rw [get?_insertNode hvalid hn] at hm
      split at hm
      · cases hm
        exact hP.same (n := n) rfl rfl (hr q n hn)
      · split at hm
        · cases hm
          exact hP.bare rfl
        · exact hr k m hm
    exact hinsert.trans (hP.upholds_putIteration _ _ (declared_of_checkUnit hcheck))

/-- A root is started. -/
lemma upholds_start (hP : UnitInvariant A P) (r : Root) : Upholds A P r r.start.2 := by
  unfold Root.start
  split
  · exact .refl r
  · next clock _ =>
    have hclock : Upholds A P r { r with clock := clock } :=
      hP.upholds_of_units rfl rfl (List.Subset.refl _)
    exact hclock.trans (hP.upholds_actAll _ clock.listeners .activate)

/-- A root is stopped. -/
lemma upholds_stop (hP : UnitInvariant A P) (r : Root) : Upholds A P r r.stop.2 := by
  unfold Root.stop
  split
  · exact .refl r
  · next clock _ =>
    have hclock : Upholds A P r { r with clock := clock } :=
      hP.upholds_of_units rfl rfl (List.Subset.refl _)
    have hstopped := hclock.trans (hP.upholds_actAll _ clock.listeners .stop)
    exact hstopped.trans (hP.upholds_actAll _ clock.listeners .reset)

/-- A connection is made. -/
lemma upholds_connect (hP : UnitInvariant A P) (r : Root) (parent : Path) (c : Connection) :
    Upholds A P r (r.connect parent c).2 := by
  unfold Root.connect
  match hcheck : r.checkConnection parent c with
  | .error e => exact .refl r
  | .ok (q, m) =>
    obtain ⟨n, -, hn, -, -, -, -, rfl⟩ := checkConnection_eq_ok.mp hcheck
    exact ⟨List.Subset.refl _, fun _ hr =>
      hP.all_set hr hn rfl (List.Subset.refl _) (hP.same (n := n) rfl rfl (hr q n hn))⟩

/-- A connection is taken out. -/
lemma upholds_disconnect (hP : UnitInvariant A P) (r : Root) (parent : Path) (c : Connection) :
    Upholds A P r (r.disconnect parent c).2 := by
  unfold Root.disconnect
  cases r.lookup parent with
  | error e => exact .refl r
  | ok q =>
    simp only
    split
    · next m hm =>
      obtain ⟨n, hn, hdisconnect⟩ := Option.bind_eq_some_iff.mp hm
      unfold Node.disconnect? at hdisconnect
      split at hdisconnect
      · cases hdisconnect
        exact ⟨List.Subset.refl _, fun _ hr =>
          hP.all_set hr hn rfl (List.Subset.refl _) (hP.same (n := n) rfl rfl (hr q n hn))⟩
      · contradiction
    · exact .refl r

/-- The properties of a unit are restored, one after the other. -/
lemma restores (hP : UnitInvariant A P) {made : List Call} {n : Node} (properties : Named Value)
    (i : Iteration) (hi : P made { n with iteration := i }) :
    P made { n with
      iteration := properties.foldl (fun (i : Iteration) e => i.restoreProperty e.1 e.2) i } := by
  induction properties generalizing i with
  | nil => exact hi
  | cons e rest ih => exact ih _ (hP.restore e.1 e.2 hi)

/-- Every deed upholds an invariant. -/
lemma upholds_deed (hP : UnitInvariant A P) (htree : r.IsTree) (h : Deed r s) :
    Upholds A P r s := by
  have hmade : r.ledger.made ⊆ s.ledger.made :=
    made_of_steps (Deed.move h).changes.traffic_steps
  cases h with
  | turn k hk => exact hP.upholds_act r k (.plain hk)
  | answer c hkind args => exact hP.upholds_sends (sends_sendAnswer r c _ args) hmade
  | start => exact hP.upholds_start r
  | stop => exact hP.upholds_stop r
  | add parent id typeName hkind b => exact hP.upholds_addUnit htree.units parent id typeName _ b
  | install k hi => exact hP.upholds_putIteration r k hi
  | remove parent id => exact hP.upholds_removeChild r parent id
  | connect p c => exact hP.upholds_connect r p c
  | disconnect p c => exact hP.upholds_disconnect r p c
  | edit k hf =>
    refine hP.upholds_modify r k fun made n hn => ?_
    cases hf with
    | setMetadata key v => exact hP.same (n := n) rfl rfl hn
    | mergeMetadata entries => exact hP.same (n := n) rfl rfl hn
    | restore entries =>
      refine hP.same ?_ ?_ (hP.restores ((mapAt? entries "properties").getD []) n.iteration hn)
      · rfl
      · rfl
  | send hc => exact hP.upholds_sends (sends_send r _) hmade
  | more h => exact hP.upholds_of_units h.units_eq h.installed_eq hmade
  | _ => exact hP.upholds_of_units rfl rfl hmade

/-- Deeds uphold an invariant, one after the other. -/
lemma upholds_deeds (hP : UnitInvariant A P) (htree : r.IsTree) (h : Deeds r s) :
    Upholds A P r s := by
  induction h with
  | refl => exact .refl r
  | tail hfirst hlast ih =>
    exact ih.trans (hP.upholds_deed (htree.changes (Deeds.changes hfirst)) hlast)

end UnitInvariant

/-- In every root that can be reached all units have an invariant property, if all members that were
put in place are of the kind that goes with it. -/
theorem Reachable.all {A : Members → Prop} {P : List Call → Node → Prop}
    (hP : UnitInvariant A P) {r : Root} (hr : Reachable r)
    (hinstalled : ∀ ms ∈ r.installed, A ms) : r.All P := by
  have hboth : r.IsTree ∧ ((∀ ms ∈ r.installed, A ms) → r.All P) := by
    have hkeep {r s : Root} (hr : (∀ ms ∈ r.installed, A ms) → r.All P)
        (h : Upholds A P r s) : (∀ ms ∈ s.installed, A ms) → s.All P := fun hs =>
      h.units hs (hr fun ms hms => hs ms (h.installed hms))
    refine hr.induction_deeds (P := fun r => r.IsTree ∧ ((∀ ms ∈ r.installed, A ms) → r.All P))
      ?_ ?_ ?_ ?_
    · intro r s hdeed ⟨htree, hall⟩
      exact ⟨htree.changes hdeed.move.changes, hkeep hall (hP.upholds_deed htree hdeed)⟩
    · intro r c _ ⟨htree, hall⟩
      have hmade : (r.send c).ledger = r.ledger := by
        unfold send
        split <;> rfl
      exact ⟨htree.keeps (sends_send r c).keeps, hkeep hall
        (hP.upholds_sends (sends_send r c) (hmade ▸ List.Subset.refl _))⟩
    · intro r c kind args a l _ hanswer ⟨htree, hall⟩
      obtain ⟨-, -, -, rfl⟩ := Ledger.answer_eq_ok hanswer
      exact ⟨htree.keeps ⟨rfl, id⟩, hkeep hall
        (hP.upholds_of_units rfl rfl (List.Subset.refl _))⟩
    · intro config catalog r hnew
      refine ⟨isTree_of_new hnew, fun _ => ?_⟩
      obtain ⟨address, -, rfl⟩ := new_eq_ok hnew
      intro k n hn
      have hempty : ({} : Arena Node).Valid := ⟨List.nodup_nil, by simp⟩
      rw [Arena.get?_insert_snd hempty] at hn
      split at hn
      · cases hn
        exact hP.bare rfl
      · contradiction
  exact hboth.2 hinstalled

end Root

end Switchboard
