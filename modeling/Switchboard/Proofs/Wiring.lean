import Mathlib
import Switchboard.Proofs.Origins

/-!
# Connections and replaced behaviors

A connection is made only from an output port of a child to an input port of a child.  Whether it
still leads from an output to an input later on depends on the behaviors that the two children have
then, and a unit can be given another behavior at any time: neither `install` nor `installSource`
looks at the connections of the container above, and what arrives at a port that is not an input
port is dropped by the unit itself.

So connections do not stay well-typed in general (`severed`).  What breaks them is nothing but a
behavior that is put in place without the ports that are in use, only at the unit and the ports at
which this happens, and only until the unit is given another behavior.  Where it has not happened
with the newest behavior of a unit, the port is `Tended`, and the main theorem `connections_typed`
says that the ends of connections are at declared ports exactly where these are tended; and that
putting a behavior in place, where all connections are well-typed, leaves them so exactly if the
behavior declares the ports in use.
-/

namespace Switchboard

namespace Root

variable {r s : Root} {k : Handle} {n m : Node} {port : String} {d : PortDirection}

/-! ## Ports in use -/

/-- The direction of a port of a unit, if there is such a unit and such a port. -/
def portDirection? (r : Root) (k : Handle) (port : String) : Option PortDirection :=
  (r.units.get? k).bind fun n => n.iteration.portDirection? port

/-- Whether every connection leads from an output port of a child to an input port of a child. -/
def WellTyped (r : Root) : Prop :=
  ∀ q n, r.units.get? q = some n → ∀ c ∈ n.connections, r.Joins n.place c

/-- The ports in use depend on the tree only. -/
lemma Keeps.uses_iff (h : Keeps r s) : s.Uses k port d ↔ r.Uses k port d := by
  unfold Uses
  rw [h.skeleton]

/-- Which members have the ports in use depends on the tree only. -/
lemma Keeps.matched_iff (h : Keeps r s) (ms : Members) : s.Matched k ms ↔ r.Matched k ms :=
  forall₂_congr fun _ _ => imp_congr_left h.uses_iff

/-- In a tree, both ends of a connection are children. -/
lemma IsTree.ends (hr : r.IsTree) {q : Handle} (hn : r.units.get? q = some n) {c : Connection}
    (hc : c ∈ n.connections) :
    (∃ k m, n.child? c.source = some k ∧ r.units.get? k = some m) ∧
      ∃ k m, n.child? c.target = some k ∧ r.units.get? k = some m := by
  have hlive : ∀ {name : String}, (Named.find? name n.place.children).isSome = true →
      ∃ k m, n.child? name = some k ∧ r.units.get? k = some m := by
    intro name hname
    obtain ⟨k, hk⟩ := Option.isSome_iff_exists.mp hname
    obtain ⟨p, -, hp, -⟩ :=
      hr.skeleton.child q n.place (place_skeleton hn) (name, k) (Named.mem_of_find? hk)
    obtain ⟨m, hm, -⟩ := exists_of_place hp
    exact ⟨k, m, hk, hm⟩
  obtain ⟨hsource, htarget⟩ := hr.skeleton.ends q n.place (place_skeleton hn) c hc
  exact ⟨hlive hsource, hlive htarget⟩

/-- Connections are well-typed if every unit declares the ports that are in use at it. -/
lemma IsTree.wellTyped_iff (hr : r.IsTree) :
    r.WellTyped ↔ ∀ k n, r.units.get? k = some n → r.Matched k n.iteration.members := by
  constructor
  · rintro h k m hm _ d ⟨q, a, c, ha, hc, hk, rfl⟩
    obtain ⟨n, hn, rfl⟩ := exists_of_place ha
    obtain ⟨k', m', hfind, hm', hport⟩ := (h q n hn c hc).declares d
    cases hk.symm.trans hfind
    cases hm.symm.trans hm'
    exact hport
  · intro h q n hn c hc
    obtain ⟨⟨k, m, hk, hm⟩, l, o, hl, ho⟩ := hr.ends hn hc
    have hsource := h k m hm _ .output ⟨q, n.place, c, place_skeleton hn, hc, hk, rfl⟩
    have htarget := h l o ho _ .input ⟨q, n.place, c, place_skeleton hn, hc, hl, rfl⟩
    exact ⟨⟨k, m, hk, hm, hsource⟩, ⟨l, o, hl, ho, htarget⟩⟩

/-! ## Behaviors that are put in place -/

/-- A unit that is given an iteration has its members. -/
lemma members_putIteration (hn : r.units.get? k = some n) (i : Iteration) :
    ∃ m, (r.putIteration k i).units.get? k = some m ∧ m.iteration.members = i.members := by
  have hm := get?_putIteration hn i k
  rw [if_pos rfl] at hm
  exact ⟨_, hm, (Node.follows_install _ { i with number := r.installed.length } _ n _).members⟩

/-- Putting an iteration in place leaves all connections well-typed exactly if it declares the ports
in use. -/
lemma IsTree.wellTyped_putIteration (hr : r.IsTree) (h : r.WellTyped)
    (hn : r.units.get? k = some n) (i : Iteration) :
    (r.putIteration k i).WellTyped ↔ r.Matched k i.members := by
  have hkeeps := keeps_putIteration r k i
  obtain ⟨m, hm, hmembers⟩ := members_putIteration hn i
  rw [(hr.keeps hkeeps).wellTyped_iff]
  constructor
  · intro hall
    rw [← hkeeps.matched_iff, ← hmembers]
    exact hall k m hm
  · intro hports l o ho
    rw [hkeeps.matched_iff]
    by_cases hl : l = k
    · subst hl
      rw [hm] at ho
      cases ho
      rw [hmembers]
      exact hports
    · rw [get?_putIteration hn, if_neg hl] at ho
      exact hr.wellTyped_iff.mp h l o ho

/-- Whether an iteration was put in place at a path.  It leaves the connections, if all are
well-typed, so exactly if it declares the ports in use. -/
def Rewires (r s : Root) (p : Path) : Prop :=
  ∃ k i, r.handle? p = some k ∧ s = r.putIteration k i ∧
    (r.WellTyped → (s.WellTyped ↔ r.Matched k i.members))

/-- Putting an iteration in place at a path. -/
lemma IsTree.rewires (hr : r.IsTree) {p : Path} (hp : r.handle? p = some k) (i : Iteration) :
    r.Rewires (r.putIteration k i) p := by
  obtain ⟨n, hn, -⟩ := exists_of_handle hr.skeleton.index hp
  exact ⟨k, i, hp, rfl, fun h => hr.wellTyped_putIteration h hn i⟩

/-- What passes the check of an installation is the iteration of the behavior. -/
lemma checkInstall_eq_ok {p : Path} {b : Behavior} {i : Iteration}
    (h : r.checkInstall p b = .ok (k, i)) :
    r.handle? p = some k ∧ Iteration.ofBehavior b = .ok i := by
  unfold checkInstall lookup at h
  cases hp : r.handle? p with
  | none =>
    rw [hp] at h
    contradiction
  | some l =>
    simp only [hp, bind, Except.bind, pure, Except.pure] at h
    split at h
    · contradiction
    · next hi =>
      cases h
      exact ⟨rfl, eq_ok_of_mapError hi⟩

/-- An accepted `install` puts an iteration in place. -/
lemma IsTree.rewires_install (hr : r.IsTree) {p : Path} {b : Behavior}
    (h : (r.install p b).1 = .ok ()) : r.Rewires (r.install p b).2 p := by
  unfold Root.install at h ⊢
  match hcheck : r.checkInstall p b with
  | .error e =>
    rw [hcheck] at h
    contradiction
  | .ok (k, i) => exact hr.rewires (checkInstall_eq_ok hcheck).1 i

/-- An `installSource` that is accepted and finds another source puts an iteration in place. -/
lemma IsTree.rewires_installSource (hr : r.IsTree) {p : Path} {source : String}
    (h : (r.installSource p source).1 = .ok true) :
    r.Rewires (r.installSource p source).2 p := by
  unfold Root.installSource at h ⊢
  match hcheck : r.checkSource p source with
  | .error e =>
    rw [hcheck] at h
    contradiction
  | .ok (k, none) => simp [hcheck] at h
  | .ok (k, some i) =>
    have hp : r.handle? p = some k := by
      unfold checkSource at hcheck
      match hnode : r.lookupNode p with
      | .error e =>
        rw [hnode] at hcheck
        contradiction
      | .ok (l, n) =>
        simp only [hnode, bind, Except.bind, pure, Except.pure] at hcheck
        have hl := (lookupNode_eq_ok.mp hnode).1
        split at hcheck
        · cases hcheck
        · split at hcheck
          · contradiction
          · split at hcheck
            · contradiction
            · split at hcheck
              · contradiction
              · cases hcheck
                exact hl
    exact hr.rewires hp i

/-- A connection that is accepted leads from an output port of a child to an input port of one. -/
lemma joins_of_connect {p : Path} {c : Connection} (h : (r.connect p c).1 = .ok ()) :
    ∃ q n, r.handle? p = some q ∧ r.units.get? q = some n ∧ r.Joins n.place c := by
  unfold connect at h
  match hcheck : r.checkConnection p c with
  | .error e =>
    rw [hcheck] at h
    contradiction
  | .ok (q, m) =>
    obtain ⟨n, hq, hn, -, hsource, htarget, -, -⟩ := checkConnection_eq_ok.mp hcheck
    exact ⟨q, n, hq, hn, checkEnd_eq_ok.mp hsource, checkEnd_eq_ok.mp htarget⟩

/-! ## Tended ports -/

/-- A port of a unit that the newest behavior of the unit has not been without while it was needed:
when the behavior was put in place of another one, no connection began, or ended, at the port, or
the behavior declares it. -/
inductive Tended (k : Handle) (port : String) (d : PortDirection) : Root → Prop
  | new {config : Config} {catalog : Catalog} {r : Root} (h : Root.new config catalog = .ok r) :
      Tended k port d r
  /-- The unit is added with its first behavior. -/
  | added {r₀ r s : Root} (hr₀ : Reachable r₀) (hr : Later r₀ r) (h : Stride r s)
      (hnew : r.units.get? k = none) : Tended k port d s
  /-- The unit is given another behavior, whatever has been the matter with those before. -/
  | replaced {r₀ r : Root} (hr₀ : Reachable r₀) (hr : Later r₀ r) {i : Iteration}
      (h : Stride r (r.putIteration k i))
      (hport : r.Uses k port d → i.members.portDirection? port = some d) :
      Tended k port d (r.putIteration k i)
  /-- The unit keeps its behavior. -/
  | kept {r s : Root} (hr : Tended k port d r) (h : Stride r s)
      (hsame : ∀ n m, r.units.get? k = some n → s.units.get? k = some m →
        m.iteration.members = n.iteration.members) : Tended k port d s

/-- In a new root there are no connections. -/
lemma not_uses_of_new {config : Config} {catalog : Catalog} (h : Root.new config catalog = .ok r) :
    ¬r.Uses k port d := by
  rintro ⟨q, a, c, ha, hc, -, -⟩
  obtain ⟨n, hn, rfl⟩ := exists_of_place ha
  have hempty : ({} : Arena Node).Valid := ⟨List.nodup_nil, by simp⟩
  obtain ⟨address, -, rfl⟩ := new_eq_ok h
  simp only [Arena.get?_insert_snd hempty] at hn
  split at hn
  · cases hn
    contradiction
  · contradiction

/-- At a unit that a stride has added there are no connections. -/
lemma Stride.not_uses_new (h : Stride r s) (hr : r.IsTree) (hn : r.units.get? k = none)
    (hm : s.units.get? k = some m) : ¬s.Uses k port d := by
  cases h.becomes hr hm with
  | follows hn' =>
    rw [hn] at hn'
    contradiction
  | installed hn' =>
    rw [hn] at hn'
    contradiction
  | added hgrafted => exact hgrafted.not_uses hr (hr.stride h) port d

/-- A tended port is declared if it is in use. -/
lemma Tended.declared (h : Tended k port d s) :
    s.IsTree ∧ ∀ m, s.units.get? k = some m → s.Uses k port d →
      m.iteration.portDirection? port = some d := by
  induction h with
  | new h => exact ⟨(Reachable.new h).isTree, fun m _ huse => absurd huse (not_uses_of_new h)⟩
  | added hr₀ hr h hnew =>
    have htree := hr₀.isTree.later hr
    exact ⟨htree.stride h, fun m hm huse => absurd huse (h.not_uses_new htree hnew hm)⟩
  | @replaced r₀ r hr₀ hr i h hport =>
    have htree := hr₀.isTree.later hr
    refine ⟨htree.stride h, fun m hm huse => ?_⟩
    have hbefore : ∃ n, r.units.get? k = some n := by
      rcases get?_putIteration_eq_some i hm with hsame | ⟨n, hn, -⟩
      · exact ⟨m, hsame⟩
      · exact ⟨n, hn⟩
    obtain ⟨n, hn⟩ := hbefore
    obtain ⟨m', hm', hmembers⟩ := members_putIteration hn i
    cases hm.symm.trans hm'
    show m.iteration.members.portDirection? port = some d
    rw [hmembers]
    exact hport ((keeps_putIteration r k i).uses_iff.mp huse)
  | @kept r s _ h hsame ih =>
    obtain ⟨htree, hdeclared⟩ := ih
    refine ⟨htree.stride h, fun m hm huse => ?_⟩
    cases hn : r.units.get? k with
    | none => exact absurd huse (h.not_uses_new htree hn hm)
    | some n =>
      show m.iteration.members.portDirection? port = some d
      rw [hsame n m hn hm]
      rcases h.uses htree hn huse with hbefore | hport
      · exact hdeclared n hn hbefore
      · exact hport

/-- Whether all ports that units declare are tended. -/
def AllTended (r : Root) : Prop :=
  ∀ k m port d, r.units.get? k = some m → m.iteration.portDirection? port = some d →
    Tended k port d r

/-- After a stride all ports that units declare are tended, if they were before. -/
lemma AllTended.stride {r₀ : Root} (hr₀ : Reachable r₀) (hr : Later r₀ r) (hall : r.AllTended)
    (h : Stride r s) : s.AllTended := by
  intro k m port d hm hport
  have htree := hr₀.isTree.later hr
  cases h.becomes htree hm with
  | @follows n hn hfollows =>
    have hport' : n.iteration.portDirection? port = some d := by
      rw [← hport]
      exact congrArg (Members.portDirection? · port) hfollows.members.symm
    refine .kept (hall k n port d hn hport') h fun n' m' hn' hm' => ?_
    cases hn.symm.trans hn'
    cases hm.symm.trans hm'
    exact hfollows.members
  | @installed n i hn hs =>
    subst hs
    obtain ⟨m', hm', hmembers⟩ := members_putIteration hn i
    cases hm.symm.trans hm'
    refine .replaced hr₀ hr h fun _ => ?_
    rw [← hmembers]
    exact hport
  | added hgrafted => exact .added hr₀ hr h hgrafted.new

/-- What is later than a root in which all ports that units declare are tended is such a root. -/
lemma AllTended.later (hr : Reachable r) (hall : r.AllTended) (h : Later r s) : s.AllTended := by
  induction h with
  | refl => exact hall
  | tail hbefore hstride ih => exact ih.stride hr hbefore hstride

/-- In every run all ports that units declare are tended. -/
lemma Reachable.allTended (hr : Reachable r) : r.AllTended := by
  induction hr with
  | new h => exact fun _ _ _ _ _ _ => .new h
  | operate hr ho ih => exact ih.later hr (Operation.later ho)

/-- An end of a connection is at a declared port exactly if the port is tended. -/
lemma Reachable.declared_iff {r₀ : Root} (hr₀ : Reachable r₀) (hr : Later r₀ r)
    (hm : r.units.get? k = some m) (huse : r.Uses k port d) :
    r.portDirection? k port = some d ↔ Tended k port d r := by
  have hport : r.portDirection? k port = m.iteration.portDirection? port := by
    rw [portDirection?, hm]
    rfl
  rw [hport]
  exact ⟨(hr₀.allTended.later hr₀ hr) k m port d hm, fun h => h.declared.2 m hm huse⟩

/-- A port is tended when a behavior has been installed that declares it if it is in use. -/
lemma Tended.install (hr : Reachable r) {p : Path} {b : Behavior} {i : Iteration}
    (hcheck : r.checkInstall p b = .ok (k, i))
    (hport : r.Uses k port d → i.members.portDirection? port = some d) :
    Tended k port d (r.install p b).2 := by
  rw [Root.install, hcheck]
  exact .replaced hr .refl (.deed (.install k (declared_of_checkInstall hcheck))) hport

/-- The ends of connections at tended ports.  At every moment of a run both ends of a connection are
children, and the port at an end is declared with the direction that the connection needs exactly if
it is tended: unless the newest behavior of the child is one that was put in place of another while
the port was in use and lacks it.  The port at both ends of a connection that is accepted is
declared.  Where all connections are well-typed, a behavior that replaces another leaves them so
exactly if it declares the ports in use. -/
theorem connections_typed (h : Reachable r) (hs : Later r s) :
    (∀ q n, s.units.get? q = some n → ∀ c ∈ n.connections,
      ∃ k l, n.child? c.source = some k ∧ n.child? c.target = some l ∧
        (s.portDirection? k c.sourcePort = some .output ↔ Tended k c.sourcePort .output s) ∧
        (s.portDirection? l c.targetPort = some .input ↔ Tended l c.targetPort .input s)) ∧
    (∀ p c, (s.connect p c).1 = .ok () →
      ∃ q n, s.handle? p = some q ∧ s.units.get? q = some n ∧ s.Joins n.place c) ∧
    (∀ p b, (s.install p b).1 = .ok () → s.Rewires (s.install p b).2 p) ∧
    ∀ p source, (s.installSource p source).1 = .ok true →
      s.Rewires (s.installSource p source).2 p := by
  have htree : s.IsTree := h.isTree.later hs
  refine ⟨?_, fun p c => joins_of_connect, fun p b => htree.rewires_install,
    fun p source => htree.rewires_installSource⟩
  intro q n hn c hc
  obtain ⟨⟨k, m, hk, hm⟩, l, o, hl, ho⟩ := htree.ends hn hc
  have hplace := place_skeleton hn
  exact ⟨k, l, hk, hl, h.declared_iff hs hm ⟨q, n.place, c, hplace, hc, hk, rfl⟩,
    h.declared_iff hs ho ⟨q, n.place, c, hplace, hc, hl, rfl⟩⟩

/-- A behavior with an output port. -/
def lamp : Behavior := [.port "light" .output]

/-- A behavior with an input port. -/
def eye : Behavior := [.port "sight" (.input fun values => .done (.ok values))]

/-- The connection from a lamp to an eye. -/
def beam : Connection := ⟨"lamp", "light", "eye", "sight"⟩

/-- A lamp with another port. -/
def heater : Behavior := [.port "light" .output, .port "heat" .output]

/-- The path of the lamp. -/
def lampPath : Path := rootPath.append ⟨"lamp", by decide⟩

/-- A root with a lamp and an eye. -/
def furnished (r : Root) : Root :=
  (Operation.addChildWith rootPath "eye" "eye" eye).run
    ((Operation.addChildWith rootPath "lamp" "lamp" lamp).run r)

/-- A root with a beam from a lamp to an eye. -/
def lit (r : Root) : Root := (Operation.connect rootPath beam).run (furnished r)

/-- A new root can be lit. -/
lemma reachable_lit (hr : Root.new {} .base = .ok r) : Reachable (lit r) := by
  have hlamp : Reachable ((Operation.addChildWith rootPath "lamp" "lamp" lamp).run r) :=
    .operate (.new hr) trivial
  have hfurnished : Reachable (furnished r) := .operate hlamp trivial
  exact .operate hfurnished trivial

/-- A root whose lamp has been given a behavior without ports. -/
def dimmed (r : Root) : Root := (Operation.install lampPath []).run (lit r)

/-- The beam still begins at the lamp, which has no light any more. -/
lemma beam_dimmed (hr : Root.new {} .base = .ok r) :
    (∃ n, (dimmed r).units.get? ⟨0, 0⟩ = some n ∧ beam ∈ n.connections ∧
      n.child? "lamp" = some ⟨1, 0⟩) ∧ (dimmed r).portDirection? ⟨1, 0⟩ "light" = none := by
  cases hr
  exact ⟨⟨_, rfl, List.mem_cons_self, rfl⟩, rfl⟩

/-- A lamp that has been given a behavior without the port at which a beam begins is given another
one with that port, and the beam begins at an output port again. -/
theorem connections_typed_heater :
    ∃ r, Root.new {} .base = .ok r ∧
      let s := (Operation.install lampPath heater).run (dimmed r)
      Reachable s ∧ ¬Tended ⟨1, 0⟩ "light" .output (dimmed r) ∧
        Tended ⟨1, 0⟩ "light" .output s ∧ s.portDirection? ⟨1, 0⟩ "light" = some .output := by
  obtain ⟨r, hr⟩ : ∃ r, Root.new {} .base = .ok r := ⟨_, rfl⟩
  have hdimmed : Reachable (dimmed r) := .operate (reachable_lit hr) trivial
  have hreach : Reachable ((Operation.install lampPath heater).run (dimmed r)) :=
    .operate hdimmed trivial
  obtain ⟨i, hcheck, hlight⟩ : ∃ i, (dimmed r).checkInstall lampPath heater = .ok (⟨1, 0⟩, i) ∧
      i.members.portDirection? "light" = some .output := by
    cases hr
    exact ⟨_, rfl, rfl⟩
  have htended : Tended ⟨1, 0⟩ "light" .output
      ((Operation.install lampPath heater).run (dimmed r)) :=
    .install hdimmed hcheck fun _ => hlight
  refine ⟨r, hr, hreach, ?_, htended, ?_⟩
  · intro hstill
    obtain ⟨⟨n, hn, hbeam, hlamp⟩, hnone⟩ := beam_dimmed hr
    obtain ⟨k, l, hk, -, hsource, -⟩ := (connections_typed hdimmed .refl).1 _ n hn beam hbeam
    cases hlamp.symm.trans hk
    have hboth : none = some PortDirection.output := hnone.symm.trans (hsource.mpr hstill)
    contradiction
  · obtain ⟨n, hn, hbeam, hlamp⟩ :
        ∃ n, ((Operation.install lampPath heater).run (dimmed r)).units.get? ⟨0, 0⟩ = some n ∧
          beam ∈ n.connections ∧ n.child? "lamp" = some ⟨1, 0⟩ := by
      cases hr
      exact ⟨_, rfl, List.mem_cons_self, rfl⟩
    obtain ⟨k, l, hk, -, hsource, -⟩ := (connections_typed hreach .refl).1 _ n hn beam hbeam
    cases hlamp.symm.trans hk
    exact hsource.mpr htended

/-- A unit that is given a behavior without the port at which a connection begins keeps the
connection. -/
theorem severed :
    ∃ r, Root.new {} .base = .ok r ∧
      let s := (Operation.install lampPath []).run (lit r)
      Reachable s ∧ ((lit r).install lampPath []).1 = .ok () ∧ ¬s.WellTyped := by
  obtain ⟨r, hr⟩ : ∃ r, Root.new {} .base = .ok r := ⟨_, rfl⟩
  refine ⟨r, hr, .operate (reachable_lit hr) trivial, ?_, ?_⟩
  · cases hr
    rfl
  · intro htyped
    obtain ⟨⟨n, hn, hbeam, hlamp⟩, hnone⟩ := beam_dimmed hr
    obtain ⟨k, m, hk, hm, hport⟩ := (htyped _ n hn beam hbeam).source
    cases hlamp.symm.trans hk
    have hlight : (dimmed r).portDirection? ⟨1, 0⟩ "light" = some .output := by
      rw [portDirection?, show (dimmed r).units.get? ⟨1, 0⟩ = some m from hm]
      exact hport
    have hboth : none = some PortDirection.output := hnone.symm.trans hlight
    contradiction

end Root

end Switchboard
