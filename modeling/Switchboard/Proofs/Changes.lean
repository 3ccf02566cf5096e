import Mathlib
import Switchboard.Proofs.Tenures
import Switchboard.Root.Host

/-!
# What a root can do

Everything that a root does comes down to a few kinds of changes: a unit has its turn, an answer is
sent, the tree is changed in one of five ways, the clock advances, a call is taken from the queue,
and so on.  `Root.Change` lists them, and the lemmas below show for each operation of a root, and
for each control that it serves itself, that what the operation does is a sequence of such changes
(`Root.Changes`).  An invariant of roots is then proved by one case for each kind of change.

What holds only once a root has been started, stopped or given a unit as a whole is proved by one
case for each kind of `Root.Doing`, which is a change or several of them that belong together.  How
units may be edited by it, and what may be done besides, are parameters, and there are three terms:
a `Root.Move` edits units without a trace in the tree and in the life of their behaviors; a
`Root.Deed` edits them as the host and its snapshots do; a `Root.Chore` is a deed that leaves the
requests of the host and the clock alone and takes nothing from the queues.  What the operations do
is stated as sequences of deeds, which are moves and so consist of changes.  A pass consists of
chores and of items that are taken from the queues and processed (`Root.Round`), and when the host
asks for something, its request is entered and the rest are chores (`Root.Asks`).
-/

namespace Switchboard

open Relation

namespace Root

/-! ## Changes -/

/-- A change of a root. -/
inductive Change (r : Root) : Root → Prop
  /-- A unit has a turn, and what it has produced is sent. -/
  | turn (h : Handle) (k : Task) : Change r (r.act h k.run)
  /-- A request is answered, if it may be. -/
  | answer (c : Call) {kind : CallKind} (hkind : kind = .reply ∨ kind = .error)
      (args : List Value) : Change r (r.sendAnswer c kind args)
  /-- The root is started or stopped. -/
  | activity {a : Activity} {clock : Clock Handle} (h : r.clock.become? a = some clock) :
      Change r { r with clock := clock }
  | insert {parent address : Path} {id : String} {b : Behavior} {h : Handle} {i : Iteration}
      (hcheck : r.checkUnit parent id b = .ok (h, address, i)) {kind : NodeKind}
      (hkind : kind ≠ .root) (typeName : String) :
      Change r (r.insertNode h id
        { address := address, parent := some h, kind := kind, typeName := typeName }).2
  /-- The members of a behavior are entered among those that were put in place. -/
  | enlist (i : Iteration) : Change r (r.enlist i)
  | remove (parent : Path) (id : String) : Change r (r.removeChild parent id).2
  | connect (p : Path) (c : Connection) : Change r (r.connect p c).2
  | disconnect (p : Path) (c : Connection) : Change r (r.disconnect p c).2
  /-- A unit is given other metadata or other values of its properties. -/
  | touch (h : Handle) {f : Node → Node} (hf : ∀ n, (f n).place = n.place) :
      Change r { r with units := r.units.modify h f }
  /-- What the root keeps for its host and its units is changed, and what it knows. -/
  | books (catalog : Catalog) (compiler : Option Compiler) (services : Keyed Path)
      (requests callbacks : CallTable String) (handles : AsyncStore) (journal : List Note) :
      Change r { r with
        catalog := catalog, compiler := compiler, services := services, requests := requests
        callbacks := callbacks, handles := handles, journal := journal }
  /-- A request is made. -/
  | request (target source : Endpoint) (time : Int64) (args : List Value) :
      Change r { r with ledger := (r.ledger.request target source time args).2 }
  | quiet (target : Endpoint) (source : Option Endpoint) (time : Int64) (args : List Value) :
      Change r { r with ledger := (r.ledger.quiet target source time args).2 }
  /-- A call that is no answer is sent. -/
  | send {c : Call} (hc : c.isResponse = false) : Change r (r.send c)
  | take {c : Call} {rest : List Call} (h : r.queue = c :: rest) : Change r (r.take c rest)
  | takeEmission {e : PortAddress × List Value} {rest : List (PortAddress × List Value)}
      (h : r.portQueue = e :: rest) : Change r { r with portQueue := rest }
  | advance {time : Int64} {clock : Clock Handle} (h : r.clock.tick? time = some clock) :
      Change r (r.advance clock)

/-- Changes, one after the other. -/
def Changes : Root → Root → Prop := ReflTransGen Change

namespace Changes

variable {r s t : Root}

/-- No change at all. -/
lemma refl (r : Root) : Changes r r := ReflTransGen.refl

/-- Changes after changes. -/
lemma trans (h : Changes r s) (h' : Changes s t) : Changes r t := ReflTransGen.trans h h'

/-- One change. -/
lemma single (h : Change r s) : Changes r s := ReflTransGen.single h

/-- Changes, one for each item of a list. -/
lemma foldl {α : Type} {f : Root → α → Root} (h : ∀ r a, Changes r (f r a)) (l : List α)
    (r : Root) : Changes r (l.foldl f r) :=
  l.foldlRecOn f (refl r) fun s hs a _ => hs.trans (h s a)

end Changes

/-! ## Turns -/

/-- What a turn with a result leaves behind is what the turn without the result leaves behind. -/
lemma inTurn_snd {α : Type} (r : Root) (h : Handle)
    (f : Setting → Node → Turn → α × Node × Turn) :
    (r.inTurn h f).2 = r.act h fun s n t => (f s n t).2 := by
  unfold act inTurn
  cases r.units.get? h <;> rfl

/-- Turns of units, one after the other. -/
lemma changes_actAll (r : Root) (hs : List Handle) (k : Task) : Changes r (r.actAll hs k.run) :=
  .foldl (fun _ h => .single (.turn h k)) hs r

/-- Starting a root. -/
lemma changes_start (r : Root) : Changes r r.start.2 := by
  unfold start
  cases h : r.clock.become? .active with
  | none => exact .refl r
  | some clock => exact (Changes.single (.activity h)).trans (changes_actAll _ _ .activate)

/-- Stopping a root. -/
lemma changes_stop (r : Root) : Changes r r.stop.2 := by
  unfold stop
  cases h : r.clock.become? .idle with
  | none => exact .refl r
  | some clock =>
    have hstopped : Changes r ({ r with clock := clock }.actAll clock.listeners Node.stop) :=
      (Changes.single (.activity h)).trans (changes_actAll _ _ .stop)
    exact hstopped.trans (changes_actAll _ _ .reset)

/-! ## The tree -/

/-- Putting a behavior in place. -/
lemma changes_putIteration (r : Root) (h : Handle) (i : Iteration) :
    Changes r (r.putIteration h i) :=
  (Changes.single (.enlist i)).trans
    (.single (.turn h (.install { i with number := r.installed.length } r.clock.isActive)))

/-- Adding a unit. -/
lemma changes_addUnit (r : Root) (parent : Path) (id typeName : String) {kind : NodeKind}
    (hkind : kind ≠ .root) (b : Behavior) :
    Changes r (r.addUnit parent id typeName kind b).2 := by
  unfold addUnit
  match h : r.checkUnit parent id b with
  | .error e => exact .refl r
  | .ok (p, address, i) =>
    exact (Changes.single (.insert h hkind typeName)).trans (changes_putIteration ..)

/-! ## What is done -/

/-- An iteration is that of a behavior, whatever source the behavior has, and has not been put in
place yet. -/
def Declared (i : Iteration) : Prop :=
  ∃ b j source, Iteration.ofBehavior b = .ok j ∧ i = { j with source := source }

/-- What is done with a root: a change of it, or several of them that belong together.  A parameter
says how units may be edited, and another one what may be done besides. -/
inductive Doing (edits : (Node → Node) → Prop) (more : Root → Root → Prop) (r : Root) :
    Root → Prop
  /-- A unit has a turn that has nothing to do with the life of its behavior. -/
  | turn (h : Handle) {k : Task} (hk : k.Plain) : Doing edits more r (r.act h k.run)
  | answer (c : Call) {kind : CallKind} (hkind : kind = .reply ∨ kind = .error)
      (args : List Value) : Doing edits more r (r.sendAnswer c kind args)
  | start : Doing edits more r r.start.2
  | stop : Doing edits more r r.stop.2
  | add (parent : Path) (id typeName : String) {kind : NodeKind} (hkind : kind ≠ .root)
      (b : Behavior) : Doing edits more r (r.addUnit parent id typeName kind b).2
  | install (h : Handle) {i : Iteration} (hi : Declared i) :
      Doing edits more r (r.putIteration h i)
  | remove (parent : Path) (id : String) : Doing edits more r (r.removeChild parent id).2
  | connect (p : Path) (c : Connection) : Doing edits more r (r.connect p c).2
  | disconnect (p : Path) (c : Connection) : Doing edits more r (r.disconnect p c).2
  | edit (h : Handle) {f : Node → Node} (hf : edits f) :
      Doing edits more r { r with units := r.units.modify h f }
  /-- What the root knows is changed. -/
  | learn (catalog : Catalog) (compiler : Option Compiler) (services : Keyed Path) :
      Doing edits more r
        { r with catalog := catalog, compiler := compiler, services := services }
  | request (target source : Endpoint) (time : Int64) (args : List Value) :
      Doing edits more r { r with ledger := (r.ledger.request target source time args).2 }
  | quiet (target : Endpoint) (source : Option Endpoint) (time : Int64) (args : List Value) :
      Doing edits more r { r with ledger := (r.ledger.quiet target source time args).2 }
  | send {c : Call} (hc : c.isResponse = false) : Doing edits more r (r.send c)
  | more {s : Root} (h : more r s) : Doing edits more r s

/-- Several things done one after the other. -/
def Doings (edits : (Node → Node) → Prop) (more : Root → Root → Prop) : Root → Root → Prop :=
  ReflTransGen (Doing edits more)

/-- What the root keeps for its host is changed, the clock advances, or something is taken from a
queue. -/
inductive Service (r : Root) : Root → Prop
  /-- What the root keeps for its host and its units is changed, and what it knows. -/
  | books (catalog : Catalog) (compiler : Option Compiler) (services : Keyed Path)
      (requests callbacks : CallTable String) (handles : AsyncStore) (journal : List Note) :
      Service r { r with
        catalog := catalog, compiler := compiler, services := services, requests := requests
        callbacks := callbacks, handles := handles, journal := journal }
  | take {c : Call} {rest : List Call} (h : r.queue = c :: rest) : Service r (r.take c rest)
  | takeEmission {e : PortAddress × List Value} {rest : List (PortAddress × List Value)}
      (h : r.portQueue = e :: rest) : Service r { r with portQueue := rest }
  | advance {time : Int64} {clock : Clock Handle} (h : r.clock.tick? time = some clock) :
      Service r (r.advance clock)

section

variable {edits edits' : (Node → Node) → Prop} {more more' : Root → Root → Prop} {r s t : Root}

/-- Services leave the units alone. -/
lemma Service.units_eq (h : Service r s) : s.units = r.units := by
  cases h <;> rfl

/-- Services put no behavior in place. -/
lemma Service.installed_eq (h : Service r s) : s.installed = r.installed := by
  cases h <;> rfl

/-- What is done is done as well where more is allowed. -/
lemma Doing.mono (hedits : ∀ f, edits f → edits' f) (hmore : ∀ r s, more r s → more' r s)
    (h : Doing edits more r s) : Doing edits' more' r s := by
  cases h with
  | turn h hk => exact .turn h hk
  | answer c hkind args => exact .answer c hkind args
  | start => exact .start
  | stop => exact .stop
  | add parent id typeName hkind b => exact .add parent id typeName hkind b
  | install h hi => exact .install h hi
  | remove parent id => exact .remove parent id
  | connect p c => exact .connect p c
  | disconnect p c => exact .disconnect p c
  | edit h hf => exact .edit h (hedits _ hf)
  | learn => exact .learn ..
  | request => exact .request ..
  | quiet => exact .quiet ..
  | send hc => exact .send hc
  | more h => exact .more (hmore _ _ h)

namespace Doings

/-- Nothing at all. -/
lemma refl (r : Root) : Doings edits more r r := ReflTransGen.refl

/-- One thing after another. -/
lemma trans (h : Doings edits more r s) (h' : Doings edits more s t) : Doings edits more r t :=
  ReflTransGen.trans h h'

/-- One thing. -/
lemma single (h : Doing edits more r s) : Doings edits more r s := ReflTransGen.single h

/-- One thing for each item of a list. -/
lemma foldl {α : Type} {f : Root → α → Root} (h : ∀ r a, Doings edits more r (f r a)) (l : List α)
    (r : Root) : Doings edits more r (l.foldl f r) :=
  l.foldlRecOn f (refl r) fun s hs a _ => hs.trans (h s a)

/-- What is done is done as well where more is allowed. -/
lemma mono (hedits : ∀ f, edits f → edits' f) (hmore : ∀ r s, more r s → more' r s)
    (h : Doings edits more r s) : Doings edits' more' r s :=
  ReflTransGen.mono (fun _ _ => Doing.mono hedits hmore) r s h

end Doings

end

/-! ## Moves -/

/-- A change of a unit that leaves its place in the tree and the life of its behavior alone. -/
structure Retouch (f : Node → Node) : Prop where
  place : ∀ n, (f n).place = n.place
  tenure : ∀ n, (f n).tenure = n.tenure

/-- A change of a root, or several of them that belong together, by which units are edited without a
trace in the tree and in the life of their behaviors. -/
abbrev Move : Root → Root → Prop := Doing Retouch Service

/-- Moves, one after the other. -/
abbrev Moves : Root → Root → Prop := Doings Retouch Service

/-- A move consists of changes. -/
lemma Move.changes {r s : Root} (h : Move r s) : Changes r s := by
  cases h with
  | turn h hk => exact .single (.turn h _)
  | answer c hkind args => exact .single (.answer c hkind args)
  | start => exact changes_start r
  | stop => exact changes_stop r
  | add parent id typeName hkind b => exact changes_addUnit r parent id typeName hkind b
  | install h hi => exact changes_putIteration r h _
  | remove parent id => exact .single (.remove parent id)
  | connect p c => exact .single (.connect p c)
  | disconnect p c => exact .single (.disconnect p c)
  | edit h hf => exact .single (.touch h hf.place)
  | learn catalog compiler services =>
    exact .single (.books catalog compiler services r.requests r.callbacks r.handles r.journal)
  | request => exact .single (.request ..)
  | quiet => exact .single (.quiet ..)
  | send hc => exact .single (.send hc)
  | more h =>
    cases h with
    | books => exact .single (.books ..)
    | take h => exact .single (.take h)
    | takeEmission h => exact .single (.takeEmission h)
    | advance h => exact .single (.advance h)

/-- Moves consist of changes. -/
lemma Moves.changes {r s : Root} (h : Moves r s) : Changes r s := by
  induction h with
  | refl => exact .refl r
  | tail _ hlast ih => exact ih.trans (Move.changes hlast)

/-! ## Deeds -/

/-- What a unit is given from outside: metadata, and what a snapshot holds of it. -/
inductive Edit : (Node → Node) → Prop
  | setMetadata (key : String) (v : Value) :
      Edit fun n => { n with metadata := n.metadata.insert key v }
  | mergeMetadata (entries : Keyed Value) : Edit fun n => n.mergeMetadata entries
  | restore (entries : Keyed Value) : Edit (restoreNode entries)

/-- Giving a unit the properties and the metadata of a snapshot leaves it in its tenure. -/
lemma tenure_restoreNode (entries : Keyed Value) (n : Node) :
    (restoreNode entries n).tenure = n.tenure :=
  Iteration.tenure_restoreProperties _ n.iteration n.started

/-- A unit that is edited stays in its place and in its tenure. -/
lemma Edit.retouch {f : Node → Node} (hf : Edit f) : Retouch f := by
  cases hf with
  | setMetadata key v => exact ⟨fun _ => rfl, fun _ => rfl⟩
  | mergeMetadata entries => exact ⟨fun _ => rfl, fun _ => rfl⟩
  | restore entries => exact ⟨fun _ => rfl, tenure_restoreNode entries⟩

/-- A move that changes units only by edits. -/
abbrev Deed : Root → Root → Prop := Doing Edit Service

/-- Deeds, one after the other. -/
abbrev Deeds : Root → Root → Prop := Doings Edit Service

variable {r s : Root}

/-- A deed is a move. -/
lemma Deed.move (h : Deed r s) : Move r s := h.mono (fun _ hf => hf.retouch) fun _ _ => id

/-- Deeds are moves. -/
lemma Deeds.moves (h : Deeds r s) : Moves r s := h.mono (fun _ hf => hf.retouch) fun _ _ => id

/-- Deeds consist of changes. -/
lemma Deeds.changes (h : Deeds r s) : Changes r s := Moves.changes (Deeds.moves h)

/-! ## Chores -/

/-- A deed that leaves the requests of the host, their handles and the clock alone and takes nothing
from the queues. -/
abbrev Chore : Root → Root → Prop := Doing Edit fun _ _ => False

/-- Chores, one after the other. -/
abbrev Chores : Root → Root → Prop := Doings Edit fun _ _ => False

/-- A chore is a deed. -/
lemma Chore.deed (h : Chore r s) : Deed r s := h.mono (fun _ => id) fun _ _ => False.elim

/-- Chores are deeds. -/
lemma Chores.deeds (h : Chores r s) : Deeds r s := h.mono (fun _ => id) fun _ _ => False.elim

/-- Turns of units that have nothing to do with the life of their behaviors. -/
lemma chores_actAll (r : Root) (hs : List Handle) {k : Task} (hk : k.Plain) :
    Chores r (r.actAll hs k.run) := .foldl (fun _ h => .single (.turn h hk)) hs r

/-- Adding a unit. -/
lemma chores_addUnit (r : Root) (parent : Path) (id typeName : String) {kind : NodeKind}
    (hkind : kind ≠ .root) (b : Behavior) :
    Chores r (r.addUnit parent id typeName kind b).2 := .single (.add parent id typeName hkind b)

/-- Adding a unit of a type. -/
lemma chores_addChild (r : Root) (parent : Path) (id typeName : String) :
    Chores r (r.addChild parent id typeName).2 := by
  unfold addChild
  cases r.catalog.find? typeName with
  | error e => exact .refl r
  | ok t =>
    refine chores_addUnit r parent id typeName ?_ t.behavior
    split <;> decide

/-- Adding a leaf. -/
lemma chores_addChildWith (r : Root) (parent : Path) (id typeName : String) (b : Behavior) :
    Chores r (r.addChildWith parent id typeName b).2 :=
  chores_addUnit r parent id typeName (by decide) b

/-- What is made of a behavior is an iteration of it. -/
lemma declared_of_ofBehavior {b : Behavior} {i : Iteration} (h : Iteration.ofBehavior b = .ok i) :
    Declared i := ⟨b, i, i.source, h, rfl⟩

/-- An error that is told in other words is an error. -/
lemma eq_ok_of_mapError {α ε ε' : Type} {f : ε → ε'} {x : Except ε α} {a : α}
    (h : x.mapError f = .ok a) : x = .ok a := by
  cases x with
  | error e => contradiction
  | ok a' =>
    cases h
    rfl

/-- What passes the check of a new unit is an iteration of its behavior. -/
lemma declared_of_checkUnit {r : Root} {parent address : Path} {id : String} {b : Behavior}
    {h : Handle} {i : Iteration} (hcheck : r.checkUnit parent id b = .ok (h, address, i)) :
    Declared i := by
  unfold checkUnit at hcheck
  simp only [bind, Except.bind, pure, Except.pure] at hcheck
  split at hcheck
  · contradiction
  · split at hcheck
    · contradiction
    · split at hcheck
      · contradiction
      · split at hcheck
        · contradiction
        · rename_i hj
          cases hcheck
          exact declared_of_ofBehavior (eq_ok_of_mapError hj)

/-- What passes the check of an installation is an iteration of a behavior. -/
lemma declared_of_checkInstall {r : Root} {p : Path} {b : Behavior} {h : Handle} {i : Iteration}
    (hcheck : r.checkInstall p b = .ok (h, i)) : Declared i := by
  unfold checkInstall at hcheck
  simp only [bind, Except.bind, pure, Except.pure] at hcheck
  split at hcheck
  · contradiction
  · split at hcheck
    · contradiction
    · rename_i j hj
      cases hcheck
      exact declared_of_ofBehavior (eq_ok_of_mapError hj)

/-- What passes the check of a source is an iteration of a behavior. -/
lemma declared_of_checkSource {r : Root} {p : Path} {source : String} {h : Handle}
    {i : Iteration} (hcheck : r.checkSource p source = .ok (h, some i)) : Declared i := by
  unfold checkSource at hcheck
  simp only [bind, Except.bind, pure, Except.pure] at hcheck
  split at hcheck
  · contradiction
  · split at hcheck
    · cases hcheck
    · split at hcheck
      · contradiction
      · split at hcheck
        · contradiction
        · split at hcheck
          · contradiction
          · rename_i hj
            cases hcheck
            exact ⟨_, _, some source, eq_ok_of_mapError hj, rfl⟩

/-- Replacing a behavior. -/
lemma chores_install (r : Root) (p : Path) (b : Behavior) : Chores r (r.install p b).2 := by
  unfold install
  match hcheck : r.checkInstall p b with
  | .error e => exact .refl r
  | .ok (h, i) => exact .single (.install h (declared_of_checkInstall hcheck))

/-- Replacing a behavior by one compiled from a source. -/
lemma chores_installSource (r : Root) (p : Path) (source : String) :
    Chores r (r.installSource p source).2 := by
  unfold installSource
  match hcheck : r.checkSource p source with
  | .error e => exact .refl r
  | .ok (h, none) => exact .refl r
  | .ok (h, some i) => exact .single (.install h (declared_of_checkSource hcheck))

/-! ## Snapshots -/

/-- A relation between the roots before and after something at an address, under which every step of
a build falls: a unit is added or given its data, or a connection is made.  What is done at a unit
that was just added counts as done at the unit above it. -/
structure BuildRelation (R : Path → Root → Root → Prop) : Prop where
  refl : ∀ p r, R p r r
  trans : ∀ {p r s t}, R p r s → R p s t → R p r t
  addChild : ∀ p r id typeName, R p r (r.addChild p id typeName).2
  modify : ∀ {p r h}, r.lookup p = .ok h → ∀ entries,
    R p r { r with units := r.units.modify h (restoreNode entries) }
  connect : ∀ p r c, R p r (r.connect p c).2
  nest : ∀ {p address r s t id typeName}, r.addChild p id typeName = (.ok address, s) →
    R p r s → R address s t → R p r t

namespace BuildRelation

variable {R : Path → Root → Root → Prop}
  {restore : Path → Value → Root → Except RuntimeError Unit × Root}

/-- Making the connections of a snapshot. -/
lemma restoreConnections (hR : BuildRelation R) (p : Path) (vs : List Value) (r : Root) :
    R p r (restoreConnections p vs r).2 := by
  induction vs generalizing r with
  | nil => exact hR.refl p r
  | cons v rest ih =>
    unfold Root.restoreConnections
    cases Connection.ofArgs [v] with
    | error e => exact hR.refl p r
    | ok c =>
      have hconnect := hR.connect p r c
      rcases h : r.connect p c with ⟨_ | _, s⟩
      · rw [h] at hconnect
        simp only [h]
        exact hconnect
      · rw [h] at hconnect
        simp only [h]
        exact hR.trans hconnect (ih s)

/-- Doing something with each entry. -/
lemma forEntries (hR : BuildRelation R) {p : Path}
    {f : String → Value → Root → Except RuntimeError Unit × Root}
    (hf : ∀ id v r, R p r (f id v r).2) (entries : Named Value) (r : Root) :
    R p r (forEntries f entries r).2 := by
  induction entries generalizing r with
  | nil => exact hR.refl p r
  | cons e rest ih =>
    have hentry := hf e.1 e.2 r
    unfold Root.forEntries
    rcases h : f e.1 e.2 r with ⟨_ | _, s⟩
    · rw [h] at hentry
      exact hentry
    · rw [h] at hentry
      exact hR.trans hentry (ih s)

/-- Making a child from a snapshot. -/
lemma buildWith (hR : BuildRelation R) (hrestore : ∀ p v r, R p r (restore p v r).2)
    (parent : Path) (id : String) (v : Value) (r : Root) :
    R parent r (buildWith restore parent id v r).2 := by
  unfold Root.buildWith
  cases snapshotType v with
  | error e => exact hR.refl parent r
  | ok typeName =>
    have hadd := hR.addChild parent r id typeName
    match h : r.addChild parent id typeName with
    | (.error e, s) =>
      rw [h] at hadd
      simp only [h]
      exact hadd
    | (.ok address, s) =>
      rw [h] at hadd
      have hnested := hR.nest h hadd (hrestore address v s)
      simp only [h]
      split
      all_goals
        rename_i hres
        rw [hres] at hnested
        exact hnested

/-- Making a child from its entry in a snapshot. -/
lemma buildEntry (hR : BuildRelation R) (hrestore : ∀ p v r, R p r (restore p v r).2)
    (parent : Path) (id : String) (v : Value) (r : Root) :
    R parent r (buildEntry restore parent id v r).2 := by
  have hbuild := hR.buildWith hrestore parent id v r
  unfold Root.buildEntry
  split
  all_goals
    rename_i hres
    rw [hres] at hbuild
    exact hbuild

/-- Giving a unit what a snapshot holds. -/
lemma restoreWithin (hR : BuildRelation R) (fuel : ℕ) (p : Path) (v : Value) (r : Root) :
    R p r (restoreWithin fuel p v r).2 := by
  induction fuel generalizing p v r with
  | zero => exact hR.refl p r
  | succ fuel ih =>
    unfold Root.restoreWithin
    split
    · exact hR.refl p r
    · rename_i h entries hlookup
      have hchildren := hR.trans (hR.modify hlookup entries)
        (hR.forEntries (hR.buildEntry ih p) (childSnapshots entries) _)
      simp only
      split
      · rename_i e s heq
        rw [heq] at hchildren
        exact hchildren
      · rename_i s heq
        rw [heq] at hchildren
        exact hR.trans hchildren (hR.restoreConnections p (connectionValues entries) s)
    · exact hR.refl p r

end BuildRelation

/-- A build consists of chores. -/
lemma buildRelation_chores : BuildRelation fun _ => Chores where
  refl _ := .refl
  trans h h' := h.trans h'
  addChild p r := chores_addChild r p
  modify _ entries := .single (.edit _ (.restore entries))
  connect p _ c := .single (.connect p c)
  nest _ h h' := h.trans h'

/-- Giving a unit what a snapshot holds. -/
lemma chores_restoreWithin (fuel : ℕ) (p : Path) (v : Value) (r : Root) :
    Chores r (restoreWithin fuel p v r).2 :=
  buildRelation_chores.restoreWithin fuel p v r

/-- Adding a child made from a snapshot. -/
lemma chores_build (r : Root) (parent : Path) (id : String) (v : Value) :
    Chores r (r.build parent id v).2 :=
  buildRelation_chores.buildWith (chores_restoreWithin v.depth) parent id v r

/-- Adding a child made from the text of a snapshot. -/
lemma chores_buildText (r : Root) (parent : Path) (id text : String) :
    Chores r (r.buildText parent id text).2 := by
  unfold buildText
  cases Value.ofStored? text with
  | error e => exact .refl r
  | ok v => exact chores_build r parent id v

/-! ## Standard controls -/

/-- An answer that says how an operation has gone changes nothing more. -/
lemma answerWith_snd {α : Type} (r : Except RuntimeError α × Root) (values : α → List Value) :
    (answerWith r values).2 = r.2 := rfl

/-- Editing a unit. -/
lemma chores_edit {r : Root} {h : Handle} {n : Node} (hn : r.units.get? h = some n)
    {f : Node → Node} (hf : Edit f) : Chores r { r with units := r.units.set h (f n) } := by
  have hmodify : r.units.modify h f = r.units.set h (f n) := by
    rw [Arena.modify, hn]
  rw [← hmodify]
  exact .single (.edit h hf)

/-- Answering a request for metadata. -/
lemma chores_answerMetadata {r : Root} {h : Handle} {n : Node} (hn : r.units.get? h = some n)
    (args : List Value) : Chores r (r.answerMetadata h n args).2 := by
  unfold answerMetadata
  split
  · exact .refl r
  · exact .refl r
  · exact chores_edit hn (.setMetadata _ _)
  · exact .refl r

/-- Answering a request to merge metadata. -/
lemma chores_answerMergeMetadata {r : Root} {h : Handle} {n : Node}
    (hn : r.units.get? h = some n) (args : List Value) :
    Chores r (r.answerMergeMetadata h n args).2 := by
  unfold answerMergeMetadata
  split
  · exact chores_edit hn (.mergeMetadata _)
  · exact .refl r

/-- Answering a request to install a source. -/
lemma chores_answerCode (r : Root) (p : Path) (args : List Value) :
    Chores r (r.answerCode p args).2 := by
  unfold answerCode
  split
  · exact .refl r
  · rw [answerWith_snd]
    exact chores_installSource ..

/-- Answering a request to make a child. -/
lemma chores_answerAddChild (r : Root) (p : Path) (args : List Value) :
    Chores r (r.answerAddChild p args).2 := by
  unfold answerAddChild
  split
  · exact .refl r
  · exact .refl r
  · rw [answerWith_snd]
    exact chores_addChild ..

/-- Answering a request to remove a child. -/
lemma chores_answerRemoveChild (r : Root) (p : Path) (args : List Value) :
    Chores r (r.answerRemoveChild p args).2 := by
  unfold answerRemoveChild
  split
  · exact .refl r
  · rw [answerWith_snd]
    exact .single (.remove ..)

/-- Answering a request that names a connection. -/
lemma chores_answerConnection {r : Root} {f : Connection → Except RuntimeError Unit × Root}
    (hf : ∀ c, Chores r (f c).2) (args : List Value) :
    Chores r (r.answerConnection args f).2 := by
  unfold answerConnection
  split
  · exact .refl r
  · rw [answerWith_snd]
    exact hf _

/-- Answering a standard control of a unit that has it. -/
lemma chores_runStandard {r : Root} {h : Handle} {n : Node} (hn : r.units.get? h = some n)
    (args : List Value) (control : StandardControl) :
    Chores r (r.runStandard h n args control).2 := by
  cases control with
  | metadata => exact chores_answerMetadata hn args
  | mergeMetadata => exact chores_answerMergeMetadata hn args
  | code => exact chores_answerCode ..
  | addChild => exact chores_answerAddChild ..
  | removeChild => exact chores_answerRemoveChild ..
  | connect => exact chores_answerConnection (fun c => .single (.connect _ c)) args
  | disconnect => exact chores_answerConnection (fun c => .single (.disconnect _ c)) args
  | start => exact .single .start
  | stop => exact .single .stop
  | _ => exact .refl r

/-- Answering a standard control. -/
lemma chores_answerStandard (r : Root) (h : Handle) (control : StandardControl) (c : Call) :
    Chores r (r.answerStandard h control c).2 := by
  unfold answerStandard
  cases hn : r.units.get? h with
  | none => exact .refl r
  | some n =>
    simp only
    split
    · exact .refl r
    · split
      · exact .refl r
      · exact chores_runStandard hn c.args control

/-! ## Dispatch -/

/-- Rejecting a call. -/
lemma chores_reject (r : Root) (c : Call) (f : Fault) : Chores r (r.reject c f) := by
  unfold reject
  split
  · exact .single (.answer c (.inr rfl) _)
  · exact .refl r

/-- Answering a call. -/
lemma chores_answer (r : Root) (c : Call) (result : Except Fault (List Value)) :
    Chores r (r.answer c result) := by
  unfold answer
  split
  · split
    · exact .single (.answer c (.inl rfl) _)
    · exact .refl r
  · exact chores_reject ..

/-- Changing the tables of the host and the journal. -/
lemma deeds_noteDue (due : Option (String × Outcome)) (r : Root)
    (requests callbacks : CallTable String) (handles : AsyncStore) :
    Deeds r (noteDue due
      { r with requests := requests, callbacks := callbacks, handles := handles }) := by
  cases due with
  | none =>
    exact .single (.more
      (.books r.catalog r.compiler r.services requests callbacks handles r.journal))
  | some e =>
    exact .single (.more (.books r.catalog r.compiler r.services requests callbacks handles
      (.outcome e.1 e.2 :: r.journal)))

/-- Handing an answer to the host. -/
lemma deeds_receiveAnswer (r : Root) (c : Call) : Deeds r (r.receiveAnswer c) := by
  unfold receiveAnswer
  split
  · exact .refl r
  · split
    · exact deeds_noteDue _ r r.requests _ _
    · exact deeds_noteDue _ r _ r.callbacks _

/-- Handing a timeout to the host. -/
lemma deeds_receiveTimeout (r : Root) (c : Call) : Deeds r (r.receiveTimeout c) := by
  have hcallbacks := deeds_noteDue (r.callbacks.handleTimeout r.handles c).due r r.requests
    (r.callbacks.handleTimeout r.handles c).table (r.callbacks.handleTimeout r.handles c).handles
  unfold receiveTimeout
  simp only
  split
  · exact hcallbacks.trans (deeds_noteDue _ _ _ _ _)
  · exact hcallbacks

/-- Serving a call to a control of the host. -/
lemma deeds_dispatchHost (r : Root) (c : Call) : Deeds r (r.dispatchHost c) := by
  unfold dispatchHost
  split
  · exact deeds_receiveAnswer r c
  · split
    · exact deeds_receiveTimeout r c
    · exact (chores_reject r c _).deeds

/-- Handing a call to a unit. -/
lemma chores_dispatchUnit (r : Root) (h : Handle) (c : Call) :
    Chores r (r.dispatchUnit h c) := by
  have hturn : Chores r (r.inTurn h fun s n t => n.invoke s c t).2 := by
    rw [inTurn_snd]
    exact .single (.turn h (.invoke c))
  unfold dispatchUnit
  split
  · rename_i f r' heq
    rw [heq] at hturn
    exact hturn.trans (chores_reject r' c f)
  · rename_i o r' heq hne
    rw [hne] at hturn
    exact hturn

/-- Serving a call that does not go to the host. -/
lemma chores_dispatch {r : Root} {c : Call} (h : r.isForHost c = false) :
    Chores r (r.dispatch c) := by
  unfold dispatch
  rw [if_neg (by simp [h])]
  split
  · exact chores_reject r c _
  · rename_i h _
    split
    · rename_i control _
      exact (chores_answerStandard r h control c).trans (chores_answer _ c _)
    · exact chores_dispatchUnit r h c

/-- Serving a call. -/
lemma deeds_dispatch (r : Root) (c : Call) : Deeds r (r.dispatch c) := by
  cases h : r.isForHost c with
  | false => exact (chores_dispatch h).deeds
  | true =>
    unfold dispatch
    rw [if_pos h]
    exact deeds_dispatchHost r c

/-- Handing on what was emitted on a port. -/
lemma chores_deliver (r : Root) (p : PortAddress) (values : List Value) :
    Chores r (r.deliver p values) :=
  .foldl (f := fun r (e : Handle × String) => r.act e.1 (Node.receive · e.2 values))
    (fun _ e => .single (.turn e.1 (.receive e.2 values))) (r.targetsOf p) r

/-! ## Passes -/

/-- A chore, an item that is taken from a queue and processed, or an advance of the clock. -/
inductive Round (r : Root) : Root → Prop
  | chore {s : Root} (h : Chore r s) : Round r s
  /-- What was emitted on a port is handed on. -/
  | handOn {p : PortAddress} {values : List Value} {rest : List (PortAddress × List Value)}
      (h : r.portQueue = (p, values) :: rest) :
      Round r ({ r with portQueue := rest }.deliver p values)
  /-- A call is served, when there is nothing to be handed on. -/
  | serve (hports : r.portQueue = []) {c : Call} {rest : List Call} (h : r.queue = c :: rest) :
      Round r ((r.take c rest).dispatch c)
  | advance {time : Int64} {clock : Clock Handle} (h : r.clock.tick? time = some clock) :
      Round r (r.advance clock)

/-- Rounds, one after the other. -/
def Rounds : Root → Root → Prop := ReflTransGen Round

namespace Rounds

variable {r s t : Root}

/-- No round at all. -/
lemma refl (r : Root) : Rounds r r := ReflTransGen.refl

/-- Rounds after rounds. -/
lemma trans (h : Rounds r s) (h' : Rounds s t) : Rounds r t := ReflTransGen.trans h h'

/-- One round. -/
lemma single (h : Round r s) : Rounds r s := ReflTransGen.single h

/-- Chores, as rounds. -/
lemma chores (h : Chores r s) : Rounds r s := by
  induction h with
  | refl => exact .refl r
  | tail _ hlast ih => exact ih.trans (.single (.chore hlast))

/-- Rounds consist of deeds. -/
lemma deeds (h : Rounds r s) : Deeds r s := by
  induction h with
  | refl => exact .refl r
  | tail _ hlast ih =>
    refine ih.trans ?_
    cases hlast with
    | chore hchore => exact .single (Chore.deed hchore)
    | handOn hports =>
      exact (Doings.single (.more (.takeEmission hports))).trans (chores_deliver ..).deeds
    | serve _ hqueue => exact (Doings.single (.more (.take hqueue))).trans (deeds_dispatch _ _)
    | advance htick => exact .single (.more (.advance htick))

end Rounds

/-- Processing an item. -/
lemma rounds_step {r r' : Root} (h : r.step? = some r') : Rounds r r' := by
  unfold step? at h
  split at h
  · rename_i p values rest hports
    cases h
    exact .single (.handOn hports)
  · rename_i hports
    split at h
    · rename_i c rest hqueue
      cases h
      exact .single (.serve hports hqueue)
    · contradiction

/-- A pass within a budget. -/
lemma rounds_runFor (budget done : ℕ) (r : Root) : Rounds r (runFor budget done r).2 := by
  induction budget generalizing done r with
  | zero => exact .refl r
  | succ budget ih =>
    unfold runFor
    cases h : r.step? with
    | none => exact .refl r
    | some r' => exact (rounds_step h).trans (ih (done + 1) r')

/-- A pass. -/
lemma rounds_runUntilIdle (r : Root) : Rounds r r.runUntilIdle.2 := rounds_runFor ..

/-- Advancing the clock. -/
lemma rounds_tick (r : Root) (time : Int64) : Rounds r (r.tick time).2 := by
  unfold tick
  cases h : r.clock.tick? time with
  | none => exact .refl r
  | some clock =>
    have hadvance : Rounds r (r.advance clock) := .single (.advance h)
    simp only
    split
    · have hticked : Rounds r ((r.advance clock).actAll clock.listeners Node.tick) :=
        hadvance.trans (.chores (chores_actAll _ _ .tick))
      exact hticked.trans (rounds_runUntilIdle _)
    · exact hadvance.trans (rounds_runUntilIdle _)

/-! ## The host -/

/-- The host makes a request, which is no answer, and enters in one of its tables what is to happen
with the answer, if this can be waited for. -/
inductive Enter (r : Root) (target : Endpoint) (args : List Value) : Root → Prop
  /-- A handle waits for the answer. -/
  | handle {table : CallTable String}
      (h : r.requests.register (r.makeRequest target args).1 r.handles.create.1 = .ok table) :
      Enter r target args { (r.makeRequest target args).2 with
        requests := table, handles := r.handles.create.2 }
  /-- A handle that is kept waits for the answer. -/
  | keptHandle {table : CallTable String}
      (h : r.callbacks.register (r.makeRequest target args).1 r.handles.create.1 = .ok table) :
      Enter r target args { (r.makeRequest target args).2 with
        callbacks := table, handles := r.handles.create.2 }
  | callback {tag : String} {table : CallTable String}
      (h : r.callbacks.registerCallback (r.makeRequest target args).1 tag = .ok table) :
      Enter r target args { (r.makeRequest target args).2 with callbacks := table }
  /-- A handle is given out that has failed already. -/
  | failed (f : Fault) :
      Enter r target args { (r.makeRequest target args).2 with
        handles := (r.handles.create.2.resolve r.handles.create.1 (.error f)).2 }
  | nothing : Enter r target args (r.makeRequest target args).2

/-- Entering a request is a sequence of deeds. -/
lemma Enter.deeds {r s : Root} {target : Endpoint} {args : List Value}
    (h : Enter r target args s) : Deeds r s := by
  have hmake : Deeds r (r.makeRequest target args).2 :=
    .single (.request target r.host r.time args)
  have hbooks (requests callbacks : CallTable String) (handles : AsyncStore) :
      Deeds r { (r.makeRequest target args).2 with
        requests := requests, callbacks := callbacks, handles := handles } :=
    hmake.trans (.single (.more (.books r.catalog r.compiler r.services _ _ _ r.journal)))
  cases h with
  | handle h => exact hbooks ..
  | keptHandle h => exact hbooks ..
  | callback h => exact hbooks ..
  | failed f => exact hbooks ..
  | nothing => exact hmake

/-- The host makes a request and sends what there is to be sent. -/
def Asks (r t : Root) : Prop := ∃ target args s, Enter r target args s ∧ Chores s t

/-- Asking for something is a sequence of deeds. -/
lemma Asks.deeds {r t : Root} (h : Asks r t) : Deeds r t := by
  obtain ⟨target, args, s, henter, hchores⟩ := h
  exact henter.deeds.trans hchores.deeds

/-- Waiting for the answer to a request, whether or not that is possible. -/
lemma enter_awaitCall {r s : Root} {target : Endpoint} {args : List Value} {id : HandleId}
    (h : (r.makeRequest target args).2.awaitCall (r.makeRequest target args).1 = (id, .ok s) ∨
      (r.makeRequest target args).2.awaitCall (r.makeRequest target args).1 = (id, .error s)) :
    Enter r target args s := by
  unfold awaitCall at h
  simp only at h
  cases hc : (r.makeRequest target args).2.requests.register (r.makeRequest target args).1
      (r.makeRequest target args).2.handles.create.1 with
  | ok table =>
    rw [hc] at h
    rcases h with h | h <;> cases h
    exact .handle hc
  | error e =>
    rw [hc] at h
    rcases h with h | h <;> cases h
    exact .failed e.fault

/-- Making a request for a handle. -/
lemma asks_request (r : Root) (target : Endpoint) (args : List Value) :
    Asks r (r.request target args).2 := by
  unfold request
  simp only
  rcases hw : (r.makeRequest target args).2.awaitCall (r.makeRequest target args).1 with
    ⟨id, s | s⟩
  · exact ⟨target, args, s, enter_awaitCall (.inr hw), .refl s⟩
  · exact ⟨target, args, s, enter_awaitCall (.inl hw), .single (.send rfl)⟩

/-- Making a request that may time out. -/
lemma asks_requestWithTimeout (r : Root) (target : Endpoint) (args : List Value)
    (wait : Option Int64) : Asks r (r.requestWithTimeout target args wait).2 := by
  unfold requestWithTimeout
  simp only
  rcases hw : (r.makeRequest target args).2.awaitCall (r.makeRequest target args).1 with
    ⟨id, s | s⟩
  · exact ⟨target, args, s, enter_awaitCall (.inr hw), .refl s⟩
  · have hexpiry : Chore s { s with ledger := (CallTable.scheduleTimeout s.ledger
        (r.makeRequest target args).1.matchId s.timeout
        (s.time + wait.getD s.config.defaultCallTimeout)).2 } := .quiet ..
    have hrequest : (r.makeRequest target args).1.isResponse = false := rfl
    refine ⟨target, args, s, enter_awaitCall (.inl hw), ?_⟩
    exact ((Doings.single hexpiry).trans (.single (.send hrequest))).trans (.single (.send rfl))

/-- Making a request for a callback. -/
lemma asks_requestWith (r : Root) (target : Endpoint) (args : List Value) (tag : String) :
    Asks r (r.requestWith target args tag).2 := by
  unfold requestWith
  simp only
  cases hc : (r.makeRequest target args).2.callbacks.registerCallback
      (r.makeRequest target args).1 tag with
  | ok table => exact ⟨target, args, _, .callback hc, .single (.send rfl)⟩
  | error e => exact ⟨target, args, _, .nothing, .refl _⟩

/-- Making a request for a handle that is kept. -/
lemma asks_requestFirmly (r : Root) (target : Endpoint) (args : List Value) :
    Asks r (r.requestFirmly target args).2 := by
  unfold requestFirmly
  simp only
  cases hc : (r.makeRequest target args).2.callbacks.register (r.makeRequest target args).1
      (r.makeRequest target args).2.handles.create.1 with
  | ok table => exact ⟨target, args, _, .keptHandle hc, .single (.send rfl)⟩
  | error e => exact ⟨target, args, _, .failed e.fault, .refl _⟩

/-- Making a request that is never answered. -/
lemma chores_notify (r : Root) (target : Endpoint) (args : List Value) :
    Chores r (r.notify target args) :=
  (Doings.single (.quiet target (some r.host) r.time args)).trans (.single (.send rfl))

/-- Handing values to a port. -/
lemma chores_push (r : Root) (p : PortAddress) (values : List Value) :
    Chores r (r.push p values).2 := by
  unfold push
  cases r.lookup p.path with
  | error e => exact .refl r
  | ok h => exact .single (.turn h (.receive p.id.text values))

/-- Making a unit known as a service. -/
lemma chores_registerService (r : Root) (name : String) (p : Path) :
    Chores r (r.registerService name p) :=
  .single (.learn r.catalog r.compiler _)

/-- Adding a script unit. -/
lemma chores_addExecutor (r : Root) (parent : Path) (id : String) :
    Chores r (r.addExecutor parent id).2 := by
  have hadd := chores_addChild r parent id Catalog.scriptType
  unfold addExecutor
  match h : r.addChild parent id Catalog.scriptType with
  | (.error e, r') =>
    rw [h] at hadd
    exact hadd
  | (.ok p, r') =>
    rw [h] at hadd
    exact hadd.trans (chores_registerService ..)

end Root

end Switchboard
