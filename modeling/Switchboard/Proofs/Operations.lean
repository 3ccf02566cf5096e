import Mathlib
import Switchboard.Proofs.Changes

/-!
# Runs of a root

An `Operation` is what the host of a root can do with it, including the making, answering and
sending of calls of its own.  A root is `Reachable` when it has come from a new root by operations.
The host can send any call that it has, but it cannot make up an answer: an answer is made by
answering a request.

What an operation comes down to is listed once (`Operation.Does`): it either is a sequence of deeds
that the root does itself, or it sends a call of the host or answers one without sending the answer.
`Reachable.induction` says so in the form in which invariants of changes are proved,
`Reachable.induction_moves` and `Reachable.induction_deeds` in the forms for those of moves and of
deeds.
-/

namespace Switchboard

/-- What the host can do with a root. -/
inductive Operation where
  /-- Makes a request without sending it. -/
  | makeRequest (target source : Endpoint) (time : Int64) (args : List Value)
  | makeQuiet (target : Endpoint) (source : Option Endpoint) (time : Int64) (args : List Value)
  /-- Answers a call without sending the answer. -/
  | reply (c : Call) (args : List Value)
  | error (c : Call) (args : List Value)
  | send (c : Call)
  | request (target : Endpoint) (args : List Value)
  | requestWithTimeout (target : Endpoint) (args : List Value) (wait : Option Int64)
  | requestWith (target : Endpoint) (args : List Value) (tag : String)
  | requestFirmly (target : Endpoint) (args : List Value)
  | notify (target : Endpoint) (args : List Value)
  | push (p : PortAddress) (values : List Value)
  | resolveHandle (id : HandleId) (o : Outcome)
  | cancelRequest (id : HandleId)
  | dropHandle (id : HandleId)
  | takeOutcome (id : HandleId)
  | setCatalog (catalog : Catalog)
  | setCompiler (compiler : Compiler)
  | registerService (name : String) (p : Path)
  | addExecutor (parent : Path) (id : String)
  | addChild (parent : Path) (id typeName : String)
  | addChildWith (parent : Path) (id typeName : String) (b : Behavior)
  | removeChild (parent : Path) (id : String)
  | connect (p : Path) (c : Connection)
  | disconnect (p : Path) (c : Connection)
  | install (p : Path) (b : Behavior)
  | installSource (p : Path) (source : String)
  | build (parent : Path) (id : String) (v : Value)
  | buildText (parent : Path) (id text : String)
  | restore (p : Path) (v : Value)
  | start
  | stop
  | tick (time : Int64)
  | runUntilIdle

namespace Operation

/-- The root after a call was answered, if it may be; the answer stays with the host. -/
def keepAnswer (r : Root) (c : Call) (kind : CallKind) (args : List Value) : Root :=
  match r.ledger.answer c kind args with
  | .ok (_, ledger) => { r with ledger := ledger }
  | .error _ => r

/-- The root after an operation, whether or not it has succeeded. -/
def run (o : Operation) (r : Root) : Root :=
  match o with
  | .makeRequest target source time args =>
    { r with ledger := (r.ledger.request target source time args).2 }
  | .makeQuiet target source time args =>
    { r with ledger := (r.ledger.quiet target source time args).2 }
  | .reply c args => keepAnswer r c .reply args
  | .error c args => keepAnswer r c .error args
  | .send c => r.send c
  | .request target args => (r.request target args).2
  | .requestWithTimeout target args wait => (r.requestWithTimeout target args wait).2
  | .requestWith target args tag => (r.requestWith target args tag).2
  | .requestFirmly target args => (r.requestFirmly target args).2
  | .notify target args => r.notify target args
  | .push p values => (r.push p values).2
  | .resolveHandle id o => { r with handles := (r.handles.resolve id o).2 }
  | .cancelRequest id => r.cancelRequest id
  | .dropHandle id => r.dropHandle id
  | .takeOutcome id => (r.takeOutcome id).2
  | .setCatalog catalog => { r with catalog := catalog }
  | .setCompiler compiler => { r with compiler := some compiler }
  | .registerService name p => r.registerService name p
  | .addExecutor parent id => (r.addExecutor parent id).2
  | .addChild parent id typeName => (r.addChild parent id typeName).2
  | .addChildWith parent id typeName b => (r.addChildWith parent id typeName b).2
  | .removeChild parent id => (r.removeChild parent id).2
  | .connect p c => (r.connect p c).2
  | .disconnect p c => (r.disconnect p c).2
  | .install p b => (r.install p b).2
  | .installSource p source => (r.installSource p source).2
  | .build parent id v => (r.build parent id v).2
  | .buildText parent id text => (r.buildText parent id text).2
  | .restore p v => (r.restore p v).2
  | .start => r.start.2
  | .stop => r.stop.2
  | .tick time => (r.tick time).2
  | .runUntilIdle => r.runUntilIdle.2

/-- Whether the host has what it needs for an operation: an answer that it sends has been made by
answering a request. -/
def Admitted (r : Root) : Operation → Prop
  | .send c => c.isResponse = true → ∃ q, (q, c) ∈ r.ledger.answers
  | _ => True

/-- The handle whose state an operation of the host changes. -/
def handle? : Operation → Option HandleId
  | .resolveHandle id _ => some id
  | .cancelRequest id => some id
  | .dropHandle id => some id
  | .takeOutcome id => some id
  | _ => none

/-- What an operation of the host comes down to. -/
inductive Does (r : Root) (o : Operation) : Root → Prop
  /-- The root does something itself. -/
  | chores {s : Root} (h : Root.Chores r s) : Does r o s
  /-- Items are processed, and the clock may advance. -/
  | rounds {s : Root} (h : Root.Rounds r s) : Does r o s
  /-- The host asks for something. -/
  | asks {s : Root} (h : Root.Asks r s) : Does r o s
  /-- The host sends a call that it has. -/
  | send (c : Call) (h : o = .send c) : Does r o (r.send c)
  /-- The host answers a call and keeps the answer. -/
  | keepAnswer (c : Call) {kind : CallKind} (hkind : kind = .reply ∨ kind = .error)
      (args : List Value) : Does r o (keepAnswer r c kind args)
  /-- The host changes the state of the handle that the operation names. -/
  | touch (id : HandleId) (f : Async → Async) (h : o.handle? = some id) :
      Does r o { r with handles := r.handles.update id f }

/-- Whatever the host does is one of these things. -/
lemma does (o : Operation) (r : Root) : Does r o (o.run r) := by
  cases o with
  | makeRequest target source time args => exact .chores (.single (.request ..))
  | makeQuiet target source time args => exact .chores (.single (.quiet ..))
  | reply c args => exact .keepAnswer c (.inl rfl) args
  | error c args => exact .keepAnswer c (.inr rfl) args
  | send c => exact .send c rfl
  | request target args => exact .asks (Root.asks_request ..)
  | requestWithTimeout target args wait => exact .asks (Root.asks_requestWithTimeout ..)
  | requestWith target args tag => exact .asks (Root.asks_requestWith ..)
  | requestFirmly target args => exact .asks (Root.asks_requestFirmly ..)
  | notify target args => exact .chores (Root.chores_notify ..)
  | push p values => exact .chores (Root.chores_push ..)
  | resolveHandle id o => exact .touch id _ rfl
  | cancelRequest id => exact .touch id _ rfl
  | dropHandle id => exact .touch id _ rfl
  | takeOutcome id => exact .touch id _ rfl
  | setCatalog catalog => exact .chores (.single (.learn catalog r.compiler r.services))
  | setCompiler compiler => exact .chores (.single (.learn r.catalog (some compiler) r.services))
  | registerService name p => exact .chores (Root.chores_registerService ..)
  | addExecutor parent id => exact .chores (Root.chores_addExecutor ..)
  | addChild parent id typeName => exact .chores (Root.chores_addChild ..)
  | addChildWith parent id typeName b => exact .chores (Root.chores_addChildWith ..)
  | removeChild parent id => exact .chores (.single (.remove ..))
  | connect p c => exact .chores (.single (.connect ..))
  | disconnect p c => exact .chores (.single (.disconnect ..))
  | install p b => exact .chores (Root.chores_install ..)
  | installSource p source => exact .chores (Root.chores_installSource ..)
  | build parent id v => exact .chores (Root.chores_build ..)
  | buildText parent id text => exact .chores (Root.chores_buildText ..)
  | restore p v => exact .chores (Root.chores_restoreWithin ..)
  | start => exact .chores (.single .start)
  | stop => exact .chores (.single .stop)
  | tick time => exact .rounds (Root.rounds_tick r time)
  | runUntilIdle => exact .rounds (Root.rounds_runUntilIdle r)

end Operation

namespace Root

/-- Roots that a new one can become. -/
inductive Reachable : Root → Prop
  | new {config : Config} {catalog : Catalog} {r : Root} (h : Root.new config catalog = .ok r) :
      Reachable r
  | operate {r : Root} (hr : Reachable r) {o : Operation} (ho : o.Admitted r) :
      Reachable (o.run r)

/-- A new root has a unit whose path is a single identifier, and nothing else. -/
lemma new_eq_ok {config : Config} {catalog : Catalog} {r : Root}
    (h : Root.new config catalog = .ok r) :
    ∃ address : Path, address.below = [] ∧ r =
      { config := config, address := address
        units := (({} : Arena Node).insert
          { address := address, parent := none, kind := .root, typeName := Catalog.rootType }).2
        index := [(address, ⟨0, 0⟩)]
        top := ⟨0, 0⟩
        clock := (Clock.start 0).attach ⟨0, 0⟩
        catalog := catalog
        history := { times := [0] }
        created := [⟨0, 0⟩] } := by
  unfold Root.new Path.ofRoot? Id.ofText? at h
  simp only [bind, Except.bind] at h
  split at h
  · contradiction
  · split at h
    · contradiction
    · rename_i address haddress
      split at haddress
      · cases haddress
        cases h
        exact ⟨_, rfl, rfl⟩
      · contradiction

/-- The path of the root unit where nothing else was configured. -/
def rootPath : Path := ⟨⟨"root", by decide⟩, []⟩

/-! ## Induction over runs -/

section Induction

variable {P : Root → Prop}
  (hchange : ∀ r s, Change r s → P r → P s)
  (hmove : ∀ r s, Move r s → P r → P s)
  (hdeed : ∀ r s, Deed r s → P r → P s)
  (hsend : ∀ r c, (c.isResponse = true → ∃ q, (q, c) ∈ r.ledger.answers) → P r → P (r.send c))
  (hanswer : ∀ r c kind args a l, kind = .reply ∨ kind = .error →
    r.ledger.answer c kind args = .ok (a, l) → P r → P { r with ledger := l })

include hchange in
/-- What every change keeps, changes keep. -/
lemma Changes.preserve {r s : Root} (h : Changes r s) (hr : P r) : P s := by
  induction h with
  | refl => exact hr
  | tail _ hlast ih => exact hchange _ _ hlast ih

include hmove in
/-- What every move keeps, moves keep. -/
lemma Moves.preserve {r s : Root} (h : Moves r s) (hr : P r) : P s := by
  induction h with
  | refl => exact hr
  | tail _ hlast ih => exact hmove _ _ hlast ih

include hdeed in
/-- What every deed keeps, deeds keep. -/
lemma Deeds.preserve {r s : Root} (h : Deeds r s) (hr : P r) : P s := by
  induction h with
  | refl => exact hr
  | tail _ hlast ih => exact hdeed _ _ hlast ih

include hanswer in
/-- An answer that the host keeps. -/
lemma Operation.preserve_keepAnswer {r : Root} (hr : P r) (c : Call) {kind : CallKind}
    (hkind : kind = .reply ∨ kind = .error) (args : List Value) :
    P (Operation.keepAnswer r c kind args) := by
  unfold Operation.keepAnswer
  match h : r.ledger.answer c kind args with
  | .ok (a, l) => exact hanswer r c kind args a l hkind h hr
  | .error e => exact hr

include hdeed hsend hanswer in
/-- What is kept by every deed, by a call that the host sends and by an answer that it keeps, is
kept by every operation. -/
lemma Operation.preserve {r : Root} (hr : P r) {o : Operation} (ho : o.Admitted r) :
    P (o.run r) := by
  have hdoes := o.does r
  generalize o.run r = s at hdoes ⊢
  cases hdoes with
  | chores h => exact h.deeds.preserve hdeed hr
  | rounds h => exact h.deeds.preserve hdeed hr
  | asks h => exact h.deeds.preserve hdeed hr
  | send c h =>
    subst h
    exact hsend r c ho hr
  | keepAnswer c hkind args => exact preserve_keepAnswer hanswer hr c hkind args
  | touch id f =>
    exact hdeed _ _
      (.more (.books r.catalog r.compiler r.services r.requests r.callbacks _ r.journal)) hr

include hdeed hsend hanswer in
/-- Induction over runs: an invariant holds of new roots and is kept by every deed, by a call that
the host sends and by an answer that it keeps. -/
lemma Reachable.induction_deeds
    (hnew : ∀ config catalog r, Root.new config catalog = .ok r → P r) {r : Root}
    (h : Reachable r) : P r := by
  induction h with
  | new h => exact hnew _ _ _ h
  | operate _ ho ih => exact Operation.preserve hdeed hsend hanswer ih ho

include hmove hsend hanswer in
/-- Induction over runs: an invariant holds of new roots and is kept by every move, by a call that
the host sends and by an answer that it keeps. -/
lemma Reachable.induction_moves
    (hnew : ∀ config catalog r, Root.new config catalog = .ok r → P r) {r : Root}
    (h : Reachable r) : P r :=
  h.induction_deeds (fun r s hdeed => hmove r s hdeed.move) hsend hanswer hnew

include hchange hsend hanswer in
/-- Induction over runs: an invariant holds of new roots and is kept by every change, by a call that
the host sends and by an answer that it keeps. -/
lemma Reachable.induction
    (hnew : ∀ config catalog r, Root.new config catalog = .ok r → P r) {r : Root}
    (h : Reachable r) : P r :=
  h.induction_moves (fun _ _ hmove hr => hmove.changes.preserve hchange hr) hsend hanswer hnew

end Induction

end Root

end Switchboard
