import Mathlib
import Switchboard.Document.Behavior
import Switchboard.Proofs.Executors
import Switchboard.Proofs.Scripting

/-!
# Behaviors to which executors are abstract

Executors are abstract to the members of a behavior if they are to each of its declarations
(`Behavior.Abstract`).  So they are to script units, the only ones that have executors do anything
(`Behavior.abstract_scripting`), to whatever is written down as a routine, and thus to all behaviors
that are written down as documents (`Document.abstract_behavior`).
-/

namespace Switchboard

variable {P : ScriptExecutor → Prop}

/-! ## Declarations -/

/-- Whether the executors that a declared member uses have a property, if those that it is given
have it. -/
def Declaration.Within (P : ScriptExecutor → Prop) : Declaration → Prop
  | .control _ (.function handler) => ∀ args, (handler args).Within P
  | .control _ (.raw handler) => ∀ c, (handler c).Within P
  | .port _ (.input handler) => ∀ values, (handler values).Within P
  | .reference _ (.typed spec) => spec.Within P
  | .tick handler => handler.Within P
  | _ => True

/-- Whether executors are abstract to all members that a behavior declares. -/
def Behavior.Abstract (b : Behavior) : Prop :=
  ∀ P : ScriptExecutor → Prop, P .new → ∀ d ∈ b, d.Within P

namespace Members

variable {m m' : Members}

/-- One more member is declared. -/
lemma Within.declare (hm : m.Within P) {d : Declaration} (hd : d.Within P)
    (h : m.declare d = .ok m') : m'.Within P := by
  cases d with
  | control id c =>
    obtain ⟨-, rfl⟩ := free_of_checkId h
    refine ⟨fun id' handler args hmem => ?_, fun id' handler c hmem => ?_, hm.input, hm.reference,
      hm.tick⟩
    · rcases List.mem_append.mp hmem with hmem | hmem
      · exact hm.function id' handler args hmem
      · cases List.mem_singleton.mp hmem
        exact hd args
    · rcases List.mem_append.mp hmem with hmem | hmem
      · exact hm.raw id' handler c hmem
      · cases List.mem_singleton.mp hmem
        exact hd c
  | port id p =>
    obtain ⟨-, rfl⟩ := free_of_checkId h
    refine ⟨hm.function, hm.raw, fun id' handler values hmem => ?_, hm.reference, hm.tick⟩
    rcases List.mem_append.mp hmem with hmem | hmem
    · exact hm.input id' handler values hmem
    · cases List.mem_singleton.mp hmem
      exact hd values
  | reference id r =>
    obtain ⟨-, rfl⟩ := free_of_checkId h
    refine ⟨hm.function, hm.raw, hm.input, fun id' spec hmem => ?_, hm.tick⟩
    rcases List.mem_append.mp hmem with hmem | hmem
    · exact hm.reference id' spec hmem
    · cases List.mem_singleton.mp hmem
      exact hd
  | tick handler =>
    cases h
    refine ⟨hm.function, hm.raw, hm.input, hm.reference, fun p hp => ?_⟩
    cases hp
    exact hd
  | fail reasons => contradiction

/-- Executors are abstract to the members of a behavior if they are to its declarations. -/
theorem abstract_of_behavior {b : Behavior} (hb : b.Abstract) (h : ofBehavior b = .ok m) :
    m.Abstract := by
  intro P hP
  have hfold (ds : List Declaration) (hds : ∀ d ∈ ds, d.Within P) (m₀ : Members)
      (hm₀ : m₀.Within P) (h : ds.foldlM declare m₀ = .ok m) : m.Within P := by
    induction ds generalizing m₀ with
    | nil =>
      cases h
      exact hm₀
    | cons d ds ih =>
      rw [List.foldlM_cons] at h
      match hd : m₀.declare d with
      | .error e =>
        rw [hd] at h
        contradiction
      | .ok m₁ =>
        rw [hd] at h
        exact ih (fun d hmem => hds d (List.mem_cons_of_mem _ hmem)) m₁
          (hm₀.declare (hds d List.mem_cons_self) hd) h
  exact hfold b (hb P hP) {} (abstract_empty P hP) h

end Members

/-! ## Script units -/

namespace Scripting

/-- A task of the executor that is kept. -/
lemma within_execute (task : ExecutorTask) {next : Except Fault ℕ → Program}
    (hnext : ∀ r, (next r).Within P) : (execute task next).Within P := by
  intro v hv
  match v with
  | some (.executor x) => exact ⟨hv _ rfl, fun r y hy => ⟨hy, hnext r⟩⟩
  | some (.int _) | some (.text _) | some (.list _) | some (.calls _) | none => trivial

/-- The handler of `eval`. -/
lemma within_eval (c : Call) : (eval c).Within P := by
  unfold eval
  split
  · exact within_execute _ fun _ => trivial
  · exact within_execute _ fun _ => trivial

/-- The handler of `clear`. -/
lemma within_clear (c : Call) : (clear c).Within P := by
  unfold clear
  split
  · trivial
  · refine within_execute _ fun r => ?_
    cases r with
    | error f => trivial
    | ok n =>
      simp only
      split
      · exact fun _ => trivial
      · trivial

/-- The reference that keeps the executor. -/
lemma within_spec (hP : P .new) : spec.Within P where
  init := trivial
  make _ := hP
  hook := by
    intro h handler v hhandler hv
    cases h with
    | dispose =>
      cases hhandler
      cases v with
      | executor x => exact ⟨hv, fun _ _ _ => trivial⟩
      | _ => trivial
    | _ => contradiction

end Scripting

/-- Executors are abstract to script units. -/
theorem Behavior.abstract_scripting : Behavior.scripting.Abstract := by
  intro P hP d hd
  simp only [scripting, List.mem_cons, List.not_mem_nil, or_false] at hd
  rcases hd with rfl | rfl | rfl
  · exact Scripting.within_spec hP
  · exact Scripting.within_eval
  · exact Scripting.within_clear

/-! ## Routines -/

namespace Action

/-- Replying to calls. -/
lemma within_releaseCalls (args : Option (List Value)) {next : Program} (hnext : next.Within P)
    (cs : List Call) : (releaseCalls args next cs).Within P := by
  induction cs with
  | nil => exact hnext
  | cons c cs ih =>
    intro r
    cases r with
    | ok _ => exact ih
    | error e => trivial

/-- Going on with what was made of something, if there was no fault. -/
lemma within_orFail {α : Type} {next : α → Program} (hnext : ∀ a, (next a).Within P)
    (r : Except Fault α) : (orFail r next).Within P := by
  cases r with
  | ok a => exact hnext a
  | error f => trivial

/-- Going on with the call of a routine, if there is one. -/
lemma within_withCall {sc : RoutineScope} {next : Call → Program} {otherwise : Program}
    (hnext : ∀ c, (next c).Within P) (hotherwise : otherwise.Within P) :
    (withCall sc next otherwise).Within P := by
  unfold withCall
  split
  · exact hnext _
  · exact hotherwise

mutual

/-- The program of an action. -/
lemma within_compile (sc : RoutineScope) {next : RoutineScope → Program}
    (hnext : ∀ sc, (next sc).Within P) (a : Action) : (compile sc next a).Within P := by
  cases a with
  | echo => exact hnext _
  | look => exact fun _ _ => hnext _
  | noteResult => exact hnext _
  | result values => exact hnext _
  | fail f => trivial
  | note tag args => exact hnext _
  | noteCall tag => exact within_withCall (fun _ => hnext _) (hnext _)
  | emit port args => exact hnext _
  | log level message => exact hnext _
  | logAlways level message => exact hnext _
  | request target source args =>
    refine within_orFail (fun target s attached => ?_) _
    refine within_orFail (fun source c => ?_) _
    exact hnext _
  | quiet target args =>
    refine within_orFail (fun target s attached c => ?_) _
    exact hnext _
  | send target source awaited delay args =>
    refine within_orFail (fun target => within_orFail (fun source s _ => ?_) _) _
    cases awaited <;> cases source <;> exact fun _ => hnext _
  | reply args =>
    exact within_withCall (fun _ _ => within_orFail (fun _ => hnext _) _) (hnext _)
  | error f => exact within_withCall (fun _ _ => within_orFail (fun _ => hnext _) _) (hnext _)
  | errorWith args =>
    exact within_withCall (fun _ _ => within_orFail (fun _ => hnext _) _) (hnext _)
  | unlessResponse actions =>
    unfold compile
    split
    · exact hnext _
    · exact within_compileAll sc hnext actions
  | hold id =>
    refine within_withCall (fun c v _ => ?_) (hnext _)
    match v with
    | some (.calls cs) => exact ⟨trivial, hnext _⟩
    | some (.int _) | some (.text _) | some (.list _) | some (.executor _) | none => exact hnext _
  | release id args =>
    intro v _
    match v with
    | some (.calls cs) => exact ⟨trivial, within_releaseCalls args (hnext _) cs⟩
    | some (.int _) | some (.text _) | some (.list _) | some (.executor _) | none => exact hnext _
  | add id args =>
    intro v hv
    match v with
    | some (.executor x) => exact ⟨hv _ rfl, hnext _⟩
    | some (.int _) | some (.text _) | some (.list _) | some (.calls _) => exact ⟨trivial, hnext _⟩
    | none => exact hnext _
  | get id => exact fun _ _ => hnext _
  | setProperty id time args => exact fun _ _ _ => within_orFail (fun _ => hnext _) _
  | replaceProperty id args => exact fun _ => within_orFail (fun _ => hnext _) _
  | getProperty id =>
    intro p
    cases p <;> exact hnext _
  | replaceOwn v => exact hnext _

/-- The program of actions. -/
lemma within_compileAll (sc : RoutineScope) {next : RoutineScope → Program}
    (hnext : ∀ sc, (next sc).Within P) (actions : List Action) :
    (compileAll sc next actions).Within P := by
  cases actions with
  | nil => exact hnext sc
  | cons a rest => exact within_compile sc (fun sc => within_compileAll sc hnext rest) a

end

end Action

/-- A value that is made of what was written down. -/
lemma RefValue.within_ofValue (hP : P .new) (kind : RefKind) (v : Value) :
    (RefValue.ofValue kind v).Within P := by
  cases kind with
  | executor => exact hP
  | _ => trivial

namespace Routine

/-- The program of a routine. -/
lemma within_program (r : Routine) (args : List Value) (call : Option Call) :
    (r.program args call).Within P := by
  refine Action.within_compileAll _ (fun sc => ?_) r
  trivial

/-- The program of a routine that is called with the value of a reference. -/
lemma within_hook (hP : P .new) (r : Routine) (id : String) (v : RefValue) :
    (r.hook id v).Within P := by
  refine Action.within_compileAll _ (fun sc => ?_) r
  split
  · exact ⟨RefValue.within_ofValue hP .., trivial⟩
  · trivial

end Routine

/-! ## Documents -/

namespace Document

/-- A reference that was written down. -/
lemma within_referenceSpec (hP : P .new) (id : String) (j : Json) :
    (referenceSpec id j).Within P where
  init := Routine.within_program ..
  make _ := RefValue.within_ofValue hP ..
  hook := by
    intro h handler v hhandler _
    simp only [referenceSpec, hook?] at hhandler
    split at hhandler
    · cases hhandler
      exact Routine.within_hook hP ..
    · contradiction

/-- A declaration that was written down. -/
lemma within_declaration (hP : P .new) (j : Json) : (declaration j).Within P := by
  unfold declaration
  split
  · next key f hfound =>
    have hmem : (key, f) ∈ namedDeclarations := List.mem_of_find?_eq_some hfound
    simp only [namedDeclarations, List.mem_cons, List.not_mem_nil, or_false, Prod.mk.injEq] at hmem
    rcases hmem with ⟨-, rfl⟩ | ⟨-, rfl⟩ | ⟨-, rfl⟩ | ⟨-, rfl⟩ | ⟨-, rfl⟩ | ⟨-, rfl⟩ | ⟨-, rfl⟩ |
      ⟨-, rfl⟩ | ⟨-, rfl⟩ | ⟨-, rfl⟩
    · exact fun _ => Routine.within_program ..
    · exact fun _ => Routine.within_program ..
    · trivial
    · trivial
    · exact fun _ => Routine.within_program ..
    · trivial
    · exact Routine.within_program ..
    · exact within_referenceSpec hP ..
    · unfold customMember
      split <;> trivial
    · trivial
  · trivial

/-- Executors are abstract to all behaviors that are written down as documents. -/
theorem abstract_behavior (j : Json) : (behavior j).Abstract := by
  intro P hP d hd
  unfold behavior at hd
  split at hd
  · obtain ⟨item, -, rfl⟩ := List.mem_map.mp hd
    exact within_declaration hP item
  · exact Behavior.abstract_scripting P hP d hd
  · contradiction

end Document

end Switchboard
