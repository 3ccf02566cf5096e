import Mathlib
import Switchboard.Behavior.Scripting
import Switchboard.Proofs.Custody
import Switchboard.Proofs.Executions

/-!
# The behavior of script units

What a unit with this behavior does comes down to what its executor does.  The executor is kept in a
reference (`Cells.Executes`).  The lemmas below say what each call does to it (`invoke_eval`,
`invoke_receive`, `invoke_clear`, `invoke_other`), that nothing happens at the moments of its life
but the last, and what becomes of it when another behavior is put in place: it is taken over as it
is (`attach_carries`), or all its scripts are given up (`attach_executor`), as when the behavior is
disposed of (`dispose_executor`).
-/

namespace Switchboard

open ScriptHistory
open ScriptExecutor (callerKey)

/-- Whether cells keep an executor in the reference for it. -/
def Cells.Executes (cells : Cells) (x : ScriptExecutor) : Prop :=
  ∃ maker, cells.references.find? Scripting.reference =
    some ⟨.executor, some ⟨.executor x, maker⟩⟩

/-- Whether a program leaves an executor in its reference as it is. -/
def Program.Spares (p : Program) : Prop :=
  ∀ s w x, w.cells.Executes x → (p.run s w).2.cells.Executes x

namespace Scripting

variable {s : Setting} {w : Workbench} {x : ScriptExecutor} {c : Call}

/-- The members of the behavior. -/
def members : Members where
  controls := [("eval", .raw eval), ("clear", .raw clear)]
  references := [(reference, .typed spec)]

/-- The behavior declares its members. -/
lemma ofBehavior_scripting : Members.ofBehavior Behavior.scripting = .ok members := by
  rfl

/-- What the reference holds. -/
lemma value?_of_executes {cells : Cells} (h : cells.Executes x) :
    cells.value? reference = some (.executor x) := by
  obtain ⟨maker, hfind⟩ := h
  unfold Cells.value?
  rw [hfind]
  rfl

/-- An executor that was put into its reference is kept there. -/
lemma executes_write {cells : Cells} (h : cells.Executes x) (y : ScriptExecutor) :
    (cells.write reference (.executor y)).Executes y := by
  obtain ⟨maker, hfind⟩ := h
  refine ⟨maker, ?_⟩
  unfold Cells.write
  rw [hfind]
  exact Keyed.find?_insert_self ..

/-- A task of the executor that is kept. -/
lemma run_execute (h : w.cells.Executes x) (s : Setting) (task : ExecutorTask)
    (next : Except Fault ℕ → Program) :
    (execute task next).run s w = (next (Program.executeOn s x task w.turn).1).run s
      ⟨w.cells.write reference (.executor (Program.executeOn s x task w.turn).2.1),
        (Program.executeOn s x task w.turn).2.2⟩ := by
  simp only [execute, withExecutor, Program.run, value?_of_executes h]

variable {i next former : Iteration} {t : Turn}

/-! ### Calls -/

/-- An answer goes to the executor. -/
lemma invoke_receive (hi : i.members = members) (hx : i.cells.Executes x)
    (htarget : c.target.id.text = "eval") (hresponse : c.isResponse = true) :
    (i.invoke s c t).2 = ({ i with
        cells := i.cells.write reference (.executor (x.receive s c t).2.1) },
      (x.receive s c t).2.2) := by
  have hcontrol : Named.find? c.target.id.text i.members.controls = some (.raw eval) := by
    rw [hi, htarget]
    rfl
  have hrun := run_execute (w := ⟨i.cells, t⟩) hx s (.receive c) fun _ => .done (.ok [])
  unfold Iteration.invoke
  simp only [hcontrol, Iteration.callControl, eval, hresponse, ↓reduceIte, hrun]
  rfl

/-- A call that brings a script goes to the executor. -/
lemma invoke_eval (hi : i.members = members) (hx : i.cells.Executes x)
    (htarget : c.target.id.text = "eval") (hrequest : c.isResponse = false) :
    (i.invoke s c t).2 = ({ i with
        cells := i.cells.write reference (.executor (x.eval s c t).2.1) },
      (x.eval s c t).2.2) := by
  have hcontrol : Named.find? c.target.id.text i.members.controls = some (.raw eval) := by
    rw [hi, htarget]
    rfl
  have hrun := run_execute (w := ⟨i.cells, t⟩) hx s (.eval c)
    fun result => .done (result.map fun _ => [])
  unfold Iteration.invoke
  simp only [hcontrol, Iteration.callControl, eval, hrequest, Bool.false_eq_true, ↓reduceIte, hrun]
  rfl

/-- The turn in which the scripts of a caller have been given up, with the reply to the call that
asked for it. -/
def repliedTo (c : Call) (n : ℕ) (t : Turn) : Turn :=
  if c.expectsReply = true then (Program.answerOn t c .reply [.ofNat n]).2 else t

/-- A call that asks for scripts to be given up goes to the executor, and is replied to. -/
lemma invoke_clear (hi : i.members = members) (hx : i.cells.Executes x)
    (htarget : c.target.id.text = "clear") (hrequest : c.isRequest = true) :
    (i.invoke s c t).2 = ({ i with
        cells := i.cells.write reference (.executor (x.clear c t).2.1) },
      repliedTo c (x.clear c t).1 (x.clear c t).2.2) := by
  have hcontrol : Named.find? c.target.id.text i.members.controls = some (.raw clear) := by
    rw [hi, htarget]
    rfl
  unfold Iteration.invoke
  simp only [hcontrol, Iteration.callControl, clear, hrequest, Bool.not_true, Bool.false_eq_true,
    ↓reduceIte]
  rw [run_execute (w := ⟨i.cells, t⟩) hx]
  simp only [Program.executeOn, repliedTo]
  by_cases hreply : c.expectsReply = true
  · simp only [hreply, ↓reduceIte, Program.run]
  · simp only [hreply, Bool.false_eq_true, ↓reduceIte, Program.run]

/-- Any other call does nothing. -/
lemma invoke_other (hi : i.members = members) (heval : c.target.id.text ≠ "eval")
    (hclear : c.target.id.text = "clear" → c.isRequest = false) :
    (i.invoke s c t).2 = (i, t) := by
  unfold Iteration.invoke
  by_cases htarget : c.target.id.text = "clear"
  · have hcontrol : Named.find? c.target.id.text i.members.controls = some (.raw clear) := by
      rw [hi, htarget]
      rfl
    simp only [hcontrol, Iteration.callControl, clear, hclear htarget, Bool.not_false, ↓reduceIte,
      Program.run]
  · have hcontrol : Named.find? c.target.id.text i.members.controls = none := by
      rw [hi]
      simp [members, Named.find?, Ne.symm heval, Ne.symm htarget]
    simp only [hcontrol]

/-! ### Moments -/

/-- Whether turns differ in what has to do with neither calls nor scripts only. -/
structure Alike (t t' : Turn) : Prop where
  ledger : t'.ledger = t.ledger
  scripts : t'.scripts = t.scripts
  calls : t'.outbox.calls = t.outbox.calls

namespace Alike

variable {t' t'' : Turn}

/-- A turn is like itself. -/
lemma refl (t : Turn) : Alike t t := ⟨rfl, rfl, rfl⟩

/-- Turns that are like a third one. -/
lemma trans (h : Alike t t') (h' : Alike t' t'') : Alike t t'' :=
  ⟨h'.ledger.trans h.ledger, h'.scripts.trans h.scripts, h'.calls.trans h.calls⟩

end Alike

/-- At a moment at which it is not disposed of, the behavior does nothing. -/
lemma runHook_alike (s : Setting) {m : Hook} (hm : m ≠ .dispose) (hi : i.members = members)
    (t : Turn) : (i.runHook s m t).1 = i ∧ Alike t (i.runHook s m t).2 := by
  have hnothing (id : MemberId) (w : Workbench) : Upkeep.runReference s m id spec w = w := by
    cases m with
    | dispose => contradiction
    | _ =>
      unfold Upkeep.runReference
      simp only [spec]
      split <;> first | rfl | contradiction
  have hupkeeps : i.upkeeps = [(⟨i.number, .control, "eval"⟩, .none),
      (⟨i.number, .control, "clear"⟩, .none),
      (⟨i.number, .reference, reference⟩, .reference spec)] := by
    unfold Iteration.upkeeps
    rw [hi]
    rfl
  unfold Iteration.runHook
  rw [hupkeeps]
  simp only [List.foldl_cons, List.foldl_nil, Upkeep.run, hnothing, Upkeep.record]
  exact ⟨trivial, rfl, rfl, rfl⟩

/-! ### Disposal -/

/-- An observer that is given up has to do with neither calls nor scripts. -/
lemma alike_observer (s : Setting) (o : Observer) (m : MemberId) (w : Workbench) :
    (Upkeep.run s .dispose m w (.observer o)).cells = w.cells ∧
      Alike w.turn (Upkeep.run s .dispose m w (.observer o)).turn := by
  unfold Upkeep.run Upkeep.runReported Upkeep.observe Upkeep.report Upkeep.record
  simp only [Program.run]
  split
  · next h =>
    obtain ⟨-, rfl⟩ := Prod.mk.inj h
    exact ⟨rfl, rfl, rfl, rfl⟩
  · next h =>
    obtain ⟨-, rfl⟩ := Prod.mk.inj h
    unfold Turn.log
    split <;> exact ⟨rfl, rfl, rfl, rfl⟩

/-- The executor that is given up with its reference gives up all scripts. -/
lemma run_dispose_executor (s : Setting) {m : MemberId} (hm : m.id = reference)
    (hx : w.cells.Executes x) :
    ∃ t₁, Alike w.turn t₁ ∧
      (Upkeep.run s .dispose m w (.reference spec)).turn = (x.clearAll t₁).2.2 := by
  obtain ⟨maker, hfind⟩ := hx
  refine ⟨(w.turn.record (·.moment m .dispose)).record (·.dispose ⟨maker, m, true⟩),
    ⟨rfl, rfl, rfl⟩, ?_⟩
  simp only [Upkeep.run, Upkeep.runReference, Upkeep.record, Cells.take, hm, hfind, spec, dispose,
    Program.run, Program.executeOn]

/-- Where members are disposed of, the executor among them, all scripts are given up at some moment
of the turn. -/
lemma disposeMembers_executor (s : Setting) {L : List (MemberId × Upkeep)}
    (hL : ∀ m other, (m, Upkeep.reference other) ∈ L → m.id = reference ∧ other = spec)
    (hone : ∃ m, (m, Upkeep.reference spec) ∈ L) (hx : w.cells.Executes x) :
    ∃ t₁, Alike w.turn t₁ ∧
      Turn.Course (x.clearAll t₁).2.2 (Iteration.disposeMembers s L w).turn := by
  induction L generalizing w with
  | nil =>
    obtain ⟨m, hm⟩ := hone
    contradiction
  | cons e L ih =>
    obtain ⟨m, u⟩ := e
    have hlater : ∀ m other, (m, Upkeep.reference other) ∈ L → m.id = reference ∧ other = spec :=
      fun m other hmem => hL m other (List.mem_cons_of_mem _ hmem)
    -- A member other than the executor leaves it where it is, and it is among those behind.
    have hgoOn (hcells : (u.run s .dispose m w).cells = w.cells)
        (halike : Alike w.turn (u.run s .dispose m w).turn)
        (hother : u ≠ .reference spec) :
        ∃ t₁, Alike w.turn t₁ ∧
          Turn.Course (x.clearAll t₁).2.2 (Iteration.disposeMembers s ((m, u) :: L) w).turn := by
      have hone' : ∃ m, (m, Upkeep.reference spec) ∈ L := by
        obtain ⟨m', hm'⟩ := hone
        rcases List.mem_cons.mp hm' with heq | hm'
        · exact absurd (congrArg Prod.snd heq).symm hother
        · exact ⟨m', hm'⟩
      obtain ⟨t₁, ht₁, hcourse⟩ := ih (w := u.run s .dispose m w) hlater hone' (hcells ▸ hx)
      exact ⟨t₁, halike.trans ht₁, hcourse⟩
    cases u with
    | none => exact hgoOn rfl ⟨rfl, rfl, rfl⟩ nofun
    | observer o =>
      obtain ⟨hcells, halike⟩ := alike_observer s o m w
      exact hgoOn hcells halike nofun
    | reference other =>
      obtain ⟨hm, rfl⟩ := hL m other List.mem_cons_self
      obtain ⟨t₁, ht₁, hrun⟩ := run_dispose_executor s hm hx
      refine ⟨t₁, ht₁, ?_⟩
      rw [← hrun]
      exact Turn.hookRule_course.disposeMembers s L _

/-- The members of the behavior that hold values are the executor. -/
lemma mem_references {id : String} {other : ReferenceSpec} :
    (id, ReferenceMember.typed other) ∈ members.references ↔ id = reference ∧ other = spec := by
  simp [members]

/-- When the behavior is disposed of all scripts are given up. -/
lemma dispose_executor (s : Setting) (hi : i.members = members) (hx : i.cells.Executes x)
    (t : Turn) :
    ∃ t₁, Alike t t₁ ∧ Turn.Course (x.clearAll t₁).2.2 (i.dispose s t).2 := by
  refine disposeMembers_executor (w := ⟨i.cells, t⟩) s ?_
    ⟨⟨i.number, .reference, reference⟩, ?_⟩ hx
  · intro m other hmem
    obtain ⟨-, hmem⟩ := Iteration.mem_upkeeps.mp hmem
    rw [hi] at hmem
    exact mem_references.mp hmem
  · rw [Iteration.mem_upkeeps, hi]
    exact ⟨rfl, mem_references.mpr ⟨rfl, rfl⟩⟩

/-! ### Another behavior -/

/-- The turn in which a behavior is put in place of a former one, at the moment when its references
have been given their values and the former members have not been disposed of. -/
def prepared (s : Setting) (next former : Iteration) (t : Turn) : Turn :=
  (Iteration.attachReferences s next.number next.members.references former.cells
    ⟨Iteration.carryProperties next.cells former.cells,
      { t with attached := t.attached ++ Named.names next.members.controls }⟩).2.turn

/-- The references of another behavior are given their values in a course of the turn. -/
lemma course_prepared (s : Setting) (next former : Iteration) (t : Turn) :
    Turn.Course t (prepared s next former t) := by
  have hattached : Turn.Course t
      { t with attached := t.attached ++ Named.names next.members.controls } :=
    Turn.hookRule_course.produce rfl rfl rfl List.prefix_rfl
  have hreferences := Turn.hookRule_course.attachReferences s next.number
    next.members.references former.cells ⟨Iteration.carryProperties next.cells former.cells,
      { t with attached := t.attached ++ Named.names next.members.controls }⟩
  exact Turn.hookRule_course.trans hattached hreferences

/-! ### An executor that is not taken over -/

/-- An executor stays where it is while a reference that does not take it over is given its
value. -/
lemma moveValue_executes {id : String} {kind : RefKind} {former : Cells} (cells : Cells)
    (hx : former.Executes x) (hkind : id = reference → kind ≠ .executor) :
    (Iteration.moveValue id kind cells former).2.Executes x := by
  obtain ⟨maker, hfind⟩ := hx
  refine ⟨maker, ?_⟩
  unfold Iteration.moveValue
  match hr : former.references.find? id with
  | none => exact hfind
  | some r =>
    simp only
    split
    · next hsame =>
      have hid : reference ≠ id := by
        rintro rfl
        rw [hfind] at hr
        cases hr
        exact hkind rfl hsame.symm
      unfold Cells.take
      simp only [hr]
      unfold Cells.setReference
      rw [Keyed.find?_insert_of_ne hid]
      exact hfind
    · exact hfind

/-- An executor that is not taken over stays where it is until the former members are disposed
of. -/
lemma attachReferences_executes (s : Setting) (number : ℕ) {rs : Named ReferenceMember}
    {former : Cells} (hx : former.Executes x)
    (hrs : ∀ other, (reference, ReferenceMember.typed other) ∈ rs → other.kind ≠ .executor) :
    (Iteration.attachReferences s number rs former w).1.Executes x := by
  induction rs generalizing former w with
  | nil => exact hx
  | cons e rs ih =>
    obtain ⟨id, r⟩ := e
    have hlater : ∀ other, (reference, ReferenceMember.typed other) ∈ rs →
        other.kind ≠ .executor := fun other hmem => hrs other (List.mem_cons_of_mem _ hmem)
    cases r with
    | observer o => exact ih hx hlater
    | typed other =>
      refine ih (moveValue_executes w.cells hx ?_) hlater
      rintro rfl
      exact hrs other List.mem_cons_self

/-- When a behavior is put in place that does not take the executor over, all scripts are given
up. -/
lemma attach_executor (s : Setting) (hformer : former.members = members)
    (hx : former.cells.Executes x)
    (hnext : ∀ other, (reference, ReferenceMember.typed other) ∈ next.members.references →
      other.kind ≠ .executor) (t : Turn) :
    ∃ t₁, Alike (prepared s next former t) t₁ ∧
      Turn.Course (x.clearAll t₁).2.2 (Iteration.attach s next former t).2 := by
  have hkept := attachReferences_executes
    (w := ⟨Iteration.carryProperties next.cells former.cells,
      { t with attached := t.attached ++ Named.names next.members.controls }⟩) s next.number hx
    hnext
  refine disposeMembers_executor (w := ⟨_, prepared s next former t⟩) s
    (L := Iteration.givenUp next former) ?_ ⟨⟨former.number, .reference, reference⟩, ?_⟩ hkept
  · intro m other hmem
    have hmem' := (Iteration.mem_references_of_mem_givenUp hmem).2
    rw [hformer] at hmem'
    exact mem_references.mp hmem'
  · refine Iteration.mem_givenUp_of_mem ?_ ?_ hnext
    · rw [hformer]
      exact List.nodup_singleton reference
    · rw [hformer]
      exact mem_references.mpr ⟨rfl, rfl⟩

/-! ### An executor that is taken over -/

/-- An executor goes over to a reference that takes it over. -/
lemma moveValue_takes {former : Cells} (hx : former.Executes x) (cells : Cells) :
    (Iteration.moveValue reference .executor cells former).1.Executes x := by
  obtain ⟨maker, hfind⟩ := hx
  refine ⟨maker, ?_⟩
  unfold Iteration.moveValue Cells.take
  simp only [hfind, ↓reduceIte]
  exact Keyed.find?_insert_self ..

/-- An executor stays in its reference while another one is given its value. -/
lemma moveValue_keeps {id : String} {kind : RefKind} {cells : Cells} (hx : cells.Executes x)
    (hid : id ≠ reference) (former : Cells) :
    (Iteration.moveValue id kind cells former).1.Executes x := by
  obtain ⟨maker, hfind⟩ := hx
  refine ⟨maker, ?_⟩
  unfold Iteration.moveValue
  split
  · split
    · unfold Cells.setReference
      rw [← hfind]
      exact Keyed.find?_insert_of_ne hid.symm ..
    · exact hfind
  · exact hfind

/-- A reference that has taken an executor over needs no value. -/
lemma makeValue_of_executes (s : Setting) {m : MemberId} (hm : m.id = reference)
    (other : ReferenceSpec) (hx : w.cells.Executes x) : Iteration.makeValue s m other w = w := by
  unfold Iteration.makeValue
  rw [hm, value?_of_executes hx]
  rfl

/-- An executor stays in its reference while the value of another one is made, if the program for
that spares it. -/
lemma makeValue_keeps (s : Setting) {m : MemberId} (hm : m.id ≠ reference) {other : ReferenceSpec}
    (hinit : other.init.Spares) (hx : w.cells.Executes x) :
    (Iteration.makeValue s m other w).cells.Executes x := by
  have hrun := hinit s w x hx
  unfold Iteration.makeValue
  split
  · exact hx
  · match h : other.init.run s w with
    | (.ok values, w') =>
      rw [h] at hrun
      obtain ⟨maker, hfind⟩ := hrun
      refine ⟨maker, ?_⟩
      change Keyed.find? reference (w'.cells.references.insert m.id _) = _
      rw [Keyed.find?_insert_of_ne hm.symm]
      exact hfind
    | (.error f, w') =>
      rw [h] at hrun
      exact hrun

/-- An executor stays in its reference while others are given their values. -/
lemma attachReferences_keeps (s : Setting) (number : ℕ) {rs : Named ReferenceMember}
    (former : Cells) (hx : w.cells.Executes x) (hrs : reference ∉ Named.names rs)
    (hinit : ∀ id other, (id, ReferenceMember.typed other) ∈ rs → other.init.Spares) :
    (Iteration.attachReferences s number rs former w).2.cells.Executes x := by
  induction rs generalizing former w with
  | nil => exact hx
  | cons e rs ih =>
    obtain ⟨id, r⟩ := e
    have hid : id ≠ reference := fun heq => hrs (heq ▸ List.mem_cons_self)
    have hrest : reference ∉ Named.names rs := fun hmem => hrs (List.mem_cons_of_mem _ hmem)
    have hlater : ∀ id other, (id, ReferenceMember.typed other) ∈ rs → other.init.Spares :=
      fun id other hmem => hinit id other (List.mem_cons_of_mem _ hmem)
    cases r with
    | observer o => exact ih former hx hrest hlater
    | typed other =>
      have hmoved : (Iteration.moveValue id other.kind w.cells former).1.Executes x :=
        moveValue_keeps hx hid former
      have hmade := makeValue_keeps (w := { w with
          cells := (Iteration.moveValue id other.kind w.cells former).1 }) s
        (m := ⟨number, .reference, id⟩) hid (hinit id other List.mem_cons_self) hmoved
      exact ih _ hmade hrest hlater

/-- Among new references the one that takes an executor over has it in the end. -/
lemma attachReferences_takes (s : Setting) (number : ℕ) {rs : Named ReferenceMember}
    {former : Cells} (hx : former.Executes x) (hrs : (Named.names rs).Nodup)
    {taker : ReferenceSpec} (htaker : (reference, ReferenceMember.typed taker) ∈ rs)
    (hkind : taker.kind = .executor)
    (hinit : ∀ id other, (id, ReferenceMember.typed other) ∈ rs → id ≠ reference →
      other.init.Spares) :
    (Iteration.attachReferences s number rs former w).2.cells.Executes x := by
  induction rs generalizing former w with
  | nil => contradiction
  | cons e rs ih =>
    obtain ⟨id, r⟩ := e
    obtain ⟨hfirst, hrest⟩ := List.nodup_cons.mp hrs
    have hlater : ∀ id other, (id, ReferenceMember.typed other) ∈ rs → id ≠ reference →
        other.init.Spares := fun id other hmem => hinit id other (List.mem_cons_of_mem _ hmem)
    rcases List.mem_cons.mp htaker with heq | hlast
    · -- The executor goes over now, and those behind have other names.
      cases heq
      have hmoved := moveValue_takes hx w.cells
      have hmade := makeValue_of_executes (w := { w with
          cells := (Iteration.moveValue reference .executor w.cells former).1 }) s
        (m := ⟨number, .reference, reference⟩) rfl taker hmoved
      unfold Iteration.attachReferences Iteration.attachReference
      simp only [hkind, hmade]
      refine attachReferences_keeps s number _ hmoved hfirst fun id other hmem => ?_
      have hname : id ∈ Named.names rs := List.mem_map_of_mem hmem
      refine hlater id other hmem ?_
      rintro rfl
      exact hfirst hname
    · have hname : reference ∈ Named.names rs := List.mem_map_of_mem hlast
      have hid : id ≠ reference := by
        rintro rfl
        exact hfirst hname
      cases r with
      | observer o => exact ih hx hrest hlast hlater
      | typed other =>
        have hmoved : (Iteration.moveValue id other.kind w.cells former).2.Executes x :=
          moveValue_executes w.cells hx fun heq => absurd heq hid
        exact ih hmoved hrest hlast hlater

/-- Where members are given up that hold no values nothing happens to scripts. -/
lemma disposeMembers_alike (s : Setting) {L : List (MemberId × Upkeep)}
    (hL : ∀ m other, (m, Upkeep.reference other) ∉ L) (w : Workbench) :
    Alike w.turn (Iteration.disposeMembers s L w).turn := by
  induction L generalizing w with
  | nil => exact .refl _
  | cons e L ih =>
    obtain ⟨m, u⟩ := e
    have hlater : ∀ m other, (m, Upkeep.reference other) ∉ L :=
      fun m other hmem => hL m other (List.mem_cons_of_mem _ hmem)
    have hhead : Alike w.turn (u.run s .dispose m w).turn := by
      cases u with
      | none => exact ⟨rfl, rfl, rfl⟩
      | observer o => exact (alike_observer s o m w).2
      | reference other => exact absurd List.mem_cons_self (hL m other)
    exact hhead.trans (ih hlater _)

/-- When a behavior is put in place that takes the executor over, it has the executor as it was, and
nothing more happens than that its references are given their values. -/
lemma attach_carries (s : Setting) (hformer : former.members = members)
    (hx : former.cells.Executes x) (hnext : (Named.names next.members.references).Nodup)
    {taker : ReferenceSpec}
    (htaker : (reference, ReferenceMember.typed taker) ∈ next.members.references)
    (hkind : taker.kind = .executor)
    (hinit : ∀ id other, (id, ReferenceMember.typed other) ∈ next.members.references →
      id ≠ reference → other.init.Spares) (t : Turn) :
    (Iteration.attach s next former t).1.cells.Executes x ∧
      Alike (prepared s next former t) (Iteration.attach s next former t).2 := by
  refine ⟨attachReferences_takes s next.number hx hnext htaker hkind hinit, ?_⟩
  refine disposeMembers_alike s (L := Iteration.givenUp next former) ?_
    ⟨(Iteration.attachReferences s next.number next.members.references former.cells
      ⟨Iteration.carryProperties next.cells former.cells,
        { t with attached := t.attached ++ Named.names next.members.controls }⟩).1,
      prepared s next former t⟩
  intro m other hmem
  obtain ⟨-, hdropped⟩ := Iteration.mem_givenUp.mp hmem
  have hmem' := (Iteration.mem_references_of_mem_givenUp hmem).2
  rw [hformer] at hmem'
  obtain ⟨hid, rfl⟩ := mem_references.mp hmem'
  rw [hid] at hdropped
  have hfind : Named.find? reference next.members.references = some (.typed taker) :=
    Named.find?_of_mem hnext htaker
  rcases hdropped with hrejected | hleft
  · obtain ⟨r, hr, -, htakes⟩ := Iteration.mem_rejected.mp hrejected
    have hsame : r = .typed taker := by
      have hfind' := Named.find?_of_mem hnext hr
      rw [hfind] at hfind'
      exact (Option.some.inj hfind').symm
    subst hsame
    simp [ReferenceMember.takesOver, hkind, spec] at htakes
  · rw [(Iteration.mem_left.mp hleft).2] at hfind
    contradiction

/-- The behavior takes over its own executor, and does nothing more. -/
lemma attach_takesOver (s : Setting) (hnext : next.members = members)
    (hformer : former.members = members) (hx : former.cells.Executes x) (t : Turn) :
    (Iteration.attach s next former t).1.members = members ∧
      (Iteration.attach s next former t).1.cells.Executes x ∧
      Alike t (Iteration.attach s next former t).2 := by
  have hprepared : Alike t (prepared s next former t) := by
    have hmoved := moveValue_takes hx (Iteration.carryProperties next.cells former.cells)
    have hmade := makeValue_of_executes (w := ⟨(Iteration.moveValue reference .executor
        (Iteration.carryProperties next.cells former.cells) former.cells).1,
        { t with attached := t.attached ++ Named.names members.controls }⟩) s
      (m := ⟨next.number, .reference, reference⟩) rfl spec hmoved
    have hturn : prepared s next former t = (Iteration.makeValue s
        ⟨next.number, .reference, reference⟩ spec ⟨(Iteration.moveValue reference .executor
          (Iteration.carryProperties next.cells former.cells) former.cells).1,
          { t with attached := t.attached ++ Named.names members.controls }⟩).turn := by
      unfold prepared
      rw [hnext]
      rfl
    rw [hturn, hmade]
    exact ⟨rfl, rfl, rfl⟩
  have hnames : (Named.names next.members.references).Nodup := by
    rw [hnext]
    exact List.nodup_singleton reference
  have htaker : (reference, ReferenceMember.typed spec) ∈ next.members.references := by
    rw [hnext]
    exact mem_references.mpr ⟨rfl, rfl⟩
  have hinit : ∀ id other, (id, ReferenceMember.typed other) ∈ next.members.references →
      id ≠ reference → other.init.Spares := by
    intro id other hmem hid
    rw [hnext] at hmem
    exact absurd (mem_references.mp hmem).1 hid
  obtain ⟨hexecutes, halike⟩ := attach_carries s hformer hx hnames htaker rfl hinit t
  exact ⟨hnext, hexecutes, hprepared.trans halike⟩

/-! ### An executor that is made -/

/-- The cells of the behavior before it is in place. -/
lemma initialCells_members : Iteration.initialCells members =
    { properties := [], references := [(reference, ⟨.executor, none⟩)] } := by
  rfl

/-- Where there is no executor to take over, the behavior makes a new one. -/
lemma attach_new (s : Setting) (hnext : next.members = members)
    (hcells : next.cells = Iteration.initialCells members)
    (hformer : ∀ r, former.cells.references.find? reference = some r → r.kind = .executor →
      r.holding = none) (t : Turn) :
    (Iteration.attach s next former t).1.members = members ∧
      (Iteration.attach s next former t).1.cells.Executes .new := by
  set cells := Iteration.carryProperties next.cells former.cells with hcarried
  have hempty : cells.references = [(reference, ⟨.executor, none⟩)] := by
    rw [hcarried]
    unfold Iteration.carryProperties
    rw [hcells, initialCells_members]
  have hvacant : (Iteration.moveValue reference .executor cells former.cells).1.value? reference =
      none := by
    have hnothing : cells.value? reference = none := by
      unfold Cells.value?
      rw [hempty]
      rfl
    unfold Iteration.moveValue
    match hfind : former.cells.references.find? reference with
    | none => exact hnothing
    | some r =>
      simp only
      split
      · next hkind =>
        have hholding := hformer r hfind hkind
        unfold Cells.take
        simp only [hfind, hholding]
        unfold Cells.value? Cells.setReference
        rw [Keyed.find?_insert_self]
        rfl
      · exact hnothing
  unfold Iteration.attach
  simp only [hnext, members, Iteration.attachReferences, Iteration.attachReference, spec,
    Iteration.makeValue, ← hcarried, hvacant, Option.isSome_none, Bool.false_eq_true, ↓reduceIte,
    Program.run]
  exact ⟨trivial, _, Keyed.find?_insert_self ..⟩

end Scripting

end Switchboard
