import Mathlib
import Switchboard.Proofs.Custody
import Switchboard.Proofs.Delivery
import Switchboard.Proofs.Origins
import Switchboard.Proofs.Succession

/-!
# Properties that converge

A set of a property carries a time, and only a set that is not older than the last one is heeded.
So in whatever order sets arrive, the property ends with the newest of them, as long as their times
lie within half the range of the clock that wraps around (`Node.sets_converge`); sets of values that
do not fit come to nothing, and other behaviors may follow in between, if they declare the property
with the same shape.

All that happens to a property is brought down to the sets that it receives, one after the other
(`Property.receive`), first for what a program does and then for what happens to a unit
(`Node.Event`).  That the newest one wins is then a matter of a list of sets.
-/

namespace Switchboard

/-! ## Sets -/

/-- A set of a property: the value and the time. -/
structure Write where
  value : Value
  time : Int64

namespace Write

/-- Whether the value of a set can be made to fit a shape. -/
def Fits (shape : Shape) (w : Write) : Prop := (w.value.coerce? shape).isSome

instance (shape : Shape) : DecidablePred (Fits shape) :=
  fun _ => inferInstanceAs (Decidable (_ = true))

/-- Whether a set is the newest of those whose values fit: it comes last on the clock, counted on
from a time before all of them. -/
structure Newest (base : Int64) (shape : Shape) (ws : List Write) (w : Write) : Prop where
  mem : w ∈ ws
  fits : w.Fits shape
  newest : ∀ u ∈ ws, u.Fits shape → (u.time - base).toInt ≤ (w.time - base).toInt

/-- Whether sets can be told apart by their times: those whose values fit have different times,
which lie within half the range of the clock, counted on from some time. -/
structure Apart (base : Int64) (shape : Shape) (ws : List Write) : Prop where
  span : ∀ w ∈ ws, w.Fits shape → InSpan 0 (w.time - base)
  distinct : (ws.filter fun w => w.Fits shape).Pairwise fun u w => u.time ≠ w.time

end Write

namespace Write.Newest

variable {base : Int64} {shape : Shape} {ws ws' : List Write} {u w : Write}

/-- The newest of some sets stays the newest where a set follows that is not newer or fails. -/
lemma concat (h : Newest base shape ws u)
    (hle : w.Fits shape → (w.time - base).toInt ≤ (u.time - base).toInt) :
    Newest base shape (ws ++ [w]) u where
  mem := List.mem_append_left _ h.mem
  fits := h.fits
  newest e he hfits := by
    obtain he | rfl := (List.mem_append.mp he).imp_right List.mem_singleton.mp
    · exact h.newest e he hfits
    · exact hle hfits

/-- A set is the newest where it follows on some that are not newer or fail. -/
lemma concat_self (hw : w.Fits shape)
    (hle : ∀ e ∈ ws, e.Fits shape → (e.time - base).toInt ≤ (w.time - base).toInt) :
    Newest base shape (ws ++ [w]) w where
  mem := List.mem_concat_self
  fits := hw
  newest e he hfits := by
    obtain he | rfl := (List.mem_append.mp he).imp_right List.mem_singleton.mp
    · exact hle e he hfits
    · exact le_rfl

/-- There is one newest set among sets that can be told apart. -/
lemma unique (h : Apart base shape ws) (hu : Newest base shape ws u)
    (hw : Newest base shape ws w) : u = w := by
  have hoffset : u.time - base = w.time - base := Int64.toInt_inj.mp
    (le_antisymm (hw.newest u hu.mem hu.fits) (hu.newest w hw.mem hw.fits))
  have htime : u.time = w.time := by
    have hback (t : Int64) : t - base + base = t := by grind
    rw [← hback u.time, hoffset, hback]
  have : Std.Symm fun u w : Write => u.time ≠ w.time := ⟨fun _ _ hdiff => hdiff.symm⟩
  by_contra hne
  refine h.distinct.forall ?_ ?_ hne htime
  · simpa using ⟨hu.mem, hu.fits⟩
  · simpa using ⟨hw.mem, hw.fits⟩

/-- Sets in another order have the same newest one. -/
lemma perm (h : Newest base shape ws w) (hperm : ws.Perm ws') : Newest base shape ws' w :=
  ⟨hperm.mem_iff.mp h.mem, h.fits, fun u hu => h.newest u (hperm.mem_iff.mpr hu)⟩

end Write.Newest

namespace Property

variable {p : Property} {w : Write} {shape : Shape} {base : Int64} {ws : List Write}

/-- The property after a set, which may come to nothing. -/
def receive (p : Property) (w : Write) : Property :=
  match p.set w.value w.time with
  | .ok (_, q) => q
  | .error _ => p

/-- A set of a value that does not fit comes to nothing. -/
lemma receive_of_not_fits (h : ¬w.Fits p.shape) : p.receive w = p := by
  have hnone : w.value.coerce? p.shape = none := Option.not_isSome_iff_eq_none.mp h
  unfold receive set coerce
  rw [hnone]
  rfl

/-- A set of a value that fits is heeded if it is not older than the last one. -/
lemma receive_of_coerce {v : Value} (h : w.value.coerce? p.shape = some v) :
    p.receive w =
      if p.accepts w.time then { p with value := v, lastSet := some w.time } else p := by
  unfold receive set coerce
  rw [h]
  by_cases haccepts : p.accepts w.time = true
  · simp only [Except.map, if_pos haccepts]
  · simp only [Except.map, if_neg haccepts]

/-- A set does not change the shape. -/
lemma shape_receive (p : Property) (w : Write) : (p.receive w).shape = p.shape := by
  unfold receive
  split
  · rename_i q hset
    rcases set_eq_ok hset with rfl | ⟨hshape, -⟩
    · rfl
    · exact hshape
  · rfl

/-- Sets do not change the shape. -/
lemma shape_foldl_receive (p : Property) (ws : List Write) :
    (ws.foldl receive p).shape = p.shape := by
  induction ws generalizing p with
  | nil => rfl
  | cons w ws ih => exact (ih _).trans (p.shape_receive w)

/-- Between times on the same half of the clock the later one is not older. -/
lemma isLatest_iff {a b : Int64} (ha : InSpan 0 (a - base)) (hb : InSpan 0 (b - base)) :
    isLatest a b = true ↔ (b - base).toInt ≤ (a - base).toInt := by
  have hsub : a - b = a - base - (b - base) := by grind
  rw [isLatest, decide_eq_true_iff, Int64.le_iff_toInt_le, hsub, InSpan.toInt_sub ha hb,
    Int64.toInt_zero]
  omega

/-- What sets come to: nothing if no value fits, and else the newest of them. -/
lemma foldl_receive (hshape : p.shape = shape) (hfresh : p.lastSet = none)
    (hspan : ∀ w ∈ ws, w.Fits shape → InSpan 0 (w.time - base)) :
    ((∀ w ∈ ws, ¬w.Fits shape) ∧ ws.foldl receive p = p) ∨
      ∃ w v, Write.Newest base shape ws w ∧ w.value.coerce? shape = some v ∧
        ws.foldl receive p = { p with value := v, lastSet := some w.time } := by
  induction ws using List.reverseRecOn with
  | nil => exact .inl ⟨fun _ h => absurd h List.not_mem_nil, rfl⟩
  | append_singleton ws w ih =>
    have hbefore := ih fun u hu => hspan u (List.mem_append_left _ hu)
    have hshape' : (ws.foldl receive p).shape = shape := (shape_foldl_receive p ws).trans hshape
    rw [List.foldl_concat]
    generalize ws.foldl receive p = q at hbefore hshape'
    by_cases hfits : w.Fits shape
    · obtain ⟨v, hv⟩ := Option.isSome_iff_exists.mp hfits
      have hw : InSpan 0 (w.time - base) := hspan w List.mem_concat_self hfits
      rw [receive_of_coerce (hshape' ▸ hv)]
      right
      obtain ⟨hnone, rfl⟩ | ⟨u, v', hu, hv', rfl⟩ := hbefore
      · -- the first set whose value fits
        have haccepts : q.accepts w.time = true := by
          unfold accepts
          rw [hfresh]
          rfl
        exact ⟨w, v, .concat_self hfits fun e he hfits' => absurd hfits' (hnone e he), hv,
          if_pos haccepts⟩
      · have hlatest := isLatest_iff hw (hspan u (List.mem_append_left _ hu.mem) hu.fits)
        by_cases haccepts : isLatest w.time u.time = true
        · exact ⟨w, v, .concat_self hfits fun e he hfits' =>
            (hu.newest e he hfits').trans (hlatest.mp haccepts), hv, if_pos haccepts⟩
        · refine ⟨u, v', hu.concat fun _ => ?_, hv', if_neg haccepts⟩
          rw [hlatest] at haccepts
          omega
    · rw [receive_of_not_fits (hshape' ▸ hfits)]
      obtain ⟨hnone, rfl⟩ | ⟨u, v, hu, hv, rfl⟩ := hbefore
      · refine .inl ⟨fun e he => ?_, rfl⟩
        obtain he | rfl := (List.mem_append.mp he).imp_right List.mem_singleton.mp
        · exact hnone e he
        · exact hfits
      · exact .inr ⟨u, v, hu.concat fun hfits' => absurd hfits' hfits, hv, rfl⟩

/-- Sets that can be told apart come to the same in any order. -/
lemma foldl_receive_perm {ws' : List Write} (hperm : ws.Perm ws') (hshape : p.shape = shape)
    (hfresh : p.lastSet = none) (hapart : Write.Apart base shape ws) :
    ws.foldl receive p = ws'.foldl receive p := by
  have hspan' : ∀ w ∈ ws', w.Fits shape → InSpan 0 (w.time - base) :=
    fun w hw => hapart.span w (hperm.mem_iff.mpr hw)
  obtain ⟨hnone, heq⟩ | ⟨w, v, hw, hv, heq⟩ := foldl_receive hshape hfresh hapart.span
  · obtain ⟨-, heq'⟩ | ⟨w', v', hw', -, -⟩ := foldl_receive hshape hfresh hspan'
    · exact heq.trans heq'.symm
    · exact absurd hw'.fits (hnone w' (hperm.mem_iff.mpr hw'.mem))
  · obtain ⟨hnone', -⟩ | ⟨w', v', hw', hv', heq'⟩ := foldl_receive hshape hfresh hspan'
    · exact absurd hw.fits (hnone' w (hperm.mem_iff.mp hw.mem))
    · obtain rfl : w' = w := (hw'.perm hperm.symm).unique hapart hw
      obtain rfl : v' = v := Option.some_inj.mp (hv'.symm.trans hv)
      exact heq.trans heq'.symm

end Property

/-! ## Programs that set a property -/

namespace Program

/-- The sets of a property that a program makes, each with its time unless it goes without. -/
def setsOf (id : String) (s : Setting) : Program → Workbench → List (Value × Option Int64)
  | .done _, _ => []
  | .look next, w => setsOf id s (next s w.turn.attached) w
  | .request target source time args next, w =>
    let (c, ledger) := w.turn.ledger.request target source time args
    setsOf id s (next c) { w with turn := { w.turn with ledger := ledger }.send c }
  | .quiet target source time args next, w =>
    let (c, ledger) := w.turn.ledger.quiet target source time args
    setsOf id s (next c) { w with turn := { w.turn with ledger := ledger }.send c }
  | .reply c args next, w =>
    let (r, turn) := answerOn w.turn c .reply args
    setsOf id s (next r) { w with turn := turn }
  | .error c args next, w =>
    let (r, turn) := answerOn w.turn c .error args
    setsOf id s (next r) { w with turn := turn }
  | .emit port values next, w => setsOf id s next { w with turn := w.turn.emit port values }
  | .log always level message next, w =>
    let turn := if always then w.turn.logAlways s level message else w.turn.log s level message
    setsOf id s next { w with turn := turn }
  | .note tag values next, w =>
    setsOf id s next { w with turn := w.turn.note (.values s.address tag values) }
  | .noteCall tag c next, w =>
    setsOf id s next
      { w with turn := w.turn.note (.call s.address tag c (w.turn.ledger.isAnswered c)) }
  | .getProperty other next, w => setsOf id s (next (w.cells.property? other)) w
  | .setProperty other v time next, w =>
    let (r, cells) := setOn w.cells other v time
    let rest := setsOf id s (next r) { w with cells := cells }
    if other = id then (v, time) :: rest else rest
  | .getReference other next, w => setsOf id s (next (w.cells.value? other)) w
  | .setReference other v next, w => setsOf id s next { w with cells := w.cells.write other v }
  | .execute x task next, w =>
    let (r, x, turn) := executeOn s x task w.turn
    setsOf id s (next r x) { w with turn := turn }

variable {id other : String} {c : Cells}

/-- A set at a time is received by the property. -/
lemma property?_setOn_self {p : Property} (hp : c.property? id = some p) (w : Write) :
    (setOn c id w.value (some w.time)).2.property? id = some (p.receive w) := by
  unfold setOn Property.receive
  rw [hp]
  simp only
  split
  · rename_i f hset
    rw [hset]
    exact hp
  · rename_i accepted q hset
    rw [hset]
    exact Keyed.find?_insert_self id q c.properties

/-- A set that fails changes nothing. -/
lemma setOn_of_error {v : Value} {time : Option Int64} {f : Fault}
    (h : (setOn c id v time).1 = .error f) : (setOn c id v time).2 = c := by
  unfold setOn at h ⊢
  split
  · rfl
  · split
    · rfl
    · simp_all
  · split
    · rfl
    · simp_all

/-- A set of another property is none of this one. -/
lemma property?_setOn_of_ne (hother : other ≠ id) (c : Cells) (v : Value) (time : Option Int64) :
    (setOn c other v time).2.property? id = c.property? id := by
  have hinsert (q : Property) : (c.setProperty other q).property? id = c.property? id :=
    Keyed.find?_insert_of_ne hother.symm q c.properties
  unfold setOn
  split
  · rfl
  · split
    · rfl
    · exact hinsert _
  · split
    · rfl
    · exact hinsert _

/-- When a program that sets a property at times has run, the property has received these sets. -/
lemma property?_run (id : String) (s : Setting) (prog : Program) {w : Workbench} {p : Property}
    {ws : List Write} (hp : w.cells.property? id = some p)
    (hsets : prog.setsOf id s w = ws.map fun e => (e.value, some e.time)) :
    (prog.run s w).2.cells.property? id = some (ws.foldl Property.receive p) := by
  induction prog generalizing w p ws with
  | done result =>
    obtain rfl : ws = [] := List.map_eq_nil_iff.mp hsets.symm
    exact hp
  | look next ih => exact ih s w.turn.attached hp hsets
  | request target source time args next ih => exact ih _ hp hsets
  | quiet target source time args next ih => exact ih _ hp hsets
  | reply c args next ih => exact ih _ hp hsets
  | error c args next ih => exact ih _ hp hsets
  | emit port values next ih => exact ih hp hsets
  | log always level message next ih => exact ih hp hsets
  | note tag values next ih => exact ih hp hsets
  | noteCall tag c next ih => exact ih hp hsets
  | getProperty other next ih => exact ih _ hp hsets
  | setProperty other v time next ih =>
    unfold setsOf at hsets
    by_cases hother : other = id
    · subst hother
      simp only [if_true] at hsets
      obtain ⟨e, rest, rfl, he, hrest⟩ := List.map_eq_cons_iff.mp hsets.symm
      cases he
      rw [List.foldl_cons]
      exact ih _ (property?_setOn_self hp e) hrest.symm
    · simp only [if_neg hother] at hsets
      exact ih _ ((property?_setOn_of_ne hother w.cells v time).trans hp) hsets
  | getReference other next ih => exact ih _ hp hsets
  | setReference other v next ih =>
    refine ih (w := { w with cells := w.cells.write other v }) ?_ hsets
    rw [← hp]
    exact congrArg (Keyed.find? id) (w.cells.properties_write other v)
  | execute x task next ih => exact ih _ _ hp hsets

end Program

/-! ## Behaviors that leave a property alone -/

/-- Whether a program never sets a property. -/
def Program.Leaves (id : String) (prog : Program) : Prop := ∀ s w, prog.setsOf id s w = []

/-- Whether a reference never sets a property, neither when its value is made nor later. -/
structure ReferenceSpec.Leaves (id : String) (spec : ReferenceSpec) : Prop where
  init : spec.init.Leaves id
  hook : ∀ h handler, spec.hook h = some handler → ∀ v, (handler v).Leaves id

/-- Whether no reference of a behavior ever sets a property. -/
def Members.Leaves (id : String) (m : Members) : Prop :=
  ∀ name spec, (name, .typed spec) ∈ m.references → spec.Leaves id

section

variable {id : String} {p : Property} {w : Workbench}

/-- A program that never sets a property leaves it as it is. -/
lemma Program.Leaves.property? {prog : Program} (h : prog.Leaves id) (s : Setting)
    (hp : w.cells.property? id = some p) : (prog.run s w).2.cells.property? id = some p :=
  property?_run id s prog hp ((h s w).trans List.map_nil.symm)

namespace Upkeep

/-- A program whose failure is reported. -/
lemma property?_runReported {prog : Program} (h : prog.Leaves id) (s : Setting)
    (what name : String) (hp : w.cells.property? id = some p) :
    (runReported s what name prog w).cells.property? id = some p := by
  have hrun := h.property? s hp
  unfold runReported
  split
  · rename_i hresult
    rw [hresult] at hrun
    exact hrun
  · rename_i hresult
    rw [hresult] at hrun
    exact hrun

/-- A moment in the life of a reference. -/
lemma property?_runReference {spec : ReferenceSpec} (hspec : spec.Leaves id) (s : Setting)
    (h : Hook) (m : MemberId) (hp : w.cells.property? id = some p) :
    (runReference s h m spec w).cells.property? id = some p := by
  have htake : (w.cells.take m.id).2.property? id = some p :=
    (congrArg (Keyed.find? id) (w.cells.properties_take m.id)).trans hp
  unfold runReference
  cases h with
  | dispose =>
    simp only
    split
    · rename_i handler hhandler
      exact (hspec.hook _ _ hhandler _).property? s htake
    · exact htake
    · exact htake
  | _ =>
    simp only
    split
    · rename_i handler _ hhandler
      exact property?_runReported (hspec.hook _ _ hhandler _) s _ _ hp
    · exact hp

/-- A moment in the life of a member. -/
lemma property?_run {u : Upkeep} (hu : ∀ spec, u = .reference spec → spec.Leaves id) (s : Setting)
    (h : Hook) (m : MemberId) (hp : w.cells.property? id = some p) :
    (u.run s h m w).cells.property? id = some p := by
  cases u with
  | none => exact hp
  | observer o =>
    exact property?_runReported (fun _ _ => rfl) s _ _
      (w := record w (·.moment m h)) hp
  | reference spec =>
    exact property?_runReference (hu spec rfl) s h m (w := record w (·.moment m h)) hp

end Upkeep

namespace Iteration

/-- The making of a value. -/
lemma property?_makeValue {spec : ReferenceSpec} (hspec : spec.Leaves id) (s : Setting)
    (m : MemberId) (hp : w.cells.property? id = some p) :
    (makeValue s m spec w).cells.property? id = some p := by
  have hrun := hspec.init.property? s hp
  unfold makeValue
  split
  · exact hp
  · split
    · rename_i hresult
      rw [hresult] at hrun
      exact hrun
    · rename_i hresult
      rw [hresult] at hrun
      exact hrun

/-- The arrival of references. -/
lemma property?_attachReferences {rs : Named ReferenceMember}
    (hrs : ∀ name spec, (name, .typed spec) ∈ rs → spec.Leaves id) (s : Setting) (number : ℕ)
    (former : Cells) (hp : w.cells.property? id = some p) :
    (attachReferences s number rs former w).2.cells.property? id = some p := by
  induction rs generalizing former w with
  | nil => exact hp
  | cons e rest ih =>
    obtain ⟨name, r⟩ := e
    refine ih (fun name spec hmem => hrs name spec (List.mem_cons_of_mem _ hmem)) _ ?_
    cases r with
    | observer o => exact hp
    | typed spec =>
      have hmove : (moveValue name spec.kind w.cells former).1.property? id = some p := by
        obtain ⟨r, -, -, heq⟩ | ⟨-, heq⟩ := moveValue_eq name spec.kind w.cells former
        · rw [heq]
          exact hp
        · rw [heq]
          exact hp
      exact property?_makeValue (hrs name spec List.mem_cons_self) s _
        (w := { w with cells := (moveValue name spec.kind w.cells former).1 }) hmove

/-- A moment in the life of all members. -/
lemma property?_runHook {i : Iteration} (hi : i.members.Leaves id) (s : Setting) (h : Hook)
    (t : Turn) (hp : i.cells.property? id = some p) :
    (i.runHook s h t).1.cells.property? id = some p := by
  have hfold (es : List (MemberId × Upkeep))
      (hes : ∀ e ∈ es, ∀ spec, e.2 = .reference spec → spec.Leaves id) (w : Workbench)
      (hw : w.cells.property? id = some p) :
      (es.foldl (fun w e => e.2.run s h e.1 w) w).cells.property? id = some p := by
    induction es generalizing w with
    | nil => exact hw
    | cons e es ih =>
      exact ih (fun e he => hes e (List.mem_cons_of_mem _ he)) _
        (Upkeep.property?_run (hes e List.mem_cons_self) s h e.1 hw)
  refine hfold i.upkeeps (fun e he spec hspec => ?_) ⟨i.cells, t⟩ hp
  obtain ⟨m, u⟩ := e
  subst hspec
  exact hi m.id spec (mem_upkeeps.mp he).2

end Iteration

end

/-! ## What happens to a unit -/

namespace Node

/-- Whether a unit has a property of a name and shape, and in what state it is. -/
structure Offers (id : String) (shape : Shape) (n : Node) (p : Property) : Prop where
  declared : ∃ default,
    Named.find? id n.iteration.members.controls = some (.property shape default)
  property : n.iteration.cells.property? id = some p
  shape : p.shape = shape

namespace Offers

variable {id : String} {shape : Shape} {n : Node} {p : Property}

/-- A moment in the life of a behavior that leaves the property alone. -/
lemma runHook (h : n.Offers id shape p) (hleaves : n.iteration.members.Leaves id) (s : Setting)
    (hook : Hook) (t : Turn) : (n.runHook s hook t).1.Offers id shape p :=
  ⟨h.declared, Iteration.property?_runHook hleaves s hook t h.property, h.shape⟩

/-- Becoming active. -/
lemma activate (h : n.Offers id shape p) (hleaves : n.iteration.members.Leaves id) (s : Setting)
    (t : Turn) : (n.activate s t).1.Offers id shape p := by
  have hinit := h.runHook hleaves s .init t
  have hstart := hinit.runHook hleaves s .start (n.runHook s .init t).2
  unfold Node.activate
  simp only
  split
  · exact hinit
  · exact ⟨hstart.declared, hstart.property, hstart.shape⟩

/-- Another behavior that declares the property with the same shape and leaves it alone. -/
lemma install (h : n.Offers id shape p) {b : Behavior} {i : Iteration} {default : Value}
    (hi : Iteration.ofBehavior b = .ok i)
    (hdeclared : Named.find? id i.members.controls = some (.property shape default))
    (hleaves : i.members.Leaves id) (s : Setting) (number : ℕ) (active : Bool) (t : Turn) :
    (n.install s { i with number := number } active t).1.Offers id shape p := by
  obtain ⟨-, hdistinct, hcells⟩ := Iteration.ofBehavior_eq_ok hi
  have hinitial : i.cells.property? id = some { shape := shape, value := default } := by
    rw [hcells]
    exact (Iteration.property?_initialCells hdistinct).mpr ⟨shape, default, hdeclared, rfl⟩
  have hcarried : (Iteration.carryProperties i.cells n.iteration.cells).property? id = some p := by
    rw [Iteration.property?_carryProperties, hinitial, Option.map_some, Iteration.carryProperty,
      h.property]
    simp only [h.shape, if_true]
  have hsucceed : (n.succeed s { i with number := number } t).1.Offers id shape p :=
    ⟨⟨default, hdeclared⟩,
      Iteration.property?_attachReferences hleaves s number n.iteration.cells hcarried, h.shape⟩
  rw [install_eq]
  split
  · exact hsucceed.activate hleaves s _
  · exact hsucceed

/-- A call that sets the property. -/
lemma invoke (h : n.Offers id shape p) (s : Setting) {c : Call} (t : Turn)
    (hrequest : c.isRequest = true) (hargs : c.args ≠ []) (htarget : c.target.id.text = id) :
    (n.invoke s c t).2.1.Offers id shape (p.receive ⟨Iteration.argsValue c.args, c.time⟩) := by
  obtain ⟨default, hdeclared⟩ := h.declared
  have hset := Program.property?_setOn_self h.property ⟨Iteration.argsValue c.args, c.time⟩
  have hcall : (Iteration.callProperty id c ⟨n.iteration.cells, t⟩).2.cells.property? id =
      some (p.receive ⟨Iteration.argsValue c.args, c.time⟩) := by
    have hempty : c.args.isEmpty = false := by rwa [← Bool.not_eq_true, List.isEmpty_iff]
    unfold Iteration.callProperty
    simp only [hrequest, hempty, Bool.not_true, Bool.false_eq_true, if_false]
    split
    · rename_i f hresult
      rwa [Program.setOn_of_error hresult] at hset
    · exact hset
  have hinvoke : (n.invoke s c t).2.1.iteration =
      { n.iteration with
        cells := (Iteration.callProperty id c ⟨n.iteration.cells, t⟩).2.cells } := by
    unfold Node.invoke Iteration.invoke
    rw [htarget, hdeclared]
    rfl
  refine ⟨⟨default, ?_⟩, ?_, (p.shape_receive _).trans h.shape⟩
  · rw [hinvoke]
    exact hdeclared
  · rw [hinvoke]
    exact hcall

end Offers

/-- What happens to a unit with a property, as far as the property is concerned, with the sets that
the property receives thereby. -/
inductive Event (id : String) (shape : Shape) : Node → List Write → Node → Prop
  /-- A call with arguments sets the property, however it is answered. -/
  | call (n : Node) (s : Setting) (c : Call) (t : Turn) (hrequest : c.isRequest = true)
    (hargs : c.args ≠ []) (htarget : c.target.id.text = id) :
    Event id shape n [⟨Iteration.argsValue c.args, c.time⟩] (n.invoke s c t).2.1
  /-- A program of the behavior runs and sets the property some times. -/
  | run (n : Node) (s : Setting) (prog : Program) (t : Turn) (ws : List Write)
    (hsets : prog.setsOf id s ⟨n.iteration.cells, t⟩ = ws.map fun w => (w.value, some w.time)) :
    Event id shape n ws { n with iteration :=
      { n.iteration with cells := (prog.run s ⟨n.iteration.cells, t⟩).2.cells } }
  /-- Another behavior takes the place of the one before. -/
  | swap (n : Node) (s : Setting) (b : Behavior) (i : Iteration) (default : Value) (number : ℕ)
    (active : Bool) (t : Turn) (hi : Iteration.ofBehavior b = .ok i)
    (hdeclared : Named.find? id i.members.controls = some (.property shape default))
    (hleaves : i.members.Leaves id) :
    Event id shape n [] (n.install s { i with number := number } active t).1
  /-- Anything else, which has nothing to do with the property. -/
  | aside (n m : Node) (hproperty : m.iteration.cells.property? id = n.iteration.cells.property? id)
    (hdeclared : Named.find? id m.iteration.members.controls =
      Named.find? id n.iteration.members.controls) : Event id shape n [] m

/-- Whether a unit comes from another by events, with the sets that the property has received on the
way, in their order. -/
inductive Evolves (id : String) (shape : Shape) : Node → List Write → Node → Prop
  | refl (n : Node) : Evolves id shape n [] n
  | step {n m o : Node} {ws vs : List Write} (h : Evolves id shape n ws m)
    (hstep : Event id shape m vs o) : Evolves id shape n (ws ++ vs) o

section

variable {id : String} {shape : Shape} {n m : Node} {p : Property} {ws : List Write}

/-- Whatever happens, the property receives the sets. -/
lemma Offers.event (h : n.Offers id shape p) (hevent : Event id shape n ws m) :
    m.Offers id shape (ws.foldl Property.receive p) := by
  cases hevent with
  | call s c t hrequest hargs htarget => exact h.invoke s t hrequest hargs htarget
  | run s prog t ws hsets =>
    exact ⟨h.declared, Program.property?_run id s prog h.property hsets,
      (p.shape_foldl_receive ws).trans h.shape⟩
  | swap s b i default number active t hi hdeclared hleaves =>
    exact h.install hi hdeclared hleaves s number active t
  | aside m hproperty hdeclared =>
    exact ⟨hdeclared ▸ h.declared, hproperty.trans h.property, h.shape⟩

/-- After any history the property has received all sets. -/
lemma Offers.evolves (h : n.Offers id shape p) (hevolves : Evolves id shape n ws m) :
    m.Offers id shape (ws.foldl Property.receive p) := by
  induction hevolves with
  | refl => exact h
  | step _ hstep ih =>
    rw [List.foldl_append]
    exact ih.event hstep

end

/-- **Properties converge.**  A set of a value that does not fit changes neither the value nor the
stamp of a property.  When a property that was never set has received some sets, in whatever order,
and whatever behaviors with the property have followed each other in between, it has the value and
the stamp of the newest set of a value that fits; there is one such set if the times of these sets
are different and lie within half the range of the clock.  So the same sets in another order leave
the same. -/
theorem sets_converge (id : String) (shape : Shape) :
    (∀ n m w p, Event id shape n [w] m → n.Offers id shape p → ¬w.Fits shape →
      m.Offers id shape p) ∧
    (∀ n m ws p base, Evolves id shape n ws m → n.Offers id shape p → p.lastSet = none →
      Write.Apart base shape ws → ∃ q, m.Offers id shape q ∧
        ((∀ w ∈ ws, ¬w.Fits shape) → q = p) ∧
        ((∃ w ∈ ws, w.Fits shape) → ∃ w, Write.Newest base shape ws w ∧
          (∀ u, Write.Newest base shape ws u → u = w) ∧
            w.value.coerce? shape = some q.value ∧ q.lastSet = some w.time)) ∧
    ∀ n m n' m' ws ws' p base, Evolves id shape n ws m → Evolves id shape n' ws' m' →
      ws.Perm ws' → n.Offers id shape p → n'.Offers id shape p → p.lastSet = none →
        Write.Apart base shape ws → ∃ q, m.Offers id shape q ∧ m'.Offers id shape q := by
  refine ⟨fun n m w p hevent hp hfits => ?_, fun n m ws p base hevolves hp hfresh hapart => ?_,
    fun n m n' m' ws ws' p base hevolves hevolves' hperm hp hp' hfresh hapart => ?_⟩
  · have hafter := hp.event hevent
    rwa [List.foldl_cons, List.foldl_nil, Property.receive_of_not_fits (hp.shape.symm ▸ hfits)]
      at hafter
  · refine ⟨_, hp.evolves hevolves, ?_⟩
    obtain ⟨hnone, heq⟩ | ⟨w, v, hw, hv, heq⟩ :=
      Property.foldl_receive hp.shape hfresh hapart.span
    · rw [heq]
      exact ⟨fun _ => rfl, fun ⟨w, hmem, hfits⟩ => absurd hfits (hnone w hmem)⟩
    · rw [heq]
      exact ⟨fun hnone => absurd hw.fits (hnone w hw.mem),
        fun _ => ⟨w, hw, fun u hu => hu.unique hapart hw, hv, rfl⟩⟩
  · refine ⟨_, hp.evolves hevolves, ?_⟩
    rw [Property.foldl_receive_perm hperm hp.shape hfresh hapart]
    exact hp'.evolves hevolves'

/-- A unit with a level that was never set. -/
def dial : Node where
  address := ⟨⟨"board", by decide⟩, []⟩
  parent := none
  kind := .component
  typeName := "dial"
  iteration :=
    { members := { controls := [("level", .property .int (.int 0))] }
      cells := { properties := [("level", { shape := .int, value := .int 0 })] } }

/-- A request that sets the level. -/
def levelCall (w : Write) : Call where
  matchId := 0
  source := none
  target := ⟨dial.address, ⟨"level", by decide⟩⟩
  time := w.time
  kind := .quiet
  args := [w.value]

/-- A unit whose level is set. -/
def setLevel (n : Node) (w : Write) : Node :=
  (n.invoke Iteration.plain (levelCall w) { ledger := {} }).2.1

/-- A set of the level is an event. -/
lemma Event.setLevel (n : Node) (w : Write) : Event "level" .int n [w] (n.setLevel w) :=
  .call n Iteration.plain (levelCall w) { ledger := {} } rfl nofun rfl

/-- The iteration of another behavior with a level. -/
def renewal : Iteration where
  members := { controls := [("level", .property .int (.int 5))] }
  cells := { properties := [("level", { shape := .int, value := .int 5 })] }

/-- A unit whose behavior is replaced. -/
def renew (n : Node) : Node :=
  (n.install Iteration.plain { renewal with number := 1 } true { ledger := {} }).1

/-- The replacement of a behavior by another one with a level is an event. -/
lemma Evolves.renew {n m : Node} {ws : List Write} (h : Evolves "level" .int n ws m) :
    Evolves "level" .int n ws m.renew := by
  have hi : Iteration.ofBehavior [.control "level" (.property .int (.int 5))] = .ok renewal := by
    rfl
  rw [← List.append_nil ws]
  exact h.step (.swap m Iteration.plain _ renewal (.int 5) 1 true { ledger := {} } hi rfl nofun)

/-- The sets of a level around the end of the clock, the newest one first, and one that fails. -/
def late : List Write :=
  [⟨.int 2, Int64.minValue⟩, ⟨.int 1, Int64.maxValue⟩, ⟨.text "x", Int64.minValue + 1⟩]

/-- The text comes to nothing.  Whether the newest set arrives first or last, and whether another
behavior follows before the rest or after it, the level has the value and the time of this set. -/
theorem sets_converge_wrapped :
    let after := ((((dial.setLevel ⟨.int 2, Int64.minValue⟩).renew).setLevel
      ⟨.int 1, Int64.maxValue⟩).setLevel ⟨.text "x", Int64.minValue + 1⟩)
    let after' := (((dial.setLevel ⟨.text "x", Int64.minValue + 1⟩).setLevel
      ⟨.int 1, Int64.maxValue⟩).setLevel ⟨.int 2, Int64.minValue⟩).renew
    Evolves "level" .int dial late after ∧ Evolves "level" .int dial late.reverse after' ∧
      Write.Apart Int64.maxValue .int late ∧
      (dial.setLevel ⟨.text "x", Int64.minValue + 1⟩).Offers "level" .int
        { shape := .int, value := .int 0 } ∧
      ∃ q, after.Offers "level" .int q ∧ after'.Offers "level" .int q ∧
        q.value = .int 2 ∧ q.lastSet = some Int64.minValue := by
  intro after after'
  have hafter : Evolves "level" .int dial late after :=
    (((((Evolves.refl dial).step (.setLevel ..)).renew).step (.setLevel ..)).step (.setLevel ..))
  have hafter' : Evolves "level" .int dial late.reverse after' :=
    ((((Evolves.refl dial).step (.setLevel ..)).step (.setLevel ..)).step (.setLevel ..)).renew
  have hdial : dial.Offers "level" .int { shape := .int, value := .int 0 } :=
    ⟨⟨.int 0, rfl⟩, rfl, rfl⟩
  have hapart : Write.Apart Int64.maxValue .int late := ⟨by decide, by decide⟩
  obtain ⟨hfails, hnewest, hperm⟩ := sets_converge "level" .int
  obtain ⟨q, hq, hq'⟩ :=
    hperm _ _ _ _ _ _ _ _ hafter hafter' (List.reverse_perm late).symm hdial hdial rfl hapart
  obtain ⟨q', hq'', -, hset⟩ := hnewest _ _ _ _ _ hafter hdial rfl hapart
  obtain rfl : q = q' := Option.some_inj.mp (hq.property.symm.trans hq''.property)
  have hmem : (⟨.int 2, Int64.minValue⟩ : Write) ∈ late := List.mem_cons_self
  obtain ⟨w, -, hunique, hvalue, hstamp⟩ := hset ⟨_, hmem, by decide⟩
  obtain rfl := hunique _ ⟨hmem, by decide, by decide⟩
  exact ⟨hafter, hafter', hapart,
    hfails _ _ ⟨.text "x", Int64.minValue + 1⟩ _ (.setLevel ..) hdial (by decide),
    q, hq, hq', (Option.some_inj.mp hvalue).symm, hstamp⟩

end Node

end Switchboard
