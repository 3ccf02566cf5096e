import Mathlib
import Switchboard.FrameStack

/-!
# Scripts that run alike

Scripts do not see the numbers of scopes and of calls.  Two stacks of frames are alike
(`FrameStack.Alike`) when they differ in such numbers only, and when they are run, each in a
workspace of its own, they stay alike and have the same effects (`FrameStack.run_alike`): they send
the same calls up to the numbers of these, and write the same log lines.

Which scopes of one workspace stand for which of the other is a `Likeness`, which match ids stand
for which is a `Renaming`.  Both grow while scripts run (`Likeness.Grows`, `Renaming.Grows`), by
scopes and numbers that did not exist before.  What a script does not own is not changed
(`Likeness.Grows.kept`); for this it is compared with itself.
-/

namespace Switchboard

/-! ## Renamings -/

/-- Which match ids of one ledger stand for which of another one. -/
abbrev Renaming := ℕ → ℕ → Prop

/-- Calls that differ in their numbers only, of which one stands for the other. -/
inductive Call.Alike (R : Renaming) (c : Call) : Call → Prop
  | intro {number : ℕ} (h : R c.matchId number) : c.Alike R { c with matchId := number }

/-- The renaming with two more numbers, one for each ledger. -/
def Renaming.withNumber (R : Renaming) (i j : ℕ) : Renaming := fun k l => R k l ∨ k = i ∧ l = j

/-- How a renaming grows while two ledgers give out numbers for calls that are sent.  Each number
that is added was given out for one of these calls, and both ledgers have given out as many. -/
structure Renaming.Grows (R S : Renaming) (l l' m m' : Ledger) (cs cs' : List Call) : Prop where
  le : R ≤ S
  calls : List.Forall₂ (Call.Alike S) cs cs'
  fresh : ∀ {i j}, S i j → R i j ∨
    l.nextId ≤ i ∧ i < m.nextId ∧ i + l'.nextId = j + l.nextId ∧ ∃ c ∈ cs, c.matchId = i
  later : l.nextId ≤ m.nextId
  offset : m.nextId + l'.nextId = m'.nextId + l.nextId

section Renaming

variable {R S T : Renaming} {c c' : Call} {l l' m m' n n' : Ledger} {cs cs' ds ds' : List Call}

/-- Calls stay alike when the renaming grows. -/
lemma Call.Alike.mono (h : c.Alike R c') (hle : R ≤ S) : c.Alike S c' := by
  obtain ⟨hnumber⟩ := h
  exact ⟨hle _ _ hnumber⟩

/-- The numbers of calls that are alike. -/
lemma Call.Alike.number (h : c.Alike R c') : R c.matchId c'.matchId := by
  obtain ⟨hnumber⟩ := h
  exact hnumber

namespace Renaming.Grows

/-- No number is given out. -/
lemma nothing (hl : m.nextId = l.nextId) (hl' : m'.nextId = l'.nextId) :
    Grows R R l l' m m' [] [] where
  le := le_refl R
  calls := .nil
  fresh := .inl
  later := hl.ge
  offset := by omega

/-- Numbers are given out in several stages. -/
lemma trans (h : Grows R S l l' m m' cs cs') (h' : Grows S T m m' n n' ds ds') :
    Grows R T l l' n n' (cs ++ ds) (cs' ++ ds') where
  le := h.le.trans h'.le
  calls := List.rel_append (h.calls.imp fun _ _ hc => hc.mono h'.le) h'.calls
  fresh := by
    intro i j hij
    have hm := h.later
    have hn := h'.later
    have hsame := h.offset
    rcases h'.fresh hij with hold | ⟨hlater, hbound, hoffset, c, hc, hnumber⟩
    · rcases h.fresh hold with hold | ⟨hlater, hbound, hoffset, c, hc, hnumber⟩
      · exact .inl hold
      · exact .inr ⟨hlater, by omega, hoffset, c, List.mem_append_left ds hc, hnumber⟩
    · exact .inr ⟨by omega, hbound, by omega, c, List.mem_append_right cs hc, hnumber⟩
  later := h.later.trans h'.later
  offset := by
    have hfirst := h.offset
    have hsecond := h'.offset
    omega

/-- Each ledger gives out a number for a request. -/
lemma request (R : Renaming) (l l' : Ledger) (target source : Endpoint) (time : Int64)
    (args : List Value) :
    Grows R (R.withNumber l.nextId l'.nextId) l l'
      (l.request target source time args).2 (l'.request target source time args).2
      [(l.request target source time args).1] [(l'.request target source time args).1] where
  le _ _ := .inl
  calls := .cons ⟨.inr ⟨rfl, rfl⟩⟩ .nil
  fresh := by
    rintro i j (hold | ⟨rfl, rfl⟩)
    · exact .inl hold
    · exact .inr ⟨le_refl _, Nat.lt_succ_self _, Nat.add_comm .., _, List.mem_singleton_self _, rfl⟩
  later := Nat.le_succ _
  offset := by
    change l.nextId + 1 + l'.nextId = l'.nextId + 1 + l.nextId
    omega

/-- Where numbers have been given out already, no number that is added has been. -/
lemma bounds (h : Grows R S l l' m m' cs cs')
    (hR : ∀ {i j}, R i j → i < l.nextId ∧ j < l'.nextId) {i j : ℕ} (hij : S i j) :
    i < m.nextId ∧ j < m'.nextId := by
  have hlater := h.later
  have hoffset := h.offset
  rcases h.fresh hij with hold | ⟨-, hbound, hsame, -⟩
  · have hbefore := hR hold
    omega
  · omega

/-- No number that is added stands for two. -/
lemma biUnique (h : Grows R S l l' m m' cs cs') (hunique : Relator.BiUnique R)
    (hR : ∀ {i j}, R i j → i < l.nextId ∧ j < l'.nextId) : Relator.BiUnique S := by
  constructor
  · intro i j k hij hkj
    rcases h.fresh hij with hold | ⟨hlater, -, hsame, -⟩ <;>
      rcases h.fresh hkj with hold' | ⟨hlater', -, hsame', -⟩
    · exact hunique.1 hold hold'
    · have hbound := hR hold
      omega
    · have hbound := hR hold'
      omega
    · omega
  · intro i j k hij hik
    rcases h.fresh hij with hold | ⟨hlater, -, hsame, -⟩ <;>
      rcases h.fresh hik with hold' | ⟨hlater', -, hsame', -⟩
    · exact hunique.2 hold hold'
    · have hbound := hR hold
      omega
    · have hbound := hR hold'
      omega
    · omega

end Renaming.Grows

/-- Numbers that stand for each other have the same place in lists whose members do so. -/
lemma idxOf_eq_of_forall₂ (hunique : Relator.BiUnique R) {ids ids' : List ℕ}
    (h : List.Forall₂ R ids ids') {i j : ℕ} (hij : R i j) : ids.idxOf i = ids'.idxOf j := by
  induction h with
  | nil => rfl
  | @cons k k' ids ids' hk _ ih =>
    by_cases heq : k = i
    · subst heq
      have heq' : k' = j := hunique.2 hk hij
      rw [heq', List.idxOf_cons_self, List.idxOf_cons_self]
    · have hne : k' ≠ j := by
        rintro rfl
        exact heq (hunique.1 hk hij)
      rw [List.idxOf_cons_ne _ heq, List.idxOf_cons_ne _ hne, ih]

end Renaming

/-! ## Likenesses -/

/-- Which scopes of one store stand for which of another one, as far as some scripts are
concerned. -/
structure Likeness where
  /-- Scopes in which the scripts may write. -/
  own : ℕ → ℕ → Prop
  /-- Scopes that they only read. -/
  shared : ℕ → ℕ → Prop

namespace Likeness

/-- A likeness that says more is greater. -/
instance : Preorder Likeness := Preorder.lift fun L : Likeness => (L.own, L.shared)

/-- Scopes that the scripts may read. -/
def reads (L : Likeness) (i j : ℕ) : Prop := L.own i j ∨ L.shared i j

/-- The likeness with two more scopes, one in each store. -/
def withOwn (L : Likeness) (i j : ℕ) : Likeness :=
  { L with own := fun k l => L.own k l ∨ k = i ∧ l = j }

/-- Scopes that stand for each other hold the same, and no scope in which the scripts may write
stands for two. -/
structure Fits (L : Likeness) (s s' : Scopes) : Prop where
  same : ∀ {i j}, L.reads i j → s.scope i = s'.scope j
  bounds : ∀ {i j}, L.reads i j → i < s.scopes.length ∧ j < s'.scopes.length
  apart : ∀ {i j k l}, L.own i j → L.reads k l → (k = i ↔ l = j)

/-- How a likeness grows while scripts run that may write in the scopes of their own.  Scopes that
are added are new in both stores, and all others are left as they are. -/
structure Grows (L M : Likeness) (s s' t t' : Scopes) : Prop where
  le : L ≤ M
  fits : M.Fits t t'
  shared : M.shared ≤ L.shared
  fresh : ∀ {i j}, M.own i j →
    L.own i j ∨ s.scopes.length ≤ i ∧ i + s'.scopes.length = j + s.scopes.length
  later : s.scopes.length ≤ t.scopes.length
  offset : t.scopes.length + s'.scopes.length = t'.scopes.length + s.scopes.length
  kept : ∀ {i}, i < s.scopes.length → (∀ j, ¬L.own i j) → t.scope i = s.scope i

variable {L M N : Likeness} {s s' t t' u u' : Scopes} {i j : ℕ}

/-- A greater likeness has more scopes to write in. -/
lemma own_of_le (h : L ≤ M) (hij : L.own i j) : M.own i j := h.1 i j hij

/-- A greater likeness has more scopes to read. -/
lemma reads_of_le (h : L ≤ M) (hij : L.reads i j) : M.reads i j := hij.imp (h.1 i j) (h.2 i j)

namespace Grows

/-- Nothing is done. -/
lemma refl (h : L.Fits s s') : L.Grows L s s' s s' where
  le := le_refl L
  fits := h
  shared := le_refl _
  fresh := .inl
  later := le_refl _
  offset := Nat.add_comm ..
  kept _ _ := rfl

/-- One thing is done after another. -/
lemma trans (h : L.Grows M s s' t t') (h' : M.Grows N t t' u u') : L.Grows N s s' u u' where
  le := h.le.trans h'.le
  fits := h'.fits
  shared := h'.shared.trans h.shared
  fresh := by
    intro i j hij
    have hlater := h.later
    have hoffset := h.offset
    rcases h'.fresh hij with hold | ⟨hnew, hsame⟩
    · exact h.fresh hold
    · exact .inr ⟨by omega, by omega⟩
  later := h.later.trans h'.later
  offset := by
    have hfirst := h.offset
    have hsecond := h'.offset
    omega
  kept := by
    intro i hi hforeign
    have hforeign' : ∀ j, ¬M.own i j := by
      intro j hij
      rcases h.fresh hij with hold | ⟨hnew, -⟩
      · exact hforeign j hold
      · omega
    rw [h'.kept (hi.trans_le h.later) hforeign', h.kept hi hforeign]

end Grows

/-! ### Changes of scopes -/

namespace Fits

/-- Both stores are changed in the same way in a scope of one's own. -/
lemma update (h : L.Fits s s') (hij : L.own i j) (f : Scope → Scope) :
    L.Grows L s s' (s.update i f) (s'.update j f) := by
  have hlength (s : Scopes) (i : ℕ) : (s.update i f).scopes.length = s.scopes.length := by
    simp [Scopes.update]
  have hself {s : Scopes} {i : ℕ} (hi : i < s.scopes.length) :
      (s.update i f).scope i = f (s.scope i) := by
    simp [Scopes.scope, Scopes.update, hi]
  constructor
  case le => exact le_refl L
  case fits =>
    refine ⟨?_, ?_, h.apart⟩
    · intro k l hkl
      obtain ⟨hi, hj⟩ := h.bounds (.inl hij)
      by_cases hki : k = i
      · have hlj : l = j := (h.apart hij hkl).mp hki
        rw [hki, hlj, hself hi, hself hj, h.same (.inl hij)]
      · have hlj : l ≠ j := fun heq => hki ((h.apart hij hkl).mpr heq)
        rw [Scopes.scope_update_of_ne (Ne.symm hki), Scopes.scope_update_of_ne (Ne.symm hlj),
          h.same hkl]
    · intro k l hkl
      rw [hlength, hlength]
      exact h.bounds hkl
  case shared => exact le_refl _
  case fresh => exact .inl
  case later => rw [hlength]
  case offset => rw [hlength, hlength, Nat.add_comm]
  case kept =>
    intro k _ hforeign
    refine Scopes.scope_update_of_ne ?_ f
    rintro rfl
    exact hforeign j hij

/-- Each store gets one more scope. -/
lemma push (h : L.Fits s s') :
    L.Grows (L.withOwn s.scopes.length s'.scopes.length) s s' ⟨s.scopes ++ [.empty]⟩
      ⟨s'.scopes ++ [.empty]⟩ := by
  have hold {s : Scopes} {i : ℕ} (hi : i < s.scopes.length) :
      (⟨s.scopes ++ [.empty]⟩ : Scopes).scope i = s.scope i := by
    simp [Scopes.scope, List.getElem?_append_left hi]
  have hnew (s : Scopes) : (⟨s.scopes ++ [.empty]⟩ : Scopes).scope s.scopes.length = .empty := by
    simp [Scopes.scope]
  have hreads {k l : ℕ} (hkl : (L.withOwn s.scopes.length s'.scopes.length).reads k l) :
      L.reads k l ∨ k = s.scopes.length ∧ l = s'.scopes.length := by
    rcases hkl with (hown | heq) | hshared
    · exact .inl (.inl hown)
    · exact .inr heq
    · exact .inl (.inr hshared)
  constructor
  case le => exact ⟨fun _ _ => .inl, le_refl _⟩
  case fits =>
    constructor
    case same =>
      intro k l hkl
      rcases hreads hkl with hbefore | ⟨rfl, rfl⟩
      · obtain ⟨hk, hl⟩ := h.bounds hbefore
        rw [hold hk, hold hl, h.same hbefore]
      · rw [hnew, hnew]
    case bounds =>
      intro k l hkl
      simp only [List.length_append, List.length_singleton]
      rcases hreads hkl with hbefore | ⟨rfl, rfl⟩
      · have hbounds := h.bounds hbefore
        omega
      · omega
    case apart =>
      intro i j k l hij hkl
      -- A new scope is none of those there were.
      rcases hij with hown | ⟨rfl, rfl⟩ <;> rcases hreads hkl with hbefore | ⟨rfl, rfl⟩
      · exact h.apart hown hbefore
      · have hbounds := h.bounds (.inl hown)
        omega
      · have hbounds := h.bounds hbefore
        omega
      · simp
  case shared => exact le_refl _
  case fresh =>
    rintro i j (hown | ⟨rfl, rfl⟩)
    · exact .inl hown
    · exact .inr ⟨le_refl _, Nat.add_comm ..⟩
  case later => simp
  case offset =>
    simp
    omega
  case kept =>
    intro i hi _
    exact hold hi

end Fits

end Likeness

/-! ## References to scopes -/

/-- References to scopes that stand for each other. -/
structure ScopeRef.Alike (L : Likeness) (r r' : ScopeRef) : Prop where
  own : L.own r.own r'.own
  enclosing : List.Forall₂ L.reads r.enclosing r'.enclosing

section Scopes

variable {L M : Likeness} {s s' : Scopes} {r r' : ScopeRef}

/-- References stay alike when the likeness grows. -/
lemma ScopeRef.Alike.mono (h : r.Alike L r') (hle : L ≤ M) : r.Alike M r' where
  own := Likeness.own_of_le hle h.own
  enclosing := h.enclosing.imp fun _ _ => Likeness.reads_of_le hle

/-- The scopes that reading looks through stand for each other. -/
lemma ScopeRef.Alike.chain (h : r.Alike L r') : List.Forall₂ L.reads r.chain r'.chain :=
  .cons (.inl h.own) h.enclosing

/-- Looking through lists of which the members have the same to give. -/
lemma findSome?_eq_of_forall₂ {α β γ : Type} {P : α → β → Prop} {f : α → Option γ}
    {g : β → Option γ} {as : List α} {bs : List β} (h : List.Forall₂ P as bs)
    (hfg : ∀ a b, P a b → f a = g b) : as.findSome? f = bs.findSome? g := by
  induction h with
  | nil => rfl
  | cons hab _ ih => simp only [List.findSome?_cons, hfg _ _ hab, ih]

namespace Likeness.Fits

/-- A variable has the same value. -/
lemma get?_eq (h : L.Fits s s') (hr : r.Alike L r') (name : String) :
    s.get? r name = s'.get? r' name :=
  findSome?_eq_of_forall₂ hr.chain fun i j hij => by rw [h.same hij]

/-- A name stands for the same command. -/
lemma command?_eq (h : L.Fits s s') (hr : r.Alike L r') (name : String) :
    s.command? r name = s'.command? r' name :=
  findSome?_eq_of_forall₂ hr.chain fun i j hij => by rw [h.same hij]

/-- A variable is set on both sides. -/
lemma set (h : L.Fits s s') (hr : r.Alike L r') (name : String) (v : Value) :
    L.Grows L s s' (s.set r name v) (s'.set r' name v) :=
  h.update hr.own _

/-- Variables are set on both sides. -/
lemma setAll (h : L.Fits s s') (hr : r.Alike L r') (entries : List (String × Value)) :
    L.Grows L s s' (s.setAll r entries) (s'.setAll r' entries) := by
  induction entries generalizing s s' with
  | nil => exact .refl h
  | cons e entries ih =>
    have hfirst := h.set hr e.1 e.2
    exact hfirst.trans (ih hfirst.fits)

/-- A value is added to a list on both sides. -/
lemma pushItem (h : L.Fits s s') (hr : r.Alike L r') (name : String) (v : Value) :
    L.Grows L s s' (s.push r name v) (s'.push r' name v) := by
  have hown : s.own? r name = s'.own? r' name := by
    unfold Scopes.own?
    rw [h.same (.inl hr.own)]
  unfold Scopes.push
  rw [hown]
  exact h.set hr name _

/-- A scope is opened inside another one on both sides. -/
lemma newChild (h : L.Fits s s') (hr : List.Forall₂ L.reads r.chain r'.chain) :
    ∃ M, L.Grows M s s' (s.newChild r).2 (s'.newChild r').2 ∧
      (s.newChild r).1.Alike M (s'.newChild r').1 := by
  have hgrows := h.push
  exact ⟨_, hgrows, .inr ⟨rfl, rfl⟩, hr.imp fun _ _ => reads_of_le hgrows.le⟩

end Likeness.Fits

end Scopes

/-! ## Frames -/

/-- Scripts under evaluation that differ in their scopes only. -/
inductive ScriptRun.Alike (L : Likeness) (run : ScriptRun) : ScriptRun → Prop
  | intro {r : ScopeRef} (h : run.scope.Alike L r) : run.Alike L { run with scope := r }

/-- Loops that differ in their scopes only. -/
inductive LoopRun.Alike (L : Likeness) (run : LoopRun) : LoopRun → Prop
  | intro {r : ScopeRef} (h : run.scope.Alike L r) : run.Alike L { run with scope := r }

/-- Frames that differ in the numbers of scopes and of calls only. -/
inductive Frame.Alike (L : Likeness) (R : Renaming) : Frame → Frame → Prop
  | done (ending : Ending) (result : List Value) :
    Alike L R (.done ending result) (.done ending result)
  | call (target : Endpoint) (args : List Value) : Alike L R (.call target args) (.call target args)
  | waiting {i j : ℕ} (h : R i j) : Alike L R (.waiting i) (.waiting j)
  | log (level : LogLevel) (message : String) : Alike L R (.log level message) (.log level message)
  | andThen {base base' : Frame} {next next' : List Value → Frame} (hbase : Alike L R base base')
      (hnext : ∀ result, Alike L R (next result) (next' result)) :
    Alike L R (.andThen base next) (.andThen base' next')
  | onFail {body body' : Frame} {fallback fallback' : Fault → Frame} (hbody : Alike L R body body')
      (hfallback : ∀ f, Alike L R (fallback f) (fallback' f)) :
    Alike L R (.onFail body fallback) (.onFail body' fallback')
  | script {run run' : ScriptRun} (h : run.Alike L run') : Alike L R (.script run) (.script run')
  | loop {run run' : LoopRun} (h : run.Alike L run') : Alike L R (.loop run) (.loop run')

/-- Frames that wait for others to end, and that differ in numbers only. -/
inductive Pending.Alike (L : Likeness) (R : Renaming) : Pending → Pending → Prop
  | andThen {next next' : List Value → Frame}
      (h : ∀ result, (next result).Alike L R (next' result)) :
    Alike L R (.andThen next) (.andThen next')
  | onFail {fallback fallback' : Fault → Frame} (h : ∀ f, (fallback f).Alike L R (fallback' f)) :
    Alike L R (.onFail fallback) (.onFail fallback')
  | relay : Alike L R .relay .relay
  | word {run run' : ScriptRun} (h : run.Alike L run') : Alike L R (.word run) (.word run')
  | command {run run' : ScriptRun} (h : run.Alike L run') : Alike L R (.command run) (.command run')
  | loop {run run' : LoopRun} (h : run.Alike L run') : Alike L R (.loop run) (.loop run')

/-- Stacks of frames that are alike. -/
structure FrameStack.Alike (L : Likeness) (R : Renaming) (s s' : FrameStack) : Prop where
  top : Option.Rel (Frame.Alike L R) s.top s'.top
  below : List.Forall₂ (Pending.Alike L R) s.below s'.below

/-- What is related stays so when more is related. -/
lemma optionRel_imp {α β : Type} {P Q : α → β → Prop} {a : Option α} {b : Option β}
    (h : Option.Rel P a b) (hPQ : ∀ x y, P x y → Q x y) : Option.Rel Q a b := by
  cases h with
  | none => exact .none
  | some hxy => exact .some (hPQ _ _ hxy)

/-- Options that are related are both empty or hold what is related. -/
lemma optionRel_cases {α β : Type} {P : α → β → Prop} {a : Option α} {b : Option β}
    (h : Option.Rel P a b) : a = none ∧ b = none ∨ ∃ x y, a = some x ∧ b = some y ∧ P x y := by
  cases h with
  | none => exact .inl ⟨rfl, rfl⟩
  | some hxy => exact .inr ⟨_, _, rfl, rfl, hxy⟩

section Frames

variable {L M : Likeness} {R S : Renaming}

/-- Scripts stay alike when the likeness grows. -/
lemma ScriptRun.Alike.mono {run run' : ScriptRun} (h : run.Alike L run') (hle : L ≤ M) :
    run.Alike M run' := by
  obtain ⟨hr⟩ := h
  exact ⟨hr.mono hle⟩

/-- Loops stay alike when the likeness grows. -/
lemma LoopRun.Alike.mono {run run' : LoopRun} (h : run.Alike L run') (hle : L ≤ M) :
    run.Alike M run' := by
  obtain ⟨hr⟩ := h
  exact ⟨hr.mono hle⟩

/-- Frames stay alike when there is more that stands for each other. -/
lemma Frame.Alike.mono {f f' : Frame} (h : f.Alike L R f') (hL : L ≤ M) (hR : R ≤ S) :
    f.Alike M S f' := by
  induction h with
  | done ending result => exact .done ending result
  | call target args => exact .call target args
  | waiting h => exact .waiting (hR _ _ h)
  | log level message => exact .log level message
  | andThen _ _ hbase hnext => exact .andThen hbase hnext
  | onFail _ _ hbody hfallback => exact .onFail hbody hfallback
  | script h => exact .script (h.mono hL)
  | loop h => exact .loop (h.mono hL)

/-- Frames that wait stay alike when there is more that stands for each other. -/
lemma Pending.Alike.mono {p p' : Pending} (h : p.Alike L R p') (hL : L ≤ M) (hR : R ≤ S) :
    p.Alike M S p' := by
  cases h with
  | andThen h => exact .andThen fun result => (h result).mono hL hR
  | onFail h => exact .onFail fun f => (h f).mono hL hR
  | relay => exact .relay
  | word h => exact .word (h.mono hL)
  | command h => exact .command (h.mono hL)
  | loop h => exact .loop (h.mono hL)

/-- Stacks stay alike when there is more that stands for each other. -/
lemma FrameStack.Alike.mono {s s' : FrameStack} (h : s.Alike L R s') (hL : L ≤ M) (hR : R ≤ S) :
    s.Alike M S s' where
  top := optionRel_imp h.top fun _ _ hf => hf.mono hL hR
  below := h.below.imp fun _ _ hp => hp.mono hL hR

/-- A stack by its running frame and those below. -/
lemma FrameStack.Alike.mk' {f f' : Frame} {below below' : List Pending} (hf : f.Alike L R f')
    (hbelow : List.Forall₂ (Pending.Alike L R) below below') :
    FrameStack.Alike L R ⟨some f, below⟩ ⟨some f', below'⟩ :=
  ⟨.some hf, hbelow⟩

/-- Scripts from their start. -/
lemma Frame.Alike.ofScript {r r' : ScopeRef} (hr : r.Alike L r') (script : Script) (trap : Bool) :
    (Frame.ofScript script r trap).Alike L R (.ofScript script r' trap) :=
  .script ⟨hr⟩

end Frames

/-! ## Commands -/

/-- What commands come to on both sides: the same fault, or frames that are alike, with scopes that
stand for each other. -/
inductive CommandResult.Alike (L : Likeness) (R : Renaming) (s s' : Scopes) :
    CommandResult → CommandResult → Prop
  | refused (f : Fault) : Alike L R s s' (.error f) (.error f)
  | ok {M : Likeness} {f f' : Frame} {t t' : Scopes} (hgrows : L.Grows M s s' t t')
      (hf : f.Alike M R f') : Alike L R s s' (.ok (f, t)) (.ok (f', t'))

section Commands

variable {L : Likeness} {R : Renaming} {s s' : Scopes} {r r' : ScopeRef}

/-- A command that comes to a frame and changes no scope. -/
lemma CommandResult.Alike.frame (h : L.Fits s s') {f f' : Frame} (hf : f.Alike L R f') :
    CommandResult.Alike L R s s' (.ok (f, s)) (.ok (f', s')) :=
  .ok (.refl h) hf

namespace Command

/-- `set` reads and writes alike. -/
lemma set_alike (h : L.Fits s s') (hr : r.Alike L r') (args : List Value) :
    CommandResult.Alike L R s s' (set s r args) (set s' r' args) := by
  unfold set
  match args with
  | [name] =>
    simp only [h.get?_eq hr]
    cases s'.get? r' name.render with
    | none => exact .refused _
    | some v => exact .frame h (.done ..)
  | [name, v] => exact .ok (h.set hr name.render v) (.done ..)
  | [] => exact .refused _
  | _ :: _ :: _ :: _ => exact .refused _

/-- Variables count alike. -/
lemma add_alike (h : L.Fits s s') (hr : r.Alike L r') (name : String) (amount : Int64) :
    CommandResult.Alike L R s s' (add s r name amount) (add s' r' name amount) := by
  have hcounter : counter s r name = counter s' r' name := by
    unfold counter
    rw [h.get?_eq hr]
  unfold add
  rw [hcounter]
  cases counter s' r' name with
  | error f => exact .refused f
  | ok n => exact .ok (h.set hr name _) (.done ..)

/-- `incr` counts alike. -/
lemma incr_alike (h : L.Fits s s') (hr : r.Alike L r') (args : List Value) :
    CommandResult.Alike L R s s' (incr s r args) (incr s' r' args) := by
  unfold incr
  match args with
  | [name] => exact add_alike h hr name.render 1
  | [name, amount] =>
    cases hamount : amount.int? with
    | none =>
      simp only [hamount]
      exact .refused _
    | some n =>
      simp only [hamount]
      exact add_alike h hr name.render n
  | [] => exact .refused _
  | _ :: _ :: _ :: _ => exact .refused _

/-- `error` fails alike. -/
lemma error_alike (h : L.Fits s s') (args : List Value) :
    CommandResult.Alike L R s s' (error s args) (error s' args) := by
  unfold error
  split <;> exact .frame h (.done ..)

/-- `foreach` comes to loops that are alike. -/
lemma foreach_alike (h : L.Fits s s') (hr : r.Alike L r') (args : List Value) :
    CommandResult.Alike L R s s' (foreach s r args) (foreach s' r' args) := by
  unfold foreach
  match args with
  | [name, items, code] =>
    cases hbody : body code with
    | error f =>
      simp only [hbody]
      exact .refused f
    | ok script =>
      simp only [hbody]
      exact .frame h (.loop ⟨hr⟩)
  | [] => exact .refused _
  | [_] => exact .refused _
  | [_, _] => exact .refused _
  | _ :: _ :: _ :: _ :: _ => exact .refused _

/-- `try` comes to scripts and fallbacks that are alike. -/
lemma try_alike (h : L.Fits s s') (hr : r.Alike L r') (args : List Value) :
    CommandResult.Alike L R s s' (try_ s r args) (try_ s' r' args) := by
  unfold try_
  match args with
  | [code] =>
    cases hbody : body code with
    | error f =>
      simp only [hbody]
      exact .refused f
    | ok script =>
      simp only [hbody]
      exact .frame h (.onFail (.ofScript hr script false) fun f => .done ..)
  | [code, fallback] =>
    cases hbody : body code with
    | error f =>
      simp only [hbody]
      exact .refused f
    | ok script =>
      cases hfallback : body fallback with
      | error f =>
        simp only [hbody, hfallback]
        exact .refused f
      | ok handler =>
        simp only [hbody, hfallback]
        exact .frame h (.onFail (.ofScript hr script false) fun f => .script ⟨hr⟩)
  | [] => exact .refused _
  | _ :: _ :: _ :: _ => exact .refused _

/-- `eval` comes to scripts in new scopes that stand for each other. -/
lemma eval_alike (h : L.Fits s s') (hr : r.Alike L r') (args : List Value) :
    CommandResult.Alike L R s s' (eval s r args) (eval s' r' args) := by
  unfold eval
  split
  · exact .refused _
  · cases body (.text (spaced args)) with
    | error f => exact .refused f
    | ok script =>
      obtain ⟨M, hgrows, hinner⟩ := h.newChild hr.chain
      exact .ok hgrows (.ofScript hinner script false)

end Command

/-- Built-in commands do alike. -/
lemma Builtin.run_alike (b : Builtin) (h : L.Fits s s') (hr : r.Alike L r') (args : List Value) :
    CommandResult.Alike L R s s' (b.run s r args) (b.run s' r' args) := by
  cases b with
  | set => exact Command.set_alike h hr args
  | list => exact .frame h (.done ..)
  | incr => exact Command.incr_alike h hr args
  | error => exact Command.error_alike h args
  | «break» => exact .frame h (.done ..)
  | «continue» => exact .frame h (.done ..)
  | foreach => exact Command.foreach_alike h hr args
  | «try» => exact Command.try_alike h hr args
  | eval => exact Command.eval_alike h hr args
  | log => exact .frame h (.log ..)

/-- Lines come to frames that are alike. -/
lemma commandFrame_alike (h : L.Fits s s') (hr : r.Alike L r') (words : List Value) :
    CommandResult.Alike L R s s' (commandFrame s r words) (commandFrame s' r' words) := by
  have hnamed (e : Except Fault Endpoint) (args : List Value) :
      CommandResult.Alike L R s s' (e.map fun target => (.call target args, s))
        (e.map fun target => (.call target args, s')) := by
    cases e with
    | error f => exact .refused f
    | ok target => exact .frame h (.call target args)
  unfold commandFrame
  split
  · exact .frame h (.done ..)
  · exact .frame h (.call ..)
  · next head args _ =>
    simp only [h.command?_eq hr, h.get?_eq hr]
    cases s'.command? r' head.render with
    | some b => exact b.run_alike h hr args
    | none =>
      simp only
      split
      · exact hnamed _ _
      · split
        · exact hnamed _ _
        · exact .refused _

end Commands

/-! ## Scripts -/

/-- Steps of scripts that are alike. -/
inductive ScriptRun.Step.Alike (L : Likeness) (R : Renaming) :
    ScriptRun.Step → ScriptRun.Step → Prop
  | goOn {run run' : ScriptRun} (h : run.Alike L run') : Alike L R (.goOn run) (.goOn run')
  | push {child child' : Frame} {below below' : Pending} (hchild : child.Alike L R child')
      (hbelow : below.Alike L R below') : Alike L R (.push child below) (.push child' below')
  | finish (ending : Ending) (result : List Value) :
    Alike L R (.finish ending result) (.finish ending result)

section Scripts

variable {L : Likeness} {R : Renaming} {s s' : Scopes} {r r' : ScopeRef} {run run' : ScriptRun}

/-- The parts of a word come to the same where variables have the same values. -/
lemma evalParts_eq (h : ∀ name, s.get? r name = s'.get? r' name) (text : String)
    (parts : List ScriptPart) : evalParts s r text parts = evalParts s' r' text parts := by
  induction parts generalizing text with
  | nil => rfl
  | cons part parts ih =>
    cases part with
    | text t => exact ih _
    | variableRef name =>
      simp only [evalParts, h]
      cases s'.get? r' name with
      | none => rfl
      | some v => exact ih _
    | substitution script => rfl

/-- The words of a line come to the same where variables have the same values. -/
lemma evalWords_eq (h : ∀ name, s.get? r name = s'.get? r' name) (number : ℕ) (ready : List Value)
    (words : List ScriptWord) :
    evalWords s r number ready words = evalWords s' r' number ready words := by
  induction words generalizing ready with
  | nil => rfl
  | cons word words ih =>
    cases word with
    | literal text => exact ih _
    | block text => exact ih _
    | variableRef name =>
      simp only [evalWords, h]
      cases s'.get? r' name with
      | none => rfl
      | some v => exact ih _
    | substitution script => rfl
    | quoted parts =>
      simp only [evalWords, evalParts_eq h]
      cases evalParts s' r' "" parts with
      | failed f => rfl
      | text text => exact ih _
      | substitution text script parts => rfl

/-- A line comes to the same where variables have the same values. -/
lemma LineRun.eval_eq (h : ∀ name, s.get? r name = s'.get? r' name) (l : LineRun) :
    l.eval s r = l.eval s' r' := by
  unfold LineRun.eval
  simp only [evalWords_eq h, evalParts_eq h]

namespace ScriptRun

/-- Scripts that fail do so alike. -/
lemma fail_alike (h : L.Fits s s') (hrun : run.Alike L run') (f : Fault) :
    L.Grows L s s' (run.fail s f).2 (run'.fail s' f).2 ∧
      (run.fail s f).1.Alike L R (run'.fail s' f).1 := by
  obtain ⟨hr⟩ := hrun
  obtain ⟨scope, trap, entry, current, rest, trapped, last⟩ := run
  unfold fail
  cases trap with
  | false => exact ⟨.refl h, .finish ..⟩
  | true => exact ⟨h.pushItem hr _ _, .goOn ⟨hr⟩⟩

/-- Scripts go on alike. -/
lemma step_alike (h : L.Fits s s') (hrun : run.Alike L run') :
    ∃ M, L.Grows M s s' (run.step s).2 (run'.step s').2 ∧
      (run.step s).1.Alike M R (run'.step s').1 := by
  have hfail (f : Fault) := fail_alike (R := R) h hrun f
  obtain ⟨hr⟩ := hrun
  obtain ⟨scope, trap, entry, current, rest, trapped, last⟩ := run
  unfold step
  cases entry with
  | cons e entry => exact ⟨L, h.setAll hr _, .goOn ⟨hr⟩⟩
  | nil =>
    cases current with
    | none =>
      cases rest with
      | nil =>
        refine ⟨L, .refl h, ?_⟩
        simp only [complete, List.isEmpty_nil, Bool.not_true, Bool.false_eq_true, ↓reduceIte]
        split <;> exact .finish ..
      | cons line rest => exact ⟨L, .refl h, .goOn ⟨hr⟩⟩
    | some line =>
      simp only [List.isEmpty_nil, Bool.not_true, Bool.false_eq_true, ↓reduceIte,
        LineRun.eval_eq (h.get?_eq hr) line]
      cases line.eval s' _ with
      | failed f => exact ⟨L, hfail f⟩
      | substitution line script => exact ⟨L, .refl h, .push (.ofScript hr ..) (.word ⟨hr⟩)⟩
      | words values =>
        have hcommand := commandFrame_alike (R := R) h hr values
        simp only
        generalize commandFrame s scope values = c at hcommand ⊢
        generalize commandFrame s' _ values = c' at hcommand ⊢
        cases hcommand with
        | refused f => exact ⟨L, hfail f⟩
        | @ok M child child' t t' hgrows hchild =>
          exact ⟨M, hgrows, .push hchild (.command ⟨hr.mono hgrows.le⟩)⟩

end ScriptRun

end Scripts

/-! ## Stacks -/

/-- How two workspaces have been changed alike: the same calls have been sent, up to their numbers,
and the same log lines have been written. -/
structure Workspace.InStep (L M : Likeness) (R S : Renaming) (w w' v v' : Workspace) : Prop where
  scopes : L.Grows M w.scopes w'.scopes v.scopes v'.scopes
  calls : ∃ cs cs', v.sent = w.sent ++ cs ∧ v'.sent = w'.sent ++ cs' ∧
    R.Grows S w.ledger w'.ledger v.ledger v'.ledger cs cs'
  log : ∃ lines, v.log = w.log ++ lines ∧ v'.log = w'.log ++ lines
  answered : v.ledger.answered = w.ledger.answered ∧ v'.ledger.answered = w'.ledger.answered

namespace Workspace.InStep

variable {L M N : Likeness} {R S T : Renaming} {w w' v v' u u' : Workspace}

/-- Nothing but scopes has been changed. -/
lemma ofScopes {t t' : Scopes} (h : L.Grows M w.scopes w'.scopes t t') :
    InStep L M R R w w' { w with scopes := t } { w' with scopes := t' } where
  scopes := h
  calls := ⟨[], [], (List.append_nil _).symm, (List.append_nil _).symm, .nothing rfl rfl⟩
  log := ⟨[], (List.append_nil _).symm, (List.append_nil _).symm⟩
  answered := ⟨rfl, rfl⟩

/-- Nothing has been changed. -/
lemma refl (h : L.Fits w.scopes w'.scopes) : InStep L L R R w w' w w' := ofScopes (.refl h)

/-- More has been changed. -/
lemma trans (h : InStep L M R S w w' v v') (h' : InStep M N S T v v' u u') :
    InStep L N R T w w' u u' where
  scopes := h.scopes.trans h'.scopes
  calls := by
    obtain ⟨cs, cs', hcs, hcs', hgrows⟩ := h.calls
    obtain ⟨ds, ds', hds, hds', hgrows'⟩ := h'.calls
    refine ⟨cs ++ ds, cs' ++ ds', ?_, ?_, hgrows.trans hgrows'⟩
    · rw [hds, hcs, List.append_assoc]
    · rw [hds', hcs', List.append_assoc]
  log := by
    obtain ⟨lines, hlines, hlines'⟩ := h.log
    obtain ⟨more, hmore, hmore'⟩ := h'.log
    refine ⟨lines ++ more, ?_, ?_⟩
    · rw [hmore, hlines, List.append_assoc]
    · rw [hmore', hlines', List.append_assoc]
  answered := ⟨h'.answered.1.trans h.answered.1, h'.answered.2.trans h.answered.2⟩

/-- The renaming has grown. -/
lemma renaming_le (h : InStep L M R S w w' v v') : R ≤ S := by
  obtain ⟨cs, cs', -, -, hgrows⟩ := h.calls
  exact hgrows.le

end Workspace.InStep

/-- Where stacks stop that are alike. -/
inductive StackOutcome.Alike (R : Renaming) : StackOutcome → StackOutcome → Prop
  | suspended {i j : ℕ} (h : R i j) : Alike R (.suspended i) (.suspended j)
  | done (ending : Ending) (result : List Value) :
    Alike R (.done ending result) (.done ending result)

namespace FrameStack

/-- What a step of stacks comes to that are alike. -/
inductive Next.Alike (L : Likeness) (R : Renaming) : Next → Next → Prop
  | goOn {s s' : FrameStack} (h : s.Alike L R s') : Alike L R (.goOn s) (.goOn s')
  | stop {o o' : StackOutcome} {s s' : FrameStack} (ho : o.Alike R o') (h : s.Alike L R s') :
    Alike L R (.stop o s) (.stop o' s')

variable {L : Likeness} {R : Renaming} {s s' : FrameStack} {w w' : Workspace}
  {below below' : List Pending}

/-- The frame of a script after a step of it. -/
lemma ofStep_alike {step step' : ScriptRun.Step} (h : step.Alike L R step')
    (hbelow : List.Forall₂ (Pending.Alike L R) below below') :
    (ofStep step below).Alike L R (ofStep step' below') := by
  cases h with
  | goOn h => exact .mk' (.script h) hbelow
  | push hchild hpending => exact .mk' hchild (.cons hpending hbelow)
  | finish ending result => exact .mk' (.done ..) hbelow

/-- Frames that wait go on alike. -/
lemma resume_alike (h : L.Fits w.scopes w'.scopes) {p p' : Pending} (hp : p.Alike L R p')
    (hbelow : List.Forall₂ (Pending.Alike L R) below below') (ending : Ending)
    (result : List Value) :
    Workspace.InStep L L R R w w' (resume p below ending result w).2
        (resume p' below' ending result w').2 ∧
      (resume p below ending result w).1.Alike L R (resume p' below' ending result w').1 := by
  have hpass : Workspace.InStep L L R R w w' w w' ∧
      Alike L R ⟨some (.done ending result), below⟩ ⟨some (.done ending result), below'⟩ :=
    ⟨.refl h, .mk' (.done ..) hbelow⟩
  have hfail {run run' : ScriptRun} (hrun : run.Alike L run') (f : Fault) :
      Workspace.InStep L L R R w w' { w with scopes := (run.fail w.scopes f).2 }
          { w' with scopes := (run'.fail w'.scopes f).2 } ∧
        (ofStep (run.fail w.scopes f).1 below).Alike L R
          (ofStep (run'.fail w'.scopes f).1 below') := by
    obtain ⟨hgrows, hstep⟩ := ScriptRun.fail_alike (R := R) h hrun f
    exact ⟨.ofScopes hgrows, ofStep_alike hstep hbelow⟩
  cases hp with
  | andThen hnext =>
    cases ending with
    | ok => exact ⟨.refl h, .mk' (hnext result) (.cons .relay hbelow)⟩
    | _ => exact hpass
  | onFail hfallback =>
    cases ending with
    | error => exact ⟨.refl h, .mk' (hfallback _) (.cons .relay hbelow)⟩
    | _ => exact hpass
  | relay => cases ending <;> exact hpass
  | word hrun =>
    cases ending with
    | ok =>
      obtain ⟨hr⟩ := hrun
      exact ⟨.refl h, .mk' (.script ⟨hr⟩) hbelow⟩
    | error => exact hfail hrun _
    | _ => exact hpass
  | command hrun =>
    cases ending with
    | ok =>
      obtain ⟨hr⟩ := hrun
      exact ⟨.refl h, .mk' (.script ⟨hr⟩) hbelow⟩
    | error => exact hfail hrun _
    | _ => exact hpass
  | loop hrun =>
    obtain ⟨hr⟩ := hrun
    cases ending with
    | ok => exact ⟨.refl h, .mk' (.loop ⟨hr⟩) hbelow⟩
    | error => exact ⟨.refl h, .mk' (.done ..) hbelow⟩
    | «break» => exact ⟨.refl h, .mk' (.done ..) hbelow⟩
    | «continue» => exact ⟨.refl h, .mk' (.loop ⟨hr⟩) hbelow⟩

/-- Frames send calls alike. -/
lemma sendCall_alike (site : Site) (h : L.Fits w.scopes w'.scopes) (target : Endpoint)
    (args : List Value) :
    ∃ S, Workspace.InStep L L R S w w' (sendCall site target args w).2
        (sendCall site target args w').2 ∧
      (sendCall site target args w).1.Alike L S (sendCall site target args w').1 := by
  unfold sendCall
  cases site.replyTo with
  | none => exact ⟨R, .refl h, .done ..⟩
  | some source =>
    refine ⟨R.withNumber w.ledger.nextId w'.ledger.nextId,
      ⟨.refl h, ?_, ⟨[], (List.append_nil _).symm, (List.append_nil _).symm⟩, rfl, rfl⟩,
      .waiting (.inr ⟨rfl, rfl⟩)⟩
    exact ⟨_, _, rfl, rfl, .request R w.ledger w'.ledger target source site.time args⟩

/-- Stacks make steps alike. -/
lemma step_alike (site : Site) (hs : s.Alike L R s') (h : L.Fits w.scopes w'.scopes) :
    ∃ M S, Workspace.InStep L M R S w w' (step site s w).2 (step site s' w').2 ∧
      (step site s w).1.Alike M S (step site s' w').1 := by
  obtain ⟨top, below⟩ := s
  obtain ⟨top', below'⟩ := s'
  obtain ⟨htop, hbelow⟩ := hs
  cases htop with
  | none => exact ⟨L, R, .refl h, .stop (.done ..) ⟨.none, hbelow⟩⟩
  | some hf =>
    cases hf with
    | done ending result =>
      cases hbelow with
      | nil => exact ⟨L, R, .refl h, .stop (.done ..) ⟨.none, .nil⟩⟩
      | cons hp hbelow =>
        obtain ⟨hstep, halike⟩ := resume_alike h hp hbelow ending result
        exact ⟨L, R, hstep, .goOn halike⟩
    | call target args =>
      obtain ⟨S, hstep, halike⟩ := sendCall_alike (R := R) site h target args
      refine ⟨L, S, hstep, .goOn (.mk' halike ?_)⟩
      exact hbelow.imp fun _ _ hp => hp.mono (le_refl L) hstep.renaming_le
    | waiting hij => exact ⟨L, R, .refl h, .stop (.suspended hij) ⟨.some (.waiting hij), hbelow⟩⟩
    | log level message =>
      refine ⟨L, R, ⟨.refl h, ?_, ⟨[(level, message)], rfl, rfl⟩, rfl, rfl⟩,
        .goOn (.mk' (.done ..) hbelow)⟩
      exact ⟨[], [], (List.append_nil _).symm, (List.append_nil _).symm, .nothing rfl rfl⟩
    | andThen hbase hnext =>
      exact ⟨L, R, .refl h, .goOn (.mk' hbase (.cons (.andThen hnext) hbelow))⟩
    | onFail hbody hfallback =>
      exact ⟨L, R, .refl h, .goOn (.mk' hbody (.cons (.onFail hfallback) hbelow))⟩
    | script hrun =>
      obtain ⟨M, hgrows, hstep⟩ := ScriptRun.step_alike (R := R) h hrun
      refine ⟨M, R, .ofScopes hgrows, .goOn (ofStep_alike hstep ?_)⟩
      exact hbelow.imp fun _ _ hp => hp.mono hgrows.le (le_refl R)
    | @loop run run' hrun =>
      obtain ⟨hr⟩ := hrun
      obtain ⟨scope, name, items, body, last⟩ := run
      cases items with
      | nil => exact ⟨L, R, .refl h, .goOn (.mk' (.done ..) hbelow)⟩
      | cons item items =>
        exact ⟨L, R, .ofScopes (h.set hr name item),
          .goOn (.mk' (.ofScript hr body false) (.cons (.loop ⟨hr⟩) hbelow))⟩

/-- What runs of stacks that are alike come to: both do not come to rest, or both do so alike. -/
inductive RunAlike (L : Likeness) (R : Renaming) (w w' : Workspace) :
    Option (StackOutcome × FrameStack × Workspace) →
      Option (StackOutcome × FrameStack × Workspace) → Prop
  | stuck : RunAlike L R w w' none none
  | rests {M : Likeness} {S : Renaming} {o o' : StackOutcome} {s s' : FrameStack}
      {v v' : Workspace} (hstep : Workspace.InStep L M R S w w' v v') (ho : o.Alike S o')
      (hs : s.Alike M S s') : RunAlike L R w w' (some (o, s, v)) (some (o', s', v'))

/-- Stacks that are alike run alike. -/
theorem run_alike (site : Site) (fuel : ℕ) (hs : s.Alike L R s')
    (h : L.Fits w.scopes w'.scopes) :
    RunAlike L R w w' (run site fuel s w) (run site fuel s' w') := by
  induction fuel generalizing L R s s' w w' with
  | zero => exact .stuck
  | succ fuel ih =>
    obtain ⟨M, S, hstep, hnext⟩ := step_alike site hs h
    unfold run
    generalize step site s w = a at hstep hnext ⊢
    generalize step site s' w' = b at hstep hnext ⊢
    obtain ⟨next, v⟩ := a
    obtain ⟨next', v'⟩ := b
    cases hnext with
    | goOn ht =>
      have hrun := ih ht hstep.scopes.fits
      simp only at hrun ⊢
      generalize run site fuel _ v = a at hrun ⊢
      generalize run site fuel _ v' = b at hrun ⊢
      cases hrun with
      | stuck => exact .stuck
      | rests hmore ho hu => exact .rests (hstep.trans hmore) ho hu
    | stop ho ht => exact .rests hstep ho ht

/-- Stacks that are alike wait for answers to calls that stand for each other. -/
lemma Alike.awaiting (hs : s.Alike L R s') : Option.Rel R s.awaiting s'.awaiting := by
  obtain ⟨top, below⟩ := s
  obtain ⟨top', below'⟩ := s'
  obtain ⟨htop, -⟩ := hs
  cases htop with
  | none => exact .none
  | some hf =>
    cases hf with
    | waiting hij => exact .some hij
    | _ => exact .none

/-- Stacks that are alike take answers alike, where no number stands for two. -/
lemma post_alike (hR : Relator.BiUnique R) (hs : s.Alike L R s') {c c' : Call}
    (hc : c.Alike R c') :
    (s.post c).1 = (s'.post c').1 ∧ (s.post c).2.Alike L R (s'.post c').2 := by
  have hawaits : s.awaiting = some c.matchId ↔ s'.awaiting = some c'.matchId := by
    have hnumber := hc.number
    have hawaiting := hs.awaiting
    generalize s.awaiting = a at hawaiting ⊢
    generalize s'.awaiting = b at hawaiting ⊢
    cases hawaiting with
    | none => simp
    | @some i j hij =>
      rw [Option.some.injEq, Option.some.injEq]
      constructor
      · rintro rfl
        exact hR.2 hij hnumber
      · rintro rfl
        exact hR.1 hij hnumber
  obtain ⟨hnumber⟩ := hc
  unfold post
  split
  · next h =>
    rw [if_pos (hawaits.mp h)]
    cases c.kind with
    | reply => exact ⟨rfl, .some (.done ..), hs.below⟩
    | error => exact ⟨rfl, .some (.done ..), hs.below⟩
    | request => exact ⟨rfl, hs⟩
    | quiet => exact ⟨rfl, hs⟩
  · next h =>
    rw [if_neg fun h' => h (hawaits.mpr h')]
    exact ⟨rfl, hs⟩

end FrameStack

end Switchboard
