import Mathlib
import Switchboard.Proofs.Trees

/-!
# The life of members

The chronicle of a root records every hook that is let run on a member.  The main theorem
`Root.lifecycle` says which words these hooks form: a member is initialized and started, then
stopped, reset and initialized again any number of times, and at last it may be disposed of; which
of its hooks fail makes no difference.  While a member is in place its last hook tells whether the
root is active, and when the root stops, all members are stopped before any is reset.

The invariant `Stage.Orderly` gives each unit a `Phase`, which says how the words of its members end
and how that goes with the mark that the unit has been started.  A turn of a unit moves its phase
on, and `Stage.Supplants` says what becomes of a stage when the behavior of a unit gives way to
another; between operations all units are in one phase, that of the root.
-/

namespace Switchboard

/-! ## Words of hooks -/

namespace Chronicle

/-- The hooks that were let run on a member, the first one first. -/
def word (c : Chronicle) (m : MemberId) : List Hook :=
  ((c.moments.filter fun e => e.1 == m).map Prod.snd).reverse

/-- One more hook of a member stands at the end of its word. -/
lemma word_moment (c : Chronicle) (m : MemberId) (h : Hook) (m' : MemberId) :
    (c.moment m h).word m' = c.word m' ++ if m' = m then [h] else [] := by
  unfold word moment
  by_cases hm : m' = m
  · simp [hm]
  · have hne : (m == m') = false := beq_eq_false_iff_ne.mpr (Ne.symm hm)
    simp [hm, hne]

/-- One more hook of different members stands at the end of the word of each. -/
lemma word_momentAll (c : Chronicle) {ms : List MemberId} (hms : ms.Nodup) (h : Hook)
    (m : MemberId) : (c.momentAll ms h).word m = c.word m ++ if m ∈ ms then [h] else [] := by
  induction ms generalizing c with
  | nil => exact (List.append_nil _).symm
  | cons m' ms ih =>
    obtain ⟨hnew, hms⟩ := List.nodup_cons.mp hms
    have hrest := ih (c.moment m' h) hms
    rw [word_moment] at hrest
    refine hrest.trans ?_
    by_cases hm : m = m'
    · simp [hm, hnew]
    · simp [hm]

/-- The words are what is entered of moments. -/
lemma word_congr {c c' : Chronicle} (h : c'.moments = c.moments) (m : MemberId) :
    c'.word m = c.word m := by
  unfold word
  rw [h]

/-- Letting members act after others is letting all of them act. -/
lemma momentAll_append (c : Chronicle) (ms ms' : List MemberId) (h : Hook) :
    c.momentAll (ms ++ ms') h = (c.momentAll ms h).momentAll ms' h := List.foldl_append

end Chronicle

/-- The word of a member that was started, and since then has been stopped, reset and initialized
again `k` times. -/
def rounds (k : ℕ) : List Hook :=
  [.init, .start] ++ (List.replicate k [.stop, .reset, .init]).flatten

/-- One round more. -/
lemma rounds_succ (k : ℕ) : rounds (k + 1) = rounds k ++ [.stop, .reset, .init] := by
  unfold rounds
  rw [List.replicate_succ', List.flatten_concat, List.append_assoc]

/-- What the hooks of a member can be, from the first to the last. -/
def IsLife (w : List Hook) : Prop :=
  ∃ v, (v = [] ∨ ∃ k, v = rounds k ∨ v = rounds k ++ [.stop, .reset]) ∧
    (w = v ∨ w = v ++ [.dispose])

/-- In its rounds a member is not disposed of, it is started once, and in the end it is started or
initialized. -/
lemma facts_rounds (k : ℕ) :
    .dispose ∉ rounds k ∧ (rounds k).count .start = 1 ∧ .init ∈ rounds k ∧
      ∃ hook ∈ (rounds k).getLast?, hook = .init ∨ hook = .start := by
  induction k with
  | zero => decide
  | succ k ih =>
    obtain ⟨hdispose, hstart, hinit, -⟩ := ih
    rw [rounds_succ]
    refine ⟨by simp [hdispose], by simp [hstart], by simp [hinit], .init, ?_, .inl rfl⟩
    simp

/-- In the life of a member it is started once, if it ever was initialized. -/
lemma IsLife.count_start {w : List Hook} (h : IsLife w) :
    w.count .start = if .init ∈ w then 1 else 0 := by
  obtain ⟨v, hv, hw⟩ := h
  have hcount : v.count .start = if .init ∈ v then 1 else 0 := by
    obtain rfl | ⟨k, rfl | rfl⟩ := hv
    · rfl
    · obtain ⟨-, hstart, hinit, -⟩ := facts_rounds k
      rw [hstart, if_pos hinit]
    · obtain ⟨-, hstart, hinit, -⟩ := facts_rounds k
      simp [hstart, hinit]
  obtain rfl | rfl := hw
  · exact hcount
  · simp [hcount]

/-- How far a unit has come in the rounds of its members. -/
inductive Phase where
  /-- The members wait to be initialized. -/
  | resting
  /-- The members have been initialized, and started if they were new. -/
  | running
  /-- The members have been stopped, and wait to be reset. -/
  | halted

/-- The words of members in a phase, which depend on whether the unit has been started. -/
def Phase.Admits : Phase → Bool → List Hook → Prop
  | .resting, started, w =>
    (started = false ∧ w = []) ∨ (started = true ∧ ∃ k, w = rounds k ++ [.stop, .reset])
  | .running, started, w => started = true ∧ ∃ k, w = rounds k
  | .halted, started, w => started = true ∧ ∃ k, w = rounds k ++ [.stop]

namespace Phase

variable {p : Phase} {started : Bool} {w : List Hook}

/-- A member that is not halted may be left as it is. -/
lemma Admits.isLife (h : p.Admits started w) (hp : p ≠ .halted) : IsLife w := by
  refine ⟨w, ?_, .inl rfl⟩
  cases p with
  | resting =>
    obtain ⟨-, hw⟩ | ⟨-, k, hw⟩ := h
    · exact .inl hw
    · exact .inr ⟨k, .inr hw⟩
  | running =>
    obtain ⟨-, k, hw⟩ := h
    exact .inr ⟨k, .inl hw⟩
  | halted => contradiction

/-- A member that has a phase has not been disposed of. -/
lemma Admits.dispose_not_mem (h : p.Admits started w) : .dispose ∉ w := by
  cases p with
  | resting =>
    obtain ⟨-, rfl⟩ | ⟨-, k, rfl⟩ := h
    · exact List.not_mem_nil
    · simp [(facts_rounds k).1]
  | running =>
    obtain ⟨-, k, rfl⟩ := h
    exact (facts_rounds k).1
  | halted =>
    obtain ⟨-, k, rfl⟩ := h
    simp [(facts_rounds k).1]

/-- The last hook of a member tells whether it runs. -/
lemma Admits.last (h : p.Admits started w) :
    (∃ hook ∈ w.getLast?, hook = .init ∨ hook = .start) ↔ p = .running := by
  cases p with
  | resting =>
    obtain ⟨-, rfl⟩ | ⟨-, k, rfl⟩ := h <;> simp
  | running =>
    obtain ⟨-, k, rfl⟩ := h
    exact ⟨fun _ => rfl, fun _ => (facts_rounds k).2.2.2⟩
  | halted =>
    obtain ⟨-, k, rfl⟩ := h
    simp

/-- A member that is not halted may be disposed of. -/
lemma Admits.isLife_dispose (h : p.Admits started w) (hp : p ≠ .halted) :
    IsLife (w ++ [.dispose]) := by
  cases p with
  | resting =>
    obtain ⟨-, rfl⟩ | ⟨-, k, rfl⟩ := h
    · exact ⟨[], .inl rfl, .inr rfl⟩
    · exact ⟨_, .inr ⟨k, .inr rfl⟩, .inr rfl⟩
  | running =>
    obtain ⟨-, k, rfl⟩ := h
    exact ⟨_, .inr ⟨k, .inl rfl⟩, .inr rfl⟩
  | halted => contradiction

/-- Becoming active, with a start for members that are new. -/
lemma Admits.activate (h : Phase.resting.Admits started w) :
    Phase.running.Admits true (w ++ if started then [.init] else [.init, .start]) := by
  obtain ⟨rfl, rfl⟩ | ⟨rfl, k, rfl⟩ := h
  · exact ⟨rfl, 0, rfl⟩
  · refine ⟨rfl, k + 1, ?_⟩
    rw [rounds_succ]
    simp

/-- Being stopped. -/
lemma Admits.stop (h : Phase.running.Admits started w) :
    Phase.halted.Admits started (w ++ [.stop]) := by
  obtain ⟨hstarted, k, rfl⟩ := h
  exact ⟨hstarted, k, rfl⟩

/-- Being reset. -/
lemma Admits.reset (h : Phase.halted.Admits started w) :
    Phase.resting.Admits started (w ++ [.reset]) := by
  obtain ⟨hstarted, k, rfl⟩ := h
  exact .inr ⟨hstarted, k, by simp⟩

end Phase

/-- When a unit becomes active its members are initialized, and started if they are new. -/
lemma Node.word_activate (s : Setting) (n : Node) (t : Turn) (hn : n.tenure.ids.Nodup)
    (m : MemberId) :
    (n.activate s t).2.chronicle.word m = t.chronicle.word m ++
      if m ∈ n.tenure.ids then if n.started then [.init] else [.init, .start] else [] := by
  obtain ⟨-, hchronicle⟩ := n.tenure_activate s t
  rw [hchronicle]
  split
  · rw [Chronicle.word_momentAll _ hn]
  · rw [Chronicle.word_momentAll _ hn, Chronicle.word_momentAll _ hn, List.append_assoc]
    split <;> rfl

/-! ## Orderly stages -/

namespace Stage

/-- The members of all units go through their lives in order: each unit is in a phase, and the words
of its members are as the phase admits. -/
structure Orderly (S : Stage) (phase : Handle → Phase) : Prop where
  distinct : ∀ h t, S.unit h = some t → t.members.Distinct
  /-- A unit with members has the number of an installation. -/
  numbered : ∀ h t, S.unit h = some t → ∀ m ∈ t.ids, m.installation < S.installed.length
  /-- No member is in two units. -/
  apart : ∀ h t k u m, S.unit h = some t → S.unit k = some u → m ∈ t.ids → m ∈ u.ids → h = k
  words : ∀ h t, S.unit h = some t → ∀ m ∈ t.ids,
    (phase h).Admits t.started (S.chronicle.word m)
  /-- Members that are in no unit have led a life. -/
  gone : ∀ m, (∀ h t, S.unit h = some t → m ∉ t.ids) → IsLife (S.chronicle.word m)
  /-- Nothing has become of members that are still to come. -/
  fresh : ∀ m : MemberId, S.installed.length ≤ m.installation → S.chronicle.word m = []

/-- The members of a unit, if it exists. -/
def idsAt (S : Stage) (h : Handle) : List MemberId := ((S.unit h).map Tenure.ids).getD []

/-- The members of all units that listen, in the order in which they do. -/
def ids (S : Stage) : List MemberId := S.listeners.flatMap S.idsAt

/-- The phase of all units between operations. -/
def phase (S : Stage) : Phase := if S.active then .running else .resting

/-- Between operations no unit is halted. -/
lemma phase_ne_halted (S : Stage) : S.phase ≠ .halted := by
  unfold phase
  split <;> nofun

namespace Orderly

variable {S S' : Stage} {phase phase' : Handle → Phase} {h : Handle} {t t' : Tenure}
  {c : Chronicle}

/-- Phases of units without members do not matter, nor does anything but the units, the
installations and the moments. -/
lemma congr (hS : S.Orderly phase) (hunit : S'.unit = S.unit)
    (hinstalled : S'.installed = S.installed)
    (hmoments : S'.chronicle.moments = S.chronicle.moments)
    (hphase : ∀ h t, S.unit h = some t → t.ids ≠ [] → phase' h = phase h) :
    S'.Orderly phase' where
  distinct := hunit ▸ hS.distinct
  numbered := by
    rw [hunit, hinstalled]
    exact hS.numbered
  apart := hunit ▸ hS.apart
  words := by
    intro h t ht m hm
    rw [hunit] at ht
    rw [Chronicle.word_congr hmoments, hphase h t ht (List.ne_nil_of_mem hm)]
    exact hS.words h t ht m hm
  gone := by
    intro m hm
    rw [hunit] at hm
    rw [Chronicle.word_congr hmoments]
    exact hS.gone m hm
  fresh := by
    intro m hm
    rw [hinstalled] at hm
    rw [Chronicle.word_congr hmoments]
    exact hS.fresh m hm

/-- Every member leads a life, in whatever phase its unit is, unless it is halted. -/
lemma isLife (hS : S.Orderly phase) (hphase : ∀ h, phase h ≠ .halted) (m : MemberId) :
    IsLife (S.chronicle.word m) := by
  by_cases hm : ∃ h t, S.unit h = some t ∧ m ∈ t.ids
  · obtain ⟨h, t, ht, hm⟩ := hm
    exact (hS.words h t ht m hm).isLife (hphase h)
  · push Not at hm
    exact hS.gone m hm

/-- A unit after a turn was there before, with the same members. -/
lemma exists_of_unit_turn (ht : S.unit h = some t) (hids : t'.ids = t.ids) {k : Handle}
    {u : Tenure} (hu : (S.turn h (some t') c).unit k = some u) :
    ∃ v, S.unit k = some v ∧ u.ids = v.ids ∧ (k = h ∧ u = t' ∧ v = t ∨ k ≠ h ∧ u = v) := by
  by_cases hk : k = h
  · subst hk
    obtain rfl : t' = u := by simpa [Stage.turn] using hu
    exact ⟨t, ht, hids, .inl ⟨rfl, rfl, rfl⟩⟩
  · refine ⟨u, ?_, rfl, .inr ⟨hk, rfl⟩⟩
    simpa [Stage.turn, hk] using hu

/-- A unit before a turn is there afterwards, with the same members. -/
lemma exists_unit_turn (ht : S.unit h = some t) (hids : t'.ids = t.ids) {k : Handle} {v : Tenure}
    (hv : S.unit k = some v) : ∃ u, (S.turn h (some t') c).unit k = some u ∧ u.ids = v.ids := by
  by_cases hk : k = h
  · subst hk
    obtain rfl : t = v := by simpa [ht] using hv
    exact ⟨t', by simp [Stage.turn], hids⟩
  · exact ⟨v, by simpa [Stage.turn, hk] using hv, rfl⟩

/-- A turn in which hooks are let run on the members of a unit brings the unit to another phase. -/
lemma turn (hS : S.Orderly phase) (ht : S.unit h = some t) (hooks : List Hook) {p : Phase}
    (hmembers : t'.members = t.members) (hnumber : t'.number = t.number)
    (hword : ∀ m, c.word m = S.chronicle.word m ++ if m ∈ t.ids then hooks else [])
    (hadmits : ∀ w, (phase h).Admits t.started w → p.Admits t'.started (w ++ hooks)) :
    (S.turn h (some t') c).Orderly (Function.update phase h p) := by
  have hids : t'.ids = t.ids := by
    unfold Tenure.ids
    rw [hmembers, hnumber]
  have hunchanged : ∀ m, m ∉ t.ids → (S.turn h (some t') c).chronicle.word m =
      S.chronicle.word m := by
    intro m hm
    have hchronicle : (S.turn h (some t') c).chronicle.word m = c.word m := rfl
    rw [hchronicle, hword m, if_neg hm, List.append_nil]
  constructor
  case distinct =>
    intro k u hu
    obtain ⟨v, hv, -, ⟨-, rfl, rfl⟩ | ⟨-, rfl⟩⟩ := exists_of_unit_turn ht hids hu
    · exact hmembers ▸ hS.distinct k v hv
    · exact hS.distinct k u hv
  case numbered =>
    intro k u hu m hm
    obtain ⟨v, hv, hsame, -⟩ := exists_of_unit_turn ht hids hu
    exact hS.numbered k v hv m (hsame ▸ hm)
  case apart =>
    intro k u k' u' m hu hu' hm hm'
    obtain ⟨v, hv, hsame, -⟩ := exists_of_unit_turn ht hids hu
    obtain ⟨v', hv', hsame', -⟩ := exists_of_unit_turn ht hids hu'
    exact hS.apart k v k' v' m hv hv' (hsame ▸ hm) (hsame' ▸ hm')
  case words =>
    intro k u hu m hm
    obtain ⟨v, hv, hsame, hcase⟩ := exists_of_unit_turn ht hids hu
    rw [hsame] at hm
    have hwords := hS.words k v hv m hm
    obtain ⟨rfl, rfl, rfl⟩ | ⟨hk, rfl⟩ := hcase
    · have hchronicle : (S.turn k (some u) c).chronicle.word m = c.word m := rfl
      rw [hchronicle, hword m, Function.update_self, if_pos hm]
      exact hadmits _ hwords
    · rw [Function.update_of_ne hk,
        hunchanged m fun hmem => hk (hS.apart k u h t m hv ht hm hmem)]
      exact hwords
  case gone =>
    intro m hm
    have hnone : ∀ k v, S.unit k = some v → m ∉ v.ids := by
      intro k v hv hmem
      obtain ⟨u, hu, hsame⟩ := exists_unit_turn (c := c) ht hids hv
      exact hm k u hu (hsame ▸ hmem)
    rw [hunchanged m (hnone h t ht)]
    exact hS.gone m hnone
  case fresh =>
    intro m hm
    rw [hunchanged m fun hmem => absurd (hS.numbered h t ht m hmem) (Nat.not_lt.mpr hm)]
    exact hS.fresh m hm

/-- A unit that rests becomes active. -/
lemma activate (hS : S.Orderly phase) {n : Node} (hn : S.unit h = some n.tenure)
    (hphase : phase h = .resting) (s : Setting) {t : Turn} (ht : t.chronicle = S.chronicle) :
    (S.turn h (some (n.activate s t).1.tenure) (n.activate s t).2.chronicle).Orderly
      (Function.update phase h .running) := by
  obtain ⟨htenure, -⟩ := n.tenure_activate s t
  have hnodup : n.tenure.ids.Nodup := (hS.distinct h _ hn).nodup_ids _
  refine hS.turn hn (if n.started then [.init] else [.init, .start]) ?_ ?_ ?_ ?_
  · rw [htenure]
  · rw [htenure]
  · intro m
    rw [n.word_activate s t hnodup, ht]
  · intro w hw
    rw [hphase] at hw
    rw [htenure]
    exact hw.activate

end Orderly

/-- The behavior of a unit gives way to a new one, or to none: some of the members are let act for
the last time, and the new ones have not begun.  The unit itself may be new or go away. -/
structure Supplants (S S' : Stage) (h : Handle) (next : Option Tenure) (ms : List MemberId) :
    Prop where
  unit : S'.unit = Function.update S.unit h next
  installed : S.installed.length ≤ S'.installed.length
  /-- The members that are given up are among those of the unit. -/
  former : ∀ m ∈ ms, ∃ t, S.unit h = some t ∧ m ∈ t.ids
  word : ∀ m, S'.chronicle.word m = S.chronicle.word m ++ if m ∈ ms then [.dispose] else []
  distinct : ∀ u, next = some u → u.members.Distinct
  /-- The members that come are new. -/
  new : ∀ u, next = some u → ∀ m ∈ u.ids,
    S.installed.length ≤ m.installation ∧ m.installation < S'.installed.length ∧ u.started = false

namespace Supplants

variable {S S' : Stage} {phase : Handle → Phase} {h k : Handle} {next : Option Tenure}
  {ms : List MemberId} {u : Tenure} {m : MemberId}

/-- A unit that loses a behavior without members, or did not exist, and that gets none. -/
lemma of_none (hinstalled : S.installed.length ≤ S'.installed.length)
    (hunit : S'.unit = Function.update S.unit h none) (hchronicle : S'.chronicle = S.chronicle) :
    Supplants S S' h none [] where
  unit := hunit
  installed := hinstalled
  former := nofun
  word m := by
    rw [hchronicle]
    exact (List.append_nil _).symm
  distinct := nofun
  new := nofun

/-- A unit afterwards is the one that has changed, or was there before. -/
lemma unit_cases (hS : Supplants S S' h next ms) (hu : S'.unit k = some u) :
    k = h ∧ next = some u ∨ k ≠ h ∧ S.unit k = some u := by
  rw [hS.unit] at hu
  by_cases hk : k = h
  · subst hk
    exact .inl ⟨rfl, by simpa using hu⟩
  · exact .inr ⟨hk, by simpa [hk] using hu⟩

/-- Nothing becomes of members that are not given up. -/
lemma unchanged (hS : Supplants S S' h next ms) (hm : m ∉ ms) :
    S'.chronicle.word m = S.chronicle.word m := by
  rw [hS.word m, if_neg hm, List.append_nil]

/-- The members that come were in no unit before. -/
lemma not_mem (hS : Supplants S S' h next ms) (ho : S.Orderly phase) (hu : next = some u)
    (hm : m ∈ u.ids) {t : Tenure} (ht : S.unit k = some t) : m ∉ t.ids :=
  fun hmem => absurd (ho.numbered k t ht m hmem) (Nat.not_lt.mpr (hS.new u hu m hm).1)

/-- No member is in two units. -/
lemma apart (hS : Supplants S S' h next ms) (ho : S.Orderly phase) {k' : Handle} {u' : Tenure}
    (hu : S'.unit k = some u) (hu' : S'.unit k' = some u') (hm : m ∈ u.ids) (hm' : m ∈ u'.ids) :
    k = k' := by
  obtain ⟨rfl, hu⟩ | ⟨-, hu⟩ := hS.unit_cases hu
  · obtain ⟨rfl, -⟩ | ⟨-, hu'⟩ := hS.unit_cases hu'
    · rfl
    · exact absurd hm' (hS.not_mem ho hu hm hu')
  · obtain ⟨rfl, hu'⟩ | ⟨-, hu'⟩ := hS.unit_cases hu'
    · exact absurd hm (hS.not_mem ho hu' hm' hu)
    · exact ho.apart k u k' u' m hu hu' hm hm'

/-- The members of the unit that has changed are to begin, all others are where they were. -/
lemma admits (hS : Supplants S S' h next ms) (ho : S.Orderly phase) (hu : S'.unit k = some u)
    (hm : m ∈ u.ids) :
    (Function.update phase h .resting k).Admits u.started (S'.chronicle.word m) := by
  obtain ⟨rfl, hu⟩ | ⟨hk, hu⟩ := hS.unit_cases hu
  · have hmem : m ∉ ms := by
      intro hmem
      obtain ⟨t, ht, hmt⟩ := hS.former m hmem
      exact hS.not_mem ho hu hm ht hmt
    have hnew := hS.new u hu m hm
    rw [Function.update_self, hS.unchanged hmem, ho.fresh m hnew.1]
    exact .inl ⟨hnew.2.2, rfl⟩
  · have hmem : m ∉ ms := by
      intro hmem
      obtain ⟨t, ht, hmt⟩ := hS.former m hmem
      exact hk (ho.apart k u h t m hu ht hm hmt)
    rw [Function.update_of_ne hk, hS.unchanged hmem]
    exact ho.words k u hu m hm

/-- Members that are in no unit have led a life, those that are given up among them. -/
lemma isLife (hS : Supplants S S' h next ms) (ho : S.Orderly phase) (hphase : phase h ≠ .halted)
    (hm : ∀ k u, S'.unit k = some u → m ∉ u.ids) : IsLife (S'.chronicle.word m) := by
  by_cases hwas : ∃ t, S.unit h = some t ∧ m ∈ t.ids
  · obtain ⟨t, ht, hmt⟩ := hwas
    have hadmits := ho.words h t ht m hmt
    rw [hS.word m]
    split
    · exact hadmits.isLife_dispose hphase
    · rw [List.append_nil]
      exact hadmits.isLife hphase
  · rw [hS.unchanged fun hmem => hwas (hS.former m hmem)]
    refine ho.gone m fun k t ht hmt => ?_
    by_cases hk : k = h
    · subst hk
      exact hwas ⟨t, ht, hmt⟩
    · exact hm k t (by simpa [hS.unit, hk] using ht) hmt

/-- Nothing has become of members that are still to come. -/
lemma word_eq_nil (hS : Supplants S S' h next ms) (ho : S.Orderly phase)
    (hm : S'.installed.length ≤ m.installation) : S'.chronicle.word m = [] := by
  have hlength := hS.installed.trans hm
  rw [hS.unchanged ?_]
  · exact ho.fresh m hlength
  · intro hmem
    obtain ⟨t, ht, hmt⟩ := hS.former m hmem
    exact absurd (ho.numbered h t ht m hmt) (Nat.not_lt.mpr hlength)

/-- When the behavior of a unit that is not halted gives way to another, all members still go
through their lives in order. -/
lemma orderly (hS : Supplants S S' h next ms) (ho : S.Orderly phase) (hphase : phase h ≠ .halted) :
    S'.Orderly (Function.update phase h .resting) where
  distinct k u hu := by
    obtain ⟨-, hu⟩ | ⟨-, hu⟩ := hS.unit_cases hu
    · exact hS.distinct u hu
    · exact ho.distinct k u hu
  numbered k u hu m hm := by
    obtain ⟨-, hu⟩ | ⟨-, hu⟩ := hS.unit_cases hu
    · exact (hS.new u hu m hm).2.1
    · exact (ho.numbered k u hu m hm).trans_le hS.installed
  apart k u k' u' m hu hu' hm hm' := hS.apart ho hu hu' hm hm'
  words k u hu m hm := hS.admits ho hu hm
  gone m hm := hS.isLife ho hphase hm
  fresh m hm := hS.word_eq_nil ho hm

end Supplants

end Stage

/-! ## Turns -/

namespace Root

section Turns

variable {r : Root} {phase : Handle → Phase} {h : Handle}

/-- A unit that does not exist is in every phase. -/
lemma orderly_of_none (hr : r.stage.Orderly phase) (hn : r.units.get? h = none) (p : Phase) :
    r.stage.Orderly (Function.update phase h p) := by
  refine hr.congr rfl rfl rfl fun k t ht _ => Function.update_of_ne (fun hk => ?_) _ _
  rw [hk] at ht
  obtain ⟨n, hn', -⟩ := exists_of_unit ht
  exact absurd (hn.symm.trans hn') nofun

/-- A unit that rests becomes active. -/
lemma orderly_activate (hr : r.stage.Orderly phase) (hphase : phase h = .resting) :
    (r.act h Node.activate).stage.Orderly (Function.update phase h .running) := by
  cases hn : r.units.get? h with
  | none =>
    rw [act_of_none hn]
    exact orderly_of_none hr hn .running
  | some n =>
    rw [stage_act hn]
    exact hr.activate (unit_stage hn) hphase _ rfl

/-- A turn in which one hook is let run on the members of a unit. -/
lemma orderly_runHook (hr : r.stage.Orderly phase) {hook : Hook} (hhook : hook ≠ .dispose)
    {p : Phase} (hadmits : ∀ started w, (phase h).Admits started w →
      p.Admits started (w ++ [hook])) :
    (r.act h fun s n t => n.runHook s hook t).stage.Orderly (Function.update phase h p) := by
  cases hn : r.units.get? h with
  | none =>
    rw [act_of_none hn]
    exact orderly_of_none hr hn p
  | some n =>
    obtain ⟨htenure, hchronicle⟩ := n.tenure_runHook (r.setting n.address) hhook r.turn
    have hnodup : n.tenure.ids.Nodup := (hr.distinct h _ (unit_stage hn)).nodup_ids _
    rw [stage_act hn]
    refine hr.turn (unit_stage hn) [hook] ?_ ?_ ?_ ?_
    · rw [htenure]
    · rw [htenure]
    · intro m
      rw [hchronicle, Chronicle.word_momentAll _ hnodup]
      rfl
    · intro w hw
      rw [htenure]
      exact hadmits _ w hw

/-- A unit that runs is stopped. -/
lemma orderly_stop (hr : r.stage.Orderly phase) (hphase : phase h = .running) :
    (r.act h Node.stop).stage.Orderly (Function.update phase h .halted) :=
  orderly_runHook hr (by decide) fun started w hw =>
    (hphase ▸ hw : Phase.running.Admits started w).stop

/-- A unit that is halted is reset. -/
lemma orderly_reset (hr : r.stage.Orderly phase) (hphase : phase h = .halted) :
    (r.act h Node.reset).stage.Orderly (Function.update phase h .resting) :=
  orderly_runHook hr (by decide) fun started w hw =>
    (hphase ▸ hw : Phase.halted.Admits started w).reset

/-- Turns that bring units from one phase to another, one after the other. -/
lemma orderly_actAll {f : Setting → Node → Turn → Node × Turn} {p q : Phase}
    (hf : ∀ (r : Root) phase h, r.stage.Orderly phase → phase h = p →
      (r.act h f).stage.Orderly (Function.update phase h q))
    {hs : List Handle} (hnodup : hs.Nodup) (hr : r.stage.Orderly phase)
    (hphase : ∀ h ∈ hs, phase h = p) :
    (r.actAll hs f).stage.Orderly fun h => if h ∈ hs then q else phase h := by
  induction hs generalizing r phase with
  | nil => exact hr
  | cons h hs ih =>
    obtain ⟨hnew, hnodup⟩ := List.nodup_cons.mp hnodup
    have hfirst := hf r phase h hr (hphase h List.mem_cons_self)
    have hrest : ∀ k ∈ hs, Function.update phase h q k = p := by
      intro k hk
      have hne : k ≠ h := fun heq => hnew (heq ▸ hk)
      rw [Function.update_of_ne hne]
      exact hphase k (List.mem_cons_of_mem h hk)
    refine (ih hnodup hfirst hrest).congr rfl rfl rfl fun k t _ _ => ?_
    by_cases hk : k = h
    · simp [hk, hnew]
    · simp [hk]

/-- A unit that is disposed of gives up all its members. -/
lemma supplants_dispose (hr : r.stage.Orderly phase) {n : Node} (hn : r.units.get? h = some n) :
    r.stage.Supplants (r.act h Node.dispose).stage h
      (some (n.dispose (r.setting n.address) r.turn).1.tenure) n.tenure.ids := by
  obtain ⟨hids, hmoments⟩ := n.tenure_dispose (r.setting n.address) r.turn
  have hnodup : n.tenure.ids.Nodup := (hr.distinct h _ (unit_stage hn)).nodup_ids _
  rw [stage_act hn]
  constructor
  case unit => rfl
  case installed => exact le_rfl
  case former => exact fun m hm => ⟨n.tenure, unit_stage hn, hm⟩
  case word =>
    intro m
    exact (Chronicle.word_congr hmoments m).trans
      (Chronicle.word_momentAll r.turn.chronicle hnodup .dispose m)
  case distinct =>
    intro u hu
    cases hu
    exact ⟨List.nodup_nil, List.nodup_nil, List.nodup_nil⟩
  case new =>
    intro u hu m hm
    cases hu
    rw [hids] at hm
    contradiction

/-- A unit that is disposed of and dropped. -/
lemma orderly_dropNode (hr : r.stage.Orderly phase) (hphase : ∀ h, phase h ≠ .halted) :
    (r.dropNode h).stage.Orderly phase := by
  have hdisposed : ∃ p, (r.act h Node.dispose).stage.Orderly (Function.update phase h p) ∧
      p ≠ .halted := by
    cases hn : r.units.get? h with
    | none =>
      rw [act_of_none hn]
      exact ⟨phase h, by rwa [Function.update_eq_self], hphase h⟩
    | some n => exact ⟨.resting, (supplants_dispose hr hn).orderly hr (hphase h), nofun⟩
  obtain ⟨p, hdisposed, hp⟩ := hdisposed
  have hne : Function.update phase h p h ≠ .halted := by rwa [Function.update_self]
  have hsupplants : (r.act h Node.dispose).stage.Supplants (r.dropNode h).stage h none [] := by
    rw [stage_dropNode]
    exact .of_none le_rfl rfl rfl
  have hdropped := hsupplants.orderly hdisposed hne
  refine hdropped.congr rfl rfl rfl fun k t ht _ => ?_
  rw [stage_dropNode] at ht
  by_cases hk : k = h
  · subst hk
    simp at ht
  · simp [hk]

end Turns

/-! ## Installations -/

/-- The members of an iteration of a behavior have different names, and its references have no
values yet. -/
lemma Declared.facts {i : Iteration} (hi : Declared i) :
    i.members.Distinct ∧ i.cells = Iteration.initialCells i.members := by
  obtain ⟨b, j, source, hj, rfl⟩ := hi
  unfold Iteration.ofBehavior at hj
  match hm : Members.ofBehavior b with
  | .error e =>
    rw [hm] at hj
    contradiction
  | .ok m =>
    rw [hm] at hj
    cases hj
    exact ⟨Members.distinct_ofBehavior hm, rfl⟩

/-- A unit that is given another behavior gives up the members that are not carried over, before it
is active with the new one. -/
lemma supplants_succeed {r : Root} {phase : Handle → Phase} (hr : r.stage.Orderly phase)
    {h : Handle} {n : Node} (hn : r.units.get? h = some n) {i next : Iteration}
    (hdistinct : next.members.Distinct) (hnumber : next.number = r.installed.length) :
    r.stage.Supplants ((r.enlist i).stage.turn h
      (some (n.succeed ((r.enlist i).setting n.address) next (r.enlist i).turn).1.tenure)
      (n.succeed ((r.enlist i).setting n.address) next (r.enlist i).turn).2.chronicle) h
      (some (n.succeed ((r.enlist i).setting n.address) next (r.enlist i).turn).1.tenure)
      ((Iteration.givenUp next n.iteration).map Prod.fst) := by
  obtain ⟨htenure, hmoments⟩ :=
    n.tenure_succeed ((r.enlist i).setting n.address) next (r.enlist i).turn
  obtain ⟨hnodup, hsubset⟩ := Iteration.ids_givenUp hdistinct (hr.distinct h _ (unit_stage hn))
  constructor
  case unit => rfl
  case installed => exact Nat.le_succ _
  case former => exact fun m hm => ⟨n.tenure, unit_stage hn, hsubset m hm⟩
  case word =>
    intro m
    exact (Chronicle.word_congr hmoments m).trans
      (Chronicle.word_momentAll r.chronicle hnodup .dispose m)
  case distinct =>
    intro u hu
    cases hu
    rw [htenure]
    exact hdistinct
  case new =>
    intro u hu m hm
    cases hu
    rw [htenure] at hm ⊢
    have hm := (Members.installation_of_mem_ids hm).trans hnumber
    exact ⟨hm.ge, hm ▸ Nat.lt_succ_self _, rfl⟩

/-- A behavior that is put in place. -/
lemma orderly_putIteration {r : Root} (hr : r.stage.Orderly fun _ => r.stage.phase) (h : Handle)
    {i : Iteration} (hi : Declared i) :
    (r.putIteration h i).stage.Orderly fun _ => r.stage.phase := by
  unfold putIteration
  cases hn : r.units.get? h with
  | none =>
    have hnone : (r.enlist i).units.get? h = none := hn
    have hunit : r.stage.unit h = none := congrArg (Option.map Node.tenure) hn
    rw [act_of_none hnone]
    have hsupplants : r.stage.Supplants (r.enlist i).stage h none [] :=
      .of_none (Nat.le_succ _) (Function.update_eq_self_iff.mpr hunit.symm).symm rfl
    have henlisted := hsupplants.orderly hr r.stage.phase_ne_halted
    refine (orderly_of_none henlisted hnone r.stage.phase).congr rfl rfl rfl fun k t _ _ => ?_
    rw [Function.update_idem, Function.update_eq_self]
  | some n =>
    have hsome : (r.enlist i).units.get? h = some n := hn
    generalize hnext : ({ i with number := r.installed.length } : Iteration) = next
    have hnumber : next.number = r.installed.length := by rw [← hnext]
    have hdistinct : next.members.Distinct := by
      rw [← hnext]
      exact hi.facts.1
    have hsucceeded := (supplants_succeed hr hn hdistinct hnumber (i := i)).orderly hr
      r.stage.phase_ne_halted
    rw [stage_act hsome, Node.install_eq]
    unfold Stage.phase stage at hsucceeded ⊢
    simp only at hsucceeded ⊢
    cases hactive : r.clock.isActive with
    | false =>
      rw [hactive] at hsucceeded
      rw [if_neg Bool.false_ne_true]
      refine hsucceeded.congr rfl rfl rfl fun k _ _ _ => ?_
      exact (congrFun (Function.update_eq_self h fun _ => Phase.resting) k).symm
    | true =>
      rw [hactive] at hsucceeded
      rw [if_pos rfl]
      have hactivated := hsucceeded.activate (by exact Function.update_self ..)
        (Function.update_self ..) ((r.enlist i).setting n.address) rfl
      refine hactivated.congr ?_ rfl rfl fun k _ _ _ => ?_
      · exact (Function.update_idem ..).symm
      · rw [Function.update_idem]
        exact (congrFun (Function.update_eq_self h fun _ => Phase.running) k).symm

/-- Putting a behavior in place changes neither the activity nor the listeners. -/
lemma active_putIteration (r : Root) (h : Handle) (i : Iteration) :
    (r.putIteration h i).stage.active = r.stage.active := (clock_act (r.enlist i) h _).1

/-! ## Moves -/

/-- The moves that have to do with the life of behaviors, and all others. -/
inductive LifeMove (r : Root) : Root → Prop
  | still {s : Root} (hs : s.stage = r.stage) : LifeMove r s
  | start : LifeMove r r.start.2
  | stop : LifeMove r r.stop.2
  | install (h : Handle) {i : Iteration} (hi : Declared i) : LifeMove r (r.putIteration h i)
  /-- A unit is added, and the first behavior of the unit is put in place. -/
  | add (parent : Handle) (id : String) {n : Node} (hn : n.tenure = Iteration.empty.tenure false)
      (hnew : (r.units.insert n).1 ∉ r.clock.listeners) {i : Iteration} (hi : Declared i) :
      LifeMove r ((r.insertNode parent id n).2.putIteration (r.insertNode parent id n).1 i)
  | remove (parent : Path) (id : String) : LifeMove r (r.removeChild parent id).2

/-- In a tree the handle of a new unit is not a listener yet. -/
lemma IsTree.new_not_mem {r : Root} (hr : r.IsTree) (n : Node) :
    (r.units.insert n).1 ∉ r.clock.listeners := by
  intro hmem
  have hsome := (hr.skeleton.listening _).mp hmem
  have hnone : r.skeleton.place (r.units.insert n).1 = none :=
    congrArg (Option.map Node.place) (Arena.get?_insert_fst hr.units n)
  rw [hnone] at hsome
  contradiction

/-- Every move has to do with the life of behaviors in one of these ways, or leaves the stage
alone. -/
lemma Move.lifeMove {r s : Root} (h : Move r s) (hr : r.IsTree) : LifeMove r s := by
  cases h with
  | turn h hk => exact .still (stage_act_plain r h hk)
  | answer c hkind args => exact .still (sends_sendAnswer r c _ args).stage
  | start => exact .start
  | stop => exact .stop
  | add parent id typeName hkind b =>
    unfold addUnit
    match hcheck : r.checkUnit parent id b with
    | .error e => exact .still rfl
    | .ok (h, address, i) =>
      exact .add h id rfl (hr.new_not_mem _) (declared_of_checkUnit hcheck)
  | install h hi => exact .install h hi
  | remove parent id => exact .remove parent id
  | connect p c =>
    refine .still ?_
    unfold Root.connect
    match hcheck : r.checkConnection p c with
    | .error e => rfl
    | .ok (h, m) =>
      obtain ⟨n, -, hn, -, -, -, -, rfl⟩ := checkConnection_eq_ok.mp hcheck
      exact stage_set hn rfl
  | disconnect p c =>
    refine .still ?_
    unfold Root.disconnect
    split
    · rfl
    · rename_i h _
      split
      · rename_i m hm
        obtain ⟨n, hn, hdisconnect⟩ := Option.bind_eq_some_iff.mp hm
        unfold Node.disconnect? at hdisconnect
        split at hdisconnect
        · cases hdisconnect
          exact stage_set hn rfl
        · contradiction
      · rfl
  | edit h hf => exact .still (stage_modify r h hf.tenure)
  | learn => exact .still rfl
  | request => exact .still rfl
  | quiet => exact .still rfl
  | send hc => exact .still (sends_send r _).stage
  | more h =>
    cases h with
    | books => exact .still rfl
    | take h => exact .still rfl
    | takeEmission h => exact .still rfl
    | advance h =>
      obtain ⟨rfl, -⟩ := Clock.tick?_eq_some h
      exact .still rfl

end Root

/-- Between operations the members of all units are in the phase of the root. -/
def Stage.Settled (S : Stage) : Prop := S.Orderly fun _ => S.phase

namespace Root

/-- Units that exist listen. -/
lemma IsTree.mem_listeners {r : Root} (hr : r.IsTree) {h : Handle} {t : Tenure}
    (ht : r.stage.unit h = some t) : h ∈ r.stage.listeners := by
  obtain ⟨n, hn, -⟩ := exists_of_unit ht
  exact (hr.skeleton.listening h).mpr (Option.isSome_iff_exists.mpr ⟨_, place_skeleton hn⟩)

/-- A root is settled when the units that listen are in its phase. -/
lemma IsTree.settled {r : Root} (hr : r.IsTree) {phase : Handle → Phase}
    (h : r.stage.Orderly phase) (hphase : ∀ k ∈ r.stage.listeners, phase k = r.stage.phase) :
    r.stage.Settled :=
  h.congr rfl rfl rfl fun k _ ht _ => (hphase k (hr.mem_listeners ht)).symm

/-- Starting a root. -/
lemma settled_start {r : Root} (htree : r.IsTree) (hr : r.stage.Settled) :
    r.start.2.stage.Settled := by
  have htree' : r.start.2.IsTree := htree.changes (changes_start r)
  unfold start at htree' ⊢
  cases hclock : r.clock.become? .active with
  | none => exact hr
  | some clock =>
    rw [hclock] at htree'
    have hactivity := Clock.mayBecome_of_become? hclock
    obtain rfl := Clock.become?_eq_some hclock
    have hresting : { r with clock := { r.clock with activity := .active } }.stage.Orderly
        fun _ => .resting := by
      refine hr.congr rfl rfl rfl fun h t _ _ => ?_
      unfold Stage.phase stage Clock.isActive
      cases ha : r.clock.activity with
      | active =>
        rw [ha] at hactivity
        contradiction
      | _ => rfl
    have hnodup := htree.skeleton.nodup_listeners
    obtain ⟨hactive, hlisteners⟩ := clock_actAll
      { r with clock := { r.clock with activity := .active } } r.clock.listeners Node.activate
    refine htree'.settled (orderly_actAll (fun _ _ _ => orderly_activate) hnodup hresting
      fun _ _ => rfl) fun k hk => ?_
    rw [hlisteners] at hk
    unfold Stage.phase
    rw [hactive]
    exact if_pos hk

/-- Stopping a root. -/
lemma settled_stop {r : Root} (htree : r.IsTree) (hr : r.stage.Settled) :
    r.stop.2.stage.Settled := by
  have htree' : r.stop.2.IsTree := htree.changes (changes_stop r)
  unfold stop at htree' ⊢
  cases hclock : r.clock.become? .idle with
  | none => exact hr
  | some clock =>
    rw [hclock] at htree'
    have hactivity := Clock.mayBecome_of_become? hclock
    obtain rfl := Clock.become?_eq_some hclock
    have hrunning : { r with clock := { r.clock with activity := .idle } }.stage.Orderly
        fun _ => .running := by
      refine hr.congr rfl rfl rfl fun h t _ _ => ?_
      unfold Stage.phase stage Clock.isActive
      cases ha : r.clock.activity with
      | active => rfl
      | _ =>
        rw [ha] at hactivity
        contradiction
    have hnodup := htree.skeleton.nodup_listeners
    have hstopped := orderly_actAll (fun _ _ _ => orderly_stop) hnodup hrunning fun _ _ => rfl
    have hreset := orderly_actAll (fun _ _ _ => orderly_reset) hnodup hstopped
      fun _ hk => if_pos hk
    obtain ⟨hactive, hlisteners⟩ := clock_actAll
      { r with clock := { r.clock with activity := .idle } } r.clock.listeners Node.stop
    obtain ⟨hactive', hlisteners'⟩ := clock_actAll
      ({ r with clock := { r.clock with activity := .idle } }.actAll r.clock.listeners Node.stop)
      r.clock.listeners Node.reset
    refine htree'.settled hreset fun k hk => ?_
    rw [hlisteners', hlisteners] at hk
    unfold Stage.phase
    rw [hactive', hactive]
    exact if_pos hk

/-- Putting a behavior in place. -/
lemma settled_putIteration {r : Root} (hr : r.stage.Settled) (h : Handle) {i : Iteration}
    (hi : Declared i) : (r.putIteration h i).stage.Settled := by
  have hactive := active_putIteration r h i
  unfold Stage.Settled Stage.phase
  rw [hactive]
  exact orderly_putIteration hr h hi

/-- Adding a unit that has no behavior yet. -/
lemma settled_insertNode {r : Root} (htree : r.IsTree) (hr : r.stage.Settled) (parent : Handle)
    (id : String) {n : Node} (hn : n.tenure = Iteration.empty.tenure false) :
    (r.insertNode parent id n).2.stage.Settled := by
  have hempty : n.tenure.ids = [] := by
    rw [hn]
    rfl
  unfold Stage.Settled
  rw [stage_insertNode htree.units parent id n (htree.new_not_mem n)]
  have hsupplants : r.stage.Supplants
      { r.stage with
        unit := Function.update r.stage.unit (r.units.insert n).1 n.tenure
        listeners := r.stage.listeners ++ [(r.units.insert n).1] }
      (r.units.insert n).1 n.tenure [] := by
    constructor
    case unit => rfl
    case installed => exact le_rfl
    case former => exact nofun
    case word => exact fun m => (List.append_nil _).symm
    case distinct =>
      intro u hu
      cases hu
      rw [hn]
      exact ⟨List.nodup_nil, List.nodup_nil, List.nodup_nil⟩
    case new =>
      intro u hu m hm
      cases hu
      rw [hempty] at hm
      contradiction
  have hreplaced := hsupplants.orderly hr r.stage.phase_ne_halted
  refine hreplaced.congr rfl rfl rfl fun k t ht hids => ?_
  by_cases hk : k = (r.units.insert n).1
  · subst hk
    obtain rfl : n.tenure = t := by simpa using ht
    exact absurd hempty hids
  · rw [Function.update_of_ne hk]
    rfl

/-- What the removal of a child leaves. -/
lemma settled_removeChild {r : Root} (hr : r.stage.Settled) (parent : Path) (id : String) :
    (r.removeChild parent id).2.stage.Settled := by
  have hremoved := preserve_removeChild
    (P := fun S => S.Orderly (fun _ => r.stage.phase) ∧ S.active = r.stage.active)
    (fun s h hs => ⟨orderly_dropNode hs.1 fun _ => r.stage.phase_ne_halted, by
      rw [stage_dropNode]
      exact (clock_act s h Node.dispose).1.trans hs.2⟩) ⟨hr, rfl⟩ parent id
  unfold Stage.Settled Stage.phase
  rw [hremoved.2]
  exact hremoved.1

/-! ## Runs -/

/-- Every move leaves a root settled. -/
lemma settled_move {r s : Root} (htree : r.IsTree) (hr : r.stage.Settled) (h : Move r s) :
    s.stage.Settled := by
  cases h.lifeMove htree with
  | still hs =>
    rw [hs]
    exact hr
  | start => exact settled_start htree hr
  | stop => exact settled_stop htree hr
  | install k hi => exact settled_putIteration hr k hi
  | add parent id hn hnew hi =>
    exact settled_putIteration (settled_insertNode htree hr parent id hn) _ hi
  | remove parent id => exact settled_removeChild hr parent id

/-- In a new root there is a unit without members, and nothing has happened. -/
lemma stage_of_new {config : Config} {catalog : Catalog} {r : Root}
    (h : Root.new config catalog = .ok r) :
    r.stage.installed = [] ∧ r.stage.chronicle = {} ∧
      ∀ k t, r.stage.unit k = some t → t = Iteration.empty.tenure false := by
  have hempty : ({} : Arena Node).Valid := ⟨List.nodup_nil, by simp⟩
  obtain ⟨address, -, rfl⟩ := new_eq_ok h
  refine ⟨rfl, rfl, fun k t ht => ?_⟩
  obtain ⟨n, hn, rfl⟩ := exists_of_unit ht
  rw [Arena.get?_insert_snd hempty] at hn
  split at hn
  · cases hn
    rfl
  · contradiction

/-- A new root is settled. -/
lemma settled_stage_of_new {config : Config} {catalog : Catalog} {r : Root}
    (h : Root.new config catalog = .ok r) : r.stage.Settled := by
  obtain ⟨-, hchronicle, hunit⟩ := stage_of_new h
  have hids : ∀ k t, r.stage.unit k = some t → t.ids = [] := by
    intro k t ht
    rw [hunit k t ht]
    rfl
  refine ⟨fun k t ht => ?_, fun k t ht m hm => ?_, fun k t k' t' m ht ht' hm hm' => ?_,
    fun k t ht m hm => ?_, fun m hm => ?_, fun m hm => ?_⟩
  · rw [hunit k t ht]
    exact ⟨List.nodup_nil, List.nodup_nil, List.nodup_nil⟩
  · rw [hids k t ht] at hm
    contradiction
  · rw [hids k t ht] at hm
    contradiction
  · rw [hids k t ht] at hm
    contradiction
  · rw [hchronicle]
    exact ⟨[], .inl rfl, .inl rfl⟩
  · rw [hchronicle]
    rfl

/-- Every run leaves a tree that is settled. -/
lemma Reachable.settled_stage {r : Root} (h : Reachable r) : r.stage.Settled :=
  (h.induction_moves (P := fun r => r.IsTree ∧ r.stage.Settled)
    (fun _ _ hmove hr => ⟨hr.1.changes hmove.changes, settled_move hr.1 hr.2 hmove⟩)
    (fun r c _ hr => ⟨hr.1.keeps (sends_send r c).keeps, (sends_send r c).stage ▸ hr.2⟩)
    (fun _ _ _ _ _ _ _ _ hr => ⟨hr.1.keeps ⟨rfl, id⟩, hr.2⟩)
    fun _ _ _ hnew => ⟨isTree_of_new hnew, settled_stage_of_new hnew⟩).2

/-- Moves leave a tree that is settled. -/
lemma Moves.settled_stage {r s : Root} (h : Moves r s) (htree : r.IsTree) (hr : r.stage.Settled) :
    s.IsTree ∧ s.stage.Settled :=
  h.preserve (P := fun r => r.IsTree ∧ r.stage.Settled)
    (fun _ _ hmove hr => ⟨hr.1.changes hmove.changes, settled_move hr.1 hr.2 hmove⟩) ⟨htree, hr⟩

/-! ## Members in place -/

/-- A member belongs to the behavior of a unit. -/
def InPlace (r : Root) (m : MemberId) : Prop :=
  ∃ h n, r.units.get? h = some n ∧ m ∈ n.iteration.upkeeps.map Prod.fst

/-- Members in place are members of the tenure of a unit. -/
lemma inPlace_iff {r : Root} {m : MemberId} :
    r.InPlace m ↔ ∃ h t, r.stage.unit h = some t ∧ m ∈ t.ids := by
  constructor
  · rintro ⟨h, n, hn, hm⟩
    rw [Iteration.map_fst_upkeeps] at hm
    exact ⟨h, n.tenure, unit_stage hn, hm⟩
  · rintro ⟨h, t, ht, hm⟩
    obtain ⟨n, hn, rfl⟩ := exists_of_unit ht
    refine ⟨h, n, hn, ?_⟩
    rw [Iteration.map_fst_upkeeps]
    exact hm

/-- A hook that is not the last one is let run on all members of units, one unit after the other,
and changes nothing else. -/
lemma stage_actAll_runHook (hook : Hook) (hhook : hook ≠ .dispose)
    {f : Setting → Node → Turn → Node × Turn} (hf : ∀ s n t, f s n t = n.runHook s hook t)
    (r : Root) (hs : List Handle) :
    (r.actAll hs f).stage =
      { r.stage with chronicle := r.chronicle.momentAll (hs.flatMap r.stage.idsAt) hook } := by
  induction hs generalizing r with
  | nil => rfl
  | cons h hs ih =>
    have hfirst : (r.act h f).stage =
        { r.stage with chronicle := r.chronicle.momentAll (r.stage.idsAt h) hook } := by
      unfold Stage.idsAt
      cases hn : r.units.get? h with
      | none =>
        have hunit : r.stage.unit h = none := congrArg (Option.map Node.tenure) hn
        rw [act_of_none hn, hunit]
        rfl
      | some n =>
        obtain ⟨htenure, hchronicle⟩ := n.tenure_runHook (r.setting n.address) hhook r.turn
        rw [stage_act hn, hf, htenure, hchronicle, ← unit_stage hn]
        unfold Stage.turn
        rw [Function.update_eq_self, unit_stage hn]
        rfl
    have hids : (r.act h f).stage.idsAt = r.stage.idsAt := by
      rw [hfirst]
      rfl
    have hchronicle : (r.act h f).chronicle = r.chronicle.momentAll (r.stage.idsAt h) hook :=
      congrArg Stage.chronicle hfirst
    have hrest := ih (r.act h f)
    rw [hids, hchronicle, ← Chronicle.momentAll_append, hfirst] at hrest
    exact hrest

/-- Units are stopped, and then reset in the same order. -/
lemma chronicle_stop_reset (r : Root) (hs : List Handle) :
    ((r.actAll hs Node.stop).actAll hs Node.reset).chronicle =
      (r.chronicle.momentAll (hs.flatMap r.stage.idsAt) .stop).momentAll
        (hs.flatMap r.stage.idsAt) .reset := by
  have hstopped := stage_actAll_runHook (f := Node.stop) .stop nofun (fun _ _ _ => rfl) r hs
  have hreset := stage_actAll_runHook (f := Node.reset) .reset nofun (fun _ _ _ => rfl)
    (r.actAll hs Node.stop) hs
  have hids : (r.actAll hs Node.stop).stage.idsAt = r.stage.idsAt := by
    rw [hstopped]
    rfl
  have hchronicle : (r.actAll hs Node.stop).chronicle =
      r.chronicle.momentAll (hs.flatMap r.stage.idsAt) .stop := congrArg Stage.chronicle hstopped
  rw [hids, hchronicle] at hreset
  exact congrArg Stage.chronicle hreset

/-- When an active root stops, all members are stopped, and then reset in the same order. -/
lemma moments_stop {r : Root} (hactive : r.clock.isActive = true) :
    r.stop.2.chronicle.moments =
      (r.stage.ids.map (·, Hook.reset)).reverse ++ (r.stage.ids.map (·, Hook.stop)).reverse ++
        r.chronicle.moments := by
  have hclock : r.clock.become? .idle = some { r.clock with activity := .idle } := by
    have hactivity : r.clock.activity = .active := beq_iff_eq.mp hactive
    unfold Clock.become?
    rw [hactivity]
    rfl
  unfold stop
  rw [hclock]
  simp only
  rw [chronicle_stop_reset, Chronicle.moments_momentAll, Chronicle.moments_momentAll,
    List.append_assoc]
  rfl

/-- In a settled tree the members of the stage are those in place, and different. -/
lemma IsTree.ids {r : Root} (htree : r.IsTree) (hr : r.stage.Settled) :
    r.stage.ids.Nodup ∧ ∀ m, m ∈ r.stage.ids ↔ r.InPlace m := by
  have hmem : ∀ h m, m ∈ r.stage.idsAt h ↔ ∃ t, r.stage.unit h = some t ∧ m ∈ t.ids := by
    intro h m
    unfold Stage.idsAt
    cases r.stage.unit h <;> simp
  refine ⟨List.nodup_flatMap.mpr ⟨fun h _ => ?_, ?_⟩, fun m => ?_⟩
  · unfold Stage.idsAt
    cases ht : r.stage.unit h with
    | none => exact List.nodup_nil
    | some t => exact (hr.distinct h t ht).nodup_ids _
  · refine htree.skeleton.nodup_listeners.imp fun {h k} hne m hm hm' => hne ?_
    obtain ⟨t, ht, hm⟩ := (hmem h m).mp hm
    obtain ⟨u, hu, hm'⟩ := (hmem k m).mp hm'
    exact hr.apart h t k u m ht hu hm hm'
  · rw [inPlace_iff, Stage.ids, List.mem_flatMap]
    constructor
    · rintro ⟨h, -, hm⟩
      obtain ⟨t, ht, hm⟩ := (hmem h m).mp hm
      exact ⟨h, t, ht, hm⟩
    · rintro ⟨h, t, ht, hm⟩
      exact ⟨h, htree.mem_listeners ht, (hmem h m).mpr ⟨t, ht, hm⟩⟩

/-- When units become active, one after the other, all their members are initialized, and those of
units that have not been started are started. -/
lemma word_actAll_activate {r : Root} {phase : Handle → Phase} (hr : r.stage.Orderly phase)
    {hs : List Handle} (hnodup : hs.Nodup) (hphase : ∀ h ∈ hs, phase h = .resting) {h : Handle}
    {t : Tenure} (ht : r.stage.unit h = some t) {m : MemberId} (hm : m ∈ t.ids) :
    (r.actAll hs Node.activate).chronicle.word m = r.chronicle.word m ++
      if h ∈ hs then if t.started then [.init] else [.init, .start] else [] := by
  induction hs generalizing r phase t with
  | nil => exact (List.append_nil _).symm
  | cons k hs ih =>
    obtain ⟨hnew, hleft⟩ := List.nodup_cons.mp hnodup
    have hfirst := orderly_activate hr (hphase k List.mem_cons_self)
    have hrest : ∀ h ∈ hs, Function.update phase k .running h = .resting := by
      intro h hmem
      have hne : h ≠ k := fun heq => hnew (heq ▸ hmem)
      rw [Function.update_of_ne hne]
      exact hphase h (List.mem_cons_of_mem k hmem)
    have hactAll : r.actAll (k :: hs) Node.activate = (r.act k Node.activate).actAll hs
      Node.activate := rfl
    rw [hactAll]
    cases hn : r.units.get? k with
    | none =>
      have hne : h ≠ k := by
        rintro rfl
        obtain ⟨n, hn', -⟩ := exists_of_unit ht
        exact absurd (hn.symm.trans hn') nofun
      rw [act_of_none hn] at hfirst ⊢
      simpa [hne] using ih hfirst hleft hrest ht hm
    | some n =>
      obtain ⟨htenure, -⟩ := n.tenure_activate (r.setting n.address) r.turn
      have hstage := stage_act hn Node.activate
      have hword := n.word_activate (r.setting n.address) r.turn
        ((hr.distinct k _ (unit_stage hn)).nodup_ids _) m
      have hchronicle : (r.act k Node.activate).chronicle =
          (n.activate (r.setting n.address) r.turn).2.chronicle := congrArg Stage.chronicle hstage
      rw [← hchronicle] at hword
      by_cases hk : h = k
      · subst hk
        obtain rfl : n.tenure = t := by simpa [unit_stage hn] using ht
        have hunit : (r.act h Node.activate).stage.unit h =
            some { n.tenure with started := true } := by
          rw [hstage, htenure]
          exact Function.update_self ..
        rw [ih hfirst hleft hrest hunit hm, hword, if_pos hm, if_neg hnew,
          if_pos List.mem_cons_self, List.append_nil]
        rfl
      · have hunit : (r.act k Node.activate).stage.unit h = some t := by
          rw [hstage]
          exact (Function.update_of_ne hk ..).trans ht
        have hother : m ∉ n.tenure.ids := fun hmem =>
          hk (hr.apart h t k _ m ht (unit_stage hn) hm hmem)
        rw [ih hfirst hleft hrest hunit hm, hword, if_neg hother, List.append_nil]
        simp [hk, turn]

/-- Starting a root that is not active initializes all members in place, and starts those that have
never been initialized. -/
lemma word_start {r : Root} (htree : r.IsTree) (hr : r.stage.Settled)
    (hactive : r.clock.isActive = false) {m : MemberId} (hm : r.InPlace m) :
    r.start.2.chronicle.word m = r.chronicle.word m ++
      if r.chronicle.word m = [] then [.init, .start] else [.init] := by
  obtain ⟨h, t, ht, hm⟩ := inPlace_iff.mp hm
  have hresting : r.stage.phase = .resting := if_neg (Bool.eq_false_iff.mp hactive)
  have hclock : r.clock.become? .active = some { r.clock with activity := .active } := by
    unfold Clock.isActive at hactive
    unfold Clock.become?
    cases hactivity : r.clock.activity with
    | active =>
      rw [hactivity] at hactive
      contradiction
    | _ => rfl
  have hactivated := word_actAll_activate
    (r := { r with clock := { r.clock with activity := .active } })
    (hr.congr rfl rfl rfl fun _ _ _ _ => rfl) htree.skeleton.nodup_listeners
    (fun _ _ => hresting) ht hm
  rw [if_pos (show h ∈ r.skeleton.listeners from htree.mem_listeners ht)] at hactivated
  unfold start
  rw [hclock]
  refine hactivated.trans ?_
  have hadmits := hr.words h t ht m hm
  rw [hresting] at hadmits
  obtain ⟨hstarted, hword⟩ | ⟨hstarted, k, hword⟩ := hadmits
  · have hword : r.chronicle.word m = [] := hword
    rw [hstarted, hword]
    rfl
  · have hword : r.chronicle.word m = rounds k ++ [.stop, .reset] := hword
    rw [hstarted, hword]
    simp

/-- The life of members.  At every moment of a run the hooks that were let run on a member,
whichever of them have failed, make up a life, in which the member is started once, when it is
initialized for the first time.  A member in place has not been disposed of, and its last hook was
to be initialized or started if and only if the root is active.  Starting a root that is not active
lets all members in place be initialized, and started if they are new; stopping one that is active
lets all of them be stopped before any is reset. -/
theorem lifecycle {r s : Root} (h : Reachable r) (hs : Moves r s) :
    (∀ m, IsLife (s.chronicle.word m)) ∧
      (∀ m, (s.chronicle.word m).count .start = if .init ∈ s.chronicle.word m then 1 else 0) ∧
      (∀ m, s.InPlace m → .dispose ∉ s.chronicle.word m ∧
        ((∃ hook ∈ (s.chronicle.word m).getLast?, hook = .init ∨ hook = .start) ↔
          s.clock.isActive = true)) ∧
      (s.clock.isActive = false → ∀ m, s.InPlace m →
        s.start.2.chronicle.word m = s.chronicle.word m ++
          if s.chronicle.word m = [] then [.init, .start] else [.init]) ∧
      (s.clock.isActive = true → ∃ order : List MemberId, order.Nodup ∧
        (∀ m, m ∈ order ↔ s.InPlace m) ∧
        s.stop.2.chronicle.moments =
          (order.map (·, Hook.reset)).reverse ++ (order.map (·, Hook.stop)).reverse ++
            s.chronicle.moments) := by
  obtain ⟨htree, hsettled⟩ := hs.settled_stage h.isTree h.settled_stage
  have hlife : ∀ m, IsLife (s.chronicle.word m) :=
    hsettled.isLife fun _ => s.stage.phase_ne_halted
  refine ⟨hlife, fun m => (hlife m).count_start, fun m hm => ?_,
    fun hactive m hm => word_start htree hsettled hactive hm,
    fun hactive => ⟨s.stage.ids, (htree.ids hsettled).1, (htree.ids hsettled).2,
      moments_stop hactive⟩⟩
  obtain ⟨k, t, ht, hm⟩ := inPlace_iff.mp hm
  have hadmits := hsettled.words k t ht m hm
  have hphase : s.stage.phase = .running ↔ s.clock.isActive = true := by
    unfold Stage.phase
    split <;> simp_all [stage]
  exact ⟨hadmits.dispose_not_mem, hadmits.last.trans hphase⟩

/-- A behavior with a control that fails at every moment of its life. -/
def brokenLamp : Behavior := [.control "lamp" (.observer ⟨Hook.all⟩)]

/-- A member that always fails lives through two activations, and is stopped before it is reset. -/
theorem lifecycle_brokenLamp :
    ∃ r, Root.new {} .base = .ok r ∧
      let s := Operation.start.run (Operation.stop.run (Operation.start.run
        ((Operation.addChildWith rootPath "room" "room" brokenLamp).run r)))
      s.chronicle.word ⟨0, .control, "lamp"⟩ = [.init, .start, .stop, .reset, .init] ∧
      s.clock.isActive = true ∧ IsLife (s.chronicle.word ⟨0, .control, "lamp"⟩) ∧
      ∃ order : List MemberId, order.Nodup ∧ (∀ m, m ∈ order ↔ s.InPlace m) ∧
        s.stop.2.chronicle.moments =
          (order.map (·, Hook.reset)).reverse ++ (order.map (·, Hook.stop)).reverse ++
            s.chronicle.moments := by
  obtain ⟨r, hr⟩ : ∃ r, Root.new {} .base = .ok r := ⟨_, rfl⟩
  have hadded : Reachable ((Operation.addChildWith rootPath "room" "room" brokenLamp).run r) :=
    .operate (.new hr) trivial
  have hreach : Reachable (Operation.start.run (Operation.stop.run (Operation.start.run
      ((Operation.addChildWith rootPath "room" "room" brokenLamp).run r)))) :=
    .operate (o := .start) (.operate (o := .stop) (.operate (o := .start) hadded trivial) trivial)
      trivial
  have hword : (Operation.start.run (Operation.stop.run (Operation.start.run
      ((Operation.addChildWith rootPath "room" "room" brokenLamp).run r)))).chronicle.word
        ⟨0, .control, "lamp"⟩ = [.init, .start, .stop, .reset, .init] := by
    cases hr
    rfl
  have hactive : (Operation.start.run (Operation.stop.run (Operation.start.run
      ((Operation.addChildWith rootPath "room" "room" brokenLamp).run r)))).clock.isActive =
        true := by
    cases hr
    rfl
  obtain ⟨hlife, -, -, -, hstop⟩ := lifecycle hreach (.refl _)
  exact ⟨r, hr, hword, hactive, hlife _, hstop hactive⟩

end Root

end Switchboard
