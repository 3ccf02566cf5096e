import Mathlib
import Switchboard.Proofs.Arenas

/-!
# Handles over the life of an arena

Slots are used again and handles are not: a handle is good for the value that it was given out for,
and for nothing else as long as fewer than `2 ^ 32` values are stored in all.  What carries this is
the number of handles that were given out for a slot, `Arena.spent`, which can be read off the slot
itself.  Storing a value raises it by one for the slot of the new handle, whose generation is the
number before; nothing else changes it.  So a handle that was given out is always older than what
its slot has spent, and a new one never is.

`Account` states this, with the rest of what is known of an arena after some handles were given
out; `Account.on` shows that every act keeps the account, and the main theorem
`handles_are_a_map` reads off what handles find, in every sequence of acts.
-/

namespace Switchboard

/-! ## Acts -/

/-- Something that is done with an arena. -/
inductive ArenaAct (α : Type) where
  | insert (v : α)
  | modify (h : Handle) (f : α → α)
  | remove (h : Handle)

namespace ArenaAct

variable {α : Type}

/-- An arena after an act. -/
def on (a : Arena α) : ArenaAct α → Arena α
  | insert v => (a.insert v).2
  | modify h f => a.modify h f
  | remove h => (a.remove h).2

/-- The handle that an act gives out. -/
def given? (a : Arena α) : ArenaAct α → Option Handle
  | insert v => some (a.insert v).1
  | modify _ _ => none
  | remove _ => none

/-- Whether an act stores a value. -/
def isInsert : ArenaAct α → Bool
  | insert _ => true
  | _ => false

/-- Whether an act takes out what is under a handle. -/
def removes (h : Handle) : ArenaAct α → Bool
  | remove k => k = h
  | _ => false

/-- What an act makes of a value under a handle. -/
def change (h : Handle) : ArenaAct α → α → α
  | insert _ => id
  | modify k f => if k = h then f else id
  | remove _ => id

end ArenaAct

namespace Arena

variable {α : Type} {a : Arena α} {h : Handle} {v : α} {hs : List Handle}

/-- An arena after some acts. -/
def run (a : Arena α) (acts : List (ArenaAct α)) : Arena α := acts.foldl ArenaAct.on a

/-- The handles that are given out, in order. -/
def issued (a : Arena α) : List (ArenaAct α) → List Handle
  | [] => []
  | act :: acts => (act.given? a).toList ++ issued (act.on a) acts

/-- What acts make of a value under a handle, as long as none of them takes it out. -/
def changed (h : Handle) (acts : List (ArenaAct α)) (v : α) : α :=
  acts.foldl (fun v act => act.change h v) v

/-- A handle is given out for each value that is stored. -/
lemma length_issued (a : Arena α) (acts : List (ArenaAct α)) :
    (issued a acts).length = acts.countP ArenaAct.isInsert := by
  induction acts generalizing a with
  | nil => rfl
  | cons act acts ih =>
    rw [issued, List.length_append, ih, List.countP_cons]
    cases act <;> simp [ArenaAct.given?, ArenaAct.isInsert, add_comm]

/-- The handles of a sequence of acts are those of its parts. -/
lemma issued_append (a : Arena α) (acts later : List (ArenaAct α)) :
    issued a (acts ++ later) = issued a acts ++ issued (run a acts) later := by
  induction acts generalizing a with
  | nil => rfl
  | cons act acts ih =>
    rw [List.cons_append, issued, issued, ih, List.append_assoc]
    rfl

/-! ## What a slot has spent -/

/-- The number of handles that were given out for a slot: one for each generation that is past, and
one for the value that is in it. -/
def spent (a : Arena α) (i : ℕ) : ℕ :=
  match a.slots[i]? with
  | some s => s.generation.toNat + if s.value.isSome then 1 else 0
  | none => 0

/-- No handles were given out for a slot that is not there. -/
lemma spent_of_capacity_le {i : ℕ} (hle : a.capacity ≤ i) : a.spent i = 0 := by
  rw [spent, List.getElem?_eq_none hle]

/-- A handle with a value is the last one that was given out for its slot. -/
lemma spent_of_get? (hv : a.get? h = some v) : a.spent h.index = h.generation.toNat + 1 := by
  rw [spent, get?_eq_some.mp hv]
  rfl

/-- The generation of a new handle is the number of those that were given out before. -/
lemma generation_insert (ha : a.Valid) (v : α) :
    (a.insert v).1.generation.toNat = a.spent (a.insert v).1.index := by
  unfold insert
  cases hfree : a.free with
  | nil => exact (spent_of_capacity_le (le_refl a.capacity)).symm
  | cons i free =>
    obtain ⟨s, hs, hempty⟩ := (ha.empty i).mp (by rw [hfree]; exact List.mem_cons_self)
    simp [spent, hs, hempty]

/-- Storing a value spends a handle of its slot. -/
lemma spent_insert (ha : a.Valid) (v : α) (i : ℕ) :
    (a.insert v).2.spent i = a.spent i + if (a.insert v).1.index = i then 1 else 0 := by
  by_cases hi : (a.insert v).1.index = i
  · have hnew : (a.insert v).2.get? (a.insert v).1 = some v := by
      rw [get?_insert_snd ha, if_pos rfl]
    rw [if_pos hi, ← hi, spent_of_get? hnew, generation_insert ha]
  · have hslot : (a.insert v).2.slots[i]? = a.slots[i]? := by
      revert hi
      unfold insert
      cases a.free with
      | nil =>
        intro hi
        rcases lt_or_ge i a.slots.length with hlt | hge
        · exact List.getElem?_append_left hlt
        · have hgt : a.slots.length < i := lt_of_le_of_ne hge hi
          rw [List.getElem?_eq_none hge, List.getElem?_eq_none (by simpa using hgt)]
      | cons j free =>
        intro hi
        exact List.getElem?_set_ne hi
    rw [if_neg hi, spent, spent, hslot, add_zero]

/-- Changing a value spends no handle. -/
lemma spent_modify (a : Arena α) (h : Handle) (f : α → α) (i : ℕ) :
    (a.modify h f).spent i = a.spent i := by
  cases hv : a.get? h with
  | none => rw [modify, hv]
  | some v =>
    by_cases hi : h.index = i
    · have hnew : (a.modify h f).get? h = some (f v) := by
        rw [get?_modify, if_pos rfl, hv]
        rfl
      rw [← hi, spent_of_get? hnew, spent_of_get? hv]
    · have hslot : (a.modify h f).slots[i]? = a.slots[i]? := by
        rw [modify, hv]
        simp only [set, contains, hv, Option.isSome_some, if_true]
        exact List.getElem?_set_ne hi
      rw [spent, spent, hslot]

/-- Taking a value out spends no handle, since the generation that is over has been counted; the
count is right as long as generations do not begin again. -/
lemma spent_remove (hlt : a.spent h.index < 2 ^ 32) (i : ℕ) :
    (a.remove h).2.spent i = a.spent i := by
  cases hv : a.get? h with
  | none => rw [remove, hv]
  | some v =>
    rw [spent_of_get? hv] at hlt
    by_cases hi : h.index = i
    · rw [← hi, spent_of_get? hv, spent, remove, hv]
      simp only [List.getElem?_set_self (index_lt hv)]
      have hnext : (h.generation + 1).toNat = h.generation.toNat + 1 := by
        rw [UInt32.toNat_add]
        exact Nat.mod_eq_of_lt hlt
      simpa using hnext
    · rw [spent, spent, remove, hv]
      simp only [List.getElem?_set_ne hi]

/-! ## The account of the handles that were given out -/

/-- Storing a value makes the arena larger by one slot at most. -/
lemma capacity_insert_le (a : Arena α) (v : α) : (a.insert v).2.capacity ≤ a.capacity + 1 := by
  unfold insert
  cases a.free <;> simp [capacity]

/-- Taking a value out needs no other slots. -/
lemma capacity_remove (a : Arena α) (h : Handle) : (a.remove h).2.capacity = a.capacity := by
  unfold remove
  cases a.get? h <;> simp [capacity]

/-- A value that is stored is one more. -/
lemma size_insert (a : Arena α) (v : α) : (a.insert v).2.size = a.size + 1 := by
  unfold insert
  cases a.free <;> rfl

/-- Changing a value leaves their number as it is. -/
lemma size_modify (a : Arena α) (h : Handle) (f : α → α) : (a.modify h f).size = a.size := by
  unfold modify set
  cases a.get? h with
  | none => rfl
  | some v => simp only; split_ifs <;> rfl

/-- A value that is taken out is one less. -/
lemma size_remove (hv : a.get? h = some v) : (a.remove h).2.size = a.size - 1 := by
  rw [remove, hv]

/-- What is known of an arena after some handles were given out. -/
structure Account (a : Arena α) (hs : List Handle) : Prop where
  valid : a.Valid
  nodup : hs.Nodup
  /-- The handles of each slot have been counted. -/
  spent : ∀ i, a.spent i = hs.countP fun h => h.index = i
  /-- A handle is older than what its slot has spent. -/
  older : ∀ h ∈ hs, h.generation.toNat < a.spent h.index
  /-- Only handles that were given out find anything. -/
  known : ∀ h, a.contains h = true → h ∈ hs
  capacity : a.capacity ≤ hs.length
  size : a.size = hs.countP a.contains

/-- Nothing is known of handles at first. -/
lemma account_empty : Account ({} : Arena α) [] where
  valid := ⟨List.nodup_nil, by simp⟩
  nodup := List.nodup_nil
  spent := fun _ => rfl
  older := by simp
  known := by simp [contains, get?]
  capacity := le_refl 0
  size := rfl

/-- When one member of a list that repeats none is counted no longer, the count is one less. -/
lemma countP_erased {p q : Handle → Bool} (hnodup : hs.Nodup) (hh : h ∈ hs) (hp : p h = true)
    (hq : ∀ k, q k = (decide (k ≠ h) && p k)) : hs.countP p = hs.countP q + 1 := by
  obtain ⟨before, after, rfl⟩ := List.append_of_mem hh
  have hfirst := List.nodup_middle.mp hnodup
  have hother : ∀ k ∈ before ++ after, k ≠ h := by
    rintro k hk rfl
    exact (List.nodup_cons.mp hfirst).1 hk
  have hsame (ks : List Handle) (hks : ∀ k ∈ ks, k ∈ before ++ after) :
      ks.countP q = ks.countP p := by
    refine List.countP_congr fun k hk => ?_
    simp [hq, hother k (hks k hk)]
  have hself : q h = false := by simp [hq]
  rw [List.countP_append, List.countP_append, List.countP_cons, List.countP_cons,
    hsame before fun k hk => List.mem_append_left _ hk,
    hsame after fun k hk => List.mem_append_right _ hk, if_pos hp, hself]
  simp only [Bool.false_eq_true, if_false]
  omega

namespace Account

variable (hacc : Account a hs)
include hacc

/-- A new handle has not been given out before: it is as old as what its slot has spent. -/
lemma new_not_mem (v : α) : (a.insert v).1 ∉ hs := by
  intro hmem
  have holder := hacc.older _ hmem
  rw [generation_insert hacc.valid] at holder
  exact lt_irrefl _ holder

/-- The number of a slot is below the number of handles that were given out. -/
lemma index_lt (hh : h ∈ hs) : h.index < hs.length := by
  by_contra hge
  have holder := hacc.older h hh
  rw [spent_of_capacity_le (hacc.capacity.trans (not_lt.mp hge))] at holder
  exact Nat.not_lt_zero _ holder

/-- Storing a value enters its handle in the account. -/
lemma insert (v : α) : Account (a.insert v).2 (hs ++ [(a.insert v).1]) := by
  have hcontains (k : Handle) :
      (a.insert v).2.contains k = (decide (k = (a.insert v).1) || a.contains k) := by
    rw [contains, get?_insert_snd hacc.valid]
    by_cases hk : k = (a.insert v).1 <;> simp [hk, contains]
  constructor
  case valid => exact hacc.valid.insert v
  case nodup =>
    rw [← List.concat_eq_append]
    exact hacc.nodup.concat (hacc.new_not_mem v)
  case spent =>
    intro i
    rw [spent_insert hacc.valid, hacc.spent, List.countP_append, List.countP_singleton]
    simp
  case older =>
    intro k hk
    rw [spent_insert hacc.valid]
    rcases List.mem_append.mp hk with hold | hnew
    · exact (hacc.older k hold).trans_le (Nat.le_add_right _ _)
    · rw [List.mem_singleton.mp hnew, if_pos rfl, generation_insert hacc.valid]
      exact Nat.lt_succ_self _
  case known =>
    intro k hk
    rw [hcontains, Bool.or_eq_true, decide_eq_true_eq] at hk
    rcases hk with rfl | hold
    · simp
    · exact List.mem_append_left _ (hacc.known k hold)
  case capacity =>
    rw [List.length_append, List.length_singleton]
    exact (capacity_insert_le a v).trans (Nat.add_le_add_right hacc.capacity 1)
  case size =>
    have hold : hs.countP (a.insert v).2.contains = hs.countP a.contains := by
      refine List.countP_congr fun k hk => ?_
      have hne : k ≠ (a.insert v).1 := fun heq => hacc.new_not_mem v (heq ▸ hk)
      simp [hcontains, hne]
    rw [size_insert, hacc.size, List.countP_append, hold, List.countP_singleton, hcontains]
    simp

/-- Changing a value leaves the account as it is. -/
lemma modify (h : Handle) (f : α → α) : Account (a.modify h f) hs := by
  have hcontains : (a.modify h f).contains = a.contains := by
    funext k
    rw [contains, get?_modify, contains]
    split_ifs <;> simp
  constructor
  case valid => exact hacc.valid.modify h f
  case nodup => exact hacc.nodup
  case spent =>
    intro i
    rw [spent_modify, hacc.spent]
  case older =>
    intro k hk
    rw [spent_modify]
    exact hacc.older k hk
  case known =>
    rw [hcontains]
    exact hacc.known
  case capacity =>
    rw [capacity_modify]
    exact hacc.capacity
  case size =>
    rw [size_modify, hacc.size, hcontains]

/-- Taking a value out leaves the handles in the account, as long as they are fewer than there are
generations. -/
lemma remove (hfew : hs.length < 2 ^ 32) (h : Handle) : Account (a.remove h).2 hs := by
  have hspent (i : ℕ) : (a.remove h).2.spent i = a.spent i := by
    refine spent_remove ?_ i
    rw [hacc.spent]
    exact List.countP_le_length.trans_lt hfew
  have hcontains (k : Handle) :
      (a.remove h).2.contains k = (decide (k ≠ h) && a.contains k) := by
    rw [contains, get?_remove]
    by_cases hk : k = h <;> simp [hk, contains]
  constructor
  case valid => exact hacc.valid.remove h
  case nodup => exact hacc.nodup
  case spent =>
    intro i
    rw [hspent, hacc.spent]
  case older =>
    intro k hk
    rw [hspent]
    exact hacc.older k hk
  case known =>
    intro k hk
    rw [hcontains, Bool.and_eq_true] at hk
    exact hacc.known k hk.2
  case capacity =>
    rw [capacity_remove]
    exact hacc.capacity
  case size =>
    cases hv : a.get? h with
    | none =>
      rw [Arena.remove, hv]
      exact hacc.size
    | some v =>
      have hlive : a.contains h = true := by rw [contains, hv, Option.isSome_some]
      rw [size_remove hv, hacc.size,
        countP_erased hacc.nodup (hacc.known h hlive) hlive hcontains, Nat.add_sub_cancel]

/-- Every act keeps the account. -/
lemma on (act : ArenaAct α) (hfew : (hs ++ (act.given? a).toList).length < 2 ^ 32) :
    Account (act.on a) (hs ++ (act.given? a).toList) := by
  cases act with
  | insert v => exact hacc.insert v
  | modify h f =>
    rw [ArenaAct.given?, Option.toList_none, List.append_nil]
    exact hacc.modify h f
  | remove h =>
    rw [ArenaAct.given?, Option.toList_none, List.append_nil] at hfew ⊢
    exact hacc.remove hfew h

/-- The first of some acts keeps the account, if all of them give out fewer handles than there are
generations. -/
lemma on_first {act : ArenaAct α} {acts : List (ArenaAct α)}
    (hfew : (hs ++ issued a (act :: acts)).length < 2 ^ 32) :
    Account (act.on a) (hs ++ (act.given? a).toList) := by
  rw [issued, ← List.append_assoc, List.length_append] at hfew
  exact hacc.on act ((Nat.le_add_right _ _).trans_lt hfew)

end Account

/-- Every sequence of acts keeps the account, as long as fewer handles are given out than there are
generations. -/
lemma Account.run (hacc : Account a hs) {acts : List (ArenaAct α)}
    (hfew : (hs ++ issued a acts).length < 2 ^ 32) :
    Account (a.run acts) (hs ++ issued a acts) := by
  induction acts generalizing a hs with
  | nil => rwa [issued, List.append_nil]
  | cons act acts ih =>
    have hon := hacc.on_first hfew
    rw [issued, ← List.append_assoc] at hfew ⊢
    exact ih hon hfew

/-- What a handle that was given out finds after an act. -/
lemma Account.get?_on (hacc : Account a hs) (hh : h ∈ hs) (act : ArenaAct α) :
    (act.on a).get? h =
      if act.removes h then none else (a.get? h).map (act.change h) := by
  cases act with
  | insert v =>
    have hne : h ≠ (a.insert v).1 := fun heq => hacc.new_not_mem v (heq ▸ hh)
    rw [ArenaAct.on, get?_insert_snd hacc.valid, if_neg hne]
    simp [ArenaAct.removes, ArenaAct.change]
  | modify k f =>
    rw [ArenaAct.on, get?_modify]
    by_cases hk : h = k
    · simp [ArenaAct.removes, ArenaAct.change, hk]
    · simp [ArenaAct.removes, ArenaAct.change, hk, Ne.symm hk]
  | remove k =>
    rw [ArenaAct.on, get?_remove]
    by_cases hk : h = k
    · simp [ArenaAct.removes, hk]
    · simp [ArenaAct.removes, ArenaAct.change, hk, Ne.symm hk]

/-- What a handle that was given out finds after some acts. -/
lemma Account.get?_run (hacc : Account a hs) (hh : h ∈ hs) {acts : List (ArenaAct α)}
    (hfew : (hs ++ issued a acts).length < 2 ^ 32) :
    (a.run acts).get? h =
      if acts.any (·.removes h) then none else (a.get? h).map (changed h acts) := by
  induction acts generalizing a hs with
  | nil =>
    have hsame : changed h [] = (id : α → α) := rfl
    simp [Arena.run, hsame]
  | cons act acts ih =>
    have hon := hacc.on_first hfew
    rw [issued, ← List.append_assoc] at hfew
    have hrest := ih hon (List.mem_append_left _ hh) hfew
    rw [hacc.get?_on hh] at hrest
    rw [Arena.run, List.foldl_cons, ← Arena.run, hrest, List.any_cons]
    cases act.removes h with
    | true => simp
    | false =>
      simp only [Bool.false_or, Bool.false_eq_true, if_false, Option.map_map]
      rfl

/-- What is known of an arena that was empty at first. -/
lemma account_run {acts : List (ArenaAct α)} (hfew : acts.countP ArenaAct.isInsert < 2 ^ 32) :
    Account (run {} acts) (issued {} acts) := by
  rw [← length_issued {}] at hfew
  exact account_empty.run hfew

/-- What a handle finds that was given out for a value, after all that was done with the arena
before the value was stored and since. -/
lemma get?_run_insert {before after : List (ArenaAct α)}
    (hfew : (before ++ .insert v :: after).countP ArenaAct.isInsert < 2 ^ 32) :
    (run {} (before ++ .insert v :: after)).get? ((run {} before).insert v).1 =
      if after.any (·.removes ((run {} before).insert v).1) then none
      else some (changed ((run {} before).insert v).1 after v) := by
  have hlength := hfew
  rw [← length_issued {}, issued_append, issued, ← List.append_assoc] at hlength
  have hbefore : Account (run {} before) (issued {} before) := by
    refine account_run (lt_of_le_of_lt ?_ hfew)
    rw [List.countP_append]
    exact Nat.le_add_right _ _
  have hstored := hbefore.insert v
  have hfinds := hstored.get?_run (List.mem_append_right _ (List.mem_singleton_self _)) hlength
  rw [get?_insert_snd hbefore.valid, if_pos rfl] at hfinds
  rw [run, List.foldl_append]
  exact hfinds

/-- Handles are a map from all that was given out to what is still there.  Whatever is done with an
arena, and in whatever order, as long as fewer than `2 ^ 32` values are stored:

* all handles that are given out are different, and the numbers of their slots fit 32 bits;
* a handle finds the value that it was given out for, with the changes that were made under it,
  until this is taken out, and nothing from then on; whoever takes it out first is given it, and
  nobody else is given anything for the handle;
* other handles find nothing;
* the size is the number of handles that find something;
* the free slots are the empty ones, each listed once. -/
theorem handles_are_a_map (acts : List (ArenaAct α))
    (hfew : acts.countP ArenaAct.isInsert < 2 ^ 32) :
    let a := run {} acts
    let hs := issued {} acts
    (hs.Nodup ∧ ∀ h ∈ hs, h.index < 2 ^ 32) ∧
      (∀ before v after, acts = before ++ .insert v :: after →
        let h := ((run {} before).insert v).1
        h ∈ hs ∧ a.contains h = !after.any (·.removes h) ∧
          (a.get? h = if after.any (·.removes h) then none else some (changed h after v)) ∧
          ∀ mid post, after = mid ++ .remove h :: post →
            ((run {} (before ++ .insert v :: mid)).remove h).1 =
              if mid.any (·.removes h) then none else some (changed h mid v)) ∧
      (∀ h, h ∉ hs → a.get? h = none) ∧
      a.size = hs.countP a.contains ∧
      a.free.Nodup ∧ ∀ i, i ∈ a.free ↔ ∃ s, a.slots[i]? = some s ∧ s.value = none := by
  intro a hs
  have hacc : Account a hs := account_run hfew
  refine ⟨⟨hacc.nodup, fun h hh => ?_⟩, ?_, ?_, hacc.size, hacc.valid.nodup, hacc.valid.empty⟩
  · rw [← length_issued {}] at hfew
    exact (hacc.index_lt hh).trans hfew
  · rintro before v after rfl h
    have hfinds := get?_run_insert hfew
    refine ⟨?_, ?_, hfinds, ?_⟩
    · simp [hs, h, issued_append, issued, ArenaAct.given?]
    · rw [contains, hfinds]
      cases after.any (·.removes h) <;> rfl
    · rintro mid post rfl
      rw [remove_fst]
      refine get?_run_insert (lt_of_le_of_lt ?_ hfew)
      simp only [List.countP_append, List.countP_cons]
      omega
  · intro h hh
    by_contra hsome
    refine hh (hacc.known h ?_)
    rwa [contains, Option.isSome_iff_ne_none]

/-- A slot that is used again: its first handle neither finds the second value nor takes it out. -/
theorem handles_are_a_map_reused :
    let acts : List (ArenaAct ℕ) := [.insert 7, .remove ⟨0, 0⟩, .insert 8, .remove ⟨0, 0⟩]
    acts.countP ArenaAct.isInsert < 2 ^ 32 ∧
      issued {} acts = [⟨0, 0⟩, ⟨0, 1⟩] ∧
      (run {} acts).get? ⟨0, 0⟩ = none ∧ (run {} acts).get? ⟨0, 1⟩ = some 8 ∧
      (run {} acts).size = 1 := by
  intro acts
  have hfew : acts.countP ArenaAct.isInsert < 2 ^ 32 := by decide
  obtain ⟨-, hfinds, -, hsize, -⟩ := handles_are_a_map acts hfew
  have hfirst := (hfinds [] 7 [.remove ⟨0, 0⟩, .insert 8, .remove ⟨0, 0⟩] rfl).2.2.1
  have hsecond := (hfinds [.insert 7, .remove ⟨0, 0⟩] 8 [.remove ⟨0, 0⟩] rfl).2.2.1
  exact ⟨hfew, rfl, hfirst, hsecond, hsize⟩

end Arena

end Switchboard
