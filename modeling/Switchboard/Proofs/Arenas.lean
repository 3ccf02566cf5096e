import Mathlib
import Switchboard.Arena

/-!
# Values in arenas

What the handles of an arena find after a value was stored, changed or taken out.  All of it rests
on `Arena.Valid`, by which the free slots are exactly the empty ones: a new handle then finds
nothing before its value is stored, and no two handles with values share a slot.
-/

namespace Switchboard

namespace Arena

variable {α : Type}

/-- The free slots are the empty ones, each listed once. -/
structure Valid (a : Arena α) : Prop where
  nodup : a.free.Nodup
  empty : ∀ i, i ∈ a.free ↔ ∃ s, a.slots[i]? = some s ∧ s.value = none

section

variable {a : Arena α} {h k : Handle} {v w : α}

/-- A handle finds the value in its slot if that has the generation of the handle. -/
lemma get?_eq_some : a.get? h = some v ↔ a.slots[h.index]? = some ⟨h.generation, some v⟩ := by
  unfold get?
  constructor
  · intro hv
    split at hv
    · rename_i s hs
      split at hv
      · rename_i hgeneration
        rw [hs, ← hgeneration, ← hv]
      · contradiction
    · contradiction
  · intro hs
    rw [hs]
    simp

/-- A handle finds nothing in an empty slot. -/
lemma get?_eq_none_of_empty {s : Slot α} (hs : a.slots[h.index]? = some s) (hv : s.value = none) :
    a.get? h = none := by
  by_contra hne
  obtain ⟨w, hw⟩ := Option.ne_none_iff_exists'.mp hne
  rw [get?_eq_some, hs] at hw
  cases hw
  contradiction

/-- A handle finds nothing outside the slots. -/
lemma get?_eq_none_of_length (hle : a.slots.length ≤ h.index) : a.get? h = none := by
  unfold get?
  rw [List.getElem?_eq_none hle]

/-- Two handles with values in one slot are the same. -/
lemma eq_of_index (hh : a.get? h = some v) (hk : a.get? k = some w) (hindex : h.index = k.index) :
    h = k := by
  rw [get?_eq_some] at hh hk
  rw [hindex, hk] at hh
  obtain ⟨i, g⟩ := h
  obtain ⟨j, g'⟩ := k
  cases hindex
  cases hh
  rfl

/-- A handle with a value has a slot. -/
lemma index_lt (hh : a.get? h = some v) : h.index < a.capacity := by
  rw [get?_eq_some] at hh
  exact (List.getElem?_eq_some_iff.mp hh).1

/-- Once the slot of a handle has been filled, the handle finds the value and any other handle what
it found before, provided that it found nothing there. -/
lemma get?_fill (hlt : h.index < a.slots.length)
    (hother : ∀ k, k.index = h.index → k ≠ h → a.get? k = none)
    (free : List ℕ) (size : ℕ) (v : α) (k : Handle) :
    (⟨a.slots.set h.index ⟨h.generation, some v⟩, free, size⟩ : Arena α).get? k =
      if k = h then some v else a.get? k := by
  by_cases hkh : k = h
  · rw [if_pos hkh, hkh, get?_eq_some]
    exact List.getElem?_set_self hlt
  · rw [if_neg hkh]
    by_cases hindex : k.index = h.index
    · rw [hother k hindex hkh]
      by_contra hne
      obtain ⟨w, hw⟩ := Option.ne_none_iff_exists'.mp hne
      rw [get?_eq_some, hindex, List.getElem?_set_self hlt] at hw
      obtain ⟨i, g⟩ := h
      obtain ⟨j, g'⟩ := k
      cases hw
      cases hindex
      contradiction
    · unfold get?
      rw [List.getElem?_set_ne (Ne.symm hindex)]

/-! ## Storing -/

/-- The handle of a value that is stored has found nothing before. -/
lemma get?_insert_fst (ha : a.Valid) (v : α) : a.get? (a.insert v).1 = none := by
  unfold insert
  cases hfree : a.free with
  | nil => exact get?_eq_none_of_length (le_refl _)
  | cons i free =>
    obtain ⟨s, hs, hempty⟩ := (ha.empty i).mp (by rw [hfree]; exact List.mem_cons_self)
    exact get?_eq_none_of_empty (h := ⟨i, _⟩) hs hempty

/-- After a value was stored its handle finds it, and all others find what they found before. -/
lemma get?_insert_snd (ha : a.Valid) (v : α) (k : Handle) :
    (a.insert v).2.get? k = if k = (a.insert v).1 then some v else a.get? k := by
  unfold insert
  cases hfree : a.free with
  | nil =>
    by_cases hk : k = ⟨a.slots.length, 0⟩
    · rw [if_pos hk, hk, get?_eq_some]
      exact List.getElem?_concat_length
    · rw [if_neg hk]
      rcases lt_trichotomy k.index a.slots.length with hlt | heq | hgt
      · unfold get?
        rw [List.getElem?_append_left hlt]
      · rw [get?_eq_none_of_length (le_of_eq heq.symm)]
        by_contra hne
        obtain ⟨w, hw⟩ := Option.ne_none_iff_exists'.mp hne
        rw [get?_eq_some, heq, List.getElem?_concat_length] at hw
        obtain ⟨j, g⟩ := k
        cases hw
        cases heq
        contradiction
      · rw [get?_eq_none_of_length hgt.le, get?_eq_none_of_length]
        rw [List.length_append, List.length_singleton]
        exact hgt
  | cons i free =>
    obtain ⟨s, hs, hempty⟩ := (ha.empty i).mp (by rw [hfree]; exact List.mem_cons_self)
    have hlt : i < a.slots.length := (List.getElem?_eq_some_iff.mp hs).1
    have hother : ∀ k : Handle, k.index = i → a.get? k = none := by
      intro k hk
      rw [← hk] at hs
      exact get?_eq_none_of_empty hs hempty
    exact get?_fill (h := ⟨i, _⟩) hlt (fun k hk _ => hother k hk) free (a.size + 1) v k

/-- Storing a value keeps an arena valid. -/
lemma Valid.insert (ha : a.Valid) (v : α) : (a.insert v).2.Valid := by
  unfold Arena.insert
  cases hfree : a.free with
  | nil =>
    refine ⟨List.nodup_nil, ?_⟩
    intro i
    refine ⟨fun hi => by contradiction, ?_⟩
    rintro ⟨s, hs, hempty⟩
    rcases List.mem_append.mp (List.mem_of_getElem? hs) with hmem | hmem
    · obtain ⟨j, hj⟩ := List.mem_iff_getElem?.mp hmem
      have hfreed := (ha.empty j).mpr ⟨s, hj, hempty⟩
      rw [hfree] at hfreed
      contradiction
    · rw [List.mem_singleton.mp hmem] at hempty
      contradiction
  | cons i free =>
    have hnodup := ha.nodup
    rw [hfree, List.nodup_cons] at hnodup
    obtain ⟨s, hs, hempty⟩ := (ha.empty i).mp (by rw [hfree]; exact List.mem_cons_self)
    have hlt : i < a.slots.length := (List.getElem?_eq_some_iff.mp hs).1
    refine ⟨hnodup.2, ?_⟩
    intro j
    by_cases hj : j = i
    · subst hj
      simp only [List.getElem?_set_self hlt]
      refine ⟨fun hmem => absurd hmem hnodup.1, ?_⟩
      rintro ⟨s', hs', hempty'⟩
      cases hs'
      contradiction
    · simp only [List.getElem?_set_ne (Ne.symm hj)]
      rw [← ha.empty j, hfree, List.mem_cons]
      exact ⟨.inr, fun hmem => hmem.resolve_left hj⟩

/-! ## Changing -/

/-- After a value was replaced its handle finds the new one, and all others find what they found
before. -/
lemma get?_set (hh : a.get? h = some v) (w : α) (k : Handle) :
    (a.set h w).get? k = if k = h then some w else a.get? k := by
  have hcontains : a.contains h = true := by
    rw [contains, hh]
    rfl
  have hother : ∀ k, k.index = h.index → k ≠ h → a.get? k = none := by
    intro k hindex hne
    by_contra hsome
    obtain ⟨u, hu⟩ := Option.ne_none_iff_exists'.mp hsome
    exact hne (eq_of_index hu hh hindex)
  unfold set
  rw [if_pos hcontains]
  exact get?_fill (index_lt hh) hother a.free a.size w k

/-- Storing the value that a handle has changes nothing. -/
lemma set_same (hh : a.get? h = some v) : a.set h v = a := by
  obtain ⟨hlt, hslot⟩ := List.getElem?_eq_some_iff.mp (get?_eq_some.mp hh)
  have hslots : a.slots.set h.index ⟨h.generation, some v⟩ = a.slots := by
    rw [← hslot, List.set_getElem_self]
  have hcontains : a.contains h = true := by
    rw [contains, hh]
    rfl
  rw [set, if_pos hcontains, hslots]

/-- Replacing a value keeps an arena valid. -/
lemma Valid.set (ha : a.Valid) (h : Handle) (w : α) : (a.set h w).Valid := by
  unfold Arena.set
  split
  · rename_i hcontains
    obtain ⟨v, hv⟩ := Option.isSome_iff_exists.mp hcontains
    have hslot := get?_eq_some.mp hv
    refine ⟨ha.nodup, ?_⟩
    intro i
    rw [ha.empty i]
    by_cases hi : i = h.index
    · subst hi
      simp only [hslot, List.getElem?_set_self (index_lt hv)]
      simp
    · rw [List.getElem?_set_ne (Ne.symm hi)]
  · exact ha

/-- Changing a value keeps an arena valid. -/
lemma Valid.modify (ha : a.Valid) (h : Handle) (f : α → α) : (a.modify h f).Valid := by
  unfold Arena.modify
  split
  · exact ha.set h _
  · exact ha

/-- After a value was changed its handle finds the changed one, and all others find what they found
before. -/
lemma get?_modify (a : Arena α) (h : Handle) (f : α → α) (k : Handle) :
    (a.modify h f).get? k = if k = h then (a.get? k).map f else a.get? k := by
  unfold modify
  cases hv : a.get? h with
  | none =>
    by_cases hk : k = h
    · rw [if_pos hk, hk, hv]
      rfl
    · rw [if_neg hk]
  | some v =>
    simp only [get?_set hv]
    by_cases hk : k = h
    · rw [if_pos hk, if_pos hk, hk, hv]
      rfl
    · rw [if_neg hk, if_neg hk]

/-- Changing a value into itself changes nothing. -/
lemma modify_same {f : α → α} (hh : a.get? h = some v) (hf : f v = v) : a.modify h f = a := by
  rw [modify, hh]
  simp only [hf]
  exact set_same hh

/-- Changing a value needs no other slots. -/
lemma capacity_modify (a : Arena α) (h : Handle) (f : α → α) :
    (a.modify h f).capacity = a.capacity := by
  unfold modify set capacity
  split
  · split
    · exact List.length_set
    · rfl
  · rfl

/-! ## Taking out -/

/-- After a value was taken out its handle finds nothing, and all others find what they found
before. -/
lemma get?_remove (a : Arena α) (h k : Handle) :
    (a.remove h).2.get? k = if k = h then none else a.get? k := by
  unfold remove
  cases hv : a.get? h with
  | none =>
    by_cases hk : k = h
    · rw [if_pos hk, hk]
      exact hv
    · rw [if_neg hk]
  | some v =>
    have hset : (a.slots.set h.index ⟨h.generation + 1, none⟩)[h.index]? =
        some ⟨h.generation + 1, none⟩ := List.getElem?_set_self (index_lt hv)
    by_cases hindex : k.index = h.index
    · have hnone : (⟨a.slots.set h.index ⟨h.generation + 1, none⟩, h.index :: a.free,
          a.size - 1⟩ : Arena α).get? k = none := by
        rw [← hindex] at hset
        exact get?_eq_none_of_empty (by rw [← hindex]; exact hset) rfl
      simp only [hnone]
      by_cases hk : k = h
      · rw [if_pos hk]
      · rw [if_neg hk]
        by_contra hsome
        obtain ⟨u, hu⟩ := Option.ne_none_iff_exists'.mp (Ne.symm hsome)
        exact hk (eq_of_index hu hv hindex)
    · have hk : k ≠ h := fun heq => hindex (by rw [heq])
      rw [if_neg hk]
      unfold get?
      simp only [List.getElem?_set_ne (Ne.symm hindex)]

/-- The value that is taken out is the one that the handle found. -/
lemma remove_fst (a : Arena α) (h : Handle) : (a.remove h).1 = a.get? h := by
  unfold remove
  cases a.get? h <;> rfl

/-- Taking a value out keeps an arena valid. -/
lemma Valid.remove (ha : a.Valid) (h : Handle) : (a.remove h).2.Valid := by
  unfold Arena.remove
  cases hv : a.get? h with
  | none => exact ha
  | some v =>
    have hslot := get?_eq_some.mp hv
    have hfull : h.index ∉ a.free := by
      rw [ha.empty]
      rintro ⟨s, hs, hempty⟩
      rw [hslot] at hs
      cases hs
      contradiction
    refine ⟨List.nodup_cons.mpr ⟨hfull, ha.nodup⟩, ?_⟩
    intro i
    rw [List.mem_cons, ha.empty i]
    by_cases hi : i = h.index
    · subst hi
      simp only [List.getElem?_set_self (index_lt hv)]
      simp
    · simp only [List.getElem?_set_ne (Ne.symm hi)]
      exact ⟨fun hor => hor.resolve_left hi, .inr⟩

end

end Arena

end Switchboard
