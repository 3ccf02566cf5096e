import Mathlib
import Switchboard.Keyed

/-!
# Sorted tables

A table stays sorted whatever is put into it, and what is in a sorted table is found.  A table that
is made from entries holds these entries, where no two of them have one key (`find?_ofList`), and
entries that are sorted already are their own table (`Sorted.ofList`).
-/

namespace Switchboard

namespace Keyed

variable {α : Type} {key : String} {value : α} {t : Keyed α} {e : String × α}

/-- What is in a table after a value was put into it. -/
lemma mem_insert (h : e ∈ insert key value t) : e = (key, value) ∨ e ∈ t := by
  induction t with
  | nil => exact .inl (List.mem_singleton.mp h)
  | cons first rest ih =>
    obtain ⟨k, v⟩ := first
    unfold insert at h
    split at h
    · rcases List.mem_cons.mp h with h | h
      · exact .inl h
      · exact .inr (List.mem_cons_of_mem _ h)
    · split at h
      · exact List.mem_cons.mp h
      · rcases List.mem_cons.mp h with h | h
        · exact .inr (h ▸ List.mem_cons_self)
        · exact (ih h).imp_right (List.mem_cons_of_mem _)

/-- A table stays sorted when a value is put into it. -/
lemma Sorted.insert (h : Sorted t) (key : String) (value : α) : Sorted (insert key value t) := by
  induction t with
  | nil => exact ⟨by simp, trivial⟩
  | cons first rest ih =>
    obtain ⟨k, v⟩ := first
    obtain ⟨hfirst, hrest⟩ := h
    unfold Keyed.insert
    split
    · next heq => exact ⟨heq ▸ hfirst, hrest⟩
    · next hne =>
      split
      · next hlt =>
        refine ⟨?_, hfirst, hrest⟩
        intro e he
        rcases List.mem_cons.mp he with rfl | he
        · exact hlt
        · exact hlt.trans (hfirst e he)
      · next hnlt =>
        refine ⟨?_, ih hrest⟩
        intro e he
        rcases mem_insert he with rfl | he
        · exact lt_of_le_of_ne (not_lt.mp hnlt) hne
        · exact hfirst e he

/-- What is found is in the table. -/
lemma mem_of_find? (h : find? key t = some value) : (key, value) ∈ t := by
  induction t with
  | nil => contradiction
  | cons first rest ih =>
    obtain ⟨k, v⟩ := first
    unfold find? at h
    split at h
    · next heq =>
      cases h
      exact heq ▸ List.mem_cons_self
    · exact List.mem_cons_of_mem _ (ih h)

/-- What is in a sorted table is found. -/
lemma Sorted.find?_of_mem (ht : Sorted t) (h : (key, value) ∈ t) : find? key t = some value := by
  induction t with
  | nil => contradiction
  | cons first rest ih =>
    obtain ⟨k, v⟩ := first
    obtain ⟨hfirst, hrest⟩ := ht
    unfold find?
    rcases List.mem_cons.mp h with heq | h
    · cases heq
      exact if_pos rfl
    · rw [if_neg (hfirst _ h).ne]
      exact ih hrest h

/-- No two entries of a sorted table have one key. -/
lemma Sorted.nodup (h : Sorted t) : (t.map Prod.fst).Nodup := by
  induction t with
  | nil => exact List.nodup_nil
  | cons first rest ih =>
    refine List.nodup_cons.mpr ⟨fun hmem => ?_, ih h.2⟩
    obtain ⟨e, he, heq⟩ := List.mem_map.mp hmem
    exact (h.1 e he).ne heq.symm

/-! ## Tables of entries -/

/-- What is put into a table one after the other keeps it sorted. -/
lemma Sorted.foldl_insert (h : Sorted t) (es : List (String × α)) :
    Sorted (es.foldl (fun t e => Keyed.insert e.1 e.2 t) t) := by
  induction es generalizing t with
  | nil => exact h
  | cons e es ih => exact ih (h.insert e.1 e.2)

/-- A table that is made from entries is sorted. -/
lemma sorted_ofList (es : List (String × α)) : Sorted (ofList es) :=
  Sorted.foldl_insert (t := []) trivial es

/-- What is in a table that is made from entries is one of them. -/
lemma mem_of_mem_ofList {es : List (String × α)} (h : e ∈ ofList es) : e ∈ es := by
  have hfold (es : List (String × α)) (t : Keyed α)
      (h : e ∈ es.foldl (fun t e => insert e.1 e.2 t) t) : e ∈ t ∨ e ∈ es := by
    induction es generalizing t with
    | nil => exact .inl h
    | cons first es ih =>
      rcases ih _ h with h | h
      · rcases mem_insert h with rfl | h
        · exact .inr List.mem_cons_self
        · exact .inl h
      · exact .inr (List.mem_cons_of_mem _ h)
  rcases hfold es [] h with h | h
  · contradiction
  · exact h

/-- What is found in a table that is made from entries of different keys. -/
lemma find?_ofList {es : List (String × α)} (hes : (es.map Prod.fst).Nodup) :
    find? key (ofList es) = some value ↔ (key, value) ∈ es := by
  have hfold (es : List (String × α)) (t : Keyed α) (hkey : key ∉ es.map Prod.fst) :
      find? key (es.foldl (fun t e => insert e.1 e.2 t) t) = find? key t := by
    induction es generalizing t with
    | nil => rfl
    | cons first es ih =>
      obtain ⟨hne, hkey⟩ := List.ne_and_not_mem_of_not_mem_cons hkey
      exact (ih _ hkey).trans (find?_insert_of_ne hne _ t)
  have hmem (es : List (String × α)) (t : Keyed α) (hes : (es.map Prod.fst).Nodup)
      (h : (key, value) ∈ es) :
      find? key (es.foldl (fun t e => insert e.1 e.2 t) t) = some value := by
    induction es generalizing t with
    | nil => contradiction
    | cons first es ih =>
      obtain ⟨hfirst, hrest⟩ := List.nodup_cons.mp hes
      rcases List.mem_cons.mp h with rfl | h
      · exact (hfold es _ hfirst).trans (find?_insert_self key value t)
      · exact ih _ hrest h
  exact ⟨fun h => mem_of_mem_ofList (mem_of_find? h), hmem es [] hes⟩

/-- What comes behind all others is put behind them. -/
lemma insert_of_lt (h : ∀ e ∈ t, e.1 < key) (value : α) :
    insert key value t = t ++ [(key, value)] := by
  induction t with
  | nil => rfl
  | cons first rest ih =>
    obtain ⟨k, v⟩ := first
    have hlt : k < key := h (k, v) List.mem_cons_self
    rw [insert, if_neg hlt.ne, if_neg hlt.asymm, ih fun e he => h e (List.mem_cons_of_mem _ he)]
    rfl

/-- Entries that are sorted are their own table. -/
lemma Sorted.ofList (h : Sorted t) : ofList t = t := by
  have hfold (es front : Keyed α) (hes : Sorted es)
      (hfront : ∀ e ∈ front, ∀ e' ∈ es, e.1 < e'.1) :
      es.foldl (fun t e => Keyed.insert e.1 e.2 t) front = front ++ es := by
    induction es generalizing front with
    | nil => exact (List.append_nil front).symm
    | cons first es ih =>
      have hlast : Keyed.insert first.1 first.2 front = front ++ [first] :=
        insert_of_lt (fun e he => hfront e he first List.mem_cons_self) first.2
      have hfront' : ∀ e ∈ front ++ [first], ∀ e' ∈ es, e.1 < e'.1 := by
        intro e he e' he'
        rcases List.mem_append.mp he with he | he
        · exact hfront e he e' (List.mem_cons_of_mem _ he')
        · rw [List.mem_singleton.mp he]
          exact hes.1 e' he'
      rw [List.foldl_cons, hlast, ih _ hes.2 hfront', List.append_assoc]
      rfl
  exact hfold t [] h (by simp)

end Keyed

end Switchboard
