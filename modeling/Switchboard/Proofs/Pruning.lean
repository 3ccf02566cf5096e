import Mathlib
import Switchboard.Proofs.Skeletons

/-!
# Taking units out of a tree

`Skeleton.Removes` compares a skeleton with what is left of it when all units at certain addresses
have been taken out.  Such removals can be made one after the other, which is how a whole subtree is
removed: the children with all that is below them, and then the unit itself.

While this goes on the skeleton is not well formed, since units still list children that are gone.
What a removal needs is only that the part below the unit is in order (`Skeleton.Intact`), and that
handles and addresses agree (`Skeleton.Tidy`).  In the end, when the parent has forgotten the child
as well, the skeleton is well formed again (`WellFormed.prune`).
-/

namespace Switchboard

namespace Skeleton

variable {S T U : Skeleton} {D E : Path → Prop} {N : ℕ}

/-! ## Removals -/

/-- What is left of a skeleton without the units at some addresses. -/
structure Removes (S T : Skeleton) (D : Path → Prop) : Prop where
  place : ∀ h n, T.place h = some n ↔ S.place h = some n ∧ ¬D n.address
  handle : ∀ p h, T.handle p = some h ↔ S.handle p = some h ∧ ¬D p
  listeners : T.listeners = S.listeners.filter fun h => (T.place h).isSome
  top : T.top = S.top
  created : T.created = S.created

/-- What holds all the time while units are taken out, with a bound for the depth of units. -/
structure Tidy (S : Skeleton) (N : ℕ) : Prop where
  index : S.Indexed
  listening : ∀ h ∈ S.listeners, (S.place h).isSome = true
  shallow : ∀ h n, S.place h = some n → n.address.depth ≤ N

namespace Removes

/-- A unit that is left was there before. -/
lemma isSome (h : Removes S T D) {k : Handle} (hk : (T.place k).isSome = true) :
    (S.place k).isSome = true := by
  obtain ⟨n, hn⟩ := Option.isSome_iff_exists.mp hk
  rw [((h.place k n).mp hn).1]
  rfl

/-- No unit is taken out where none has such an address. -/
lemma refl (hS : S.Tidy N) (hD : ∀ h n, S.place h = some n → ¬D n.address) : Removes S S D where
  place h n := ⟨fun hn => ⟨hn, hD h n hn⟩, fun hn => hn.1⟩
  handle p h := by
    refine ⟨fun hp => ⟨hp, ?_⟩, fun hp => hp.1⟩
    obtain ⟨n, hn, haddress⟩ := (hS.index p h).mp hp
    rw [← haddress]
    exact hD h n hn
  listeners := (List.filter_eq_self.mpr hS.listening).symm
  top := rfl
  created := rfl

/-- One removal after another. -/
lemma trans (h : Removes S T D) (h' : Removes T U E) : Removes S U fun p => D p ∨ E p where
  place k n := by
    rw [h'.place, h.place, and_assoc, not_or]
  handle p k := by
    rw [h'.handle, h.handle, and_assoc, not_or]
  listeners := by
    rw [h'.listeners, h.listeners, List.filter_filter]
    refine List.filter_congr fun k _ => ?_
    cases hk : (U.place k).isSome with
    | false => rfl
    | true => rw [h'.isSome hk, Bool.and_true]
  top := h'.top.trans h.top
  created := h'.created.trans h.created

/-- What matters is which of the units are taken out. -/
lemma congr (h : Removes S T D) (hS : S.Tidy N)
    (hD : ∀ k n, S.place k = some n → (D n.address ↔ E n.address)) : Removes S T E where
  place k n := by
    rw [h.place]
    refine and_congr_right fun hn => ?_
    rw [hD k n hn]
  handle p k := by
    rw [h.handle]
    refine and_congr_right fun hp => ?_
    obtain ⟨n, hn, haddress⟩ := (hS.index p k).mp hp
    rw [← haddress, hD k n hn]
  listeners := h.listeners
  top := h.top
  created := h.created

/-- Addresses lead to the units that are left. -/
lemma indexed (h : Removes S T D) (hS : S.Indexed) : T.Indexed := by
  intro p k
  rw [h.handle, hS p k]
  constructor
  · rintro ⟨⟨n, hn, haddress⟩, hp⟩
    refine ⟨n, (h.place k n).mpr ⟨hn, ?_⟩, haddress⟩
    rw [haddress]
    exact hp
  · rintro ⟨n, hn, haddress⟩
    obtain ⟨hn, hD⟩ := (h.place k n).mp hn
    rw [haddress] at hD
    exact ⟨⟨n, hn, haddress⟩, hD⟩

/-- What is left is as tidy as before. -/
lemma tidy (h : Removes S T D) (hS : S.Tidy N) : T.Tidy N where
  index := h.indexed hS.index
  listening k hk := by
    rw [h.listeners] at hk
    exact (List.mem_filter.mp hk).2
  shallow k n hn := hS.shallow k n ((h.place k n).mp hn).1

end Removes

/-- The skeleton without a unit. -/
def drop (S : Skeleton) (h : Handle) (p : Path) : Skeleton :=
  { S with
    place := fun k => if k = h then none else S.place k
    handle := fun q => if q = p then none else S.handle q
    listeners := S.listeners.filter fun k => k ≠ h }

/-- When a unit is dropped, it alone is taken out. -/
lemma Tidy.removes_drop (hS : S.Tidy N) {h : Handle} {n : Place} (hn : S.place h = some n) :
    Removes S (S.drop h n.address) fun p => p = n.address where
  place k m := by
    have hplace : (S.drop h n.address).place k = if k = h then none else S.place k := rfl
    rw [hplace]
    by_cases hk : k = h
    · rw [if_pos hk, hk, hn]
      constructor
      · intro hm
        contradiction
      · rintro ⟨hm, hne⟩
        cases hm
        exact absurd rfl hne
    · rw [if_neg hk]
      refine ⟨fun hm => ⟨hm, fun heq => hk (hS.index.eq_of_address hm hn heq)⟩, fun hm => hm.1⟩
  handle p k := by
    have hhandle : (S.drop h n.address).handle p = if p = n.address then none else S.handle p := rfl
    rw [hhandle]
    by_cases hp : p = n.address
    · rw [if_pos hp]
      exact ⟨fun hk => by contradiction, fun hk => absurd hp hk.2⟩
    · rw [if_neg hp]
      exact ⟨fun hk => ⟨hk, hp⟩, fun hk => hk.1⟩
  listeners := by
    refine List.filter_congr fun k hk => ?_
    have hplace : (S.drop h n.address).place k = if k = h then none else S.place k := rfl
    rw [hplace]
    by_cases heq : k = h
    · simp [heq]
    · rw [if_neg heq, hS.listening k hk]
      simp [heq]
  top := rfl
  created := rfl

/-! ## The part below a unit -/

/-- The part of a tree at and below an address is in order. -/
structure Intact (S : Skeleton) (p : Path) : Prop where
  child : ∀ q m, S.place q = some m → m.address.Within p → ∀ e ∈ m.children,
    ∃ n i, S.place e.2 = some n ∧ i.text = e.1 ∧ n.address = m.address.append i
  names : ∀ q m, S.place q = some m → m.address.Within p → (Named.names m.children).Nodup
  parent : ∀ k n, S.place k = some n → n.address.Within p → n.address ≠ p →
    ∃ q m i, S.place q = some m ∧ (i.text, k) ∈ m.children ∧ n.address = m.address.append i

namespace Intact

variable {p q : Path} {h : Handle} {n : Place}

/-- A part of a part that is in order. -/
lemma within (hp : S.Intact p) (hq : q.Within p) : S.Intact q where
  child k m hm hk := hp.child k m hm (hk.trans hq)
  names k m hm hk := hp.names k m hm (hk.trans hq)
  parent k n hn hk hne := by
    refine hp.parent k n hn (hk.trans hq) ?_
    intro heq
    apply hne
    rw [heq] at hk
    rw [heq]
    exact hk.antisymm hq

/-- A removal elsewhere leaves a part in order. -/
lemma removes (hp : S.Intact p) (h : Removes S T D) (hD : ∀ q, q.Within p → ¬D q) :
    T.Intact p where
  child k m hm hk e he := by
    obtain ⟨n, i, hn, hi, haddress⟩ := hp.child k m ((h.place k m).mp hm).1 hk e he
    refine ⟨n, i, (h.place _ n).mpr ⟨hn, ?_⟩, hi, haddress⟩
    apply hD
    rw [haddress]
    exact (Path.within_append _ i).trans hk
  names k m hm hk := hp.names k m ((h.place k m).mp hm).1 hk
  parent k n hn hk hne := by
    obtain ⟨q, m, i, hm, hmem, haddress⟩ := hp.parent k n ((h.place k n).mp hn).1 hk hne
    refine ⟨q, m, i, (h.place q m).mpr ⟨hm, ?_⟩, hmem, haddress⟩
    apply hD
    rw [haddress, Path.append_within_iff] at hk
    rcases hk with hk | hk
    · rw [hk, ← haddress] at hne
      exact absurd rfl hne
    · exact hk

/-- Everything below a unit is at or below one of its children. -/
lemma below (hp : S.Intact n.address) (hS : S.Tidy N) (hh : S.place h = some n) {k : Handle}
    {m : Place} (hk : S.place k = some m) (hm : m.address.Within n.address) :
    m.address = n.address ∨
      ∃ e ∈ n.children, ∃ i : Id, i.text = e.1 ∧ m.address.Within (n.address.append i) := by
  induction hd : m.address.depth generalizing k m with
  | zero => contradiction
  | succ d ih =>
    by_cases hsame : m.address = n.address
    · exact .inl hsame
    · obtain ⟨q, m', i, hm', hmem, haddress⟩ := hp.parent k m hk hm hsame
      right
      have hwithin : m'.address.Within n.address := by
        rw [haddress, Path.append_within_iff] at hm
        rcases hm with hm | hm
        · rw [hm, ← haddress] at hsame
          exact absurd rfl hsame
        · exact hm
      rw [haddress, Path.depth_append] at hd
      rcases ih hm' hwithin (Nat.succ.inj hd) with heq | ⟨e, he, j, hj, hbelow⟩
      · have hq := hS.index.eq_of_address hm' hh heq
        rw [hq, hh] at hm'
        cases hm'
        refine ⟨(i.text, k), hmem, i, rfl, ?_⟩
        rw [haddress]
        exact .refl _
      · refine ⟨e, he, j, hj, ?_⟩
        rw [haddress]
        exact (Path.within_append _ i).trans hbelow

end Intact

/-! ## Forgetting a child -/

/-- Whether a path is that of a child of a name, or of a unit below the child. -/
def Below (m : Place) (name : String) (p : Path) : Prop :=
  ∃ i : Id, i.text = name ∧ p.Within (m.address.append i)

/-- There is one child of a name. -/
lemma below_iff {m : Place} {name : String} {p : Path} {i : Id} (hi : i.text = name) :
    Below m name p ↔ p.Within (m.address.append i) := by
  constructor
  · rintro ⟨j, hj, hwithin⟩
    rw [Id.eq_of_text (hj.trans hi.symm)] at hwithin
    exact hwithin
  · exact fun hwithin => ⟨i, hi, hwithin⟩

/-- What is below a path that is below a child is so too. -/
lemma Below.append {m : Place} {name : String} {p : Path} (h : Below m name p) (i : Id) :
    Below m name (p.append i) := by
  obtain ⟨j, hj, hwithin⟩ := h
  exact ⟨j, hj, (Path.within_append p i).trans hwithin⟩

/-- A child that is below a child of a name is that child, or its parent is below it. -/
lemma below_append_iff {m : Place} {name : String} {p : Path} {i : Id} :
    Below m name (p.append i) ↔ p = m.address ∧ i.text = name ∨ Below m name p := by
  constructor
  · rintro ⟨j, hj, hwithin⟩
    rcases Path.append_within_iff.mp hwithin with heq | hwithin
    · obtain ⟨hp, hji⟩ := Path.append_inj heq
      exact .inl ⟨hp.symm, hji ▸ hj⟩
    · exact .inr ⟨j, hj, hwithin⟩
  · rintro (⟨rfl, hi⟩ | h)
    · exact ⟨i, hi, .refl _⟩
    · exact h.append i

/-- A connection that begins and ends at children still does when it does not touch a child that is
forgotten. -/
lemma ends_removeChild {m : Place} {name : String} {c : Connection}
    (hends : (Named.find? c.source m.children).isSome = true ∧
      (Named.find? c.target m.children).isSome = true)
    (htouches : c.touches name = false) :
    (Named.find? c.source (m.removeChild name).children).isSome = true ∧
      (Named.find? c.target (m.removeChild name).children).isSome = true := by
  rw [Connection.touches, Bool.or_eq_false_iff, beq_eq_false_iff_ne, beq_eq_false_iff_ne]
    at htouches
  rw [Place.removeChild, Named.find?_erase_of_ne htouches.1, Named.find?_erase_of_ne htouches.2]
  exact hends

namespace WellFormed

variable {q h : Handle} {m m' n : Place} {name : String}

/-- The root unit is within no other address than its own. -/
lemma top_within (hS : S.WellFormed) (hh : S.place h = some n) {p : Path}
    (hp : n.address.Within p) (hne : n.address ≠ p) : h ≠ S.top := by
  intro htop
  obtain ⟨t, ht, hbelow, -⟩ := hS.top
  rw [htop, ht] at hh
  cases hh
  apply hne
  refine Path.eq_of_ids (List.IsPrefix.eq_of_length hp ?_).symm
  have hle := hp.depth_le
  have hdepth : n.address.depth = 1 := by
    rw [Path.depth, Path.ids, hbelow]
    rfl
  have hpos : 0 < p.depth := Nat.succ_pos _
  have heq : p.depth = n.address.depth := by omega
  exact heq

/-- In a tree every part is in order. -/
lemma intact (hS : S.WellFormed) (p : Path) : S.Intact p where
  child k m hm _ e he := by
    obtain ⟨n, i, hn, -, hi, haddress⟩ := hS.child k m hm e he
    exact ⟨n, i, hn, hi, haddress⟩
  names k m hm _ := hS.names k m hm
  parent k n hn hk hne := by
    obtain ⟨q, m, i, -, hm, hfind, haddress⟩ := hS.parent k n hn (hS.top_within hn hk hne)
    exact ⟨q, m, i, hm, Named.mem_of_find? hfind, haddress⟩

/-- A tree of bounded depth is tidy. -/
lemma tidy (hS : S.WellFormed) (hN : ∀ h n, S.place h = some n → n.address.depth ≤ N) :
    S.Tidy N := ⟨hS.index, fun k hk => (hS.listening k).mp hk, hN⟩

/-- Where a unit lists no child of a name, nothing is at or below the address of that child. -/
lemma not_within_of_free (hS : S.WellFormed) (hq : S.place q = some m)
    (hfree : Named.find? name m.children = none) {i : Id} (hi : i.text = name)
    (hN : ∀ h n, S.place h = some n → n.address.depth ≤ N) (hh : S.place h = some n) :
    ¬n.address.Within (m.address.append i) := by
  intro hwithin
  have hbelow := (hS.intact m.address).below (hS.tidy hN) hq hh
    (hwithin.trans (Path.within_append m.address i))
  rcases hbelow with heq | ⟨e, he, j, hj, hwithin'⟩
  · rw [heq] at hwithin
    exact Path.not_within_append m.address i hwithin
  · have hij : i = j := Path.eq_of_within hwithin hwithin'
    have hmem : e.1 ∈ Named.names m.children := List.mem_map_of_mem he
    rw [← hj, ← hij, hi] at hmem
    exact Named.not_mem_names hfree hmem

/-- When a unit is updated, its handle still belongs to its address. -/
lemma tidy_update (hS : S.WellFormed) (hq : S.place q = some m) (haddress : m'.address = m.address)
    (hN : ∀ h n, S.place h = some n → n.address.depth ≤ N) : (S.update q m').Tidy N where
  index := hS.index.update hq haddress
  listening k hk := by
    rw [isSome_update hq]
    exact (hS.listening k).mp hk
  shallow k n hn := by
    rcases place_update hq hn with ⟨-, rfl, hold⟩ | ⟨-, hold⟩
    · rw [haddress]
      exact hN k m hold
    · exact hN k n hold

/-- When a unit forgets a child, the part below the child is still in order. -/
lemma intact_update (hS : S.WellFormed) (hq : S.place q = some m) (i : Id) :
    (S.update q (m.removeChild i.text)).Intact (m.address.append i) where
  child k n hk hwithin e he := by
    obtain ⟨n', hn', hsame, hmem⟩ : ∃ n', S.place k = some n' ∧ n.address = n'.address ∧
        e ∈ n'.children := by
      rcases place_update hq hk with ⟨-, rfl, hold⟩ | ⟨-, hold⟩
      · exact ⟨m, hold, rfl, (Named.mem_erase.mp he).1⟩
      · exact ⟨n, hold, rfl, he⟩
    obtain ⟨c, j, hc, -, hj, haddress⟩ := hS.child k n' hn' e hmem
    rw [hsame]
    rcases place_update_of_place (m.removeChild i.text) hq hc with ⟨-, rfl, hnew⟩ | ⟨-, hnew⟩
    · exact ⟨c.removeChild i.text, j, hnew, hj, haddress⟩
    · exact ⟨c, j, hnew, hj, haddress⟩
  names k n hk _ := by
    rcases place_update hq hk with ⟨-, rfl, hold⟩ | ⟨-, hold⟩
    · exact Named.nodup_erase (hS.names k m hold) i.text
    · exact hS.names k n hold
  parent k n hk hwithin hne := by
    have hkq : k ≠ q := by
      intro heq
      rcases place_update hq hk with ⟨-, rfl, -⟩ | ⟨hkq, -⟩
      · exact Path.not_within_append m.address i hwithin
      · exact hkq heq
    have hold : S.place k = some n := (if_neg hkq).symm.trans hk
    obtain ⟨p, m₁, j, -, hm₁, hfind, haddress⟩ :=
      hS.parent k n hold (hS.top_within hold hwithin hne)
    rcases place_update_of_place (m.removeChild i.text) hq hm₁ with ⟨-, rfl, -⟩ | ⟨-, hnew⟩
    · -- The only child within the address is the one that is forgotten.
      have hij : j = i := by
        rw [haddress] at hwithin
        exact Path.eq_of_within (.refl _) hwithin
      rw [hij] at haddress
      exact absurd haddress hne
    · exact ⟨p, m₁, j, hnew, Named.mem_of_find? hfind, haddress⟩

section Prune

variable (hq : S.place q = some m)
  (hT : Removes (S.update q (m.removeChild name)) T (Below m name))

include hq hT

/-- What is left of a unit when a child of another one, or of its own, was taken out. -/
lemma place_prune {k : Handle} {n : Place} (hk : T.place k = some n) :
    ∃ n', S.place k = some n' ∧ n.address = n'.address ∧ n.parent = n'.parent ∧
      n.kind = n'.kind ∧ ¬Below m name n'.address ∧
      (n = n' ∧ k ≠ q ∨ n = m.removeChild name ∧ n' = m ∧ k = q) := by
  obtain ⟨hold, hD⟩ := (hT.place k n).mp hk
  rcases place_update hq hold with ⟨hkq, rfl, hm⟩ | ⟨hkq, hn⟩
  · exact ⟨m, hm, rfl, rfl, rfl, hD, .inr ⟨rfl, rfl, hkq⟩⟩
  · exact ⟨n, hn, rfl, rfl, rfl, hD, .inl ⟨rfl, hkq⟩⟩

/-- A unit that is not taken out keeps its place, up to the child that it may have lost. -/
lemma place_prune_of_place {k : Handle} {n : Place} (hk : S.place k = some n)
    (hD : ¬Below m name n.address) :
    ∃ n', T.place k = some n' ∧ n'.address = n.address ∧ n'.parent = n.parent ∧
      ∀ id c, Named.find? id n.children = some c → (k = q → id ≠ name) →
        Named.find? id n'.children = some c := by
  rcases place_update_of_place (m.removeChild name) hq hk with ⟨hkq, rfl, hnew⟩ | ⟨-, hnew⟩
  · refine ⟨n.removeChild name, (hT.place k _).mpr ⟨hnew, hD⟩, rfl, rfl, ?_⟩
    intro id c hc hid
    exact (Named.find?_erase_of_ne (hid hkq) n.children).trans hc
  · exact ⟨n, (hT.place k n).mpr ⟨hnew, hD⟩, rfl, rfl, fun id c hc _ => hc⟩

/-- The root unit is left. -/
lemma top_prune (hS : S.WellFormed) :
    ∃ n, T.place T.top = some n ∧ n.address.below = [] ∧ n.parent = none := by
  obtain ⟨t, ht, hbelow, hparent⟩ := hS.top
  have hD : ¬Below m name t.address := by
    rintro ⟨i, -, hwithin⟩
    refine hS.top_within ht hwithin ?_ rfl
    intro heq
    rw [heq] at hbelow
    exact List.append_ne_nil_of_right_ne_nil _ (by simp) hbelow
  obtain ⟨t', ht', haddress', hparent', -⟩ := place_prune_of_place hq hT ht hD
  rw [hT.top]
  exact ⟨t', ht', by rw [haddress', hbelow], hparent'.trans hparent⟩

/-- What is left is still listed by its parent. -/
lemma listed_prune (hS : S.WellFormed) {k : Handle} {n : Place} (hk : T.place k = some n)
    (htop : k ≠ S.top) : T.Listed k n := by
  obtain ⟨n', hn', haddress, hparent, -, hD, -⟩ := place_prune hq hT hk
  obtain ⟨p, m₁, j, hp, hm₁, hfind, hj⟩ := hS.parent k n' hn' htop
  rw [hj, below_append_iff, not_or] at hD
  obtain ⟨m₂, hm₂, hsame, -, hchildren⟩ := place_prune_of_place hq hT hm₁ hD.2
  refine ⟨p, m₂, j, hparent.trans hp, hm₂, hchildren _ _ hfind ?_, ?_⟩
  · -- The forgotten child itself was taken out.
    intro hpq hname
    rw [hpq, hq] at hm₁
    cases hm₁
    exact hD.1 ⟨rfl, hname⟩
  · rw [haddress, hsame]
    exact hj

/-- The children of what is left are left too. -/
lemma hangs_prune (hS : S.WellFormed) {k : Handle} {n : Place} (hk : T.place k = some n)
    {e : String × Handle} (he : e ∈ n.children) : T.Hangs k n e := by
  obtain ⟨n', hn', haddress, -, -, hD, hcases⟩ := place_prune hq hT hk
  have hold : e ∈ n'.children ∧ (k = q → e.1 ≠ name) := by
    rcases hcases with ⟨rfl, hkq⟩ | ⟨rfl, rfl, hkq⟩
    · exact ⟨he, fun heq => absurd heq hkq⟩
    · obtain ⟨hmem, hne⟩ := Named.mem_erase.mp he
      exact ⟨hmem, fun _ => hne⟩
  obtain ⟨c, j, hc, hp, hj, hcj⟩ := hS.child k n' hn' e hold.1
  have hDc : ¬Below m name c.address := by
    rw [hcj, below_append_iff]
    rintro (⟨hsame, hname⟩ | hbelow)
    · exact hold.2 (hS.index.eq_of_address hn' hq hsame) (hj.symm.trans hname)
    · exact hD hbelow
  obtain ⟨c', hc', hsame, hparent, -⟩ := place_prune_of_place hq hT hc hDc
  refine ⟨c', j, hc', hparent.trans hp, hj, ?_⟩
  rw [hsame, hcj, haddress]

/-- The connections of what is left begin and end at children. -/
lemma ends_prune (hS : S.WellFormed) {k : Handle} {n : Place} (hk : T.place k = some n)
    {c : Connection} (hc : c ∈ n.connections) :
    (Named.find? c.source n.children).isSome = true ∧
      (Named.find? c.target n.children).isSome = true := by
  obtain ⟨n', hn', -, -, -, -, hcases⟩ := place_prune hq hT hk
  rcases hcases with ⟨rfl, -⟩ | ⟨rfl, rfl, -⟩
  · exact hS.ends k n hn' c hc
  · obtain ⟨hmem, htouches⟩ := List.mem_filter.mp hc
    exact ends_removeChild (hS.ends k n' hn' c hmem) (by simpa using htouches)

/-- When a child was forgotten and everything at and below it was taken out, a tree is left. -/
theorem prune (hS : S.WellFormed) : T.WellFormed where
  index := hT.indexed (hS.index.update hq rfl)
  top := top_prune hq hT hS
  parent k n hk htop := listed_prune hq hT hS hk (hT.top ▸ htop)
  child k n hk e he := hangs_prune hq hT hS hk he
  names := by
    intro k n hk
    obtain ⟨n', hn', -, -, -, -, hcases⟩ := place_prune hq hT hk
    rcases hcases with ⟨rfl, -⟩ | ⟨rfl, rfl, -⟩
    · exact hS.names k n hn'
    · exact Named.nodup_erase (hS.names k n' hn') name
  container := by
    intro k n hk hleaf
    obtain ⟨n', hn', -, -, hkind, -, hcases⟩ := place_prune hq hT hk
    rw [hkind] at hleaf
    obtain ⟨hchildren, hconnections⟩ := hS.container k n' hn' hleaf
    rcases hcases with ⟨rfl, -⟩ | ⟨rfl, rfl, -⟩
    · exact ⟨hchildren, hconnections⟩
    · rw [Place.removeChild, hchildren, hconnections]
      exact ⟨rfl, rfl⟩
  ends k n hk c hc := ends_prune hq hT hS hk hc
  listening := by
    intro k
    rw [hT.listeners, List.mem_filter, and_iff_right_iff_imp]
    intro hk
    have hold := hT.isSome hk
    rw [isSome_update hq] at hold
    exact (hS.listening k).mpr hold
  ordered := by
    rw [hT.listeners, hT.created]
    exact hS.ordered.filter _
  recorded := by
    intro k n hk
    obtain ⟨n', hn', -⟩ := place_prune hq hT hk
    rw [hT.created]
    exact hS.recorded k n' hn'

end Prune

end WellFormed

end Skeleton

end Switchboard
