import Mathlib
import Switchboard.Proofs.Lifecycles

/-!
# Values in custody

A value that was made for a reference is held by a reference of a unit until it is given up, and it
is given up once.  The main theorem `Root.custody` says so for every moment of a run: of the values
that were ever made each is either held by one reference or has been given up by one member, which
the value was handed to if that member wants it, and a unit that goes away leaves nothing that it
held.

`Accounted` is the balance of what was made, what is held and what was given up, whatever it is that
holds values.  While a behavior is replaced there are two shelves, the former one and the new one;
the balance is kept by moving a value from one to the other, by making a value, and by giving one
up.
-/

namespace Switchboard

/-! ## The balance -/

/-- Values are known by the members that they were made for.  Each value that was made is held in
one place, or has been given up once. -/
structure Accounted {α : Type} (held : α → Option MemberId) (c : Chronicle) : Prop where
  made : c.made.Nodup
  given : (c.disposed.map Disposal.maker).Nodup
  apart : ∀ a b m, held a = some m → held b = some m → a = b
  /-- What is held has not been given up. -/
  kept : ∀ a m, held a = some m → m ∉ c.disposed.map Disposal.maker
  balance : ∀ m, m ∈ c.made ↔ (∃ a, held a = some m) ∨ m ∈ c.disposed.map Disposal.maker

namespace Accounted

variable {α β : Type} {held : α → Option MemberId} {c c' : Chronicle} {a : α} {m : MemberId}

/-- The moments at which members act do not matter. -/
lemma congr (h : Accounted held c) (hmade : c'.made = c.made)
    (hdisposed : c'.disposed = c.disposed) : Accounted held c' where
  made := hmade ▸ h.made
  given := hdisposed ▸ h.given
  apart := h.apart
  kept := hdisposed ▸ h.kept
  balance := by
    rw [hmade, hdisposed]
    exact h.balance

/-- Values may be held in other places. -/
lemma move (h : Accounted held c) (σ : β ≃ α) : Accounted (held ∘ σ) c where
  made := h.made
  given := h.given
  apart := fun a b m ha hb => σ.injective (h.apart (σ a) (σ b) m ha hb)
  kept := fun a m ha => h.kept (σ a) m ha
  balance := by
    intro m
    rw [h.balance m]
    refine or_congr ⟨?_, ?_⟩ Iff.rfl
    · rintro ⟨a, ha⟩
      refine ⟨σ.symm a, ?_⟩
      rw [Function.comp_apply, Equiv.apply_symm_apply]
      exact ha
    · rintro ⟨b, hb⟩
      exact ⟨σ b, hb⟩

variable [DecidableEq α]

/-- A new value is put where there is none. -/
lemma make (h : Accounted held c) (ha : held a = none) (hm : m ∉ c.made) :
    Accounted (Function.update held a (some m)) (c.make m) := by
  have hcases : ∀ b k, Function.update held a (some m) b = some k →
      b = a ∧ k = m ∨ b ≠ a ∧ held b = some k := by
    intro b k hb
    by_cases hba : b = a
    · subst hba
      rw [Function.update_self] at hb
      exact .inl ⟨rfl, (Option.some.inj hb).symm⟩
    · rw [Function.update_of_ne hba] at hb
      exact .inr ⟨hba, hb⟩
  have hold : ∀ b, held b ≠ some m := fun b hb => hm ((h.balance m).mpr (.inl ⟨b, hb⟩))
  refine ⟨List.nodup_cons.mpr ⟨hm, h.made⟩, h.given, ?_, ?_, ?_⟩
  · intro b b' k hb hb'
    obtain ⟨rfl, rfl⟩ | ⟨-, hbk⟩ := hcases b k hb
    · obtain ⟨rfl, -⟩ | ⟨-, hbk'⟩ := hcases b' k hb'
      · rfl
      · exact absurd hbk' (hold b')
    · obtain ⟨rfl, rfl⟩ | ⟨-, hbk'⟩ := hcases b' k hb'
      · exact absurd hbk (hold b)
      · exact h.apart b b' k hbk hbk'
  · intro b k hb
    obtain ⟨-, rfl⟩ | ⟨-, hb⟩ := hcases b k hb
    · exact fun hgiven => hm ((h.balance k).mpr (.inr hgiven))
    · exact h.kept b k hb
  · intro k
    constructor
    · intro hk
      obtain rfl | hk := List.mem_cons.mp hk
      · exact .inl ⟨a, Function.update_self ..⟩
      · obtain ⟨b, hb⟩ | hgiven := (h.balance k).mp hk
        · have hba : b ≠ a := by
            rintro rfl
            exact absurd (ha.symm.trans hb) nofun
          exact .inl ⟨b, (Function.update_of_ne hba ..).trans hb⟩
        · exact .inr hgiven
    · rintro (⟨b, hb⟩ | hgiven)
      · obtain ⟨-, rfl⟩ | ⟨-, hb⟩ := hcases b k hb
        · exact List.mem_cons_self
        · exact List.mem_cons_of_mem _ ((h.balance k).mpr (.inl ⟨b, hb⟩))
      · exact List.mem_cons_of_mem _ ((h.balance k).mpr (.inr hgiven))

/-- A value is given up. -/
lemma dispose (h : Accounted held c) (ha : held a = some m) {d : Disposal} (hd : d.maker = m) :
    Accounted (Function.update held a none) (c.dispose d) := by
  have hcases : ∀ b k, Function.update held a none b = some k → b ≠ a ∧ held b = some k := by
    intro b k hb
    by_cases hba : b = a
    · subst hba
      rw [Function.update_self] at hb
      contradiction
    · rw [Function.update_of_ne hba] at hb
      exact ⟨hba, hb⟩
  have hgiven : (c.dispose d).disposed.map Disposal.maker =
      m :: c.disposed.map Disposal.maker := by
    rw [← hd]
    rfl
  constructor
  case made => exact h.made
  case given =>
    rw [hgiven]
    exact List.nodup_cons.mpr ⟨h.kept a m ha, h.given⟩
  case apart =>
    intro b b' k hb hb'
    exact h.apart b b' k (hcases b k hb).2 (hcases b' k hb').2
  case kept =>
    intro b k hb
    obtain ⟨hba, hb⟩ := hcases b k hb
    rw [hgiven, List.mem_cons, not_or]
    refine ⟨?_, h.kept b k hb⟩
    rintro rfl
    exact hba (h.apart b a k hb ha)
  case balance =>
    intro k
    rw [hgiven, List.mem_cons]
    constructor
    · intro hk
      obtain ⟨b, hb⟩ | hk := (h.balance k).mp hk
      · by_cases hba : b = a
        · subst hba
          exact .inr (.inl (Option.some.inj (hb.symm.trans ha)))
        · exact .inl ⟨b, (Function.update_of_ne hba ..).trans hb⟩
      · exact .inr (.inr hk)
    · rintro (⟨b, hb⟩ | rfl | hk)
      · exact (h.balance k).mpr (.inl ⟨b, (hcases b k hb).2⟩)
      · exact (h.balance k).mpr (.inl ⟨a, ha⟩)
      · exact (h.balance k).mpr (.inr hk)

end Accounted

/-! ## Shelves in their places -/

/-- The member that the value of a reference was made for, if it has a value. -/
def Shelf.held (F : Shelf) (id : String) : Option MemberId := (F id).bind Prod.snd

/-- A reference of a unit, or of a behavior that has left its unit a moment ago. -/
abbrev Spot := Option Handle × String

/-- What is held when a shelf stands in a place. -/
def seat (held : Spot → Option MemberId) (x : Option Handle) (F : Shelf) : Spot → Option MemberId :=
  fun p => if p.1 = x then F.held p.2 else held p

section Seats

variable {held : Spot → Option MemberId} {x y : Option Handle} {F : Shelf} {id : String}

/-- What is held in the place of the shelf. -/
lemma seat_self (held : Spot → Option MemberId) (x : Option Handle) (F : Shelf) (id : String) :
    seat held x F (x, id) = F.held id := if_pos rfl

/-- What is held in another place. -/
lemma seat_of_ne (h : y ≠ x) (held : Spot → Option MemberId) (F : Shelf) (id : String) :
    seat held x F (y, id) = held (y, id) := if_neg h

/-- Shelves in different places. -/
lemma seat_comm (h : y ≠ x) (held : Spot → Option MemberId) (F G : Shelf) :
    seat (seat held x F) y G = seat (seat held y G) x F := by
  funext p
  unfold seat
  by_cases hp : p.1 = y
  · rw [if_pos hp, if_neg (hp ▸ h), if_pos hp]
  · rw [if_neg hp, if_neg hp]

/-- It only matters what is held on the shelf. -/
lemma seat_congr (held : Spot → Option MemberId) (x : Option Handle) {F G : Shelf}
    (h : ∀ id, F.held id = G.held id) : seat held x F = seat held x G := by
  funext p
  unfold seat
  rw [h]

/-- Nothing changes when a shelf stands where the same is held already. -/
lemma seat_eq_self (h : ∀ id, held (x, id) = F.held id) : seat held x F = held := by
  funext p
  obtain ⟨y, id⟩ := p
  unfold seat
  split
  · rename_i hy
    rw [show y = x from hy, h]
  · rfl

/-- A change of one reference on a shelf. -/
lemma seat_update (held : Spot → Option MemberId) (x : Option Handle) (F : Shelf) (id : String)
    (e : Option (RefKind × Option MemberId)) :
    seat held x (Function.update F id e) =
      Function.update (seat held x F) (x, id) (e.bind Prod.snd) := by
  funext p
  by_cases hp : p = (x, id)
  · subst hp
    rw [seat_self, Function.update_self, Shelf.held, Function.update_self]
  · rw [Function.update_of_ne hp]
    unfold seat
    split
    · rename_i hx
      have hid : p.2 ≠ id := fun hid => hp (Prod.ext hx hid)
      rw [Shelf.held, Function.update_of_ne hid]
      rfl
    · rfl

/-- A value moves from a shelf to a free reference on another. -/
lemma Accounted.carry {c : Chronicle} {G : Shelf} (h : Accounted (seat (seat held x F) y G) c)
    (hxy : x ≠ y) {kind kind' : RefKind} {m : Option MemberId} (hF : F id = some (kind, m))
    (hG : G.held id = none) :
    Accounted
      (seat (seat held x (Function.update F id (some (kind, none)))) y
        (Function.update G id (some (kind', m)))) c := by
  have hmove := h.move (Equiv.swap (x, id) (y, id))
  have hheld : seat (seat held x (Function.update F id (some (kind, none)))) y
      (Function.update G id (some (kind', m))) =
        seat (seat held x F) y G ∘ Equiv.swap (x, id) (y, id) := by
    funext p
    rw [Function.comp_apply]
    by_cases hpy : p = (y, id)
    · subst hpy
      rw [Equiv.swap_apply_right, seat_self, seat_of_ne hxy, seat_self, Shelf.held,
        Function.update_self, Shelf.held, hF]
      rfl
    · by_cases hpx : p = (x, id)
      · subst hpx
        rw [Equiv.swap_apply_left, seat_self, seat_of_ne hxy, seat_self, Shelf.held,
          Function.update_self, hG]
        rfl
      · rw [Equiv.swap_apply_of_ne_of_ne hpx hpy, seat_update, Function.update_of_ne hpy]
        unfold seat
        split
        · rfl
        · split
          · rename_i hx
            have hid : p.2 ≠ id := fun hid => hpx (Prod.ext hx hid)
            rw [Shelf.held, Function.update_of_ne hid]
            rfl
          · rfl
  rw [hheld]
  exact hmove

/-- A shelf is taken out of its place, and another that is empty is put there. -/
lemma Accounted.vacate {c : Chronicle} (h : Accounted held c) (hx : ∀ id, held (x, id) = none)
    (hxy : x ≠ y) (hF : ∀ id, held (y, id) = F.held id) {G : Shelf} (hG : ∀ id, G.held id = none) :
    Accounted (seat (seat held x F) y G) c := by
  have hmove := h.move ((Equiv.swap x y).prodCongr (Equiv.refl String))
  have hheld : seat (seat held x F) y G =
      held ∘ (Equiv.swap x y).prodCongr (Equiv.refl String) := by
    funext p
    obtain ⟨z, id⟩ := p
    simp only [Function.comp_apply, Equiv.prodCongr_apply, Prod.map_apply, Equiv.refl_apply]
    by_cases hzy : z = y
    · subst hzy
      rw [Equiv.swap_apply_right, seat_self, hG, hx]
    · by_cases hzx : z = x
      · subst hzx
        rw [Equiv.swap_apply_left, seat_of_ne hxy, seat_self, hF]
      · rw [Equiv.swap_apply_of_ne_of_ne hzx hzy, seat_of_ne hzy, seat_of_ne hzx]
  rw [hheld]
  exact hmove

end Seats

/-! ## What is entered -/

/-- What a chronicle has more than another: the members that values were made for, and what was
given up, are as described. -/
structure Chronicle.Adds (c : Chronicle) (makes : MemberId → Prop) (gives : Disposal → Prop)
    (c' : Chronicle) : Prop where
  made : ∀ m ∈ c.made, m ∈ c'.made
  disposed : ∀ d ∈ c.disposed, d ∈ c'.disposed
  makes : ∀ m ∈ c'.made, m ∈ c.made ∨ makes m
  gives : ∀ d ∈ c'.disposed, d ∈ c.disposed ∨ gives d

namespace Chronicle.Adds

variable {makes makes' : MemberId → Prop} {gives gives' : Disposal → Prop} {c c' c'' : Chronicle}

/-- Nothing was made or given up. -/
lemma of_eq (hmade : c'.made = c.made) (hdisposed : c'.disposed = c.disposed) :
    Adds c makes gives c' where
  made := fun _ h => hmade ▸ h
  disposed := fun _ h => hdisposed ▸ h
  makes := fun _ h => .inl (hmade ▸ h)
  gives := fun _ h => .inl (hdisposed ▸ h)

/-- One thing after another. -/
lemma trans (h : Adds c makes gives c') (h' : Adds c' makes gives c'') :
    Adds c makes gives c'' where
  made := fun m hm => h'.made m (h.made m hm)
  disposed := fun d hd => h'.disposed d (h.disposed d hd)
  makes := fun m hm => (h'.makes m hm).elim (h.makes m) .inr
  gives := fun d hd => (h'.gives d hd).elim (h.gives d) .inr

/-- A description that says less. -/
lemma imp (h : Adds c makes gives c') (hmakes : ∀ m, makes m → makes' m)
    (hgives : ∀ d, gives d → gives' d) : Adds c makes' gives' c' where
  made := h.made
  disposed := h.disposed
  makes := fun m hm => (h.makes m hm).imp_right (hmakes m)
  gives := fun d hd => (h.gives d hd).imp_right (hgives d)

end Chronicle.Adds

/-! ## Giving up -/

/-- At its last moment a member has nothing to give up, or it is a reference and gives up its value.
-/
lemma Upkeep.run_dispose (s : Setting) (m : MemberId) (w : Workbench) (u : Upkeep) :
    (u.run s .dispose m w).cells.shelf = w.cells.shelf ∧
        (u.run s .dispose m w).turn.chronicle = w.turn.chronicle.moment m .dispose ∧
        (∀ spec, u = .reference spec → w.cells.shelf.held m.id = .none) ∨
      ∃ spec kind k, u = .reference spec ∧ w.cells.shelf m.id = some (kind, some k) ∧
        (u.run s .dispose m w).cells.shelf =
          Function.update w.cells.shelf m.id (some (kind, .none)) ∧
        (u.run s .dispose m w).turn.chronicle =
          (w.turn.chronicle.moment m .dispose).dispose ⟨k, m, (spec.hook .dispose).isSome⟩ := by
  cases u with
  | none => exact .inl ⟨rfl, rfl, nofun⟩
  | observer o =>
    refine .inl ⟨?_, ?_, nofun⟩
    · exact Cells.rule_shelf.runReported s _ m.id _ (record w (·.moment m .dispose))
    · exact chronicle_runReported s _ m.id _ (record w (·.moment m .dispose))
  | reference spec =>
    have hmaker := w.cells.maker_take m.id
    have hshelf := w.cells.shelf_take m.id
    have hvalue : w.cells.shelf.held m.id = (w.cells.shelf m.id).bind Prod.snd := rfl
    cases hheld : w.cells.shelf.held m.id with
    | none =>
      have htake : (w.cells.take m.id).1 = .none := by
        rw [← hvalue, hheld] at hmaker
        exact Option.map_eq_none_iff.mp hmaker
      have hsame : (w.cells.take m.id).2.shelf = w.cells.shelf := by
        rw [hshelf]
        refine Function.update_eq_self_iff.mpr ?_
        cases he : w.cells.shelf m.id with
        | none => rfl
        | some e =>
          rw [hvalue, he] at hheld
          obtain ⟨kind, held⟩ := e
          rw [show held = .none from hheld]
          rfl
      refine .inl ⟨?_, ?_, fun _ _ => rfl⟩
      · unfold run runReference record
        simp only [htake]
        exact hsame
      · unfold run runReference record
        simp only [htake]
        rfl
    | some k =>
      obtain ⟨kind, he⟩ : ∃ kind, w.cells.shelf m.id = some (kind, some k) := by
        rw [hvalue] at hheld
        obtain ⟨⟨kind, held⟩, he, hk⟩ := Option.bind_eq_some_iff.mp hheld
        exact ⟨kind, he.trans (congrArg (fun h => some (kind, h)) hk)⟩
      obtain ⟨held, htake, hk⟩ : ∃ held, (w.cells.take m.id).1 = some held ∧ held.maker = k := by
        rw [← hvalue, hheld] at hmaker
        exact Option.map_eq_some_iff.mp hmaker
      rw [he] at hshelf
      refine .inr ⟨spec, kind, k, rfl, he, ?_⟩
      unfold run runReference record
      subst hk
      cases hhook : spec.hook .dispose with
      | none =>
        simp only [htake, hhook]
        exact ⟨hshelf, rfl⟩
      | some handler =>
        simp only [htake, hhook]
        exact ⟨(Cells.rule_shelf.run s (handler held.value) _).trans hshelf,
          (handler held.value).chronicle_run ..⟩

namespace Iteration

/-- What it means for a shelf and the chronicle that members are disposed of. -/
structure GivesUp (es : List (MemberId × Upkeep)) (F F' : Shelf) (c c' : Chronicle) : Prop where
  accounted : ∀ held x, Accounted (seat held x F) c → Accounted (seat held x F') c'
  adds : c.Adds (fun _ => False)
    (fun d => ∃ spec, (d.holder, .reference spec) ∈ es ∧
      d.handed = (spec.hook .dispose).isSome) c'
  /-- What is still held was held by somebody else. -/
  left : ∀ id k, F'.held id = some k →
    F.held id = some k ∧ ∀ m spec, (m, Upkeep.reference spec) ∈ es → m.id ≠ id

/-- Disposing of members, one after the other. -/
lemma givesUp_disposeMembers (s : Setting) (es : List (MemberId × Upkeep)) (w : Workbench) :
    GivesUp es w.cells.shelf (disposeMembers s es w).cells.shelf w.turn.chronicle
      (disposeMembers s es w).turn.chronicle := by
  induction es generalizing w with
  | nil => exact ⟨fun _ _ h => h, .of_eq rfl rfl, fun _ _ h => ⟨h, nofun⟩⟩
  | cons e es ih =>
    obtain ⟨m, u⟩ := e
    have hrest := ih (u.run s .dispose m w)
    obtain ⟨hshelf, hchronicle, hnone⟩ | ⟨spec, kind, k, rfl, he, hshelf, hchronicle⟩ :=
      u.run_dispose s m w
    · rw [hshelf, hchronicle] at hrest
      refine ⟨fun held x h => hrest.accounted held x (h.congr rfl rfl), ?_, fun id k hk => ?_⟩
      · have hfirst : w.turn.chronicle.Adds (fun _ => False)
            (fun d => ∃ spec, (d.holder, .reference spec) ∈ (m, u) :: es ∧
              d.handed = (spec.hook .dispose).isSome)
            (w.turn.chronicle.moment m .dispose) := .of_eq rfl rfl
        refine hfirst.trans (hrest.adds.imp (fun _ => id) ?_)
        exact fun d ⟨spec, hmem, hhanded⟩ => ⟨spec, List.mem_cons_of_mem _ hmem, hhanded⟩
      · obtain ⟨hheld, hothers⟩ := hrest.left id k hk
        refine ⟨hheld, fun m' spec hmem => ?_⟩
        obtain heq | hmem := List.mem_cons.mp hmem
        · cases heq
          rintro rfl
          rw [hnone spec rfl] at hheld
          contradiction
        · exact hothers m' spec hmem
    · rw [hshelf, hchronicle] at hrest
      refine ⟨fun held x h => hrest.accounted held x ?_, ?_, fun id k' hk => ?_⟩
      · have hmoment : Accounted (seat held x w.cells.shelf)
            (w.turn.chronicle.moment m .dispose) := h.congr rfl rfl
        have hheld : seat held x w.cells.shelf (x, m.id) = some k := by
          rw [seat_self, Shelf.held, he]
          rfl
        rw [seat_update]
        exact hmoment.dispose hheld rfl
      · have hfirst : w.turn.chronicle.Adds (fun _ => False)
            (fun d => ∃ spec', (d.holder, .reference spec') ∈ (m, .reference spec) :: es ∧
              d.handed = (spec'.hook .dispose).isSome)
            ((w.turn.chronicle.moment m .dispose).dispose
              ⟨k, m, (spec.hook .dispose).isSome⟩) := by
          refine ⟨fun _ h => h, fun _ h => List.mem_cons_of_mem _ h, fun _ h => .inl h, ?_⟩
          intro d hd
          obtain rfl | hd := List.mem_cons.mp hd
          · exact .inr ⟨spec, List.mem_cons_self, rfl⟩
          · exact .inl hd
        refine hfirst.trans (hrest.adds.imp (fun _ => id) ?_)
        exact fun d ⟨spec, hmem, hhanded⟩ => ⟨spec, List.mem_cons_of_mem _ hmem, hhanded⟩
      · obtain ⟨hheld, hothers⟩ := hrest.left id k' hk
        have hne : m.id ≠ id := by
          rintro rfl
          rw [Shelf.held, Function.update_self] at hheld
          contradiction
        rw [Shelf.held, Function.update_of_ne hne.symm] at hheld
        refine ⟨hheld, fun m' spec' hmem => ?_⟩
        obtain heq | hmem := List.mem_cons.mp hmem
        · cases heq
          exact hne
        · exact hothers m' spec' hmem

/-! ## References that arrive -/

/-- The value of a former reference of the same kind moves to the new one; there is nothing to move
from another. -/
lemma moveValue_cases (id : String) (kind : RefKind) (cells former : Cells) :
    (∃ k, former.shelf id = some (kind, k) ∧
      (moveValue id kind cells former).1.shelf =
        Function.update cells.shelf id (some (kind, k)) ∧
      (moveValue id kind cells former).2.shelf =
        Function.update former.shelf id (some (kind, none))) ∨
    (∀ k, former.shelf id ≠ some (kind, k)) ∧ moveValue id kind cells former = (cells, former) := by
  unfold moveValue
  cases hr : former.references.find? id with
  | none =>
    refine .inr ⟨fun k hk => ?_, rfl⟩
    rw [Cells.shelf, hr] at hk
    contradiction
  | some r =>
    have hshelf : former.shelf id = some (r.kind, r.holding.map Holding.maker) := by
      rw [Cells.shelf, hr]
      rfl
    by_cases hkind : r.kind = kind
    · subst hkind
      simp only [if_true]
      have htake := former.shelf_take id
      rw [hshelf] at htake
      have hholding : (former.take id).1 = r.holding := by
        rw [Cells.take, hr]
      refine .inl ⟨_, hshelf, ?_, htake⟩
      rw [Cells.shelf_setReference, hholding]
    · refine .inr ⟨fun k hk => ?_, by simp only [if_neg hkind]⟩
      rw [hshelf] at hk
      cases hk
      exact hkind rfl

/-- A reference that has no value is given one that was made for it, unless that fails. -/
lemma makeValue_cases (s : Setting) (m : MemberId) (spec : ReferenceSpec) (w : Workbench) :
    (makeValue s m spec w).cells.shelf = w.cells.shelf ∧
        (makeValue s m spec w).turn.chronicle = w.turn.chronicle ∨
      w.cells.shelf.held m.id = none ∧
        (makeValue s m spec w).cells.shelf =
          Function.update w.cells.shelf m.id (some (spec.kind, some m)) ∧
        (makeValue s m spec w).turn.chronicle = w.turn.chronicle.make m := by
  have hshelf := Cells.rule_shelf.run s spec.init w
  have hchronicle := spec.init.chronicle_run s w
  unfold makeValue
  split
  · exact .inl ⟨rfl, rfl⟩
  · rename_i hvalue
    split
    · rename_i values w' hrun
      rw [hrun] at hshelf hchronicle
      refine .inr ⟨?_, ?_, ?_⟩
      · rw [Bool.not_eq_true, Option.isSome_eq_false_iff, Option.isNone_iff_eq_none] at hvalue
        unfold Shelf.held Cells.shelf
        unfold Cells.value? Reference.value at hvalue
        cases hr : w.cells.references.find? m.id with
        | none => rfl
        | some r =>
          rw [hr] at hvalue
          have hholding : r.holding = none := Option.map_eq_none_iff.mp hvalue
          simp [hholding]
      · rw [Cells.shelf_setReference, hshelf]
        rfl
      · exact congrArg (Chronicle.make · m) hchronicle
    · rename_i f w' hrun
      rw [hrun] at hshelf hchronicle
      exact .inl ⟨hshelf, (Turn.rule_steps.log s w'.turn .error _).chronicle.trans hchronicle⟩

/-- What it means for two shelves, the former one and the new one, and for the chronicle that
references of a number arrive. -/
structure Attaches (number : ℕ) (rs : Named ReferenceMember) (F F' W W' : Shelf)
    (c c' : Chronicle) : Prop where
  accounted : ∀ held x y, x ≠ y → Accounted (seat (seat held x F) y W) c →
    Accounted (seat (seat held x F') y W') c'
  adds : c.Adds (fun m => ∃ e ∈ rs, m = ⟨number, .reference, e.1⟩) (fun _ => False) c'
  /-- What is still on the former shelf has found no new reference of its name and kind. -/
  former : ∀ id k, F'.held id = some k →
    F' id = F id ∧ ∀ spec, (id, .typed spec) ∈ rs → ∀ k, F id ≠ some (spec.kind, k)
  next : ∀ id kind k, W' id = some (kind, k) →
    (∃ k, W id = some (kind, k)) ∨ ∃ spec, (id, .typed spec) ∈ rs ∧ spec.kind = kind

namespace Attaches

variable {number : ℕ} {id : String} {spec : ReferenceSpec} {rs rs' : Named ReferenceMember}
  {F F' F'' W W' W'' : Shelf} {c c' c'' : Chronicle}

/-- One reference after another. -/
lemma trans {e : String × ReferenceMember} (h : Attaches number [e] F F' W W' c c')
    (h' : Attaches number rs F' F'' W' W'' c' c'') :
    Attaches number (e :: rs) F F'' W W'' c c'' where
  accounted := fun held x y hxy hacc =>
    h'.accounted held x y hxy (h.accounted held x y hxy hacc)
  adds := by
    refine (h.adds.imp ?_ fun _ => id).trans (h'.adds.imp ?_ fun _ => id)
    · rintro m ⟨e', he', rfl⟩
      exact ⟨e', List.mem_cons.mpr (.inl (List.mem_singleton.mp he')), rfl⟩
    · rintro m ⟨e', he', rfl⟩
      exact ⟨e', List.mem_cons_of_mem e he', rfl⟩
  former := by
    intro id k hk
    obtain ⟨hsame', hrest⟩ := h'.former id k hk
    rw [Shelf.held, hsame'] at hk
    obtain ⟨hsame, hfirst⟩ := h.former id k hk
    refine ⟨hsame'.trans hsame, fun spec hmem => ?_⟩
    obtain heq | hmem := List.mem_cons.mp hmem
    · exact hfirst spec (List.mem_singleton.mpr heq)
    · rw [← hsame]
      exact hrest spec hmem
  next := by
    intro id kind k hk
    obtain ⟨k, hk⟩ | ⟨spec, hmem, hkind⟩ := h'.next id kind k hk
    · obtain ⟨k, hk⟩ | ⟨spec, hmem, hkind⟩ := h.next id kind k hk
      · exact .inl ⟨k, hk⟩
      · exact .inr ⟨spec, List.mem_cons.mpr (.inl (List.mem_singleton.mp hmem)), hkind⟩
    · exact .inr ⟨spec, List.mem_cons_of_mem e hmem, hkind⟩

/-- The reference that arrives has nothing and is given a value that was made for it. -/
lemma make (h : Attaches number [(id, .typed spec)] F F' W W' c c) (hfree : W'.held id = none)
    (hfresh : (⟨number, .reference, id⟩ : MemberId) ∉ c.made) :
    Attaches number [(id, .typed spec)] F F' W
      (Function.update W' id (some (spec.kind, some ⟨number, .reference, id⟩))) c
      (c.make ⟨number, .reference, id⟩) where
  accounted := by
    intro held x y hxy hacc
    rw [seat_update]
    refine (h.accounted held x y hxy hacc).make ?_ hfresh
    rw [seat_self]
    exact hfree
  adds := by
    refine ⟨fun _ hm => List.mem_cons_of_mem _ hm, fun _ hd => hd, fun m hm => ?_,
      fun _ hd => .inl hd⟩
    obtain rfl | hm := List.mem_cons.mp hm
    · exact .inr ⟨_, List.mem_singleton_self _, rfl⟩
    · exact .inl hm
  former := h.former
  next := by
    intro id' kind k hk
    by_cases hid : id' = id
    · subst hid
      rw [Function.update_self] at hk
      cases hk
      exact .inr ⟨spec, List.mem_singleton_self _, rfl⟩
    · rw [Function.update_of_ne hid] at hk
      exact h.next id' kind k hk

end Attaches

/-- A reference arrives and takes over what the former one of its name and kind has held. -/
lemma attaches_moveValue (number : ℕ) (id : String) (spec : ReferenceSpec) (cells former : Cells)
    (c : Chronicle) (hfree : cells.shelf.held id = none) :
    Attaches number [(id, .typed spec)] former.shelf (moveValue id spec.kind cells former).2.shelf
      cells.shelf (moveValue id spec.kind cells former).1.shelf c c := by
  obtain ⟨k, hk, hnext, hformer⟩ | ⟨hne, hsame⟩ := moveValue_cases id spec.kind cells former
  · rw [hnext, hformer]
    refine ⟨fun held x y hxy hacc => hacc.carry hxy hk hfree, .of_eq rfl rfl,
      fun id' k' hk' => ?_, fun id' kind k' hk' => ?_⟩
    · have hid : id' ≠ id := by
        rintro rfl
        rw [Shelf.held, Function.update_self] at hk'
        contradiction
      refine ⟨Function.update_of_ne hid .., fun spec' hmem => ?_⟩
      cases List.mem_singleton.mp hmem
      contradiction
    · by_cases hid : id' = id
      · subst hid
        rw [Function.update_self] at hk'
        cases hk'
        exact .inr ⟨spec, List.mem_singleton_self _, rfl⟩
      · rw [Function.update_of_ne hid] at hk'
        exact .inl ⟨k', hk'⟩
  · rw [hsame]
    refine ⟨fun _ _ _ _ hacc => hacc, .of_eq rfl rfl, fun id' k' hk' => ⟨rfl, ?_⟩,
      fun id' kind k' hk' => .inl ⟨k', hk'⟩⟩
    intro spec' hmem
    cases List.mem_singleton.mp hmem
    exact hne

/-- A reference that arrives. -/
lemma attaches_attachReference (s : Setting) (number : ℕ) (id : String) (r : ReferenceMember)
    (former : Cells) (w : Workbench) (hfree : w.cells.shelf.held id = none)
    (hfresh : (⟨number, .reference, id⟩ : MemberId) ∉ w.turn.chronicle.made) :
    Attaches number [(id, r)] former.shelf
      (attachReference s ⟨number, .reference, id⟩ r former w).1.shelf w.cells.shelf
      (attachReference s ⟨number, .reference, id⟩ r former w).2.cells.shelf w.turn.chronicle
      (attachReference s ⟨number, .reference, id⟩ r former w).2.turn.chronicle := by
  cases r with
  | observer o =>
    refine ⟨fun _ _ _ _ h => h, .of_eq rfl rfl, fun _ _ _ => ⟨rfl, fun spec hmem => ?_⟩,
      fun _ _ k h => .inl ⟨k, h⟩⟩
    cases List.mem_singleton.mp hmem
  | typed spec =>
    have hmove := attaches_moveValue number id spec w.cells former w.turn.chronicle hfree
    obtain ⟨hshelf, hchronicle⟩ | ⟨hnone, hshelf, hchronicle⟩ :=
      makeValue_cases s ⟨number, .reference, id⟩ spec
        { w with cells := (moveValue id spec.kind w.cells former).1 }
    · unfold attachReference
      simp only [hshelf, hchronicle]
      exact hmove
    · unfold attachReference
      simp only [hshelf, hchronicle]
      exact hmove.make hnone hfresh

/-- Other new references stay as they are when one arrives. -/
lemma shelf_attachReference_of_ne (s : Setting) {number : ℕ} {id other : String} (h : other ≠ id)
    (r : ReferenceMember) (former : Cells) (w : Workbench) :
    (attachReference s ⟨number, .reference, id⟩ r former w).2.cells.shelf other =
      w.cells.shelf other := by
  cases r with
  | observer o => rfl
  | typed spec =>
    have hmoved : (moveValue id spec.kind w.cells former).1.shelf other =
        w.cells.shelf other := by
      obtain ⟨k, -, hnext, -⟩ | ⟨-, hsame⟩ := moveValue_cases id spec.kind w.cells former
      · rw [hnext]
        exact Function.update_of_ne h ..
      · rw [hsame]
    refine Eq.trans ?_ hmoved
    obtain ⟨hshelf, -⟩ | ⟨-, hshelf, -⟩ :=
      makeValue_cases s ⟨number, .reference, id⟩ spec
        { w with cells := (moveValue id spec.kind w.cells former).1 }
    · exact congrFun hshelf other
    · exact (congrFun hshelf other).trans (Function.update_of_ne h ..)

/-- References that arrive, one after the other. -/
lemma attaches_attachReferences (s : Setting) (number : ℕ) {rs : Named ReferenceMember}
    (hrs : (Named.names rs).Nodup) (former : Cells) (w : Workbench)
    (hfree : ∀ e ∈ rs, w.cells.shelf.held e.1 = none)
    (hfresh : ∀ e ∈ rs, (⟨number, .reference, e.1⟩ : MemberId) ∉ w.turn.chronicle.made) :
    Attaches number rs former.shelf (attachReferences s number rs former w).1.shelf
      w.cells.shelf (attachReferences s number rs former w).2.cells.shelf w.turn.chronicle
      (attachReferences s number rs former w).2.turn.chronicle := by
  induction rs generalizing former w with
  | nil =>
    exact ⟨fun _ _ _ _ h => h, .of_eq rfl rfl, fun _ _ _ => ⟨rfl, nofun⟩,
      fun _ _ k h => .inl ⟨k, h⟩⟩
  | cons e rs ih =>
    obtain ⟨id, r⟩ := e
    obtain ⟨hnew, hrs⟩ := List.nodup_cons.mp hrs
    have hne : ∀ e ∈ rs, e.1 ≠ id := by
      rintro e he rfl
      have hname : e.1 ∈ Named.names rs := List.mem_map_of_mem he
      exact hnew hname
    have hfirst := attaches_attachReference s number id r former w (hfree _ List.mem_cons_self)
      (hfresh _ List.mem_cons_self)
    have hrest := ih hrs (attachReference s ⟨number, .reference, id⟩ r former w).1
      (attachReference s ⟨number, .reference, id⟩ r former w).2 (fun e he => ?_)
      fun e he hmade => ?_
    · exact hfirst.trans hrest
    · rw [Shelf.held, shelf_attachReference_of_ne s (hne e he) r former w]
      exact hfree e (List.mem_cons_of_mem _ he)
    · obtain hmade | ⟨e', he', heq⟩ := hfirst.adds.makes _ hmade
      · exact hfresh e (List.mem_cons_of_mem _ he) hmade
      · rw [List.mem_singleton.mp he'] at heq
        exact hne e he (congrArg MemberId.id heq)

/-! ## A behavior after another -/

end Iteration

/-- Whatever is on a shelf has a reference of its kind among the members. -/
def Shelf.Fits (F : Shelf) (rs : Named ReferenceMember) : Prop :=
  ∀ id kind k, F id = some (kind, k) → ∃ spec, (id, .typed spec) ∈ rs ∧ spec.kind = kind

namespace Iteration

/-- An entry of a table that is made of a list is one of the list. -/
lemma mem_of_find?_ofList {α : Type} {entries : List (String × α)} {id : String} {v : α}
    (h : (Keyed.ofList entries).find? id = some v) : (id, v) ∈ entries := by
  have hfold (l : List (String × α)) (t : Keyed α)
      (h : (l.foldl (fun t e => Keyed.insert e.1 e.2 t) t).find? id = some v) :
      (id, v) ∈ l ∨ t.find? id = some v := by
    induction l generalizing t with
    | nil => exact .inr h
    | cons e l ih =>
      obtain hmem | hfind := ih (Keyed.insert e.1 e.2 t) h
      · exact .inl (List.mem_cons_of_mem e hmem)
      · by_cases hid : id = e.1
        · subst hid
          rw [Keyed.find?_insert_self] at hfind
          cases hfind
          exact .inl List.mem_cons_self
        · rw [Keyed.find?_insert_of_ne hid] at hfind
          exact .inr hfind
  obtain hmem | hfind := hfold entries [] h
  · exact hmem
  · contradiction

/-- The references of a new behavior have no values yet. -/
lemma shelf_initialCells (m : Members) :
    (initialCells m).shelf.Fits m.references ∧ ∀ id, (initialCells m).shelf.held id = none := by
  have hentry : ∀ id r, (initialCells m).references.find? id = some r →
      ∃ spec, (id, .typed spec) ∈ m.references ∧ r = { kind := spec.kind } := by
    intro id r hr
    obtain ⟨e, he, hentry⟩ := List.mem_filterMap.mp (mem_of_find?_ofList hr)
    obtain ⟨id', member⟩ := e
    cases member with
    | observer o => contradiction
    | typed spec =>
      cases hentry
      exact ⟨spec, he, rfl⟩
  constructor
  · intro id kind k hk
    obtain ⟨r, hr, hkind⟩ := Option.map_eq_some_iff.mp hk
    obtain ⟨spec, hmem, rfl⟩ := hentry id r hr
    exact ⟨spec, hmem, congrArg Prod.fst hkind⟩
  · intro id
    unfold Shelf.held Cells.shelf
    cases hr : (initialCells m).references.find? id with
    | none => rfl
    | some r =>
      obtain ⟨spec, -, rfl⟩ := hentry id r hr
      rfl

/-- References that take part in the life of a behavior. -/
lemma mem_upkeepsOf_references {i : Iteration} {rs : Named ReferenceMember} {m : MemberId}
    {spec : ReferenceSpec} :
    (m, Upkeep.reference spec) ∈ i.upkeepsOf .reference ReferenceMember.upkeep rs ↔
      m = ⟨i.number, .reference, m.id⟩ ∧ (m.id, .typed spec) ∈ rs := by
  unfold upkeepsOf
  rw [List.mem_map]
  constructor
  · rintro ⟨⟨id, r⟩, hmem, heq⟩
    obtain ⟨rfl, hupkeep⟩ := Prod.mk.inj heq
    cases r with
    | observer o => contradiction
    | typed spec' =>
      cases hupkeep
      exact ⟨rfl, hmem⟩
  · rintro ⟨hm, hmem⟩
    refine ⟨(m.id, .typed spec), hmem, ?_⟩
    rw [← hm]
    rfl

/-- Controls and ports hold no values. -/
lemma not_mem_upkeepsOf {α : Type} {i : Iteration} {category : Category} {upkeep : α → Upkeep}
    {members : Named α} (hupkeep : ∀ a spec, upkeep a ≠ .reference spec) (m : MemberId)
    (spec : ReferenceSpec) : (m, Upkeep.reference spec) ∉ i.upkeepsOf category upkeep members := by
  intro hmem
  obtain ⟨e, -, heq⟩ := List.mem_map.mp hmem
  exact hupkeep e.2 spec (congrArg Prod.snd heq)

/-- Controls have no values to give up. -/
lemma upkeep_control (c : Control) (spec : ReferenceSpec) : c.upkeep ≠ .reference spec := by
  cases c <;> nofun

/-- Ports have no values to give up. -/
lemma upkeep_port (p : Port) (spec : ReferenceSpec) : p.upkeep ≠ .reference spec := by
  cases p <;> nofun

/-- The references that take part in the life of a behavior are its own. -/
lemma mem_upkeeps {i : Iteration} {m : MemberId} {spec : ReferenceSpec} :
    (m, Upkeep.reference spec) ∈ i.upkeeps ↔
      m = ⟨i.number, .reference, m.id⟩ ∧ (m.id, .typed spec) ∈ i.members.references := by
  unfold upkeeps
  simp only [List.mem_append, not_mem_upkeepsOf upkeep_control, not_mem_upkeepsOf upkeep_port,
    false_or, mem_upkeepsOf_references]

/-- The references of a former behavior that are given up are rejected ones and those left. -/
lemma mem_givenUp {next former : Iteration} {m : MemberId} {spec : ReferenceSpec} :
    (m, Upkeep.reference spec) ∈ givenUp next former ↔
      m = ⟨former.number, .reference, m.id⟩ ∧
        ((m.id, .typed spec) ∈ rejected ReferenceMember.takesOver next.members.references
            former.members.references ∨
          (m.id, .typed spec) ∈ left next.members.references former.members.references) := by
  unfold givenUp
  simp only [List.mem_append, not_mem_upkeepsOf upkeep_control, not_mem_upkeepsOf upkeep_port,
    false_or, or_false, mem_upkeepsOf_references, ← and_or_left]

/-- A former reference is given up unless a new one of its name and kind has taken its place. -/
lemma mem_givenUp_of_mem {next former : Iteration}
    (hformer : (Named.names former.members.references).Nodup) {id : String}
    {spec : ReferenceSpec} (hmem : (id, .typed spec) ∈ former.members.references)
    (hnext : ∀ spec', (id, .typed spec') ∈ next.members.references → spec'.kind ≠ spec.kind) :
    ((⟨former.number, .reference, id⟩ : MemberId), Upkeep.reference spec) ∈
      givenUp next former := by
  refine mem_givenUp.mpr ⟨rfl, ?_⟩
  cases hfind : Named.find? id next.members.references with
  | none => exact .inr (mem_left.mpr ⟨hmem, hfind⟩)
  | some r =>
    have hformer := Named.find?_of_mem hformer hmem
    refine .inl (mem_rejected.mpr ⟨r, Named.mem_of_find? hfind, hformer, ?_⟩)
    cases r with
    | observer o => rfl
    | typed spec' => exact beq_eq_false_iff_ne.mpr (hnext spec' (Named.mem_of_find? hfind))

/-- A reference that is given up was one of the former behavior. -/
lemma mem_references_of_mem_givenUp {next former : Iteration} {m : MemberId}
    {spec : ReferenceSpec} (h : (m, Upkeep.reference spec) ∈ givenUp next former) :
    m = ⟨former.number, .reference, m.id⟩ ∧
      (m.id, .typed spec) ∈ former.members.references := by
  obtain ⟨hm, hrejected | hleft⟩ := mem_givenUp.mp h
  · obtain ⟨a, -, hfind, -⟩ := mem_rejected.mp hrejected
    exact ⟨hm, Named.mem_of_find? hfind⟩
  · exact ⟨hm, (mem_left.mp hleft).1⟩

/-- What a reference gives up: it was one of a behavior with a number, and is handed the value if it
wants it. -/
def Gives (number : ℕ) (rs : Named ReferenceMember) (d : Disposal) : Prop :=
  d.holder = ⟨number, .reference, d.holder.id⟩ ∧
    ∃ spec, (d.holder.id, .typed spec) ∈ rs ∧ d.handed = (spec.hook .dispose).isSome

/-- A behavior that follows another takes over what fits, makes values for what is new, and gives up
the rest, so that nothing is left on the former shelf. -/
lemma attach_custody (s : Setting) {next former : Iteration} (hnext : next.members.Distinct)
    (hcells : next.cells = initialCells next.members) (hformer : former.members.Distinct)
    (hfits : former.cells.shelf.Fits former.members.references) {t : Turn}
    (hfresh : ∀ m ∈ t.chronicle.made, m.installation ≠ next.number) :
    (∀ held x y, x ≠ y →
      Accounted (seat (seat held x former.cells.shelf) y (initialCells next.members).shelf)
        t.chronicle →
      Accounted (seat (seat held x fun _ => none) y (attach s next former t).1.cells.shelf)
        (attach s next former t).2.chronicle) ∧
    t.chronicle.Adds (fun m => m.installation = next.number)
      (Gives former.number former.members.references) (attach s next former t).2.chronicle ∧
    (attach s next former t).1.cells.shelf.Fits next.members.references := by
  obtain ⟨hinitial, hnone⟩ := shelf_initialCells next.members
  have hcarried : (carryProperties next.cells former.cells).shelf =
      (initialCells next.members).shelf := by
    rw [← hcells]
    rfl
  have hattaches := attaches_attachReferences s next.number hnext.references former.cells
    ⟨carryProperties next.cells former.cells,
      { t with attached := t.attached ++ Named.names next.members.controls }⟩
    (fun e _ => (congrArg (Shelf.held · e.1) hcarried).trans (hnone e.1))
    (fun e _ hmade => hfresh _ hmade rfl)
  unfold attach
  rcases h : attachReferences s next.number next.members.references former.cells
    ⟨carryProperties next.cells former.cells,
      { t with attached := t.attached ++ Named.names next.members.controls }⟩ with ⟨cells, w⟩
  rw [h] at hattaches
  simp only [hcarried] at hattaches
  have hgives := givesUp_disposeMembers s (givenUp next former) ⟨cells, w.turn⟩
  have hempty : ∀ id, (disposeMembers s (givenUp next former)
      ⟨cells, w.turn⟩).cells.shelf.held id = none := by
    intro id
    rw [Option.eq_none_iff_forall_ne_some]
    intro k hk
    obtain ⟨hheld, hothers⟩ := hgives.left id k hk
    obtain ⟨hsame, hunmatched⟩ := hattaches.former id k hheld
    rw [Shelf.held, hsame] at hheld
    obtain ⟨⟨kind, k'⟩, hentry, -⟩ := Option.bind_eq_some_iff.mp hheld
    obtain ⟨spec, hmem, rfl⟩ := hfits id kind k' hentry
    have hgiven := mem_givenUp_of_mem hformer.references hmem
      fun spec' hmem' hkind => hunmatched spec' hmem' k' (by rw [hkind]; exact hentry)
    exact hothers _ spec hgiven rfl
  simp only [h]
  refine ⟨fun held x y hxy hacc => ?_, ?_, ?_⟩
  · have hattached := hattaches.accounted held x y hxy hacc
    rw [seat_comm hxy.symm] at hattached ⊢
    have hdisposed := hgives.accounted (seat held y w.cells.shelf) x hattached
    rw [seat_congr _ _ (G := fun _ => none) hempty] at hdisposed
    exact hdisposed
  · refine (hattaches.adds.imp ?_ fun _ => False.elim).trans
      (hgives.adds.imp (fun _ => False.elim) ?_)
    · rintro m ⟨e, -, rfl⟩
      rfl
    · rintro d ⟨spec, hmem, hhanded⟩
      obtain ⟨hholder, hmem⟩ := mem_references_of_mem_givenUp hmem
      exact ⟨hholder, spec, hmem, hhanded⟩
  · intro id kind k hk
    obtain ⟨k, hk⟩ | hmem := hattaches.next id kind k hk
    · exact hinitial id kind k hk
    · exact hmem

/-- A behavior that goes away gives up all that it holds. -/
lemma dispose_custody (s : Setting) {i : Iteration}
    (hfits : i.cells.shelf.Fits i.members.references) (t : Turn) :
    (∀ held x, Accounted (seat held x i.cells.shelf) t.chronicle →
      Accounted (seat held x fun _ => none) (i.dispose s t).2.chronicle) ∧
    t.chronicle.Adds (fun _ => False) (Gives i.number i.members.references)
      (i.dispose s t).2.chronicle := by
  have hgives := givesUp_disposeMembers s i.upkeeps ⟨i.cells, t⟩
  have hempty : ∀ id, (disposeMembers s i.upkeeps ⟨i.cells, t⟩).cells.shelf.held id = none := by
    intro id
    rw [Option.eq_none_iff_forall_ne_some]
    intro k hk
    obtain ⟨hheld, hothers⟩ := hgives.left id k hk
    obtain ⟨⟨kind, k'⟩, hentry, -⟩ := Option.bind_eq_some_iff.mp hheld
    obtain ⟨spec, hmem, -⟩ := hfits id kind k' hentry
    exact hothers ⟨i.number, .reference, id⟩ spec (mem_upkeeps.mpr ⟨rfl, hmem⟩) rfl
  constructor
  · intro held x hacc
    have hdisposed := hgives.accounted held x hacc
    rw [seat_congr _ _ (G := fun _ => none) hempty] at hdisposed
    exact hdisposed
  · refine hgives.adds.imp (fun _ => id) ?_
    rintro d ⟨spec, hmem, hhanded⟩
    obtain ⟨hholder, hmem⟩ := mem_upkeeps.mp hmem
    exact ⟨hholder, spec, hmem, hhanded⟩

end Iteration

/-! ## Stages in custody -/

namespace Stage

/-- The shelf of a unit, which is empty if there is no unit. -/
def shelfOf : Option Tenure → Shelf
  | none => fun _ => none
  | some t => t.shelf

/-- What is held by the references of the units. -/
def held (S : Stage) : Spot → Option MemberId
  | (none, _) => none
  | (some h, id) => (shelfOf (S.unit h)).held id

/-- References are filed among those of the installation of a number. -/
def Filed (S : Stage) (number : ℕ) (rs : Named ReferenceMember) : Prop :=
  ∀ e ∈ rs, ∃ ms, S.installed.reverse[number]? = some ms ∧ e ∈ ms.references

/-- A value was given up by a reference of an installation, and handed to it if it wanted it. -/
def Handed (S : Stage) (d : Disposal) : Prop :=
  ∃ ms, S.installed.reverse[d.holder.installation]? = some ms ∧
    Iteration.Gives d.holder.installation ms.references d

/-- All values are accounted for. -/
structure Custody (S : Stage) : Prop where
  accounted : Accounted S.held S.chronicle
  fits : ∀ h t, S.unit h = some t → t.shelf.Fits t.members.references
  filed : ∀ h t, S.unit h = some t → S.Filed t.number t.members.references
  numbered : ∀ m ∈ S.chronicle.made, m.installation < S.installed.length
  handed : ∀ d ∈ S.chronicle.disposed, S.Handed d

/-- Nothing is forgotten, and what a unit has held it holds still, unless that has been given up. -/
structure Follows (S S' : Stage) : Prop where
  made : ∀ m ∈ S.chronicle.made, m ∈ S'.chronicle.made
  disposed : ∀ d ∈ S.chronicle.disposed, d ∈ S'.chronicle.disposed
  held : ∀ h id m, S.held (some h, id) = some m →
    (∃ id', S'.held (some h, id') = some m) ∨ m ∈ S'.chronicle.disposed.map Disposal.maker

/-- Values stay accounted for on the way from a stage to another. -/
def Guards (S S' : Stage) : Prop := S.Custody → S'.Custody ∧ S.Follows S'

/-- Nothing has happened. -/
lemma Guards.refl (S : Stage) : S.Guards S :=
  fun hS => ⟨hS, fun _ h => h, fun _ h => h, fun _ id _ h => .inl ⟨id, h⟩⟩

/-- One thing after another. -/
lemma Guards.trans {S S' S'' : Stage} (h : S.Guards S') (h' : S'.Guards S'') : S.Guards S'' := by
  intro hS
  obtain ⟨hS', hfollows⟩ := h hS
  obtain ⟨hS'', hfollows'⟩ := h' hS'
  refine ⟨hS'', fun m hm => hfollows'.made m (hfollows.made m hm),
    fun d hd => hfollows'.disposed d (hfollows.disposed d hd), fun k id m hm => ?_⟩
  obtain ⟨id', hm⟩ | hm := hfollows.held k id m hm
  · exact hfollows'.held k id' m hm
  · obtain ⟨d, hd, rfl⟩ := List.mem_map.mp hm
    exact .inr (List.mem_map_of_mem (hfollows'.disposed d hd))

/-- Two turns of a unit. -/
lemma turn_turn (S : Stage) (h : Handle) (t t' : Option Tenure) (c c' : Chronicle) :
    (S.turn h t c).turn h t' c' = S.turn h t' c' := by
  unfold turn
  rw [Function.update_idem]

section Changes

variable {S S' : Stage} {h : Handle} {next : Option Tenure}

/-- What is held when one unit has changed. -/
lemma held_update (hunit : S'.unit = Function.update S.unit h next) :
    S'.held = seat S.held (some h) (shelfOf next) := by
  funext p
  obtain ⟨x, id⟩ := p
  cases x with
  | none => rfl
  | some k =>
    by_cases hk : k = h
    · subst hk
      rw [seat_self, held, hunit, Function.update_self]
    · have hne : some k ≠ some h := fun heq => hk (Option.some.inj heq)
      rw [seat_of_ne hne, held, held, hunit, Function.update_of_ne hk]

/-- One unit changes, and all values stay accounted for. -/
lemma guards_of_update (hunit : S'.unit = Function.update S.unit h next)
    (hinstalled : S'.installed = S.installed)
    (haccounted : S.Custody → Accounted (seat S.held (some h) (shelfOf next)) S'.chronicle)
    (hadds : S.Custody → S.chronicle.Adds (fun m => m.installation < S.installed.length) S.Handed
      S'.chronicle)
    (hnext : S.Custody → ∀ t, next = some t →
      t.shelf.Fits t.members.references ∧ S.Filed t.number t.members.references) :
    S.Guards S' := by
  intro hS
  have hadds := hadds hS
  have haccounted' : Accounted S'.held S'.chronicle := by
    rw [held_update hunit]
    exact haccounted hS
  -- A unit afterwards is the one that has changed, or was there before.
  have hbefore : ∀ k t, S'.unit k = some t → next = some t ∨ S.unit k = some t := by
    intro k t ht
    rw [hunit] at ht
    by_cases hk : k = h
    · subst hk
      rw [Function.update_self] at ht
      exact .inl ht
    · rw [Function.update_of_ne hk] at ht
      exact .inr ht
  refine ⟨⟨haccounted', fun k t ht => ?_, fun k t ht => ?_, fun m hm => ?_, fun d hd => ?_⟩,
    hadds.made, hadds.disposed, fun k id m hm => ?_⟩
  · obtain ht | ht := hbefore k t ht
    · exact (hnext hS t ht).1
    · exact hS.fits k t ht
  · unfold Filed
    rw [hinstalled]
    obtain ht | ht := hbefore k t ht
    · exact (hnext hS t ht).2
    · exact hS.filed k t ht
  · rw [hinstalled]
    exact (hadds.makes m hm).elim (hS.numbered m) id
  · unfold Handed
    rw [hinstalled]
    exact (hadds.gives d hd).elim (hS.handed d) id
  · -- What the unit has held was made, so somebody holds it or it was given up; and nobody else
    -- can hold it, since nothing has changed elsewhere.
    by_cases hk : k = h
    · have hmade := hadds.made m ((hS.accounted.balance m).mpr (.inl ⟨_, hm⟩))
      obtain ⟨⟨x, id'⟩, hheld⟩ | hgiven := (haccounted'.balance m).mp hmade
      · by_cases hx : x = some h
        · exact .inl ⟨id', by rw [hk, ← hx]; exact hheld⟩
        · rw [held_update hunit, seat_of_ne hx] at hheld
          have heq := hS.accounted.apart _ _ m hheld hm
          exact absurd ((congrArg Prod.fst heq).trans (congrArg some hk)) hx
      · exact .inr hgiven
    · refine .inl ⟨id, ?_⟩
      have hne : some k ≠ some h := fun heq => hk (Option.some.inj heq)
      rw [held_update hunit, seat_of_ne hne]
      exact hm

/-- Entries of a list keep their numbers from behind when one more comes in front. -/
lemma getElem?_reverse_cons {α : Type} {l : List α} {n : ℕ} {a : α} (h : l.reverse[n]? = some a)
    (b : α) : (b :: l).reverse[n]? = some a := by
  obtain ⟨hn, -⟩ := List.getElem?_eq_some_iff.mp h
  rw [List.reverse_cons, List.getElem?_append_left hn]
  exact h

/-- A behavior is entered among those that were put in place. -/
lemma guards_enlist (S : Stage) (ms : Members) :
    S.Guards { S with installed := ms :: S.installed } := by
  intro hS
  refine ⟨⟨hS.accounted, hS.fits, fun k t ht e he => ?_, fun m hm => ?_, fun d hd => ?_⟩,
    (Guards.refl S hS).2.made, (Guards.refl S hS).2.disposed, (Guards.refl S hS).2.held⟩
  · obtain ⟨ms', hms', he⟩ := hS.filed k t ht e he
    exact ⟨ms', getElem?_reverse_cons hms' ms, he⟩
  · exact (hS.numbered m hm).trans (Nat.lt_succ_self _)
  · obtain ⟨ms', hms', hgives⟩ := hS.handed d hd
    exact ⟨ms', getElem?_reverse_cons hms' ms, hgives⟩

/-- A unit has a turn, and all values stay accounted for. -/
lemma guards_turn {t : Tenure} {c : Chronicle}
    (haccounted : S.Custody → Accounted (seat S.held (some h) t.shelf) c)
    (hadds : S.Custody → S.chronicle.Adds (fun m => m.installation < S.installed.length) S.Handed c)
    (hnext : S.Custody →
      t.shelf.Fits t.members.references ∧ S.Filed t.number t.members.references) :
    S.Guards (S.turn h (some t) c) := by
  refine guards_of_update rfl rfl haccounted hadds fun hS u hu => ?_
  cases hu
  exact hnext hS

/-- A unit acts, and neither its behavior nor what it holds changes. -/
lemma guards_of_same {t t' : Tenure} (ht : S.unit h = some t) (hmembers : t'.members = t.members)
    (hnumber : t'.number = t.number) (hshelf : t'.shelf = t.shelf) {c : Chronicle}
    (hmade : c.made = S.chronicle.made) (hdisposed : c.disposed = S.chronicle.disposed) :
    S.Guards (S.turn h (some t') c) := by
  refine guards_turn (fun hS => ?_) (fun _ => .of_eq hmade hdisposed) fun hS => ?_
  · have hsame : seat S.held (some h) t'.shelf = S.held := by
      refine seat_eq_self fun id => ?_
      rw [held, ht, shelfOf, hshelf]
    rw [hsame]
    exact hS.accounted.congr hmade hdisposed
  · rw [hmembers, hnumber, hshelf]
    exact ⟨hS.fits h t ht, hS.filed h t ht⟩

/-- A unit that holds nothing comes or goes. -/
lemma guards_of_empty (hbefore : ∀ id, S.held (some h, id) = none)
    (hunit : S'.unit = Function.update S.unit h next) (hinstalled : S'.installed = S.installed)
    (hchronicle : S'.chronicle = S.chronicle)
    (hnext : ∀ t, next = some t → t.members.references = [] ∧ t.shelf = fun _ => none) :
    S.Guards S' := by
  refine guards_of_update hunit hinstalled (fun hS => ?_)
    (fun _ => .of_eq (congrArg _ hchronicle) (congrArg _ hchronicle)) fun hS t ht => ?_
  · have hsame : seat S.held (some h) (shelfOf next) = S.held := by
      refine seat_eq_self fun id => (hbefore id).trans ?_
      cases next with
      | none => rfl
      | some t =>
        rw [shelfOf, (hnext t rfl).2]
        rfl
    rw [hsame, hchronicle]
    exact hS.accounted
  · obtain ⟨hreferences, hshelf⟩ := hnext t ht
    rw [hreferences, hshelf]
    exact ⟨nofun, nofun⟩

end Changes

/-- What a reference of a unit gives up is handed to it as it wants. -/
lemma Filed.handed {S : Stage} {number : ℕ} {rs : Named ReferenceMember} {d : Disposal}
    (h : S.Filed number rs) (hd : Iteration.Gives number rs d) : S.Handed d := by
  obtain ⟨hholder, spec, hmem, hhanded⟩ := hd
  obtain ⟨ms, hms, hmem⟩ := h _ hmem
  have hnumber : d.holder.installation = number := congrArg MemberId.installation hholder
  unfold Handed
  rw [hnumber]
  exact ⟨ms, hms, hholder, spec, hmem, hhanded⟩

end Stage

namespace Chronicle

/-- Letting members act makes no value and gives none up. -/
lemma values_momentAll (c : Chronicle) (ms : List MemberId) (h : Hook) :
    (c.momentAll ms h).made = c.made ∧ (c.momentAll ms h).disposed = c.disposed := by
  induction ms generalizing c with
  | nil => exact ⟨rfl, rfl⟩
  | cons m ms ih => exact ih (c.moment m h)

end Chronicle

/-- Becoming active makes no value and gives none up. -/
lemma Node.values_activate (s : Setting) (n : Node) (t : Turn) :
    (n.activate s t).2.chronicle.made = t.chronicle.made ∧
      (n.activate s t).2.chronicle.disposed = t.chronicle.disposed := by
  rw [(n.tenure_activate s t).2]
  have hinit := t.chronicle.values_momentAll n.tenure.ids .init
  split
  · exact hinit
  · have hstart := (t.chronicle.momentAll n.tenure.ids .init).values_momentAll n.tenure.ids .start
    exact ⟨hstart.1.trans hinit.1, hstart.2.trans hinit.2⟩

/-! ## Roots in custody -/

namespace Root

/-- A unit has a turn in which neither its behavior nor what it holds changes. -/
lemma guards_act {f : Setting → Node → Turn → Node × Turn}
    (htenure : ∀ s n t, ∃ started, (f s n t).1.tenure = { n.tenure with started := started })
    (hmade : ∀ s n t, (f s n t).2.chronicle.made = t.chronicle.made)
    (hdisposed : ∀ s n t, (f s n t).2.chronicle.disposed = t.chronicle.disposed) (r : Root)
    (h : Handle) : r.stage.Guards (r.act h f).stage := by
  cases hn : r.units.get? h with
  | none =>
    rw [act_of_none hn]
    exact .refl _
  | some n =>
    obtain ⟨started, htenure⟩ := htenure (r.setting n.address) n r.turn
    rw [stage_act hn, htenure]
    refine Stage.guards_of_same (unit_stage hn) ?_ ?_ ?_ ?_ ?_
    · rfl
    · rfl
    · rfl
    · exact hmade ..
    · exact hdisposed ..

/-- Units have such turns, one after the other. -/
lemma guards_actAll {f : Setting → Node → Turn → Node × Turn}
    (hf : ∀ (r : Root) h, r.stage.Guards (r.act h f).stage) (r : Root) (hs : List Handle) :
    r.stage.Guards (r.actAll hs f).stage := by
  induction hs generalizing r with
  | nil => exact .refl _
  | cons h hs ih => exact (hf r h).trans (ih _)

/-- A unit becomes active. -/
lemma guards_activate (r : Root) (h : Handle) : r.stage.Guards (r.act h Node.activate).stage :=
  guards_act (fun s n t => ⟨true, (n.tenure_activate s t).1⟩)
    (fun s n t => (n.values_activate s t).1) (fun s n t => (n.values_activate s t).2) r h

/-- A hook that is not the last one. -/
lemma guards_runHook (hook : Hook) (hhook : hook ≠ .dispose)
    {f : Setting → Node → Turn → Node × Turn} (hf : ∀ s n t, f s n t = n.runHook s hook t)
    (r : Root) (h : Handle) : r.stage.Guards (r.act h f).stage := by
  have hvalues : ∀ s n t, (f s n t).2.chronicle.made = t.chronicle.made ∧
      (f s n t).2.chronicle.disposed = t.chronicle.disposed := by
    intro s n t
    rw [hf, (n.tenure_runHook s hhook t).2]
    exact t.chronicle.values_momentAll n.tenure.ids hook
  refine guards_act (fun s n t => ⟨n.started, ?_⟩) (fun s n t => (hvalues s n t).1)
    (fun s n t => (hvalues s n t).2) r h
  rw [hf]
  exact (n.tenure_runHook s hhook t).1

/-- The clock has nothing to do with values. -/
lemma guards_clock (r : Root) (clock : Clock Handle) :
    r.stage.Guards { r with clock := clock }.stage :=
  fun hr => ⟨⟨hr.accounted, hr.fits, hr.filed, hr.numbered, hr.handed⟩,
    fun _ h => h, fun _ h => h, fun _ id _ h => .inl ⟨id, h⟩⟩

/-- Starting a root. -/
lemma guards_start (r : Root) : r.stage.Guards r.start.2.stage := by
  unfold start
  cases r.clock.become? .active with
  | none => exact .refl _
  | some clock => exact (guards_clock r clock).trans (guards_actAll guards_activate _ _)

/-- Stopping a root. -/
lemma guards_stop (r : Root) : r.stage.Guards r.stop.2.stage := by
  unfold stop
  cases r.clock.become? .idle with
  | none => exact .refl _
  | some clock =>
    have hstopped := guards_actAll (guards_runHook .stop (f := Node.stop) nofun
      fun _ _ _ => rfl) { r with clock := clock } clock.listeners
    have hreset := guards_actAll (guards_runHook .reset (f := Node.reset) nofun
      fun _ _ _ => rfl) ({ r with clock := clock }.actAll clock.listeners Node.stop)
        clock.listeners
    exact ((guards_clock r clock).trans hstopped).trans hreset

/-- Putting a behavior in place of one whose members have different names. -/
lemma guards_putIteration (r : Root) (h : Handle) {i : Iteration} (hi : Declared i)
    (hdistinct : ∀ t, r.stage.unit h = some t → t.members.Distinct) :
    r.stage.Guards (r.putIteration h i).stage := by
  have henlist : r.stage.Guards (r.enlist i).stage := Stage.guards_enlist r.stage i.members
  unfold putIteration
  cases hn : r.units.get? h with
  | none =>
    rw [act_of_none (r := r.enlist i) hn]
    exact henlist
  | some n =>
    have hsome : (r.enlist i).units.get? h = some n := hn
    generalize hnext : ({ i with number := r.installed.length } : Iteration) = next
    have hnumber : next.number = r.installed.length := by rw [← hnext]
    have hmembers : next.members = i.members := by rw [← hnext]
    have hcells : next.cells = Iteration.initialCells next.members := by
      rw [← hnext]
      exact hi.facts.2
    -- The new behavior is in place, but the unit is not active with it yet.
    have hsucceeded : r.stage.Guards ((r.enlist i).stage.turn h
        (some (n.succeed ((r.enlist i).setting n.address) next (r.enlist i).turn).1.tenure)
        (n.succeed ((r.enlist i).setting n.address) next (r.enlist i).turn).2.chronicle) := by
      intro hr
      have hfiled : (r.enlist i).stage.Filed next.number next.members.references := by
        intro e he
        refine ⟨i.members, ?_, hmembers ▸ he⟩
        have hlast : (i.members :: r.installed).reverse[r.installed.length]? =
            some i.members := by simp
        rw [hnumber]
        exact hlast
      obtain ⟨haccounted, hadds, hfits⟩ := Iteration.attach_custody
        ((r.enlist i).setting n.address) (hmembers ▸ hi.facts.1) hcells
        (hdistinct _ (unit_stage hn)) (hr.fits h _ (unit_stage hn)) (t := (r.enlist i).turn)
        (fun m hm => hnumber ▸ (hr.numbered m hm).ne)
      refine (henlist.trans (Stage.guards_turn (fun hS => ?_) (fun hS => ?_)
        fun hS => ⟨hfits, hfiled⟩)) hr
      · have hformer : ∀ id, (r.enlist i).stage.held (some h, id) = n.tenure.shelf.held id :=
          fun id => congrArg (fun t => (Stage.shelfOf t).held id) (unit_stage hn)
        have hvacated := hS.accounted.vacate (x := none) (y := some h) (fun _ => rfl) nofun hformer
          (Iteration.shelf_initialCells next.members).2
        have hattached := haccounted _ none (some h) nofun hvacated
        have hnobody : seat (r.enlist i).stage.held none (fun _ => none) =
            (r.enlist i).stage.held := seat_eq_self fun _ => rfl
        rw [hnobody] at hattached
        exact hattached
      · refine hadds.imp (fun m hm => ?_) fun d hd => ?_
        · rw [hm, hnumber]
          exact Nat.lt_succ_self _
        · exact (hS.filed h _ (unit_stage hn)).handed hd
    rw [stage_act hsome, Node.install_eq]
    generalize n.succeed ((r.enlist i).setting n.address) next (r.enlist i).turn = m at hsucceeded ⊢
    cases r.clock.isActive with
    | false => exact hsucceeded
    | true =>
      obtain ⟨hmade, hdisposed⟩ := m.1.values_activate ((r.enlist i).setting n.address) m.2
      rw [if_pos rfl, (Node.tenure_activate ..).1,
        ← Stage.turn_turn _ h (some m.1.tenure) _ m.2.chronicle]
      refine hsucceeded.trans
        (Stage.guards_of_same (Function.update_self ..) ?_ ?_ ?_ hmade hdisposed)
      · rfl
      · rfl
      · rfl

/-- Adding a unit that has no behavior yet. -/
lemma guards_insertNode {r : Root} (hr : r.IsTree) (parent : Handle) (id : String) {n : Node}
    (hn : n.tenure = Iteration.empty.tenure false) :
    r.stage.Guards (r.insertNode parent id n).2.stage := by
  have hvacant : r.stage.unit (r.units.insert n).1 = none :=
    congrArg (Option.map Node.tenure) (Arena.get?_insert_fst hr.units n)
  rw [stage_insertNode hr.units parent id n (hr.new_not_mem n)]
  refine Stage.guards_of_empty (h := (r.units.insert n).1) (fun id => ?_) rfl rfl rfl fun t ht => ?_
  · rw [Stage.held, hvacant]
    rfl
  · cases ht
    rw [hn]
    exact ⟨rfl, rfl⟩

/-- A unit that is disposed of and dropped. -/
lemma guards_dropNode (r : Root) (h : Handle) : r.stage.Guards (r.dropNode h).stage := by
  have hdisposed : r.stage.Guards (r.act h Node.dispose).stage ∧
      ∀ id, (r.act h Node.dispose).stage.held (some h, id) = none := by
    cases hn : r.units.get? h with
    | none =>
      have hunit : r.stage.unit h = none := congrArg (Option.map Node.tenure) hn
      rw [act_of_none hn]
      refine ⟨.refl _, fun id => ?_⟩
      rw [Stage.held, hunit]
      rfl
    | some n =>
      rw [stage_act hn]
      constructor
      · intro hr
        obtain ⟨haccounted, hadds⟩ := n.iteration.dispose_custody (r.setting n.address)
          (hr.fits h _ (unit_stage hn)) r.turn
        refine Stage.guards_turn (fun hS => ?_) (fun hS => ?_) (fun _ => ⟨nofun, nofun⟩) hr
        · have hseated : seat r.stage.held (some h) n.tenure.shelf = r.stage.held := by
            refine seat_eq_self fun id => ?_
            rw [Stage.held, unit_stage hn, Stage.shelfOf]
          refine haccounted _ (some h) ?_
          have hshelf : n.iteration.cells.shelf = n.tenure.shelf := rfl
          rw [hshelf, hseated]
          exact hS.accounted
        · exact hadds.imp (fun _ => False.elim) fun d hd =>
            (hS.filed h _ (unit_stage hn)).handed hd
      · intro id
        have hunit : (r.stage.turn h (some (n.dispose (r.setting n.address) r.turn).1.tenure)
            (n.dispose (r.setting n.address) r.turn).2.chronicle).unit h =
              some (n.dispose (r.setting n.address) r.turn).1.tenure := Function.update_self ..
        rw [Stage.held, hunit]
        rfl
  rw [stage_dropNode]
  exact hdisposed.1.trans (Stage.guards_of_empty hdisposed.2 rfl rfl rfl nofun)

/-- Every move keeps all values accounted for. -/
lemma guards_move {r s : Root} (htree : r.IsTree) (hr : r.stage.Settled) (h : Move r s) :
    r.stage.Guards s.stage := by
  cases h.lifeMove htree with
  | still hs =>
    rw [hs]
    exact .refl _
  | start => exact guards_start r
  | stop => exact guards_stop r
  | install k hi => exact guards_putIteration r k hi (hr.distinct k)
  | add parent id hn hnew hi =>
    exact (guards_insertNode htree parent id hn).trans (guards_putIteration _ _ hi
      ((settled_insertNode htree hr parent id hn).distinct _))
  | remove parent id =>
    exact preserve_removeChild (P := r.stage.Guards)
      (fun s h hs => hs.trans (guards_dropNode s h)) (.refl _) parent id

/-- In a new root no value has been made. -/
lemma custody_of_new {config : Config} {catalog : Catalog} {r : Root}
    (h : Root.new config catalog = .ok r) : r.stage.Custody := by
  obtain ⟨-, hchronicle, hunit⟩ := stage_of_new h
  have hheld : ∀ p, r.stage.held p = none := by
    rintro ⟨x, id⟩
    cases x with
    | none => rfl
    | some k =>
      cases ht : r.stage.unit k with
      | none =>
        rw [Stage.held, ht]
        rfl
      | some t =>
        rw [Stage.held, ht, hunit k t ht]
        rfl
  refine ⟨⟨?_, ?_, fun p q m hp => ?_, fun p m hp => ?_, fun m => ⟨fun hm => ?_, ?_⟩⟩,
    fun k t ht => ?_, fun k t ht => ?_, fun m hm => ?_, fun d hd => ?_⟩
  · rw [hchronicle]
    exact List.nodup_nil
  · rw [hchronicle]
    exact List.nodup_nil
  · rw [hheld] at hp
    contradiction
  · rw [hheld] at hp
    contradiction
  · rw [hchronicle] at hm
    contradiction
  · rintro (⟨p, hp⟩ | hm)
    · rw [hheld] at hp
      contradiction
    · rw [hchronicle] at hm
      contradiction
  · rw [hunit k t ht]
    exact nofun
  · rw [hunit k t ht]
    exact nofun
  · rw [hchronicle] at hm
    contradiction
  · rw [hchronicle] at hd
    contradiction

/-- In every run all values are accounted for. -/
lemma Reachable.custody_stage {r : Root} (h : Reachable r) : r.stage.Custody := by
  have hall : (r.IsTree ∧ r.stage.Settled) ∧ r.stage.Custody :=
    h.induction_moves (P := fun r => (r.IsTree ∧ r.stage.Settled) ∧ r.stage.Custody)
      (fun _ _ hmove hr => ⟨⟨hr.1.1.changes hmove.changes, settled_move hr.1.1 hr.1.2 hmove⟩,
        (guards_move hr.1.1 hr.1.2 hmove hr.2).1⟩)
      (fun r c _ hr => ⟨⟨hr.1.1.keeps (sends_send r c).keeps, (sends_send r c).stage ▸ hr.1.2⟩,
        (sends_send r c).stage ▸ hr.2⟩)
      (fun _ _ _ _ _ _ _ _ hr => ⟨⟨hr.1.1.keeps ⟨rfl, id⟩, hr.1.2⟩, hr.2⟩)
      fun _ _ _ hnew => ⟨⟨isTree_of_new hnew, settled_stage_of_new hnew⟩, custody_of_new hnew⟩
  exact hall.2

/-- Moves keep all values accounted for. -/
lemma Moves.guards {r s : Root} (h : Moves r s) (htree : r.IsTree) (hr : r.stage.Settled) :
    r.stage.Guards s.stage := by
  induction h with
  | refl => exact .refl _
  | tail hmoves hlast ih =>
    obtain ⟨htree', hsettled⟩ := Moves.settled_stage hmoves htree hr
    exact ih.trans (guards_move htree' hsettled hlast)

/-- A reference of a unit holds a value that was made for a member. -/
def Holds (r : Root) (h : Handle) (id : String) (m : MemberId) : Prop :=
  ∃ n spec ref holding, r.units.get? h = some n ∧
    (id, .typed spec) ∈ n.iteration.members.references ∧
    n.iteration.cells.references.find? id = some ref ∧ ref.kind = spec.kind ∧
    ref.holding = some holding ∧ holding.maker = m

/-- What is on the shelf of a unit is held by one of its references. -/
lemma holds_iff {r : Root} (hr : r.stage.Custody) {h : Handle} {id : String} {m : MemberId} :
    r.Holds h id m ↔ r.stage.held (some h, id) = some m := by
  constructor
  · rintro ⟨n, spec, ref, holding, hn, -, href, -, hholding, rfl⟩
    rw [Stage.held, unit_stage hn, Stage.shelfOf, Shelf.held]
    unfold Node.tenure Iteration.tenure Cells.shelf
    simp only [href, Option.map_some, hholding, Option.bind_some]
  · intro hheld
    rw [Stage.held] at hheld
    cases ht : r.stage.unit h with
    | none =>
      rw [ht] at hheld
      contradiction
    | some t =>
      obtain ⟨n, hn, rfl⟩ := exists_of_unit ht
      rw [ht] at hheld
      obtain ⟨⟨kind, k⟩, hentry, hk⟩ := Option.bind_eq_some_iff.mp hheld
      obtain ⟨spec, hmem, hkind⟩ := hr.fits h _ ht id kind k hentry
      obtain ⟨ref, href, heq⟩ := Option.map_eq_some_iff.mp hentry
      obtain ⟨hrefkind, hrefk⟩ := Prod.mk.inj heq
      obtain ⟨holding, hholding, hmaker⟩ := Option.map_eq_some_iff.mp (hrefk.trans hk)
      exact ⟨n, spec, ref, holding, hn, hmem, href, hrefkind.trans hkind.symm, hholding, hmaker⟩

/-- What was given up of one value, where no value is given up twice. -/
lemma filter_disposed {l : List Disposal} (hl : (l.map Disposal.maker).Nodup) (m : MemberId) :
    l.filter (fun d => d.maker = m) = [] ∧ m ∉ l.map Disposal.maker ∨
      ∃ d ∈ l, d.maker = m ∧ l.filter (fun d => d.maker = m) = [d] := by
  induction l with
  | nil => exact .inl ⟨rfl, List.not_mem_nil⟩
  | cons d l ih =>
    obtain ⟨hnew, hl⟩ := List.nodup_cons.mp hl
    by_cases hd : d.maker = m
    · have hnone : l.filter (fun d => d.maker = m) = [] := by
        refine List.filter_eq_nil_iff.mpr fun d' hd' heq => hnew ?_
        rw [hd, ← of_decide_eq_true heq]
        exact List.mem_map_of_mem hd'
      refine .inr ⟨d, List.mem_cons_self, hd, ?_⟩
      rw [List.filter_cons_of_pos (by simpa using hd), hnone]
    · rw [List.filter_cons_of_neg (by simpa using hd), List.map_cons, List.mem_cons, not_or]
      obtain ⟨hnone, hmem⟩ | ⟨d', hd', hmaker, hone⟩ := ih hl
      · exact .inl ⟨hnone, Ne.symm hd, hmem⟩
      · exact .inr ⟨d', List.mem_cons_of_mem d hd', hmaker, hone⟩

/-- The custody of values.  At every moment of a run each value that was ever made for a reference
is either held, by one reference of one unit, and was never given up, or it is held by nobody and
was given up once, by a reference of an installed behavior, which was handed the value if it has a
use for it at the end.  Nothing else is held.  What a unit holds it holds until that is given up; so
nothing is left of what a unit held that is not there any more. -/
theorem custody {r s : Root} (h : Reachable r) (hs : Moves r s) :
    (∀ m ∈ r.chronicle.made, m ∈ s.chronicle.made) ∧ s.chronicle.made.Nodup ∧
      (∀ m ∈ s.chronicle.made,
        (∃! p : Handle × String, s.Holds p.1 p.2 m) ∧
            s.chronicle.disposed.filter (fun d => d.maker = m) = [] ∨
          (∀ k id, ¬s.Holds k id m) ∧
            ∃ d, s.chronicle.disposed.filter (fun d => d.maker = m) = [d] ∧ s.stage.Handed d) ∧
      (∀ k id m, s.Holds k id m → m ∈ s.chronicle.made) ∧
      (∀ k id m, r.Holds k id m →
        (∃ id', s.Holds k id' m) ∨ ∃ d ∈ s.chronicle.disposed, d.maker = m) ∧
      ∀ k id m, r.Holds k id m → s.units.get? k = none →
        ∃ d ∈ s.chronicle.disposed, d.maker = m := by
  have hr := h.custody_stage
  obtain ⟨hs, hfollows⟩ := hs.guards h.isTree h.settled_stage hr
  have hkept : ∀ k id m, r.Holds k id m →
      (∃ id', s.Holds k id' m) ∨ ∃ d ∈ s.chronicle.disposed, d.maker = m := by
    intro k id m hholds
    obtain ⟨id', hheld⟩ | hgiven := hfollows.held k id m ((holds_iff hr).mp hholds)
    · exact .inl ⟨id', (holds_iff hs).mpr hheld⟩
    · exact .inr (List.mem_map.mp hgiven)
  refine ⟨hfollows.made, hs.accounted.made, fun m hm => ?_, fun k id m hholds => ?_, hkept,
    fun k id m hholds hgone => ?_⟩
  · obtain ⟨hnone, hnot⟩ | ⟨d, hd, rfl, hone⟩ := filter_disposed hs.accounted.given m
    · obtain ⟨⟨x, id⟩, hheld⟩ | hgiven := (hs.accounted.balance m).mp hm
      · cases x with
        | none => contradiction
        | some k =>
          refine .inl ⟨⟨(k, id), (holds_iff hs).mpr hheld, fun p hp => ?_⟩, hnone⟩
          have heq := hs.accounted.apart _ _ m ((holds_iff hs).mp hp) hheld
          exact Prod.ext (Option.some.inj (Prod.mk.inj heq).1) (Prod.mk.inj heq).2
      · exact absurd hgiven hnot
    · refine .inr ⟨fun k id hholds => ?_, d, hone, hs.handed d hd⟩
      exact hs.accounted.kept _ _ ((holds_iff hs).mp hholds) (List.mem_map_of_mem hd)
  · exact (hs.accounted.balance m).mpr (.inl ⟨_, (holds_iff hs).mp hholds⟩)
  · obtain ⟨id', n, -, -, -, hn, -⟩ | hgiven := hkept k id m hholds
    · exact absurd (hgone.symm.trans hn) nofun
    · exact hgiven

/-- A behavior with a reference to a number that has a use for its number at the end. -/
def countingBox : Behavior :=
  [.reference "box" (.typed
    { kind := .int, init := .done (.ok []), make := fun _ => .int 7
      hook := fun h => if h = .dispose then some fun _ => .done (.ok []) else none })]

/-- A value is made for a reference, goes over to the one that follows, and is given up when the
unit is removed. -/
theorem custody_countingBox :
    ∃ r, Root.new {} .base = .ok r ∧
      let s := (Operation.install (rootPath.append ⟨"room", by decide⟩) countingBox).run
        ((Operation.addChildWith rootPath "room" "room" countingBox).run r)
      s.Holds ⟨1, 0⟩ "box" ⟨0, .reference, "box"⟩ ∧
      (s.removeChild rootPath "room").2.units.get? ⟨1, 0⟩ = none ∧
      ∃ d ∈ (s.removeChild rootPath "room").2.chronicle.disposed,
        d.maker = ⟨0, .reference, "box"⟩ := by
  obtain ⟨r, hr⟩ : ∃ r, Root.new {} .base = .ok r := ⟨_, rfl⟩
  have hadded : Reachable ((Operation.addChildWith rootPath "room" "room" countingBox).run r) :=
    .operate (.new hr) trivial
  have hreach : Reachable ((Operation.install (rootPath.append ⟨"room", by decide⟩)
      countingBox).run ((Operation.addChildWith rootPath "room" "room" countingBox).run r)) :=
    .operate hadded trivial
  have hholds : Holds ((Operation.install (rootPath.append ⟨"room", by decide⟩)
      countingBox).run ((Operation.addChildWith rootPath "room" "room" countingBox).run r))
        ⟨1, 0⟩ "box" ⟨0, .reference, "box"⟩ := by
    cases hr
    exact ⟨_, _, _, _, rfl, List.mem_singleton_self _, rfl, rfl, rfl, rfl⟩
  have hgone : (removeChild ((Operation.install (rootPath.append ⟨"room", by decide⟩)
      countingBox).run ((Operation.addChildWith rootPath "room" "room" countingBox).run r))
        rootPath "room").2.units.get? ⟨1, 0⟩ = none := by
    cases hr
    rfl
  obtain ⟨-, -, -, -, -, hremoved⟩ := custody hreach (.single (.remove rootPath "room"))
  exact ⟨r, hr, hholds, hgone, hremoved _ _ _ hholds hgone⟩

end Root

end Switchboard
