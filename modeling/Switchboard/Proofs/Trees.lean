import Mathlib
import Switchboard.Proofs.Arenas
import Switchboard.Proofs.Pruning
import Switchboard.Proofs.Stages

/-!
# The tree of a root

A root keeps its tree in several parts: the arena of the units, the index of their addresses, the
parents and the children that units know of, and the listeners of the clock.  The main theorem
`tree_invariant` says that in every run all these parts describe one tree, and that removing a child
takes out the units at and below it and no others.

Most of what a root does leaves the tree alone (`Root.Keeps`).  The other changes are those of a
`Skeleton`.
-/

namespace Switchboard

open Relation

namespace Root

/-- What a root knows of the tree of its units. -/
def skeleton (r : Root) : Skeleton where
  place h := (r.units.get? h).map Node.place
  handle := r.handle?
  top := r.top
  listeners := r.clock.listeners
  created := r.created

/-! ## What leaves the tree alone -/

/-- Whether the tree is the same after something was done. -/
structure Keeps (r s : Root) : Prop where
  skeleton : s.skeleton = r.skeleton
  valid : r.units.Valid → s.units.Valid

namespace Keeps

variable {r s t : Root}

/-- Nothing was done. -/
lemma refl (r : Root) : Keeps r r := ⟨rfl, id⟩

/-- One thing was done after another. -/
lemma trans (h : Keeps r s) (h' : Keeps s t) : Keeps r t :=
  ⟨h'.skeleton.trans h.skeleton, fun hr => h'.valid (h.valid hr)⟩

end Keeps

/-- What only sends leaves the tree alone. -/
lemma Sends.keeps {r s : Root} (h : Sends r s) : Keeps r s := by
  refine ⟨?_, fun hr => h.units ▸ hr⟩
  unfold Root.skeleton handle?
  rw [h.units, h.index, h.top, h.clock, h.created]

/-! ## Units in their places -/

section Place

variable {r : Root} {h : Handle} {n m : Node}

/-- The place of a unit in the tree. -/
lemma place_skeleton (hn : r.units.get? h = some n) : r.skeleton.place h = some n.place :=
  congrArg (Option.map Node.place) hn

/-- A unit in the tree has a place. -/
lemma exists_of_place {p : Place} (hp : r.skeleton.place h = some p) :
    ∃ n, r.units.get? h = some n ∧ n.place = p := Option.map_eq_some_iff.mp hp

/-- The index leads to a unit. -/
lemma exists_of_handle (hr : r.skeleton.Indexed) {p : Path} (hp : r.handle? p = some h) :
    ∃ n, r.units.get? h = some n ∧ n.address = p := by
  obtain ⟨k, hk, haddress⟩ := (hr p h).mp hp
  obtain ⟨n, hn, rfl⟩ := exists_of_place hk
  exact ⟨n, hn, haddress⟩

/-- The unit that the index leads to has the address. -/
lemma address_of_handle (hr : r.skeleton.Indexed) {p : Path} (hp : r.handle? p = some h)
    (hn : r.units.get? h = some n) : n.address = p := by
  obtain ⟨n', hn', haddress⟩ := exists_of_handle hr hp
  rw [hn] at hn'
  cases hn'
  exact haddress

/-- A unit in another state. -/
lemma skeleton_set (hn : r.units.get? h = some n) (m : Node) :
    { r with units := r.units.set h m }.skeleton = r.skeleton.update h m.place := by
  have hplace : ∀ k, ((r.units.set h m).get? k).map Node.place =
      if k = h then some m.place else (r.units.get? k).map Node.place := by
    intro k
    rw [Arena.get?_set hn]
    split <;> rfl
  rw [skeleton, Skeleton.update]
  simp only [hplace]
  rfl

/-- A unit in another state. -/
lemma skeleton_modify (hn : r.units.get? h = some n) (f : Node → Node) :
    { r with units := r.units.modify h f }.skeleton = r.skeleton.update h (f n).place := by
  have hmodify : r.units.modify h f = r.units.set h (f n) := by
    rw [Arena.modify, hn]
  rw [hmodify]
  exact skeleton_set hn (f n)

/-- A unit in another state in the same place. -/
lemma keeps_set (hn : r.units.get? h = some n) (hm : m.place = n.place) :
    Keeps r { r with units := r.units.set h m } := by
  refine ⟨?_, fun hr => hr.set h m⟩
  rw [skeleton_set hn, hm]
  exact Skeleton.update_same (place_skeleton hn)

/-- A unit that is changed in its place. -/
lemma keeps_modify (r : Root) (h : Handle) {f : Node → Node} (hf : ∀ n, (f n).place = n.place) :
    Keeps r { r with units := r.units.modify h f } := by
  cases hn : r.units.get? h with
  | none =>
    have hmodify : r.units.modify h f = r.units := by
      rw [Arena.modify, hn]
    rw [hmodify]
    exact .refl r
  | some n =>
    have hmodify : r.units.modify h f = r.units.set h (f n) := by
      rw [Arena.modify, hn]
    rw [hmodify]
    exact keeps_set hn (hf n)

/-- A turn of a unit. -/
lemma keeps_act (r : Root) (h : Handle) (k : Task) : Keeps r (r.act h k.run) := by
  unfold act inTurn
  cases hn : r.units.get? h with
  | none => exact .refl r
  | some n =>
    have hset := keeps_set hn (k.place_run (r.setting n.address) n r.turn)
    have hrest : Keeps { r with units := r.units.set h (k.run (r.setting n.address) n r.turn).1 }
        { r with
          units := r.units.set h (k.run (r.setting n.address) n r.turn).1
          ledger := (k.run (r.setting n.address) n r.turn).2.ledger
          journal := (k.run (r.setting n.address) n r.turn).2.journal
          chronicle := (k.run (r.setting n.address) n r.turn).2.chronicle } := ⟨rfl, id⟩
    exact (hset.trans hrest).trans ((sends_flush n.address _ _).keeps)

end Place

/-! ## Adding and dropping units -/

/-- The index after a unit was taken out. -/
lemma find?_drop (index : List (Path × Handle)) (a p : Path) :
    (((index.filter fun e => e.1 ≠ a).find? fun e => e.1 == p).map Prod.snd) =
      if p = a then none else (index.find? fun e => e.1 == p).map Prod.snd := by
  rw [List.find?_filter]
  by_cases hp : p = a
  · rw [if_pos hp, Option.map_eq_none_iff, List.find?_eq_none]
    intro e _
    by_cases he : e.1 = p
    · simp [he, hp]
    · simp [he]
  · rw [if_neg hp]
    refine congrArg (Option.map Prod.snd) (congrFun (congrArg List.find? ?_) index)
    funext e
    by_cases he : e.1 = p
    · simp [he, hp]
    · simp [he]

/-- The index after a unit was entered. -/
lemma find?_insert (index : List (Path × Handle)) (a p : Path) (h : Handle) :
    ((((a, h) :: index.filter fun e => e.1 ≠ a).find? fun e => e.1 == p).map Prod.snd) =
      if p = a then some h else (index.find? fun e => e.1 == p).map Prod.snd := by
  rw [List.find?_cons]
  by_cases hp : p = a
  · rw [if_pos hp, hp]
    simp
  · have hne : (a == p) = false := beq_eq_false_iff_ne.mpr (Ne.symm hp)
    simp only [hne]
    exact (find?_drop index a p).trans (by rw [if_neg hp, if_neg hp])

section Place

variable {r : Root} {h q : Handle}

/-- Adding a unit to the tree. -/
lemma skeleton_insertNode (hr : r.units.Valid) {m : Node} (hm : r.units.get? q = some m)
    (id : String) (n : Node) (hlisteners : (r.units.insert n).1 ∉ r.clock.listeners) :
    (r.insertNode q id n).2.skeleton =
      r.skeleton.insert q m.place id (r.units.insert n).1 n.place := by
  have hnew := Arena.get?_insert_fst hr n
  have hne : q ≠ (r.units.insert n).1 := by
    intro heq
    rw [← heq, hm] at hnew
    contradiction
  have hplace : ∀ k, (((r.units.insert n).2.modify q fun p =>
      p.insertChild id (r.units.insert n).1).get? k).map Node.place =
      if k = q then some (m.place.insertChild id (r.units.insert n).1)
      else if k = (r.units.insert n).1 then some n.place
      else (r.units.get? k).map Node.place := by
    intro k
    rw [Arena.get?_modify, Arena.get?_insert_snd hr]
    by_cases hk : k = q
    · rw [if_pos hk, if_pos hk, hk, if_neg hne, hm]
      rfl
    · rw [if_neg hk, if_neg hk]
      split <;> rfl
  have hclock : (r.clock.attach (r.units.insert n).1).listeners =
      r.clock.listeners ++ [(r.units.insert n).1] := by
    rw [Clock.attach, if_neg hlisteners]
  unfold insertNode skeleton handle? Skeleton.insert
  simp only [hplace, hclock, find?_insert]
  rfl

/-- Adding a unit keeps the arena valid. -/
lemma valid_insertNode (hr : r.units.Valid) (q : Handle) (id : String) (n : Node) :
    (r.insertNode q id n).2.units.Valid := (hr.insert n).modify q _

/-- Dropping a unit from the tree. -/
lemma skeleton_dropNode {p : Place} (hp : r.skeleton.place h = some p) :
    (r.dropNode h).skeleton = r.skeleton.drop h p.address := by
  have hkeeps : Keeps r (r.act h Node.dispose) := keeps_act r h .dispose
  rw [← hkeeps.skeleton] at hp ⊢
  unfold dropNode
  generalize r.act h Node.dispose = s at hp ⊢
  obtain ⟨n, hn, rfl⟩ := exists_of_place hp
  have hplace : ∀ k, ((s.units.remove h).2.get? k).map Node.place =
      if k = h then none else (s.units.get? k).map Node.place := by
    intro k
    rw [Arena.get?_remove]
    split <;> rfl
  have hremoved : (s.units.remove h).1 = some n := (Arena.remove_fst s.units h).trans hn
  unfold skeleton handle? Skeleton.drop
  simp only [hplace, hremoved, find?_drop]
  rfl

/-- Dropping a unit keeps the arena valid. -/
lemma valid_dropNode (hr : r.units.Valid) (h : Handle) : (r.dropNode h).units.Valid :=
  ((keeps_act r h .dispose).valid hr).remove h

end Place

/-! ## Removing a child -/

/-- Removing children one after the other, when each removal takes out what is at and below the
child. -/
lemma removes_foldl {N : ℕ} {p : Path} {f : Handle → Root → Root}
    (hf : ∀ (h : Handle) (r : Root) (c : Place) (i : Id), r.skeleton.place h = some c →
      c.address = p.append i → r.units.Valid → r.skeleton.Tidy N → r.skeleton.Intact c.address →
      (f h r).units.Valid ∧
        r.skeleton.Removes (f h r).skeleton fun q => q.Within c.address)
    (es : Named Handle) (r : Root) (hr : r.units.Valid) (htidy : r.skeleton.Tidy N)
    (hnames : (Named.names es).Nodup)
    (hes : ∀ e ∈ es, ∃ c i, r.skeleton.place e.2 = some c ∧ i.text = e.1 ∧
      c.address = p.append i ∧ r.skeleton.Intact c.address) :
    (es.foldl (fun r e => f e.2 r) r).units.Valid ∧
      r.skeleton.Removes (es.foldl (fun r e => f e.2 r) r).skeleton fun q =>
        ∃ e ∈ es, ∃ i : Id, i.text = e.1 ∧ q.Within (p.append i) := by
  induction es generalizing r with
  | nil => exact ⟨hr, .refl htidy fun h n _ => by simp⟩
  | cons e es ih =>
    obtain ⟨c, i, hc, hi, haddress, hintact⟩ := hes e List.mem_cons_self
    obtain ⟨hr', hremoves⟩ := hf e.2 r c i hc haddress hr htidy hintact
    obtain ⟨hfirst, hrest⟩ := List.nodup_cons.mp hnames
    rw [haddress] at hremoves
    have hes' : ∀ e' ∈ es, ∃ c i, (f e.2 r).skeleton.place e'.2 = some c ∧ i.text = e'.1 ∧
        c.address = p.append i ∧ (f e.2 r).skeleton.Intact c.address := by
      intro e' he'
      obtain ⟨c', i', hc', hi', haddress', hintact'⟩ := hes e' (List.mem_cons_of_mem e he')
      have hother : ∀ q : Path, q.Within c'.address → ¬q.Within (p.append i) := by
        intro q hq hq'
        rw [haddress'] at hq
        have hsame := Path.eq_of_within hq hq'
        apply hfirst
        rw [← hi, ← hsame, hi']
        exact List.mem_map_of_mem he'
      exact ⟨c', i', (hremoves.place _ c').mpr ⟨hc', hother _ (.refl _)⟩, hi', haddress',
        hintact'.removes hremoves hother⟩
    obtain ⟨hr'', hremoves'⟩ := ih (f e.2 r) hr' (hremoves.tidy htidy) hrest hes'
    refine ⟨hr'', (hremoves.trans hremoves').congr htidy fun k n _ => ?_⟩
    constructor
    · rintro (hwithin | ⟨e', he', j, hj, hwithin⟩)
      · exact ⟨e, List.mem_cons_self, i, hi, hwithin⟩
      · exact ⟨e', List.mem_cons_of_mem e he', j, hj, hwithin⟩
    · rintro ⟨e', he', j, hj, hwithin⟩
      rcases List.mem_cons.mp he' with rfl | he'
      · rw [Id.eq_of_text (hj.trans hi.symm)] at hwithin
        exact .inl hwithin
      · exact .inr ⟨e', he', j, hj, hwithin⟩

/-- Removing a unit takes out everything at and below its address. -/
lemma removes_removeSubtree {N : ℕ} (fuel : ℕ) (h : Handle) (r : Root) {p : Place}
    (hp : r.skeleton.place h = some p) (hr : r.units.Valid) (htidy : r.skeleton.Tidy N)
    (hintact : r.skeleton.Intact p.address) (hfuel : N < fuel + p.address.depth) :
    (removeSubtree fuel h r).units.Valid ∧
      r.skeleton.Removes (removeSubtree fuel h r).skeleton fun q => q.Within p.address := by
  induction fuel generalizing h r p with
  | zero =>
    have hle := htidy.shallow h p hp
    omega
  | succ fuel ih =>
    obtain ⟨n, hn, rfl⟩ := exists_of_place hp
    unfold removeSubtree
    simp only [hn]
    have hchild : ∀ (k : Handle) (s : Root) (c : Place) (i : Id), s.skeleton.place k = some c →
        c.address = n.place.address.append i → s.units.Valid → s.skeleton.Tidy N →
        s.skeleton.Intact c.address → (removeSubtree fuel k s).units.Valid ∧
          s.skeleton.Removes (removeSubtree fuel k s).skeleton fun q => q.Within c.address := by
      intro k s c i hc haddress hs hstidy hsintact
      refine ih k s hc hs hstidy hsintact ?_
      rw [haddress, Path.depth_append]
      omega
    have hes : ∀ e ∈ n.children, ∃ c i, r.skeleton.place e.2 = some c ∧ i.text = e.1 ∧
        c.address = n.place.address.append i ∧ r.skeleton.Intact c.address := by
      intro e he
      obtain ⟨c, i, hc, hi, haddress⟩ := hintact.child h n.place hp (.refl _) e he
      refine ⟨c, i, hc, hi, haddress, hintact.within ?_⟩
      rw [haddress]
      exact Path.within_append _ i
    obtain ⟨hr', hremoves⟩ := removes_foldl hchild n.children r hr htidy
      (hintact.names h n.place hp (.refl _)) hes
    generalize n.children.foldl (fun r e => removeSubtree fuel e.2 r) r = s at hr' hremoves ⊢
    -- The unit itself is still there.
    have hself : s.skeleton.place h = some n.place := by
      refine (hremoves.place h n.place).mpr ⟨hp, ?_⟩
      rintro ⟨e, -, i, -, hwithin⟩
      exact Path.not_within_append _ i hwithin
    refine ⟨valid_dropNode hr' h, ?_⟩
    rw [skeleton_dropNode hself]
    have hdrop := (hremoves.tidy htidy).removes_drop hself
    refine (hremoves.trans hdrop).congr htidy fun k m hk => ?_
    constructor
    · rintro (⟨e, -, i, -, hwithin⟩ | heq)
      · exact hwithin.trans (Path.within_append _ i)
      · rw [heq]
        exact .refl _
    · intro hwithin
      rcases hintact.below htidy hp hk hwithin with heq | hbelow
      · exact .inr heq
      · exact .inl hbelow

/-- No unit is deeper than there are slots in the arena. -/
lemma depth_le_capacity {r : Root} (hr : r.skeleton.WellFormed) {h : Handle} {p : Place}
    (hp : r.skeleton.place h = some p) : p.address.depth ≤ r.units.capacity := by
  obtain ⟨hs, hlength, hnodup, habove⟩ := hr.exists_ancestors hp
  have hlive : ∀ k ∈ hs, ∃ n, r.units.get? k = some n := by
    intro k hk
    obtain ⟨m, hm, -⟩ := habove k hk
    obtain ⟨n, hn, -⟩ := exists_of_place hm
    exact ⟨n, hn⟩
  have hslots : (hs.map Handle.index).Nodup := by
    refine hnodup.map_on fun k hk k' hk' hindex => ?_
    obtain ⟨n, hn⟩ := hlive k hk
    obtain ⟨n', hn'⟩ := hlive k' hk'
    exact Arena.eq_of_index hn hn' hindex
  have hsubset : hs.map Handle.index ⊆ List.range r.units.capacity := by
    intro i hi
    obtain ⟨k, hk, rfl⟩ := List.mem_map.mp hi
    obtain ⟨n, hn⟩ := hlive k hk
    exact List.mem_range.mpr (Arena.index_lt hn)
  have hle := (hslots.subperm hsubset).length_le
  rw [List.length_map, List.length_range, hlength] at hle
  exact hle

/-! ## Trees -/

/-- All parts of a root describe one tree. -/
structure IsTree (r : Root) : Prop where
  units : r.units.Valid
  skeleton : r.skeleton.WellFormed

/-- What leaves the tree alone leaves it a tree. -/
lemma IsTree.keeps {r s : Root} (hr : r.IsTree) (h : Keeps r s) : s.IsTree := by
  refine ⟨h.valid hr.units, ?_⟩
  rw [h.skeleton]
  exact hr.skeleton

/-- A unit that is found is in the index and in the arena. -/
lemma lookupNode_eq_ok {r : Root} {p : Path} {h : Handle} {n : Node} :
    r.lookupNode p = .ok (h, n) ↔ r.handle? p = some h ∧ r.units.get? h = some n := by
  unfold lookupNode lookup
  constructor
  · intro hlookup
    cases hp : r.handle? p with
    | none =>
      rw [hp] at hlookup
      contradiction
    | some k =>
      rw [hp] at hlookup
      simp only [bind, Except.bind] at hlookup
      cases hk : r.units.get? k with
      | none =>
        rw [hk] at hlookup
        contradiction
      | some m =>
        rw [hk] at hlookup
        cases hlookup
        exact ⟨rfl, hk⟩
  · rintro ⟨hp, hn⟩
    simp only [hp, hn, bind, Except.bind]

/-- A container that is found is in the index and in the arena. -/
lemma lookupContainer_eq_ok {r : Root} {p : Path} {h : Handle} {n : Node} :
    r.lookupContainer p = .ok (h, n) ↔
      r.handle? p = some h ∧ r.units.get? h = some n ∧ n.kind.isContainer = true := by
  unfold lookupContainer
  constructor
  · intro hlookup
    match hnode : r.lookupNode p with
    | .error e =>
      rw [hnode] at hlookup
      contradiction
    | .ok (k, m) =>
      rw [hnode] at hlookup
      simp only [bind, Except.bind] at hlookup
      obtain ⟨hk, hm⟩ := lookupNode_eq_ok.mp hnode
      split at hlookup
      · rename_i hcontainer
        cases hlookup
        exact ⟨hk, hm, hcontainer⟩
      · contradiction
  · rintro ⟨hp, hn, hcontainer⟩
    rw [lookupNode_eq_ok.mpr ⟨hp, hn⟩]
    exact if_pos hcontainer

/-- The connections of a sorted list with one more. -/
lemma mem_insertSorted {c d : Connection} {l : List Connection} (h : d ∈ c.insertSorted l) :
    d = c ∨ d ∈ l := by
  induction l with
  | nil => exact .inl (List.mem_singleton.mp h)
  | cons e rest ih =>
    unfold Connection.insertSorted at h
    split at h
    · exact List.mem_cons.mp h
    · rcases List.mem_cons.mp h with rfl | h
      · exact .inr List.mem_cons_self
      · rcases ih h with heq | hmem
        · exact .inl heq
        · exact .inr (List.mem_cons_of_mem e hmem)

/-- The end of a connection is admitted where it is a port of a child that has the direction. -/
lemma checkEnd_eq_ok {r : Root} {n : Node} {child port : String} {d : PortDirection} :
    r.checkEnd n child port d = .ok () ↔ ∃ k c, Named.find? child n.children = some k ∧
      r.units.get? k = some c ∧ c.iteration.portDirection? port = some d := by
  unfold checkEnd Node.child?
  constructor
  · intro h
    cases hc : (Named.find? child n.children).bind r.units.get? with
    | none =>
      rw [hc] at h
      contradiction
    | some c =>
      rw [hc] at h
      simp only at h
      obtain ⟨k, hfind, hk⟩ := Option.bind_eq_some_iff.mp hc
      split at h
      · rename_i hport
        exact ⟨k, c, hfind, hk, hport⟩
      · contradiction
  · rintro ⟨k, c, hfind, hk, hport⟩
    rw [hfind, Option.bind_some, hk]
    exact if_pos hport

/-- The end of a connection that is admitted is a child. -/
lemma isSome_of_checkEnd {r : Root} {n : Node} {child port : String} {d : PortDirection}
    (h : r.checkEnd n child port d = .ok ()) : (Named.find? child n.children).isSome = true := by
  obtain ⟨k, c, hfind, -, -⟩ := checkEnd_eq_ok.mp h
  exact Option.isSome_iff_exists.mpr ⟨k, hfind⟩

/-- A connection that may be made is a new one between ports of children of a container. -/
lemma checkConnection_eq_ok {r : Root} {p : Path} {c : Connection} {h : Handle} {m : Node} :
    r.checkConnection p c = .ok (h, m) ↔ ∃ n, r.handle? p = some h ∧ r.units.get? h = some n ∧
      n.kind.isContainer = true ∧ r.checkEnd n c.source c.sourcePort .output = .ok () ∧
      r.checkEnd n c.target c.targetPort .input = .ok () ∧ c ∉ n.connections ∧
      m = { n with connections := c.insertSorted n.connections } := by
  unfold checkConnection
  simp only [bind, Except.bind]
  constructor
  · intro hcheck
    match hlookup : r.lookupContainer p with
    | .error e =>
      rw [hlookup] at hcheck
      contradiction
    | .ok (k, n) =>
      obtain ⟨hk, hn, hcontainer⟩ := lookupContainer_eq_ok.mp hlookup
      rw [hlookup] at hcheck
      simp only at hcheck
      cases hsource : r.checkEnd n c.source c.sourcePort .output with
      | error e =>
        rw [hsource] at hcheck
        contradiction
      | ok _ =>
        rw [hsource] at hcheck
        simp only at hcheck
        cases htarget : r.checkEnd n c.target c.targetPort .input with
        | error e =>
          rw [htarget] at hcheck
          contradiction
        | ok _ =>
          rw [htarget] at hcheck
          unfold Node.connect? at hcheck
          by_cases hnew : c ∈ n.connections
          · simp only [if_pos hnew] at hcheck
            contradiction
          · simp only [if_neg hnew] at hcheck
            cases hcheck
            exact ⟨n, hk, hn, hcontainer, hsource, htarget, hnew, rfl⟩
  · rintro ⟨n, hk, hn, hcontainer, hsource, htarget, hnew, rfl⟩
    rw [lookupContainer_eq_ok.mpr ⟨hk, hn, hcontainer⟩]
    simp only [hsource, htarget, Node.connect?, if_neg hnew]
    rfl

/-- The path of a child ends with the identifier of that text. -/
lemma child?_eq_ok {p q : Path} {text : String} :
    p.child? text = .ok q ↔ ∃ i : Id, i.text = text ∧ q = p.append i := by
  unfold Path.child? Id.ofText?
  constructor
  · intro h
    split at h
    · rename_i hid
      cases h
      exact ⟨⟨text, hid⟩, rfl, rfl⟩
    · contradiction
  · rintro ⟨i, rfl, rfl⟩
    rw [dif_pos i.valid]
    rfl

/-- A unit that may be added has a container for a parent, which has no child of its name, and a
behavior that can be put in place. -/
lemma checkUnit_eq_ok {r : Root} {parent address : Path} {id : String} {b : Behavior}
    {h : Handle} {i : Iteration} :
    r.checkUnit parent id b = .ok (h, address, i) ↔
      ∃ (n : Node) (j : Id), r.handle? parent = some h ∧ r.units.get? h = some n ∧
        n.kind.isContainer = true ∧ Named.find? id n.children = none ∧ j.text = id ∧
        address = parent.append j ∧ Iteration.ofBehavior b = .ok i := by
  unfold checkUnit
  simp only [bind, Except.bind]
  constructor
  · intro hcheck
    match hlookup : r.lookupContainer parent with
    | .error e =>
      rw [hlookup] at hcheck
      contradiction
    | .ok (k, n) =>
      rw [hlookup] at hcheck
      obtain ⟨hk, hn, hcontainer⟩ := lookupContainer_eq_ok.mp hlookup
      simp only at hcheck
      split at hcheck
      · contradiction
      · rename_i hfree
        rw [Bool.not_eq_true, Option.isSome_eq_false_iff, Option.isNone_iff_eq_none] at hfree
        cases hchild : parent.child? id with
        | error e =>
          rw [hchild] at hcheck
          contradiction
        | ok a =>
          rw [hchild] at hcheck
          obtain ⟨j, hj, ha⟩ := child?_eq_ok.mp hchild
          cases hiteration : Iteration.ofBehavior b with
          | error e =>
            rw [hiteration] at hcheck
            contradiction
          | ok i' =>
            rw [hiteration] at hcheck
            cases hcheck
            exact ⟨n, j, hk, hn, hcontainer, hfree, hj, ha, rfl⟩
  · rintro ⟨n, j, hk, hn, hcontainer, hfree, hj, ha, hiteration⟩
    have hnone : (n.child? id).isSome = false := by
      rw [Node.child?, hfree]
      rfl
    rw [lookupContainer_eq_ok.mpr ⟨hk, hn, hcontainer⟩]
    simp only [hnone, Bool.false_eq_true, ↓reduceIte, child?_eq_ok.mpr ⟨j, hj, ha⟩, hiteration]
    rfl

section Tree

variable {r : Root}

/-- Adding a unit leaves a tree. -/
lemma IsTree.insertNode (hr : r.IsTree) {parent address : Path} {id : String} {b : Behavior}
    {q : Handle} {i : Iteration} (hcheck : r.checkUnit parent id b = .ok (q, address, i))
    (kind : NodeKind) (typeName : String) :
    (r.insertNode q id
      { address := address, parent := some q, kind := kind, typeName := typeName }).2.IsTree := by
  obtain ⟨n, j, hq, hn, hcontainer, hfree, rfl, rfl, -⟩ := checkUnit_eq_ok.mp hcheck
  have hnew : r.skeleton.place (r.units.insert
      { address := parent.append j, parent := some q, kind := kind, typeName := typeName }).1 =
      none :=
    congrArg (Option.map Node.place) (Arena.get?_insert_fst hr.units _)
  have haddress : n.address = parent := address_of_handle hr.skeleton.index hq hn
  refine ⟨valid_insertNode hr.units q _ _, ?_⟩
  rw [skeleton_insertNode hr.units hn]
  · refine hr.skeleton.insert (place_skeleton hn) hcontainer hfree hnew ?_ rfl rfl rfl
    rw [← haddress]
    rfl
  · intro hmem
    have hsome := (hr.skeleton.listening _).mp hmem
    rw [hnew] at hsome
    contradiction

/-- Making a connection leaves a tree. -/
lemma IsTree.connect (hr : r.IsTree) (p : Path) (c : Connection) : (r.connect p c).2.IsTree := by
  unfold Root.connect
  match hcheck : r.checkConnection p c with
  | .error e => exact hr
  | .ok (h, m) =>
    obtain ⟨n, -, hn, hcontainer, hsource, htarget, -, rfl⟩ := checkConnection_eq_ok.mp hcheck
    refine ⟨hr.units.set h _, ?_⟩
    simp only
    rw [skeleton_set hn]
    refine hr.skeleton.update (place_skeleton hn) rfl rfl rfl rfl ?_ ?_
    · intro hleaf
      have hkind : n.place.kind.isContainer = true := hcontainer
      rw [hkind] at hleaf
      contradiction
    · intro d hd
      rcases mem_insertSorted hd with rfl | hd
      · exact ⟨isSome_of_checkEnd hsource, isSome_of_checkEnd htarget⟩
      · exact hr.skeleton.ends h n.place (place_skeleton hn) d hd

/-- Dropping a connection leaves a tree. -/
lemma IsTree.disconnect (hr : r.IsTree) (p : Path) (c : Connection) :
    (r.disconnect p c).2.IsTree := by
  unfold Root.disconnect
  cases hp : r.lookup p with
  | error e => exact hr
  | ok h =>
    simp only
    split
    · rename_i m hm
      obtain ⟨n, hn, hdisconnect⟩ := Option.bind_eq_some_iff.mp hm
      unfold Node.disconnect? at hdisconnect
      split at hdisconnect
      · cases hdisconnect
        refine ⟨hr.units.set h _, ?_⟩
        rw [skeleton_set hn]
        refine hr.skeleton.update (place_skeleton hn) rfl rfl rfl rfl ?_ ?_
        · intro hleaf
          have hnone := (hr.skeleton.container h n.place (place_skeleton hn) hleaf).2
          exact List.filter_eq_nil_iff.mpr fun d hd => by
            rw [show n.connections = [] from hnone] at hd
            contradiction
        · intro d hd
          exact hr.skeleton.ends h n.place (place_skeleton hn) d (List.mem_filter.mp hd).1
      · contradiction
    · exact hr

/-- Removing a child, whether there is one or not, takes out what is at and below it. -/
lemma removes_removeChild (hr : r.IsTree) {parent : Path} {h : Handle} {n : Node}
    (hh : r.handle? parent = some h) (hn : r.units.get? h = some n) (id : String) :
    (r.removeChild parent id).2.units.Valid ∧
      (r.skeleton.update h (n.place.removeChild id)).Removes (r.removeChild parent id).2.skeleton
        (Skeleton.Below n.place id) := by
  have hplace := place_skeleton hn
  have hN : ∀ k m, r.skeleton.place k = some m → m.address.depth ≤ r.units.capacity :=
    fun k m hm => depth_le_capacity hr.skeleton hm
  have htidy : (r.skeleton.update h (n.place.removeChild id)).Tidy r.units.capacity :=
    hr.skeleton.tidy_update hplace rfl hN
  have hforget : { r with units := r.units.modify h fun n => n.removeChild id }.skeleton =
      r.skeleton.update h (n.place.removeChild id) := skeleton_modify hn _
  have hvalid := hr.units.modify h fun n => n.removeChild id
  have hlookup : r.lookup parent = .ok h := by
    rw [lookup, hh]
  unfold removeChild
  simp only [hlookup, hn, Option.bind_some, Node.child?]
  cases hfind : Named.find? id n.children with
  | none =>
    simp only
    refine ⟨hvalid, ?_⟩
    rw [hforget]
    refine .refl htidy ?_
    rintro k m hm ⟨i, hi, hwithin⟩
    rcases Skeleton.place_update hplace hm with ⟨-, rfl, -⟩ | ⟨-, hold⟩
    · exact Path.not_within_append _ i hwithin
    · exact hr.skeleton.not_within_of_free hplace hfind hi hN hold hwithin
  | some c =>
    simp only
    obtain ⟨m, i, hm, -, hi, haddress⟩ :=
      hr.skeleton.child h n.place hplace (id, c) (Named.mem_of_find? hfind)
    simp only at hi
    subst hi
    have hc : (r.skeleton.update h (n.place.removeChild i.text)).place c = some m := by
      rcases Skeleton.place_update_of_place (n.place.removeChild i.text) hplace hm with
        ⟨-, rfl, -⟩ | ⟨-, hnew⟩
      · have hdepth := congrArg Path.depth haddress
        rw [Path.depth_append] at hdepth
        omega
      · exact hnew
    have hintact := hr.skeleton.intact_update hplace i
    rw [← haddress] at hintact
    rw [← hforget] at htidy hintact hc
    have hpos : 0 < m.address.depth := Nat.succ_pos _
    have hfuel : r.units.capacity <
        (r.units.modify h fun n => n.removeChild i.text).capacity + m.address.depth := by
      rw [Arena.capacity_modify]
      omega
    obtain ⟨hvalid', hremoves⟩ :=
      removes_removeSubtree _ c _ hc hvalid htidy hintact hfuel
    refine ⟨hvalid', ?_⟩
    rw [← hforget]
    refine hremoves.congr htidy fun k p _ => ?_
    rw [haddress]
    exact (Skeleton.below_iff rfl).symm

/-- Removing a child leaves a tree. -/
lemma IsTree.removeChild (hr : r.IsTree) (parent : Path) (id : String) :
    (r.removeChild parent id).2.IsTree := by
  cases hh : r.handle? parent with
  | none =>
    have hlookup : r.lookup parent = .error (notFound parent) := by
      rw [lookup, hh]
    unfold Root.removeChild
    rw [hlookup]
    exact hr
  | some h =>
    obtain ⟨n, hn, -⟩ := exists_of_handle hr.skeleton.index hh
    obtain ⟨hvalid, hremoves⟩ := removes_removeChild hr hh hn id
    exact ⟨hvalid, hr.skeleton.prune (place_skeleton hn) hremoves⟩

end Tree

/-! ## Runs -/

/-- A clock with the same listeners. -/
lemma keeps_clock (r : Root) {clock : Clock Handle} (h : clock.listeners = r.clock.listeners) :
    Keeps r { r with clock := clock } := by
  refine ⟨?_, id⟩
  unfold skeleton
  simp only [h]
  rfl

/-- Every change leaves a tree. -/
lemma IsTree.change {r s : Root} (hr : r.IsTree) (h : Change r s) : s.IsTree := by
  cases h with
  | turn h k => exact hr.keeps (keeps_act r h k)
  | answer c hkind args => exact hr.keeps ((sends_sendAnswer r c _ args).keeps)
  | activity h =>
    rw [Clock.become?_eq_some h]
    exact hr.keeps (keeps_clock r rfl)
  | insert hcheck hkind typeName => exact hr.insertNode hcheck _ typeName
  | enlist i => exact hr.keeps ⟨rfl, id⟩
  | remove parent id => exact hr.removeChild parent id
  | connect p c => exact hr.connect p c
  | disconnect p c => exact hr.disconnect p c
  | touch h hf => exact hr.keeps (keeps_modify r h hf)
  | books => exact hr.keeps ⟨rfl, id⟩
  | request => exact hr.keeps ⟨rfl, id⟩
  | quiet => exact hr.keeps ⟨rfl, id⟩
  | send hc => exact hr.keeps ((sends_send r _).keeps)
  | take h => exact hr.keeps ⟨rfl, id⟩
  | takeEmission h => exact hr.keeps ⟨rfl, id⟩
  | @advance time clock h =>
    obtain ⟨rfl, -⟩ := Clock.tick?_eq_some h
    have hclock : Keeps r { r with clock := { r.clock with time := time } } := keeps_clock r rfl
    exact hr.keeps (hclock.trans ⟨rfl, id⟩)

/-- Changes leave a tree. -/
lemma IsTree.changes {r s : Root} (hr : r.IsTree) (h : Changes r s) : s.IsTree :=
  h.preserve (P := IsTree) (fun _ _ hchange hr => hr.change hchange) hr

/-- A new root is a tree with a single unit. -/
lemma isTree_of_new {config : Config} {catalog : Catalog} {r : Root}
    (h : Root.new config catalog = .ok r) : r.IsTree := by
  have hempty : ({} : Arena Node).Valid := ⟨List.nodup_nil, by simp⟩
  obtain ⟨address, hbelow, rfl⟩ := new_eq_ok h
  refine ⟨hempty.insert _, ?_⟩
  have hsingle := Skeleton.wellFormed_single (h := ⟨0, 0⟩)
    (n := ⟨address, none, .root, [], []⟩) hbelow rfl rfl rfl
  have hplace : ∀ n k, ((({} : Arena Node).insert n).2.get? k).map Node.place =
      if k = ⟨0, 0⟩ then some n.place else none := by
    intro n k
    rw [Arena.get?_insert_snd hempty]
    have hfirst : (({} : Arena Node).insert n).1 = ⟨0, 0⟩ := rfl
    rw [hfirst]
    split <;> rfl
  have hindex : ∀ p (k : Handle), ([(address, k)].find? fun e => e.1 == p).map Prod.snd =
      if p = address then some k else none := by
    intro p k
    by_cases hp : p = address
    · simp [hp]
    · simp [hp, Ne.symm hp]
  convert hsingle using 1
  unfold skeleton handle? Skeleton.single
  simp only [hplace, hindex]
  rfl

/-- In every run there is one tree. -/
lemma Reachable.isTree {r : Root} (h : Reachable r) : r.IsTree :=
  h.induction (P := IsTree) (fun _ _ hchange hr => hr.change hchange)
    (fun r c _ hr => hr.keeps ((sends_send r c).keeps))
    (fun _ _ _ _ _ _ _ _ hr => hr.keeps ⟨rfl, id⟩)
    fun _ _ _ hnew => isTree_of_new hnew

/-- What is left of a root when the unit at a path was removed with everything below it, and
nothing else. -/
structure RemovedAt (r s : Root) (p : Path) : Prop where
  present : r.contains p = true
  index : ∀ q h, s.handle? q = some h ↔ r.handle? q = some h ∧ ¬q.Within p
  units : ∀ h, (s.units.get? h).isSome = true ↔
    ∃ n, r.units.get? h = some n ∧ ¬n.address.Within p

/-- A removal that succeeds takes out the units at and below the child, and no others. -/
lemma IsTree.removedAt {r : Root} (hr : r.IsTree) {parent : Path} {id : String}
    (h : (r.removeChild parent id).1 = .ok ()) :
    ∃ i : Id, i.text = id ∧ r.RemovedAt (r.removeChild parent id).2 (parent.append i) := by
  obtain ⟨k, n, c, hk, hn, hfind⟩ : ∃ k n c, r.handle? parent = some k ∧
      r.units.get? k = some n ∧ Named.find? id n.children = some c := by
    unfold Root.removeChild lookup at h
    cases hk : r.handle? parent with
    | none =>
      rw [hk] at h
      contradiction
    | some k =>
      obtain ⟨n, hn, -⟩ := exists_of_handle hr.skeleton.index hk
      simp only [hk, hn, Option.bind_some, Node.child?] at h
      cases hfind : Named.find? id n.children with
      | none =>
        rw [hfind] at h
        contradiction
      | some c => exact ⟨k, n, c, rfl, hn, hfind⟩
  have haddress : n.place.address = parent := address_of_handle hr.skeleton.index hk hn
  have hplace := place_skeleton hn
  obtain ⟨m, i, hm, -, hi, hchild⟩ :=
    hr.skeleton.child k n.place hplace (id, c) (Named.mem_of_find? hfind)
  obtain ⟨-, hremoves⟩ := removes_removeChild hr hk hn id
  rw [haddress] at hchild
  have hone : ∀ q : Path, Skeleton.Below n.place id q ↔ q.Within (parent.append i) := by
    intro q
    rw [Skeleton.below_iff hi, haddress]
  refine ⟨i, hi, ?_, ?_, ?_⟩
  · have hindex : r.handle? (parent.append i) = some c :=
      (hr.skeleton.index _ c).mpr ⟨m, hm, hchild⟩
    rw [contains, hindex]
    rfl
  · intro q h
    rw [← hone q]
    exact hremoves.handle q h
  · intro h
    constructor
    · intro hsome
      obtain ⟨n', hn'⟩ := Option.isSome_iff_exists.mp hsome
      obtain ⟨hold, hleft⟩ := (hremoves.place h n'.place).mp (place_skeleton hn')
      rw [hone] at hleft
      rcases Skeleton.place_update hplace hold with ⟨rfl, heq, -⟩ | ⟨-, hold⟩
      · rw [heq] at hleft
        exact ⟨n, hn, hleft⟩
      · obtain ⟨n'', hn'', heq⟩ := exists_of_place hold
        rw [← heq] at hleft
        exact ⟨n'', hn'', hleft⟩
    · rintro ⟨n', hn', hleft⟩
      have hold := place_skeleton hn'
      have hsome : ((r.removeChild parent id).2.skeleton.place h).isSome = true := by
        rcases Skeleton.place_update_of_place (n.place.removeChild id) hplace hold with
          ⟨-, heq, hnew⟩ | ⟨-, hnew⟩
        · have hsame : n'.address = n.address := congrArg Place.address heq
          rw [(hremoves.place h _).mpr ⟨hnew, by rw [hone]; rw [hsame] at hleft; exact hleft⟩]
          rfl
        · rw [(hremoves.place h _).mpr ⟨hnew, by rw [hone]; exact hleft⟩]
          rfl
      rw [Root.skeleton, Option.isSome_map] at hsome
      exact hsome

/-- The tree of a root.  At every moment of a run the arena, the index, the links between parents
and children, the connections and the listeners describe one tree, in which every unit can be
reached from the root unit; and the removal of a child, where it succeeds, takes out the units at
and below the child and no others. -/
theorem tree_invariant {r s : Root} (h : Reachable r) (hs : Changes r s) :
    s.skeleton.WellFormed ∧
      (∀ k, (s.units.get? k).isSome = true → s.skeleton.Reached k) ∧
      s.clock.listeners.Nodup ∧
      ∀ parent id, (s.removeChild parent id).1 = .ok () →
        ∃ i : Id, i.text = id ∧ s.RemovedAt (s.removeChild parent id).2 (parent.append i) := by
  have hs' : s.IsTree := h.isTree.changes hs
  refine ⟨hs'.skeleton, ?_, hs'.skeleton.nodup_listeners, fun parent id => hs'.removedAt⟩
  intro k hk
  obtain ⟨n, hn⟩ := Option.isSome_iff_exists.mp hk
  exact hs'.skeleton.reached (place_skeleton hn)

/-- The path of a container below the root unit. -/
def hallPath : Path := rootPath.append ⟨"hall", by decide⟩

/-- A container is removed together with the one in it, and the root unit stays. -/
theorem tree_invariant_hall :
    ∃ r, Root.new {} .base = .ok r ∧
      let s := (Operation.addChild hallPath "room" Catalog.containerType).run
        ((Operation.addChild rootPath "hall" Catalog.containerType).run r)
      s.clock.listeners.length = 3 ∧ s.skeleton.WellFormed ∧
      (s.removeChild rootPath "hall").1 = .ok () ∧
      ∃ i : Id, i.text = "hall" ∧
        s.RemovedAt (s.removeChild rootPath "hall").2 (rootPath.append i) := by
  obtain ⟨r, hr⟩ : ∃ r, Root.new {} .base = .ok r := ⟨_, rfl⟩
  have hreach : Reachable ((Operation.addChild hallPath "room" Catalog.containerType).run
      ((Operation.addChild rootPath "hall" Catalog.containerType).run r)) := by
    have hhall : Reachable ((Operation.addChild rootPath "hall" Catalog.containerType).run r) :=
      .operate (.new hr) trivial
    exact .operate hhall trivial
  have hthree : ((Operation.addChild hallPath "room" Catalog.containerType).run
      ((Operation.addChild rootPath "hall" Catalog.containerType).run r)).clock.listeners.length =
      3 := by
    cases hr
    rfl
  have hremoved : (removeChild ((Operation.addChild hallPath "room" Catalog.containerType).run
      ((Operation.addChild rootPath "hall" Catalog.containerType).run r)) rootPath "hall").1 =
      .ok () := by
    cases hr
    rfl
  obtain ⟨hwell, -, -, hremoval⟩ := tree_invariant hreach (.refl _)
  exact ⟨r, hr, hthree, hwell, hremoved, hremoval rootPath "hall" hremoved⟩

end Root

end Switchboard
