import Mathlib
import Switchboard.Command
import Switchboard.Proofs.Addresses

/-!
# Relative words

A script names an endpoint by a word such as `.id` or `./child/path.id`, which is resolved from the
unit of its context: the word is cut at its last point, and the path before it is followed from one
unit to the next.  An absolute address is read otherwise, cut at its last slash and the first point
behind that.  The main theorem `CommandWord.relative_eq_absolute` says that both come to the same:
what a word names is what is written by the text of the context with the word behind it.

Neither side is compared with the other directly.  What an absolute address is read as is known
from its text (`Endpoint.ofText?_eq_ok`), so it is enough to know the text of what a relative word
names (`CommandWord.relative_eq_ok`).
-/

namespace Switchboard

/-! ## Cutting at separators -/

namespace Text

variable {sep : Char}

/-- What stands before a separator and what stands behind it are cut apart from each other. -/
lemma cutAt_append_cons (front back : List Char) :
    cutAt sep (front ++ sep :: back) = cutAt sep front ++ cutAt sep back := by
  induction front with
  | nil => simp [cutAt]
  | cons c front ih =>
    rw [List.cons_append, cutAt, ih, cutAt]
    split_ifs
    · rfl
    · cases hpieces : cutAt sep front with
      | nil => exact absurd hpieces (cutAt_ne_nil front)
      | cons piece pieces => rfl

/-- A first character that is no separator is the first one of the first piece. -/
lemma exists_cutAt_cons {c : Char} (h : c ≠ sep) (cs : List Char) :
    ∃ piece pieces, cutAt sep (c :: cs) = (c :: piece) :: pieces := by
  rw [cutAt, if_neg h]
  cases cutAt sep cs with
  | nil => exact ⟨[], [], rfl⟩
  | cons piece pieces => exact ⟨piece, pieces, rfl⟩

/-- Pieces without separators are found again. -/
lemma cutAt_flatMap {pieces : List (List Char)} (h : ∀ piece ∈ pieces, sep ∉ piece) :
    cutAt sep (pieces.flatMap fun piece => sep :: piece) = [] :: pieces := by
  induction pieces using List.reverseRecOn with
  | nil => rfl
  | append_singleton pieces piece ih =>
    rw [List.flatMap_append, List.flatMap_singleton, cutAt_append_cons,
      ih fun piece hpiece => h piece (List.mem_append_left _ hpiece),
      cutAt_of_not_mem (h piece (by simp))]
    rfl

end Text

/-- No point is in the identifier of an endpoint. -/
lemma EndpointId.point_not_mem (i : EndpointId) : '.' ∉ i.text.toList := fun h =>
  (isPlain_of_isEndpointId i.valid _ h).2.1 rfl

namespace Path

variable {p q : Path}

/-- No point is in the text of a path. -/
lemma point_not_mem_text (p : Path) : '.' ∉ p.text.toList := by
  rw [toList_text, List.mem_flatMap]
  rintro ⟨i, -, h⟩
  rcases List.mem_cons.mp h with h | h
  · contradiction
  · exact i.not_mem.2.1 h

/-- Paths that are written in the same way are the same. -/
lemma eq_of_toList_text (h : p.text.toList = q.text.toList) : p = q := by
  have hread := ofChars?_eq_ok.mpr h
  rw [q.ofChars?_text] at hread
  exact (Except.ok.inj hread).symm

/-- Paths of the same identifiers are the same. -/
lemma eq_of_map_ids (h : (p.ids.map fun i => i.text.toList) = q.ids.map fun i => i.text.toList) :
    p = q := by
  refine eq_of_toList_text ?_
  rw [toList_text, toList_text]
  simpa [List.flatMap_map] using congrArg (List.flatMap fun piece => '/' :: piece) h

/-- A path is written with something behind the text of another one and a slash exactly if it has
the identifiers of the other one and those that this is cut into. -/
lemma toList_text_eq_append_iff {cs : List Char} :
    q.text.toList = p.text.toList ++ '/' :: cs ↔
      (q.ids.map fun i => i.text.toList) =
        (p.ids.map fun i => i.text.toList) ++ Text.cutAt '/' cs := by
  have hflat (r : Path) : r.text.toList =
      (r.ids.map fun i => i.text.toList).flatMap fun piece => '/' :: piece := by
    rw [toList_text, List.flatMap_map]
  have hcut (r : Path) :
      Text.cutAt '/' r.text.toList = [] :: r.ids.map fun i => i.text.toList := by
    rw [hflat]
    refine Text.cutAt_flatMap ?_
    intro piece hpiece
    obtain ⟨i, -, rfl⟩ := List.mem_map.mp hpiece
    exact i.not_mem.1
  constructor
  · intro h
    have hpieces := congrArg (Text.cutAt '/') h
    rw [Text.cutAt_append_cons, hcut, hcut, List.cons_append, List.cons_inj_right] at hpieces
    exact hpieces
  · intro h
    rw [hflat, h, List.flatMap_append, ← hflat, Text.flatMap_cutAt]

end Path

/-- The address of an endpoint has a single point. -/
lemma Endpoint.toList_text_eq_iff {e : Endpoint} {front back : List Char} :
    e.text.toList = front ++ '.' :: back ↔
      e.path.text.toList = front ∧ e.id.text.toList = back := by
  rw [e.toList_text]
  constructor
  · intro h
    obtain ⟨hpath, -, hid⟩ :=
      (List.append_cons_inj_of_notMem e.path.point_not_mem_text e.id.point_not_mem).mp h
    exact ⟨hpath, hid⟩
  · rintro ⟨rfl, rfl⟩
    rfl

namespace CommandWord

variable {p q : Path} {word : String} {mark : Char} {cs front back : List Char}

/-! ## The text of what a word names -/

/-- A text without the mark is not cut. -/
lemma cutLast?_of_not_mem (h : mark ∉ cs) : cutLast? mark cs = none := by
  induction cs with
  | nil => rfl
  | cons c cs ih =>
    obtain ⟨hne, hrest⟩ := List.ne_and_not_mem_of_not_mem_cons h
    rw [cutLast?, ih hrest]
    exact if_neg hne.symm

/-- The last mark is the one behind which there is no other. -/
lemma cutLast?_append (h : mark ∉ back) :
    cutLast? mark (front ++ mark :: back) = some (front, back) := by
  induction front with
  | nil =>
    rw [List.nil_append, cutLast?, cutLast?_of_not_mem h]
    exact if_pos rfl
  | cons c front ih => rw [List.cons_append, cutLast?, ih]

/-- A text with the mark has a last one. -/
lemma exists_last_mark (h : mark ∈ cs) :
    ∃ front back, cs = front ++ mark :: back ∧ mark ∉ back := by
  obtain ⟨back, front, hreverse, hback⟩ := List.eq_append_cons_of_mem (List.mem_reverse.mpr h)
  refine ⟨front.reverse, back.reverse, ?_, by simpa using hback⟩
  rw [← List.reverse_reverse cs, hreverse]
  simp

/-- A text is cut at its last mark and nowhere else. -/
lemma cutLast?_eq_some :
    cutLast? mark cs = some (front, back) ↔ cs = front ++ mark :: back ∧ mark ∉ back := by
  constructor
  · intro h
    by_cases hmem : mark ∈ cs
    · obtain ⟨front', back', rfl, hback⟩ := exists_last_mark hmem
      rw [cutLast?_append hback] at h
      cases h
      exact ⟨rfl, hback⟩
    · rw [cutLast?_of_not_mem hmem] at h
      contradiction
  · rintro ⟨rfl, hback⟩
    exact cutLast?_append hback

/-- Following a segment that is not empty leads to a child, which it must be an identifier of. -/
lemma descend_cons_eq_ok {segment : List Char} {segments : List (List Char)} (h : segment ≠ []) :
    descend p (segment :: segments) = .ok q ↔
      ∃ i : Id, i.text.toList = segment ∧ descend (p.append i) segments = .ok q := by
  have hempty : ¬segment.isEmpty = true := by simpa using h
  rw [descend, if_neg hempty, Path.child?]
  cases hid : Id.ofText? (String.ofList segment) with
  | error e =>
    refine ⟨fun hread => by contradiction, ?_⟩
    rintro ⟨i, rfl, -⟩
    rw [String.ofList_toList, i.ofText?_text] at hid
    contradiction
  | ok i =>
    have hi : i.text.toList = segment := by
      rw [Id.ofText?_eq_ok.mp hid, String.toList_ofList]
    refine ⟨fun hread => ⟨i, hi, hread⟩, ?_⟩
    rintro ⟨j, hj, hread⟩
    rw [← hj, String.ofList_toList, j.ofText?_text] at hid
    cases hid
    exact hread

/-- Following segments, none of which is empty, leads to the path that has them besides. -/
lemma descend_eq_ok {segments : List (List Char)} (h : [] ∉ segments) :
    descend p segments = .ok q ↔
      (q.ids.map fun i => i.text.toList) = (p.ids.map fun i => i.text.toList) ++ segments := by
  induction segments generalizing p with
  | nil =>
    rw [descend, List.append_nil]
    constructor
    · intro heq
      cases heq
      rfl
    · intro heq
      rw [Path.eq_of_map_ids heq]
  | cons segment segments ih =>
    obtain ⟨hne, hsegments⟩ := List.ne_and_not_mem_of_not_mem_cons h
    have happend (i : Id) : ((p.append i).ids.map fun i => i.text.toList) =
        (p.ids.map fun i => i.text.toList) ++ [i.text.toList] := by
      simp [Path.append, Path.ids]
    rw [descend_cons_eq_ok hne.symm]
    constructor
    · rintro ⟨i, rfl, hread⟩
      rw [(ih hsegments).mp hread, happend, List.append_assoc, List.singleton_append]
    · intro hq
      have hmem : segment ∈ q.ids.map fun i => i.text.toList := by simp [hq]
      obtain ⟨i, -, rfl⟩ := List.mem_map.mp hmem
      refine ⟨i, rfl, (ih hsegments).mpr ?_⟩
      rw [hq, happend, List.append_assoc, List.singleton_append]

/-- A word is resolved to the endpoint that the part of it behind the last point names, on the unit
that is reached along the part before. -/
lemma relative_eq_ok {e : Endpoint} :
    relative (some p) word = .ok e ↔
      ∃ front back, unprefixed word.toList = front ++ '.' :: back ∧ '.' ∉ back ∧
        descend p (Text.cutAt '/' front) = .ok e.path ∧ e.id.text.toList = back := by
  unfold relative
  simp only
  generalize unprefixed word.toList = cs
  constructor
  · intro h
    split at h
    · contradiction
    · rename_i front back hcut
      obtain ⟨rfl, hback⟩ := cutLast?_eq_some.mp hcut
      split at h
      · contradiction
      · rename_i q hq
        split at h
        · contradiction
        · rename_i e' he
          cases h
          obtain ⟨rfl, hid⟩ := Path.endpoint?_eq_ok.mp he
          exact ⟨front, back, rfl, hback, hq, by rw [hid, String.toList_ofList]⟩
  · rintro ⟨front, back, rfl, hback, hpath, rfl⟩
    rw [cutLast?_append hback]
    simp only [hpath, Path.endpoint?_eq_ok.mpr ⟨rfl, String.ofList_toList.symm⟩]

/-! ## Relative and absolute -/

/-- What a word is behind the text of a unit: a `./` at its front counts as a slash. -/
def behind (word : String) : String :=
  match word.toList with
  | '.' :: '/' :: rest => String.ofList ('/' :: rest)
  | _ => word

/-- If the word begins with `./`, there is a path between that and its last point, and no segment
of the path is empty; an empty path would be one empty segment. -/
def Spelled (word : String) : Prop :=
  ∀ front back, word.toList = '.' :: '/' :: (front ++ '.' :: back) → '.' ∉ back →
    [] ∉ Text.cutAt '/' front

/-- Behind `./` stand the path from the unit to the owner of the endpoint, a point and the
identifier of the endpoint. -/
lemma relative_of_path {rest : List Char} (hword : word.toList = '.' :: '/' :: rest)
    (hspelled : Spelled word) {e : Endpoint} :
    relative (some p) word = .ok e ↔ e.text.toList = p.text.toList ++ '/' :: rest := by
  rw [relative_eq_ok, hword, unprefixed]
  constructor
  · rintro ⟨front, back, rfl, hback, hpath, hid⟩
    have hreached := (descend_eq_ok (hspelled front back hword hback)).mp hpath
    rw [e.toList_text, Path.toList_text_eq_append_iff.mpr hreached, hid]
    simp
  · intro h
    have hpoint : '.' ∈ rest := by
      have hmem : '.' ∈ p.text.toList ++ '/' :: rest := by
        rw [← h, e.toList_text]
        simp
      simpa [p.point_not_mem_text] using hmem
    obtain ⟨front, back, rfl, hback⟩ := exists_last_mark hpoint
    rw [← List.cons_append, ← List.append_assoc] at h
    obtain ⟨hpath, hid⟩ := Endpoint.toList_text_eq_iff.mp h
    refine ⟨front, back, rfl, hback, ?_, hid⟩
    exact (descend_eq_ok (hspelled front back hword hback)).mpr
      (Path.toList_text_eq_append_iff.mp hpath)

/-- Behind a point alone stands the identifier of an endpoint of the unit itself. -/
lemma relative_of_point {rest : List Char} (hplain : unprefixed word.toList = '.' :: rest)
    {e : Endpoint} :
    relative (some p) word = .ok e ↔ e.text.toList = p.text.toList ++ '.' :: rest := by
  rw [relative_eq_ok, hplain]
  constructor
  · rintro ⟨front, back, hcut, hback, hpath, hid⟩
    cases front with
    | nil =>
      cases hcut
      cases hpath
      rw [e.toList_text, hid]
    | cons c front =>
      -- The first segment begins with the point, so it is no identifier.
      obtain ⟨rfl, -⟩ := List.cons.inj hcut
      have hne : '.' ≠ '/' := by decide
      obtain ⟨piece, pieces, hpieces⟩ := Text.exists_cutAt_cons hne front
      rw [hpieces, descend_cons_eq_ok (List.cons_ne_nil _ _)] at hpath
      obtain ⟨i, hi, -⟩ := hpath
      exact absurd (hi ▸ List.mem_cons_self) i.not_mem.2.1
  · intro h
    obtain ⟨hpath, hid⟩ := Endpoint.toList_text_eq_iff.mp h
    refine ⟨[], rest, rfl, hid ▸ e.id.point_not_mem, ?_, hid⟩
    rw [Path.eq_of_toList_text hpath]
    rfl

/-- A relative word agrees with the absolute one.  In every scope whose context is a unit, a word
that begins with a point names the endpoint whose address is the text of the unit with the word
behind it; a `./` counts as a slash there, and if the word begins so, no segment of its path may be
empty.  Where the one names no endpoint the other does not either. -/
theorem relative_eq_absolute {s : Scopes} {r : ScopeRef}
    (hcontext : (s.get? r contextVariable).bind Value.path? = some p)
    (hpoint : word.toList.head? = some '.') (hspelled : Spelled word) :
    (∀ e, relative ((s.get? r contextVariable).bind Value.path?) word = .ok e ↔
      Endpoint.ofText? (p.text ++ behind word) = .ok e) ∧
      ((∃ f, relative ((s.get? r contextVariable).bind Value.path?) word = .error f) ↔
        ∃ e, Endpoint.ofText? (p.text ++ behind word) = .error e) := by
  rw [hcontext]
  have hagree (e : Endpoint) :
      relative (some p) word = .ok e ↔ Endpoint.ofText? (p.text ++ behind word) = .ok e := by
    rw [Endpoint.ofText?_eq_ok, ← String.toList_inj, String.toList_append]
    unfold behind
    split
    · rename_i rest hword
      rw [relative_of_path hword hspelled, String.toList_ofList]
    · rename_i hplain
      obtain ⟨rest, hword⟩ := List.head?_eq_some_iff.mp hpoint
      have hwhole : unprefixed word.toList = '.' :: rest := by
        rw [← hword]
        unfold unprefixed
        split
        · rename_i rest hslash
          exact absurd hslash (hplain rest)
        · rfl
      rw [relative_of_point hwhole, hword]
  refine ⟨hagree, ?_⟩
  cases hrelative : relative (some p) word with
  | ok e => simp [(hagree e).mp hrelative]
  | error f =>
    cases habsolute : Endpoint.ofText? (p.text ++ behind word) with
    | ok e =>
      rw [(hagree e).mpr habsolute] at hrelative
      contradiction
    | error e => simp

/-- The name of the unit below can be used in paths. -/
lemma isId_parlor : isId "parlor".toList = true := by decide

/-- The name of a unit in it can be used in paths. -/
lemma isId_lamp : isId "lamp".toList = true := by decide

/-- The name of a control of that can be used in endpoints. -/
lemma isEndpointId_set : isEndpointId "set".toList = true := by decide

/-- A unit in whose context a word is resolved. -/
def parlor : Path := ⟨⟨"parlor", isId_parlor⟩, []⟩

/-- A scope whose context is that unit. -/
def parlorScopes : Scopes :=
  (Scopes.newTop {}).2.set ⟨0, []⟩ contextVariable (.address (.unit parlor))

/-- The endpoint of a unit in the parlor. -/
def lampSet : Endpoint := ⟨parlor.append ⟨"lamp", isId_lamp⟩, ⟨"set", isEndpointId_set⟩⟩

/-- In the parlor the word `./lamp.set` names what `/parlor/lamp.set` does. -/
theorem relative_eq_absolute_parlor :
    (parlorScopes.get? ⟨0, []⟩ contextVariable).bind Value.path? = some parlor ∧
      "./lamp.set".toList.head? = some '.' ∧ Spelled "./lamp.set" ∧
      parlor.text ++ behind "./lamp.set" = "/parlor/lamp.set" ∧
      relative ((parlorScopes.get? ⟨0, []⟩ contextVariable).bind Value.path?) "./lamp.set" =
        .ok lampSet := by
  have hcontext : (parlorScopes.get? ⟨0, []⟩ contextVariable).bind Value.path? = some parlor := rfl
  have hspelled : Spelled "./lamp.set" := by
    intro front back hword hback
    have hcut : "lamp".toList ++ '.' :: "set".toList = front ++ '.' :: back := by
      simpa using hword
    obtain ⟨rfl, -, -⟩ := (List.append_cons_inj_of_notMem (by decide) (by decide)).mp hcut
    decide
  have htext : parlor.text ++ behind "./lamp.set" = "/parlor/lamp.set" := by decide
  refine ⟨hcontext, rfl, hspelled, htext, ?_⟩
  refine ((relative_eq_absolute hcontext rfl hspelled).1 lampSet).mpr ?_
  rw [htext, Endpoint.ofText?_eq_ok]
  decide

end CommandWord

end Switchboard
