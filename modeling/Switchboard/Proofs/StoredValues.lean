import Mathlib
import Switchboard.Proofs.Tables
import Switchboard.Value.Stored

/-!
# Stored values read back

What is written as a document reads back: an address from its text (`Address.ofText?_text`), since
identifiers hold none of the marks that addresses are cut at, and a value from its stored form
(`Value.ofPreserves?_toPreserves`), if its maps are in the order of their keys.
-/

namespace Switchboard

/-! ## Cutting texts -/

namespace Text

variable {sep : Char} {piece rest : List Char}

/-- A text without the separator is a single piece. -/
lemma cutAt_of_not_mem (h : sep ∉ piece) : cutAt sep piece = [piece] := by
  induction piece with
  | nil => rfl
  | cons c piece ih =>
    obtain ⟨hne, hrest⟩ := List.ne_and_not_mem_of_not_mem_cons h
    rw [cutAt, if_neg hne.symm, ih hrest]

/-- What stands before the first separator is the first piece. -/
lemma cutAt_append (h : sep ∉ piece) :
    cutAt sep (piece ++ sep :: rest) = piece :: cutAt sep rest := by
  induction piece with
  | nil => rw [List.nil_append, cutAt, if_pos rfl]
  | cons c piece ih =>
    obtain ⟨hne, hrest⟩ := List.ne_and_not_mem_of_not_mem_cons h
    rw [List.cons_append, cutAt, if_neg hne.symm, ih hrest]

end Text

/-- The last slash of a text is the one behind which there is no other. -/
lemma cutLastSlash?_append {front back : List Char} (h : '/' ∉ back) :
    cutLastSlash? (front ++ '/' :: back) = some (front, '/' :: back) := by
  have hnone : cutLastSlash? back = none := by
    induction back with
    | nil => rfl
    | cons c back ih =>
      obtain ⟨hne, hrest⟩ := List.ne_and_not_mem_of_not_mem_cons h
      rw [cutLastSlash?, ih hrest]
      exact if_neg hne.symm
  induction front with
  | nil =>
    rw [List.nil_append, cutLastSlash?, hnone]
    exact if_pos rfl
  | cons c front ih =>
    rw [List.cons_append, cutLastSlash?, ih]

/-- A text is cut at the first mark behind its last slash. -/
lemma cutAtMark?_append {mark : Char} {front piece id : List Char} (hmark : mark ≠ '/')
    (hpiece : '/' ∉ piece) (hplain : mark ∉ piece) (hid : '/' ∉ id) :
    cutAtMark? mark (front ++ '/' :: (piece ++ mark :: id)) =
      .ok (front ++ '/' :: piece, id) := by
  have hback : '/' ∉ piece ++ mark :: id := by
    rw [List.mem_append, List.mem_cons]
    rintro (h | h | h)
    · exact hpiece h
    · exact hmark h.symm
    · exact hid h
  have hfirst : ∀ c ∈ '/' :: piece, (c != mark) = true := by
    intro c hc
    rw [bne_iff_ne]
    rintro rfl
    rcases List.mem_cons.mp hc with h | h
    · exact hmark h
    · exact hplain h
  have hsplit : '/' :: (piece ++ mark :: id) = ('/' :: piece) ++ mark :: id := rfl
  have hlast : (mark != mark) = false := by simp
  unfold cutAtMark?
  rw [cutLastSlash?_append hback]
  simp only
  rw [hsplit, List.dropWhile_append_of_pos hfirst, List.takeWhile_append_of_pos hfirst,
    List.dropWhile_cons, List.takeWhile_cons, hlast]
  simp

/-! ## Addresses -/

/-- Whether a character is none of the marks that addresses are cut at. -/
def isPlain (c : Char) : Prop := c ≠ '/' ∧ c ≠ '.' ∧ c ≠ '!'

/-- Identifiers are made of plain characters. -/
lemma isPlain_of_isId {cs : List Char} (h : isId cs = true) : ∀ c ∈ cs, isPlain c := by
  have hchar : ∀ c, isIdChar c = true → isPlain c := by
    intro c hc
    refine ⟨?_, ?_, ?_⟩ <;>
      · rintro rfl
        revert hc
        decide
  cases cs with
  | nil => contradiction
  | cons c rest =>
    rw [isId, Bool.and_eq_true, List.all_eq_true] at h
    intro d hd
    rcases List.mem_cons.mp hd with rfl | hd
    · refine hchar d ?_
      simp [isIdChar, Char.isAlphanum, h.1]
    · exact hchar d (h.2 d hd)

/-- The identifiers of endpoints are made of plain characters. -/
lemma isPlain_of_isEndpointId {cs : List Char} (h : isEndpointId cs = true) :
    ∀ c ∈ cs, isPlain c := by
  unfold isEndpointId at h
  split at h
  · intro c hc
    rcases List.mem_cons.mp hc with rfl | hc
    · exact ⟨by decide, by decide, by decide⟩
    · exact isPlain_of_isId h c hc
  · exact isPlain_of_isId h

namespace Id

/-- The marks that addresses are cut at are in no identifier. -/
lemma not_mem (i : Id) :
    '/' ∉ i.text.toList ∧ '.' ∉ i.text.toList ∧ '!' ∉ i.text.toList :=
  ⟨fun h => (isPlain_of_isId i.valid _ h).1 rfl, fun h => (isPlain_of_isId i.valid _ h).2.1 rfl,
    fun h => (isPlain_of_isId i.valid _ h).2.2 rfl⟩

/-- An identifier reads back. -/
lemma ofText?_text (i : Id) : ofText? i.text = .ok i := dif_pos i.valid

end Id

namespace EndpointId

/-- No slash is in the identifier of an endpoint. -/
lemma not_mem (i : EndpointId) : '/' ∉ i.text.toList := fun h =>
  (isPlain_of_isEndpointId i.valid _ h).1 rfl

/-- The identifier of an endpoint reads back. -/
lemma ofText?_text (i : EndpointId) : ofText? i.text = .ok i := dif_pos i.valid

end EndpointId

namespace Path

/-- The characters of a path. -/
lemma toList_text (p : Path) :
    p.text.toList = p.ids.flatMap fun i => '/' :: i.text.toList := by
  unfold text
  rw [String.toList_join, List.flatMap_map]
  simp

/-- Identifiers read back. -/
lemma idsOfPieces?_map (is : List Id) : idsOfPieces? (is.map fun i => i.text.toList) = .ok is := by
  induction is with
  | nil => rfl
  | cons i is ih =>
    rw [List.map_cons, idsOfPieces?, String.ofList_toList, i.ofText?_text]
    simp only [ih]
    rfl

/-- A path reads back from its characters. -/
lemma ofChars?_text (p : Path) : ofChars? p.text.toList = .ok p := by
  have hcut (i : Id) (is : List Id) :
      Text.cutAt '/' (i.text.toList ++ is.flatMap fun i => '/' :: i.text.toList) =
        (i :: is).map fun i => i.text.toList := by
    induction is generalizing i with
    | nil =>
      rw [List.flatMap_nil, List.append_nil, Text.cutAt_of_not_mem i.not_mem.1]
      rfl
    | cons j is ih =>
      rw [List.flatMap_cons, List.cons_append, Text.cutAt_append i.not_mem.1, ih j]
      rfl
  have htext : p.text.toList =
      '/' :: (p.root.text.toList ++ p.below.flatMap fun i => '/' :: i.text.toList) := by
    rw [toList_text, ids, List.flatMap_cons]
    rfl
  rw [htext, ofChars?, hcut, idsOfPieces?_map]

/-- The text of a path ends with a slash and an identifier. -/
lemma exists_last (p : Path) :
    ∃ front, ∃ i : Id, p.text.toList = front ++ '/' :: i.text.toList := by
  rcases List.eq_nil_or_concat p.ids with h | ⟨is, i, h⟩
  · contradiction
  · refine ⟨is.flatMap fun i => '/' :: i.text.toList, i, ?_⟩
    rw [toList_text, h, List.concat_eq_append, List.flatMap_append, List.flatMap_singleton]

end Path

namespace Address

/-- What follows the last slash. -/
lemma lastPiece_append {front back : List Char} (h : '/' ∉ back) :
    lastPiece (front ++ '/' :: back) = back := by
  unfold lastPiece
  rw [cutLastSlash?_append h]

/-- An address reads back from its text. -/
lemma ofText?_text (a : Address) : ofText? a.text = .ok a := by
  unfold ofText? ofChars?
  cases a with
  | unit p =>
    obtain ⟨front, i, h⟩ := p.exists_last
    have hpiece : lastPiece p.text.toList = i.text.toList := by
      rw [h]
      exact lastPiece_append i.not_mem.1
    have hdot : ¬i.text.toList.contains '.' = true := by simpa using i.not_mem.2.1
    have hmark : ¬i.text.toList.contains '!' = true := by simpa using i.not_mem.2.2
    simp only [text, hpiece, if_neg hdot, if_neg hmark, p.ofChars?_text]
    rfl
  | endpoint e =>
    obtain ⟨front, i, h⟩ := e.path.exists_last
    have hchars : e.text.toList = front ++ '/' :: (i.text.toList ++ '.' :: e.id.text.toList) := by
      simp [Endpoint.text, h]
    have hback : '/' ∉ i.text.toList ++ '.' :: e.id.text.toList := by
      simp [i.not_mem.1, e.id.not_mem]
    have hdot : (i.text.toList ++ '.' :: e.id.text.toList).contains '.' = true := by simp
    have hread : Endpoint.ofChars? e.text.toList = .ok e := by
      unfold Endpoint.ofChars?
      rw [hchars, cutAtMark?_append (by decide) i.not_mem.1 i.not_mem.2.1 e.id.not_mem]
      simp only [bind, Except.bind]
      rw [← h, e.path.ofChars?_text]
      simp only [Path.endpoint?, String.ofList_toList, e.id.ofText?_text]
      rfl
    have hpiece : lastPiece e.text.toList = i.text.toList ++ '.' :: e.id.text.toList := by
      rw [hchars]
      exact lastPiece_append hback
    simp only [text, hpiece, if_pos hdot, hread]
    rfl
  | port e =>
    obtain ⟨front, i, h⟩ := e.path.exists_last
    have hchars : e.text.toList = front ++ '/' :: (i.text.toList ++ '!' :: e.id.text.toList) := by
      simp [PortAddress.text, h]
    have hback : '/' ∉ i.text.toList ++ '!' :: e.id.text.toList := by
      simp [i.not_mem.1, e.id.not_mem.1]
    have hdot : ¬(i.text.toList ++ '!' :: e.id.text.toList).contains '.' = true := by
      simp [i.not_mem.2.1, e.id.not_mem.2.1]
    have hmark : (i.text.toList ++ '!' :: e.id.text.toList).contains '!' = true := by simp
    have hread : PortAddress.ofChars? e.text.toList = .ok e := by
      unfold PortAddress.ofChars?
      rw [hchars, cutAtMark?_append (by decide) i.not_mem.1 i.not_mem.2.2 e.id.not_mem.1]
      simp only [bind, Except.bind]
      rw [← h, e.path.ofChars?_text]
      simp only [Path.port?, String.ofList_toList, e.id.ofText?_text]
      rfl
    have hpiece : lastPiece e.text.toList = i.text.toList ++ '!' :: e.id.text.toList := by
      rw [hchars]
      exact lastPiece_append hback
    simp only [text, hpiece, if_neg hdot, if_pos hmark, hread]
    rfl

end Address

/-! ## Values -/

/-- A number of sixty-four bits is the one of its value. -/
lemma Decimal.int64?_toInt (n : Int64) : Decimal.int64? n.toInt = some n := by
  unfold Decimal.int64?
  rw [if_pos ⟨n.minValue_le_toInt, n.toInt_le⟩, Int64.ofInt_toInt]

namespace Value

mutual

/-- A value whose maps are in key order reads back from its stored form. -/
lemma ofPreserves?_toPreserves : ∀ v : Value, Sorted v → ofPreserves? (toPreserves v) = some v
  | .none, _ => by simp [toPreserves, ofPreserves?]
  | .bool _, _ => by simp [toPreserves, ofPreserves?]
  | .int n, _ => by simp [toPreserves, ofPreserves?, Decimal.int64?_toInt]
  | .float _, _ => by simp [toPreserves, ofPreserves?]
  | .text _, _ => by simp [toPreserves, ofPreserves?]
  | .list items, h => by
    rw [toPreserves, ofPreserves?, ofPreservesAll?_toPreservesAll items h]
    rfl
  | .map entries, h => by
    rw [toPreserves, ofPreserves?, ofPreservesEntries?_toPreservesEntries entries h.2]
    simp [ofEntries, Keyed.Sorted.ofList h.1]
  | .address a, _ => by
    rw [toPreserves, ofPreserves?, a.ofText?_text]
    rfl
  | .fault _, _ => by simp [toPreserves, ofPreserves?]

/-- Items read back. -/
lemma ofPreservesAll?_toPreservesAll : ∀ vs : List Value, SortedItems vs →
    ofPreservesAll? (toPreservesAll vs) = some vs
  | [], _ => rfl
  | v :: vs, h => by
    rw [toPreservesAll, ofPreservesAll?, ofPreserves?_toPreserves v h.1]
    simp only [ofPreservesAll?_toPreservesAll vs h.2]
    rfl

/-- Entries read back. -/
lemma ofPreservesEntries?_toPreservesEntries : ∀ es : List (String × Value), SortedEntries es →
    ofPreservesEntries? (toPreservesEntries es) = some es
  | [], _ => rfl
  | (key, v) :: es, h => by
    rw [toPreservesEntries, ofPreservesEntries?, ofPreserves?_toPreserves v h.1]
    simp only [ofPreservesEntries?_toPreservesEntries es h.2]
    rfl

end

end Value

end Switchboard
