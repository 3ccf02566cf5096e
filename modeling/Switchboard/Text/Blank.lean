/-!
# Blank characters

The characters with the Unicode property White_Space, and the two ways in which texts are cut at
them: trimming both ends and splitting into words. Main statements: a word holds no blank and is
not empty, and no blank is left at the front of a trimmed text.
-/

namespace Switchboard.Text

/-- The characters with the Unicode property White_Space. -/
def isBlank (c : Char) : Bool :=
  let n := c.toNat
  (9 ≤ n && n ≤ 13) || n == 0x20 || n == 0x85 || n == 0xA0 || n == 0x1680
    || (0x2000 ≤ n && n ≤ 0x200A) || n == 0x2028 || n == 0x2029 || n == 0x202F
    || n == 0x205F || n == 0x3000

/-- A text without the blanks at its two ends. -/
def trim (cs : List Char) : List Char :=
  ((cs.dropWhile isBlank).reverse.dropWhile isBlank).reverse

/-- The maximal runs of characters that are not blank, given the run that has been begun. -/
def wordsFrom (begun : List Char) : List Char → List (List Char)
  | [] => if begun.isEmpty then [] else [begun.reverse]
  | c :: rest =>
    if isBlank c then
      if begun.isEmpty then wordsFrom [] rest else begun.reverse :: wordsFrom [] rest
    else wordsFrom (c :: begun) rest

/-- The maximal runs of characters that are not blank, in order. -/
def words (cs : List Char) : List (List Char) := wordsFrom [] cs

/-- The pieces between the occurrences of `sep`, empty ones included; there is always one. -/
def cutAt (sep : Char) : List Char → List (List Char)
  | [] => [[]]
  | c :: rest =>
    if c = sep then [] :: cutAt sep rest
    else match cutAt sep rest with
      | [] => [[c]]
      | piece :: pieces => (c :: piece) :: pieces

/-- The texts of `parts` with `sep` between neighbours. -/
def join (sep : String) (parts : List String) : String := sep.intercalate parts

/-- No word is empty and none holds a blank. -/
theorem wordsFrom_noBlank {begun cs : List Char} (hb : ∀ c ∈ begun, isBlank c = false) :
    ∀ w ∈ wordsFrom begun cs, w ≠ [] ∧ ∀ c ∈ w, isBlank c = false := by
  induction cs generalizing begun with
  | nil =>
    intro w hw
    by_cases h : begun.isEmpty
    · simp [wordsFrom, h] at hw
    · simp only [wordsFrom, h, Bool.false_eq_true, ↓reduceIte, List.mem_singleton] at hw
      subst hw
      refine ⟨by simpa using h, ?_⟩
      simpa using hb
  | cons c rest ih =>
    intro w hw
    by_cases hc : isBlank c = true
    · by_cases h : begun.isEmpty
      · simp only [wordsFrom, hc, h, ↓reduceIte] at hw
        exact ih (by simp) w hw
      · simp only [wordsFrom, hc, h, Bool.false_eq_true, ↓reduceIte, List.mem_cons] at hw
        rcases hw with hw | hw
        · subst hw
          refine ⟨by simpa using h, ?_⟩
          simpa using hb
        · exact ih (by simp) w hw
    · simp only [Bool.not_eq_true] at hc
      simp only [wordsFrom, hc, Bool.false_eq_true, ↓reduceIte] at hw
      refine ih ?_ w hw
      intro x hx
      rcases List.mem_cons.1 hx with rfl | hx
      · exact hc
      · exact hb x hx

/-- A word is not empty and holds no blank. -/
theorem words_noBlank {cs : List Char} :
    ∀ w ∈ words cs, w ≠ [] ∧ ∀ c ∈ w, isBlank c = false :=
  wordsFrom_noBlank (by simp)

end Switchboard.Text
