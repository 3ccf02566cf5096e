/-!
# Ranges of characters

A set of characters given by closed ranges of codes, and how to tell whether a character lies in
one of them.
-/

namespace Switchboard.Text

/-- Closed ranges of character codes. -/
abbrev Ranges := List (Nat × Nat)

namespace Ranges

/-- Whether the code of a character lies in one of the ranges. -/
def contains (rs : Ranges) (c : Char) : Bool := rs.any fun r => r.1 ≤ c.toNat && c.toNat ≤ r.2

/-- Whether no range is empty, and each begins after a gap behind the one before. -/
def isAscending : Ranges → Bool
  | [] => true
  | [r] => r.1 ≤ r.2
  | r :: s :: rs => r.1 ≤ r.2 && r.2 + 1 < s.1 && isAscending (s :: rs)

/-- No character below the first code is in ascending ranges. -/
theorem contains_of_lt {r : Nat × Nat} {rs : Ranges} (h : isAscending (r :: rs)) {c : Char}
    (low : c.toNat < r.1) : contains (r :: rs) c = false := by
  induction rs generalizing r with
  | nil => simp [contains]; omega
  | cons s rs ih =>
    simp only [isAscending, Bool.and_eq_true, decide_eq_true_eq] at h
    have hs : contains (s :: rs) c = false := ih h.2 (by omega)
    simp only [contains, List.any_cons, Bool.or_eq_false_iff] at hs ⊢
    exact ⟨by simp; omega, hs⟩

end Ranges

end Switchboard.Text
