import Switchboard.Text.Unseen

/-!
# Quoted texts

A text in quotes, in which every character can be seen: quotes and backslashes are escaped, and so
are characters that leave no mark of their own, which are written by their codes. Main statement:
the other characters from the space up to the tilde are written as they are.
-/

namespace Switchboard.Text

/-- The code of a character in hexadecimal digits, as few as there can be. -/
def codeText (c : Char) : String := String.ofList (Nat.toDigits 16 c.toNat)

/-- A character as it is written between quotes. -/
def escaped (c : Char) : String :=
  match c with
  | '"' => "\\\""
  | '\\' => "\\\\"
  | '\n' => "\\n"
  | '\r' => "\\r"
  | '\t' => "\\t"
  | '\x00' => "\\0"
  | c => if isUnseen c then "\\u\x7b" ++ codeText c ++ "\x7d" else c.toString

/-- A text in quotes. -/
def quoted (s : String) : String := "\"" ++ String.join (s.toList.map escaped) ++ "\""

/-- The characters from the space up to the tilde are written as they are, but for the quote and the
backslash. -/
theorem escaped_of_le {c : Char} (low : 0x20 ≤ c.toNat) (high : c.toNat < 0x7F) (quote : c ≠ '"')
    (backslash : c ≠ '\\') : escaped c = c.toString := by
  unfold escaped
  split
  · contradiction
  · contradiction
  all_goals first
    | (exfalso; revert low; decide)
    | simp [isUnseen_of_le low high]

end Switchboard.Text
