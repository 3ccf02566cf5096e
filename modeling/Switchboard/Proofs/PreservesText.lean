import Mathlib
import Switchboard.Preserves.Reader

/-!
# Documents read back from their text

The main theorem `ofText?_render` says that the reader gives back a document from its text.  The
documents are those that values are stored as: atoms, sequences and records of such.  Two things
have to be known of them (`Readable`): that the finite floating point numbers read back, since this
is a matter of how decimals are rounded, and that no symbol holds a character that the reader cuts,
which it does even in symbols that are written bare.

Each kind of atom is read in a lemma of its own, with any text behind it that ends a word.  The
reader spends fuel on every item and on every document, so twice the length of a text is enough; the
induction over documents carries this bound along (`readFrom_render`, `readItems_behind`).
-/

namespace Switchboard.Preserves

variable {mark c : Char} {cs word rest tail : List Char} {fuel : ℕ}

/-! ## Texts between marks -/

/-- A character that was written between marks reads back. -/
lemma readText_escaped (hmark : mark = '"' ∨ mark = '\'') (c : Char) (rest : List Char) :
    readText mark (escaped mark c ++ rest) =
      (readText mark rest).map fun r => (c :: r.1, r.2) := by
  unfold escaped
  split
  · simp [readText, unescape?]
  · simp [readText, unescape?]
  · simp [readText, unescape?]
  · simp [readText, unescape?]
  · simp [readText, unescape?]
  · simp [readText, unescape?]
  · split
    · subst c
      rcases hmark with rfl | rfl <;> simp [readText, unescape?]
    · rename_i hbackslash _ _ _ _ _ hne
      have hplain : ∀ rest, readText mark (c :: rest) =
          (readText mark rest).map fun r => (c :: r.1, r.2) := by
        intro rest
        rw [readText.eq_def]
        split <;> simp_all
      exact hplain rest

/-- A text between marks reads back. -/
lemma readText_quoted (hmark : mark = '"' ∨ mark = '\'') (cs rest : List Char) :
    readText mark (cs.flatMap (escaped mark) ++ mark :: rest) = some (cs, rest) := by
  induction cs with
  | nil => rcases hmark with rfl | rfl <;> simp [readText]
  | cons c cs ih =>
    rw [List.flatMap_cons, List.append_assoc, readText_escaped hmark, ih]
    rfl

/-! ## Bare words -/

/-- Whether characters can stand in a word together. -/
def IsWord (cs : List Char) : Prop := cs ≠ [] ∧ ∀ c ∈ cs, isDelimiter c = false

/-- A word reads as what it spells, up to the delimiter behind it. -/
lemma readFrom_word (hword : IsWord word) (hrest : endsWord rest = true) :
    readFrom (fuel + 1) (word ++ rest) = (ofWord? word).map fun d => (d, rest) := by
  obtain ⟨hne, hword⟩ := hword
  obtain ⟨c, cs, rfl⟩ := List.exists_cons_of_ne_nil hne
  have hc : isDelimiter c = false := hword c List.mem_cons_self
  have hcs : ∀ d ∈ cs, (!isDelimiter d) = true := fun d hd => by
    rw [hword d (List.mem_cons_of_mem c hd)]
    rfl
  have hne : ∀ d, isDelimiter d = true → c ≠ d := by
    rintro d hd rfl
    rw [hc] at hd
    contradiction
  have hblank : skipSpace false (c :: cs ++ rest) = c :: (cs ++ rest) := by
    have hspace : isSpace c = false := by
      simp [isSpace, hne ' ' (by decide), hne '\t' (by decide), hne '\r' (by decide),
        hne '\n' (by decide)]
    simp [skipSpace, hspace]
  have htake : (cs ++ rest).takeWhile (fun x => !isDelimiter x) = cs := by
    rw [List.takeWhile_append_of_pos hcs]
    cases rest with
    | nil => simp
    | cons d rest =>
      have hd : isDelimiter d = true := hrest
      simp [hd]
  have hdrop : (cs ++ rest).dropWhile (fun x => !isDelimiter x) = rest := by
    rw [List.dropWhile_append_of_pos hcs]
    cases rest with
    | nil => rfl
    | cons d rest =>
      have hd : isDelimiter d = true := hrest
      simp [hd]
  have hplaced : isMisplaced c = false := by
    simp [isMisplaced, isClosing, hne '>' (by decide), hne ']' (by decide),
      hne '\x7d' (by decide), hne ',' (by decide), hne ':' (by decide), hne ';' (by decide)]
  rw [readFrom, hblank]
  simp only
  split <;> rename_i heq
  -- Every form of document but a word begins with a delimiter.
  all_goals try exact absurd (List.cons.inj heq).1 (hne _ (by decide))
  · contradiction
  · obtain ⟨rfl, rfl⟩ := List.cons.inj heq
    rw [hplaced, htake, hdrop]
    rfl

/-! ## Numbers -/

/-- The digits of a number are digits, and there are some. -/
lemma digits_spec (n : ℕ) :
    (∀ c ∈ Decimal.digits n, c.isDigit = true) ∧ Decimal.digits n ≠ [] :=
  ⟨fun _ hc => Nat.isDigit_of_mem_toDigits (by decide) (by decide) hc, Nat.toDigits_ne_nil⟩

/-- The digits of a number read back. -/
lemma readNat?_digits (n : ℕ) : Decimal.readNat? (Decimal.digits n) = some n := by
  obtain ⟨hdigits, hne⟩ := digits_spec n
  have hvalue : Decimal.ofDigits (Decimal.digits n) = n := by
    refine Eq.trans ?_ (Nat.ofDigitChars_ten_toDigits (n := n))
    rw [Nat.ofDigitChars_eq_foldl]
    simp only [Decimal.ofDigits, Nat.mul_comm]
    rfl
  have hempty : (Decimal.digits n).isEmpty = false := by simpa using hne
  have hall : (Decimal.digits n).all Char.isDigit = true := List.all_eq_true.mpr hdigits
  rw [Decimal.readNat?, hempty, hall, hvalue]
  rfl

/-- A digit is neither a sign nor a delimiter, and it is not cut. -/
lemma digit_spec (hc : c.isDigit = true) :
    c ≠ '-' ∧ c ≠ '+' ∧ isDelimiter c = false ∧ isCut c = false := by
  have hcode : 48 ≤ c.toNat ∧ c.toNat ≤ 57 := by
    simpa [Char.isDigit, UInt32.le_iff_toNat_le] using hc
  obtain ⟨hlow, hhigh⟩ := hcode
  have hall : ∀ n ∈ List.range' 48 10, Char.ofNat n ≠ '-' ∧ Char.ofNat n ≠ '+' ∧
      isDelimiter (Char.ofNat n) = false ∧ isCut (Char.ofNat n) = false := by decide
  have hdigit := hall c.toNat (List.mem_range'_1.mpr ⟨hlow, by omega⟩)
  rwa [Char.ofNat_toNat] at hdigit

/-- Digits are all that there is in a run of digits. -/
lemma digitsThen_digits (hne : cs ≠ []) (hcs : ∀ c ∈ cs, c.isDigit = true) :
    digitsThen cs = some [] := by
  have hdigits : ∀ c ∈ cs, Text.isDecimalDigit c = true :=
    fun c hc => Text.isDecimalDigit_of_isDigit (hcs c hc)
  rw [digitsThen, List.takeWhile_eq_self_iff.mpr hdigits, List.dropWhile_eq_nil_iff.mpr hdigits,
    List.isEmpty_eq_false_iff.mpr hne]
  rfl

/-- A run of digits has no sign. -/
lemma dropSign_digits (hcs : ∀ c ∈ cs, c.isDigit = true) : dropSign cs = cs := by
  unfold dropSign
  split
  · exact absurd rfl (digit_spec (hcs _ List.mem_cons_self)).1
  · exact absurd rfl (digit_spec (hcs _ List.mem_cons_self)).2.1
  · rfl

/-- A numeral without a sign reads back. -/
lemma readInt?_digits (n : ℕ) : Decimal.readInt? (Decimal.digits n) = some (n : ℤ) := by
  obtain ⟨hdigits, -⟩ := digits_spec n
  have hread := readNat?_digits n
  unfold Decimal.readInt?
  split
  · rename_i heq
    exact absurd rfl (digit_spec (hdigits '-' (heq ▸ List.mem_cons_self))).1
  · rename_i heq
    exact absurd rfl (digit_spec (hdigits '+' (heq ▸ List.mem_cons_self))).2.1
  · rw [hread]
    rfl

/-- The word of a whole number is made of digits, perhaps with a sign before them. -/
lemma toList_ofInt (n : ℤ) :
    ∃ m : ℕ, (Decimal.ofInt n).toList = Decimal.digits m ∧ n = m ∨
      (Decimal.ofInt n).toList = '-' :: Decimal.digits m ∧ n = -m := by
  cases n with
  | ofNat m => exact ⟨m, .inl ⟨String.toList_ofList, rfl⟩⟩
  | negSucc m => exact ⟨m + 1, .inr ⟨String.toList_ofList, rfl⟩⟩

/-- A whole number is written as a word, of which nothing is cut. -/
lemma isWord_ofInt (n : ℤ) :
    IsWord (Decimal.ofInt n).toList ∧ (Decimal.ofInt n).toList.any isCut = false := by
  have hboth : (Decimal.ofInt n).toList ≠ [] ∧
      ∀ c ∈ (Decimal.ofInt n).toList, isDelimiter c = false ∧ isCut c = false := by
    obtain ⟨m, ⟨htext, -⟩ | ⟨htext, -⟩⟩ := toList_ofInt n
    · obtain ⟨hdigits, hne⟩ := digits_spec m
      rw [htext]
      exact ⟨hne, fun c hc => (digit_spec (hdigits c hc)).2.2⟩
    · obtain ⟨hdigits, hne⟩ := digits_spec m
      rw [htext]
      refine ⟨List.cons_ne_nil _ _, fun c hc => ?_⟩
      rcases List.mem_cons.mp hc with rfl | hc
      · decide
      · exact (digit_spec (hdigits c hc)).2.2
  exact ⟨⟨hboth.1, fun c hc => (hboth.2 c hc).1⟩, by simpa using fun c hc => (hboth.2 c hc).2⟩

/-- A whole number reads back from its word. -/
lemma ofWord?_ofInt (n : ℤ) : ofWord? (Decimal.ofInt n).toList = some (.int n) := by
  rw [ofWord?, (isWord_ofInt n).2]
  obtain ⟨m, ⟨htext, rfl⟩ | ⟨htext, rfl⟩⟩ := toList_ofInt n
  · obtain ⟨hdigits, hne⟩ := digits_spec m
    rw [htext, numberForm?, dropSign_digits hdigits, digitsThen_digits hne hdigits,
      readInt?_digits]
    rfl
  · obtain ⟨hdigits, hne⟩ := digits_spec m
    rw [htext, numberForm?, dropSign, digitsThen_digits hne hdigits, Decimal.readInt?,
      readNat?_digits]
    rfl

/-! ## Bytes -/

/-- The last bytes of a number, so many of them, the highest one first. -/
def bigEndian : ℕ → ℕ → List UInt8
  | 0, _ => []
  | size + 1, n => bigEndian size (n / 256) ++ [(n % 256).toUInt8]

/-- A number is made up of its bytes. -/
lemma foldl_bigEndian (size n : ℕ) :
    (bigEndian size n).foldl (fun (m : ℕ) b => m * 256 + b.toNat) 0 = n % 256 ^ size := by
  induction size generalizing n with
  | zero => simp [bigEndian, Nat.mod_one]
  | succ size ih =>
    have hbyte : (n % 256).toUInt8.toNat = n % 256 := by simp
    rw [bigEndian, List.foldl_append, ih, List.foldl_cons, List.foldl_nil, hbyte, pow_succ,
      mul_comm (256 ^ size), Nat.mod_mul]
    omega

/-- There are as many bytes as were asked for. -/
lemma length_bigEndian (size n : ℕ) : (bigEndian size n).length = size := by
  induction size generalizing n with
  | zero => rfl
  | succ size ih => simp [bigEndian, ih]

/-- Two hexadecimal digits read back as a byte. -/
lemma readHexBytes_hexChar {a b : ℕ} (ha : a < 16) (hb : b < 16) (tail : List Char) :
    readHexBytes (hexChar a :: hexChar b :: tail) =
      (readHexBytes tail).map fun r => ((a * 16 + b).toUInt8 :: r.1, r.2) := by
  have hdigit : ∀ n < 16, hexChar n ≠ '"' ∧ isSpace (hexChar n) = false ∧
      hexValue? (hexChar n) = some n := by decide
  obtain ⟨hquote, hspace, hvalue⟩ := hdigit a ha
  obtain ⟨-, -, hvalue'⟩ := hdigit b hb
  have hnumber : hexNumber? [hexChar a, hexChar b] = some (a * 16 + b) := by
    simp [hexNumber?, hvalue, hvalue']
  rw [readHexBytes.eq_def]
  split
  · contradiction
  · rename_i heq
    exact absurd (List.cons.inj heq).1 hquote
  · rename_i heq
    obtain ⟨rfl, rfl⟩ := List.cons.inj heq
    simp [hspace, hnumber]

/-- Bytes read back from their hexadecimal digits. -/
lemma readHexBytes_hexDigits (size n : ℕ) (tail : List Char) :
    readHexBytes (hexDigits (2 * size) n ++ tail) =
      (readHexBytes tail).map fun r => (bigEndian size n ++ r.1, r.2) := by
  induction size generalizing n tail with
  | zero => simp [hexDigits, bigEndian]
  | succ size ih =>
    have hdigits : hexDigits (2 * (size + 1)) n =
        hexDigits (2 * size) (n / 256) ++ [hexChar (n / 16 % 16), hexChar (n % 16)] := by
      rw [Nat.mul_succ, hexDigits, hexDigits, Nat.div_div_eq_div_mul, List.append_assoc]
      rfl
    have hbyte : n / 16 % 16 * 16 + n % 16 = n % 256 := by omega
    rw [hdigits, List.append_assoc, ih, List.cons_append, List.cons_append, List.nil_append,
      readHexBytes_hexChar (Nat.mod_lt _ (by decide)) (Nat.mod_lt _ (by decide)), hbyte, bigEndian]
    cases readHexBytes tail <;> simp

/-- The bits of a number read back. -/
lemma floatOfBytes?_bigEndian (x : Binary64) :
    floatOfBytes? (bigEndian 8 x.bits.toNat) = some x := by
  have hlt : x.bits.toNat < 256 ^ 8 := x.bits.toNat_lt
  rw [floatOfBytes?, if_pos (length_bigEndian 8 _), foldl_bigEndian, Nat.mod_eq_of_lt hlt]
  simp

/-! ## Floating point numbers -/

/-- Digits and a point make a word. -/
lemma isWord_positional (pointZero : Bool) (hcs : IsWord cs) (point : ℤ) :
    IsWord (Decimal.positional pointZero cs point) := by
  obtain ⟨hne, hplain⟩ := hcs
  have hzero : isDelimiter '0' = false := by decide
  have hpoint : isDelimiter '.' = false := by decide
  unfold Decimal.positional
  simp only
  split
  · refine ⟨by simp [hne], fun c hc => ?_⟩
    simp only [List.mem_append] at hc
    rcases hc with (hc | hc) | hc
    · exact hplain c hc
    · rw [List.eq_of_mem_replicate hc, hzero]
    · revert c
      cases pointZero <;> simp [hzero, hpoint]
  · split
    · refine ⟨by simp, fun c hc => ?_⟩
      rcases List.mem_append.mp hc with hc | hc
      · exact hplain c (List.mem_of_mem_take hc)
      · rcases List.mem_cons.mp hc with rfl | hc
        · exact hpoint
        · exact hplain c (List.mem_of_mem_drop hc)
    · refine ⟨by simp, fun c hc => ?_⟩
      simp only [List.cons_append, List.mem_cons, List.mem_append] at hc
      rcases hc with rfl | rfl | hc | hc
      · exact hzero
      · exact hpoint
      · rw [List.eq_of_mem_replicate hc, hzero]
      · exact hplain c hc

/-- Digits and an exponent make a word. -/
lemma isWord_exponential (hcs : IsWord cs) (point : ℤ) :
    IsWord (Decimal.exponential cs point) := by
  obtain ⟨hne, hplain⟩ := hcs
  have hpoint : isDelimiter '.' = false := by decide
  have hletter : isDelimiter 'e' = false := by decide
  have hexponent := (isWord_ofInt (point - 1)).1.2
  refine ⟨by simp [Decimal.exponential], fun c hc => ?_⟩
  unfold Decimal.exponential at hc
  simp only [List.mem_append, List.mem_cons] at hc
  rcases hc with hc | rfl | hc
  · split at hc
    · contradiction
    · exact hplain c hc
    · simp only [List.mem_cons] at hc
      rcases hc with rfl | rfl | hc
      · exact hplain _ List.mem_cons_self
      · exact hpoint
      · exact hplain c (List.mem_cons_of_mem _ hc)
  · exact hletter
  · exact hexponent c hc

/-- Decimals are written as words. -/
lemma isWord_text (layout : Decimal.Layout) (negative : Bool) (x : Decimal.Scientific) :
    IsWord (layout.text negative x).toList := by
  obtain ⟨hdigits, hne⟩ := digits_spec x.digits
  have hword : IsWord (Decimal.digits x.digits) :=
    ⟨hne, fun c hc => (digit_spec (hdigits c hc)).2.2.1⟩
  have hsign {cs : List Char} (hcs : IsWord cs) : IsWord (if negative then '-' :: cs else cs) := by
    split
    · refine ⟨List.cons_ne_nil _ _, fun c hc => ?_⟩
      rcases List.mem_cons.mp hc with rfl | hc
      · decide
      · exact hcs.2 c hc
    · exact hcs
  unfold Decimal.Layout.text
  simp only [String.toList_ofList]
  refine hsign ?_
  split
  · exact isWord_positional _ hword _
  · exact isWord_exponential hword _

/-- Numbers are read from their words like other words. -/
lemma ofText?_word (text : String) (hword : IsWord text.toList) :
    ofText? text = ofWord? text.toList := by
  have hread : readFrom (2 * text.length + 2) (text.toList ++ []) = _ := readFrom_word hword rfl
  rw [List.append_nil] at hread
  rw [ofText?, hread]
  cases ofWord? text.toList <;> rfl

/-- A symbol is written between marks, or bare where it is a word that spells no number. -/
lemma renderSymbol_cases (name : String) : renderSymbol name = quoted '\'' name ∨
    renderSymbol name = name ∧ IsWord name.toList ∧ numberForm? name.toList = none := by
  unfold renderSymbol
  simp only
  split
  · exact .inl rfl
  · rename_i hbare
    simp only [Bool.or_eq_true, not_or, Bool.not_eq_true] at hbare
    obtain ⟨⟨hne, hplain⟩, hnumber⟩ := hbare
    exact .inr ⟨rfl, ⟨List.isEmpty_eq_false_iff.mp hne, by simpa using hplain⟩,
      Option.isSome_eq_false_iff.mp hnumber |> Option.isNone_iff_eq_none.mp⟩

/-! ## What documents begin with -/

/-- Whether a character can be the first one of a document. -/
def begins (c : Char) : Bool := !isSpace c && c != ',' && !isClosing c

/-- What is no delimiter can be the first character of a document. -/
lemma begins_of_not_isDelimiter (hc : isDelimiter c = false) : begins c = true := by
  have hne : ∀ d, isDelimiter d = true → c ≠ d := by
    rintro d hd rfl
    rw [hc] at hd
    contradiction
  simp [begins, isSpace, isClosing, hne ' ' (by decide), hne '\t' (by decide),
    hne '\r' (by decide), hne '\n' (by decide), hne ',' (by decide), hne '>' (by decide),
    hne ']' (by decide), hne '\x7d' (by decide)]

/-- A word begins like a document. -/
lemma IsWord.begins (h : IsWord cs) : ∃ c tail, cs = c :: tail ∧ Preserves.begins c = true := by
  obtain ⟨hne, hplain⟩ := h
  obtain ⟨c, tail, rfl⟩ := List.exists_cons_of_ne_nil hne
  exact ⟨c, tail, rfl, begins_of_not_isDelimiter (hplain c List.mem_cons_self)⟩

/-- A document is written with a first character that no blank, comma or bracket can be. -/
lemma exists_render (d : Preserves) :
    ∃ c tail, d.render.toList = c :: tail ∧ begins c = true := by
  cases d with
  | bool flag => cases flag <;> exact ⟨'#', _, rfl, rfl⟩
  | float x =>
    unfold render renderFloat
    split
    · exact (isWord_text ..).begins
    · simp only [String.toList_append]
      exact ⟨'#', _, rfl, rfl⟩
  | int n => exact (isWord_ofInt n).1.begins
  | text s =>
    rw [render, quoted, String.toList_ofList]
    exact ⟨'"', _, rfl, rfl⟩
  | bytes bs =>
    simp only [render, String.toList_append]
    exact ⟨'#', _, rfl, rfl⟩
  | symbol name =>
    rw [render]
    rcases renderSymbol_cases name with h | ⟨h, hword, -⟩
    · rw [h, quoted, String.toList_ofList]
      exact ⟨'\'', _, rfl, rfl⟩
    · rw [h]
      exact hword.begins
  | record label fields =>
    simp only [render, String.toList_append]
    exact ⟨'<', _, rfl, rfl⟩
  | sequence items =>
    simp only [render, String.toList_append]
    exact ⟨'[', _, rfl, rfl⟩
  | set items =>
    simp only [render, String.toList_append]
    exact ⟨'#', _, rfl, rfl⟩
  | dictionary entries =>
    simp only [render, String.toList_append]
    exact ⟨'\x7b', _, rfl, rfl⟩
  | embedded inner =>
    simp only [render, String.toList_append]
    exact ⟨'#', _, rfl, rfl⟩

/-! ## Items -/

/-- What stands between the items of a compound, with commas or without. -/
def gap : Bool → List Char
  | true => [',', ' ']
  | false => [' ']

/-- The text of items that stand behind another one. -/
def behind (commas : Bool) (ds : List Preserves) : List Char :=
  ds.flatMap fun d => gap commas ++ d.render.toList

/-- Items are written with gaps between them. -/
lemma toList_renderAll (commas : Bool) (d : Preserves) (ds : List Preserves) :
    ((String.ofList (gap commas)).intercalate (renderAll (d :: ds))).toList =
      d.render.toList ++ behind commas ds := by
  induction ds generalizing d with
  | nil => simp [renderAll, behind]
  | cons e ds ih =>
    rw [renderAll, renderAll, String.intercalate_cons_cons, ← renderAll, String.toList_append,
      String.toList_append, ih, String.toList_ofList]
    simp [behind]

/-- A gap ends a word, and the reader passes over it. -/
lemma gap_spec (commas : Bool) (cs : List Char) : endsWord (gap commas ++ cs) = true ∧
    skipSpace commas (gap commas ++ cs) = skipSpace commas cs := by
  cases commas <;> exact ⟨rfl, rfl⟩

/-- Behind an item, a word ends. -/
lemma endsWord_behind (commas : Bool) (ds : List Preserves) (hc : isClosing c = true) :
    endsWord (behind commas ds ++ c :: rest) = true := by
  cases ds with
  | nil =>
    have hclosing : c = '>' ∨ c = ']' ∨ c = '\x7d' := by simpa [isClosing, or_assoc] using hc
    rcases hclosing with rfl | rfl | rfl <;> rfl
  | cons d ds =>
    rw [behind, List.flatMap_cons, List.append_assoc, List.append_assoc]
    exact (gap_spec commas _).1

/-- The reader passes over nothing where a document begins. -/
lemma skipSpace_render (commas : Bool) (d : Preserves) (rest : List Char) :
    skipSpace commas (d.render.toList ++ rest) = d.render.toList ++ rest := by
  obtain ⟨c, tail, hrender, hbegins⟩ := exists_render d
  simp only [begins, Bool.and_eq_true, bne_iff_ne, Bool.not_eq_true'] at hbegins
  rw [hrender, List.cons_append, skipSpace, List.dropWhile_cons_of_neg]
  simp [hbegins.1.1, hbegins.1.2]

/-- One item is read before the others. -/
lemma readItems_cons {commas : Bool} {d : Preserves} {ds : List Preserves}
    (hskip : skipSpace commas cs = d.render.toList ++ tail)
    (hd : readFrom fuel (d.render.toList ++ tail) = some (d, tail))
    (hds : readItems fuel commas tail = some (ds, rest)) :
    readItems (fuel + 1) commas cs = some (d :: ds, rest) := by
  obtain ⟨c, front, hrender, hbegins⟩ := exists_render d
  have hclosing : isClosing c = false := by
    simp only [begins, Bool.and_eq_true, Bool.not_eq_true'] at hbegins
    exact hbegins.2
  rw [hrender, List.cons_append] at hskip hd
  rw [readItems, hskip]
  simp only [hclosing, hd, hds]
  rfl

/-- At a closing bracket there are no more items. -/
lemma readItems_nil {commas : Bool} (hc : isClosing c = true) :
    readItems (fuel + 1) commas (c :: rest) = some ([], rest) := by
  have hskip : skipSpace commas (c :: rest) = c :: rest := by
    have hclosing : c = '>' ∨ c = ']' ∨ c = '\x7d' := by simpa [isClosing, or_assoc] using hc
    rw [skipSpace, List.dropWhile_cons_of_neg]
    rcases hclosing with rfl | rfl | rfl <;> simp [isSpace]
  rw [readItems, hskip]
  simp only [hc, if_true]

/-! ## Documents -/

mutual

/-- Whether a document is one of atoms, sequences and records only, of whose symbols nothing is cut
and whose finite floating point numbers read back. -/
def Readable : Preserves → Prop
  | .bool _ => True
  | .float x => x.isFinite = true → ofText? (renderFloat x) = some (.float x)
  | .int _ => True
  | .text _ => True
  | .symbol name => name.toList.any isCut = false
  | .record label fields => Readable label ∧ ReadableItems fields
  | .sequence items => ReadableItems items
  | _ => False

/-- Whether all documents are readable. -/
def ReadableItems : List Preserves → Prop
  | [] => True
  | d :: ds => Readable d ∧ ReadableItems ds

end

/-- What is no comment and no compound is read behind its number sign. -/
lemma readFrom_sharp (hc : c = 't' ∨ c = 'f' ∨ c = 'x') (cs : List Char) :
    readFrom (fuel + 1) ('#' :: c :: cs) = readSharp (c :: cs) := by
  have hskip : skipSpace false ('#' :: c :: cs) = '#' :: c :: cs := rfl
  rw [readFrom, hskip]
  rcases hc with rfl | rfl | rfl <;> simp [beginsComment, isSpace]

/-- A floating point number reads back wherever it stands, if it does so alone. -/
lemma readFrom_float {x : Binary64} (hx : Readable (.float x)) (hrest : endsWord rest = true) :
    readFrom (fuel + 1) ((renderFloat x).toList ++ rest) = some (.float x, rest) := by
  unfold Readable Binary64.isFinite at hx
  unfold renderFloat at hx ⊢
  split
  · rename_i m q heq
    rw [heq] at hx
    have hword := isWord_text floatLayout x.isNegative (Decimal.grisu m q)
    have hread := hx rfl
    rw [ofText?_word _ hword] at hread
    rw [readFrom_word hword hrest, hread]
    rfl
  · have hbytes : readHexBytes (hexDigits 16 x.bits.toNat ++ '"' :: rest) =
        some (bigEndian 8 x.bits.toNat, rest) := by
      rw [readHexBytes_hexDigits 8]
      simp [readHexBytes]
    have hsharp : readSharp ('x' :: 'd' :: '"' :: (hexDigits 16 x.bits.toNat ++ '"' :: rest)) =
        some (.float x, rest) := by
      rw [readSharp, hbytes]
      simp only [floatOfBytes?_bigEndian]
      rfl
    have htext : ("#xd\"" ++ String.ofList (hexDigits 16 x.bits.toNat) ++ "\"").toList ++ rest =
        '#' :: 'x' :: 'd' :: '"' :: (hexDigits 16 x.bits.toNat ++ '"' :: rest) := by
      simp
    rw [htext, readFrom_sharp (.inr (.inr rfl)), hsharp]

/-- There is fuel for what begins a document. -/
lemma exists_fuel (d : Preserves) (hfuel : 2 * d.render.toList.length ≤ fuel) :
    ∃ k, fuel = k + 1 := by
  obtain ⟨c, tail, hrender, -⟩ := exists_render d
  rw [hrender, List.length_cons] at hfuel
  exact Nat.exists_eq_succ_of_ne_zero (by omega)

/-- A truth value reads back. -/
lemma readFrom_bool (flag : Bool) (hrest : endsWord rest = true) :
    readFrom (fuel + 1) ((render (.bool flag)).toList ++ rest) = some (.bool flag, rest) := by
  cases flag with
  | false =>
    refine (readFrom_sharp (.inr (.inl rfl)) rest).trans ?_
    rw [readSharp, if_pos hrest]
  | true =>
    refine (readFrom_sharp (.inl rfl) rest).trans ?_
    rw [readSharp, if_pos hrest]

/-- A whole number reads back. -/
lemma readFrom_int (n : ℤ) (hrest : endsWord rest = true) :
    readFrom (fuel + 1) ((render (.int n)).toList ++ rest) = some (.int n, rest) := by
  rw [render, readFrom_word (isWord_ofInt n).1 hrest, ofWord?_ofInt]
  rfl

/-- A text reads back. -/
lemma readFrom_text (s : String) (rest : List Char) :
    readFrom (fuel + 1) ((render (.text s)).toList ++ rest) = some (.text s, rest) := by
  have htext : (render (.text s)).toList ++ rest =
      '"' :: (s.toList.flatMap (escaped '"') ++ '"' :: rest) := by
    simp [render, quoted]
  have hskip (cs : List Char) : skipSpace false ('"' :: cs) = '"' :: cs := rfl
  rw [htext, readFrom, hskip]
  simp only [readText_quoted (.inl rfl)]
  simp

/-- A symbol of which nothing is cut reads back. -/
lemma readFrom_symbol {name : String} (hname : name.toList.any isCut = false)
    (hrest : endsWord rest = true) :
    readFrom (fuel + 1) ((render (.symbol name)).toList ++ rest) = some (.symbol name, rest) := by
  rw [render]
  rcases renderSymbol_cases name with h | ⟨h, hword, hnumber⟩
  · have htext : (renderSymbol name).toList ++ rest =
        '\'' :: (name.toList.flatMap (escaped '\'') ++ '\'' :: rest) := by
      simp [h, quoted]
    have hskip (cs : List Char) : skipSpace false ('\'' :: cs) = '\'' :: cs := rfl
    rw [htext, readFrom, hskip]
    simp only [readText_quoted (.inr rfl)]
    simp
  · rw [h, readFrom_word hword hrest, ofWord?, hname, hnumber]
    simp

/-- The text of a record. -/
lemma toList_record (label : Preserves) (fields : List Preserves) :
    (render (.record label fields)).toList =
      '<' :: (label.render.toList ++ (behind false fields ++ ['>'])) := by
  have hitems := toList_renderAll false label fields
  rw [renderAll] at hitems
  rw [render, String.toList_append, String.toList_append, ← List.append_assoc, ← hitems]
  rfl

/-- The text of a sequence with items. -/
lemma toList_sequence (d : Preserves) (ds : List Preserves) :
    (render (.sequence (d :: ds))).toList =
      '[' :: (d.render.toList ++ (behind true ds ++ [']'])) := by
  have hitems := toList_renderAll true d ds
  rw [render, String.toList_append, String.toList_append, ← List.append_assoc, ← hitems]
  rfl

mutual

/-- A readable document reads back wherever it stands, if there is fuel for twice its length. -/
lemma readFrom_render : ∀ (d : Preserves) (fuel : ℕ) (rest : List Char), Readable d →
    endsWord rest = true → 2 * d.render.toList.length ≤ fuel →
    readFrom fuel (d.render.toList ++ rest) = some (d, rest)
  | .record label fields => by
    intro fuel rest ⟨hlabel, hfields⟩ _ hfuel
    rw [toList_record] at hfuel ⊢
    simp only [List.length_cons, List.length_append] at hfuel
    obtain ⟨fuel, rfl⟩ := Nat.exists_eq_succ_of_ne_zero (show fuel ≠ 0 by omega)
    have hends : endsWord (behind false fields ++ '>' :: rest) = true :=
      endsWord_behind false fields rfl
    have hread := readFrom_render label fuel _ hlabel hends (by omega)
    have hitems := readItems_behind fields fuel false '>' rest hfields rfl (by omega)
    have hskip (cs : List Char) : skipSpace false ('<' :: cs) = '<' :: cs := rfl
    rw [List.cons_append, List.append_assoc, List.append_assoc, readFrom, hskip]
    simp only [List.singleton_append, hread, hitems]
    rfl
  | .sequence [] => by
    intro fuel rest _ _ hfuel
    have htext : (render (.sequence [])).toList = ['[', ']'] := rfl
    have hskip (cs : List Char) : skipSpace false ('[' :: cs) = '[' :: cs := rfl
    rw [htext] at hfuel ⊢
    simp only [List.length_cons, List.length_nil] at hfuel
    obtain ⟨fuel, rfl⟩ := Nat.exists_eq_add_of_le' (show 2 ≤ fuel by omega)
    rw [List.cons_append, readFrom, hskip]
    simp only [List.singleton_append, readItems_nil (c := ']') rfl]
    rfl
  | .sequence (d :: ds) => by
    intro fuel rest ⟨hd, hds⟩ _ hfuel
    rw [toList_sequence] at hfuel ⊢
    simp only [List.length_cons, List.length_append] at hfuel
    obtain ⟨fuel, rfl⟩ := Nat.exists_eq_add_of_le' (show 2 ≤ fuel by omega)
    have hends : endsWord (behind true ds ++ ']' :: rest) = true := endsWord_behind true ds rfl
    have hread := readFrom_render d fuel _ hd hends (by omega)
    have hitems := readItems_behind ds fuel true ']' rest hds rfl (by omega)
    have hall := readItems_cons (skipSpace_render true d _) hread hitems
    have hskip (cs : List Char) : skipSpace false ('[' :: cs) = '[' :: cs := rfl
    rw [List.cons_append, List.append_assoc, List.append_assoc, readFrom, hskip]
    simp only [List.singleton_append, hall]
    rfl
  | .bool flag => by
    intro fuel rest _ hrest hfuel
    obtain ⟨fuel, rfl⟩ := exists_fuel (.bool flag) hfuel
    exact readFrom_bool flag hrest
  | .float x => by
    intro fuel rest hd hrest hfuel
    obtain ⟨fuel, rfl⟩ := exists_fuel (.float x) hfuel
    exact readFrom_float hd hrest
  | .int n => by
    intro fuel rest _ hrest hfuel
    obtain ⟨fuel, rfl⟩ := exists_fuel (.int n) hfuel
    exact readFrom_int n hrest
  | .text s => by
    intro fuel rest _ _ hfuel
    obtain ⟨fuel, rfl⟩ := exists_fuel (.text s) hfuel
    exact readFrom_text s rest
  | .symbol name => by
    intro fuel rest hd hrest hfuel
    obtain ⟨fuel, rfl⟩ := exists_fuel (.symbol name) hfuel
    exact readFrom_symbol hd hrest
  | .bytes _ | .set _ | .dictionary _ | .embedded _ => fun _ _ hd => hd.elim

/-- The items behind another one read back, up to the closing bracket. -/
lemma readItems_behind : ∀ (ds : List Preserves) (fuel : ℕ) (commas : Bool) (c : Char)
    (rest : List Char), ReadableItems ds → isClosing c = true →
    2 * (behind commas ds).length + 1 ≤ fuel →
    readItems fuel commas (behind commas ds ++ c :: rest) = some (ds, rest)
  | [] => by
    intro fuel commas c rest _ hc hfuel
    obtain ⟨fuel, rfl⟩ := Nat.exists_eq_succ_of_ne_zero (show fuel ≠ 0 by omega)
    exact readItems_nil hc
  | d :: ds => by
    intro fuel commas c rest ⟨hd, hds⟩ hc hfuel
    have htext : behind commas (d :: ds) = gap commas ++ (d.render.toList ++ behind commas ds) := by
      simp [behind]
    rw [htext] at hfuel ⊢
    simp only [List.length_append] at hfuel
    obtain ⟨fuel, rfl⟩ := Nat.exists_eq_succ_of_ne_zero (show fuel ≠ 0 by omega)
    have hgap : 1 ≤ (gap commas).length := by cases commas <;> decide
    have hends : endsWord (behind commas ds ++ c :: rest) = true := endsWord_behind commas ds hc
    have hread := readFrom_render d fuel _ hd hends (by omega)
    have hitems := readItems_behind ds fuel commas c rest hds hc (by omega)
    refine readItems_cons ?_ hread hitems
    rw [List.append_assoc, (gap_spec commas _).2, List.append_assoc, skipSpace_render]

end

/-- A readable document reads back from its text. -/
theorem ofText?_render {d : Preserves} (hd : Readable d) : ofText? d.render = some d := by
  have hread := readFrom_render d (2 * d.render.length + 2) [] hd rfl
    (by rw [String.length_toList]; omega)
  rw [List.append_nil] at hread
  rw [ofText?, hread]
  rfl

end Switchboard.Preserves
