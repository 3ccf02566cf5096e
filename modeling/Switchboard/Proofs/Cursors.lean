import Mathlib
import Switchboard.Script.Descent

/-!
# Cursors between characters

Reading by descent goes through the bytes of a text, and what it asks of a byte is never true of a
byte inside of a longer character unless it is true of all that character.  So a test of bytes is a
test of characters (`Tests`), and a cursor that stands between two characters is moved over whole
characters, with the text lines that they end; there the text can be cut
(`Script.Descent.skipWhile_eq`, `Script.Descent.cut_eq`, `Script.Descent.readChar_eq`).
-/

namespace Switchboard.Script.Descent

open Reader

/-! ## Bytes of characters -/

/-- The bytes of characters. -/
def bytes (cs : List Char) : List UInt8 := cs.flatMap String.utf8EncodeChar

/-- Characters have as many bytes as they are long. -/
lemma length_bytes (cs : List Char) : (bytes cs).length = String.utf8Len cs := by
  induction cs with
  | nil => rfl
  | cons c cs ih =>
    unfold bytes at ih ⊢
    rw [List.flatMap_cons, List.length_append, ih, String.length_utf8EncodeChar,
      String.utf8Len_cons, Nat.add_comm]

/-- Characters behind others have their bytes behind theirs. -/
lemma bytes_append (cs ds : List Char) : bytes (cs ++ ds) = bytes cs ++ bytes ds :=
  List.flatMap_append

/-- A character has one byte, which is its code, or several that are no codes. -/
lemma encodeChar_cases (c : Char) :
    (c.val.toNat < 128 ∧ String.utf8EncodeChar c = [code c]) ∨
      128 ≤ c.val.toNat ∧ ∀ b ∈ String.utf8EncodeChar c, 128 ≤ b.toNat := by
  unfold String.utf8EncodeChar code
  simp only
  by_cases h : c.val.toNat ≤ 0x7f
  · refine .inl ⟨by omega, ?_⟩
    rw [if_pos h]
    rfl
  · refine .inr ⟨by omega, ?_⟩
    rw [if_neg h]
    intro b hb
    split at hb
    · simp at hb
      rcases hb with rfl | rfl <;> simp <;> omega
    · split at hb
      · simp at hb
        rcases hb with rfl | rfl | rfl <;> simp <;> omega
      · simp at hb
        rcases hb with rfl | rfl | rfl | rfl <;> simp <;> omega

/-- The byte of a character of one byte. -/
lemma bytes_singleton_of_lt {c : Char} (hc : c.val.toNat < 128) : bytes [c] = [code c] := by
  unfold bytes
  rw [List.flatMap_singleton]
  exact ((encodeChar_cases c).resolve_right fun h => absurd h.1 (by omega)).2

/-- A character of one byte is known by its code. -/
lemma code_eq_code_iff {c d : Char} (hc : c.val.toNat < 128) (hd : d.val.toNat < 128) :
    code c = code d ↔ c = d := by
  refine ⟨fun h => Char.ext (UInt32.toNat_inj.mp ?_), fun h => h ▸ rfl⟩
  have htoNat := congrArg UInt8.toNat h
  unfold code at htoNat
  rw [UInt32.toNat_toUInt8, UInt32.toNat_toUInt8] at htoNat
  omega

/-- Whether a test of bytes is the test of the characters that they are of. -/
def Tests (p : UInt8 → Bool) (q : Char → Bool) : Prop :=
  ∀ c, ∀ b ∈ String.utf8EncodeChar c, p b = q c

/-- A test that no byte of a longer character passes, and no such character, need only be compared
on characters of one byte. -/
lemma Tests.of_codes {p : UInt8 → Bool} {q : Char → Bool}
    (hcode : ∀ c : Char, c.val.toNat < 128 → p (code c) = q c)
    (hbyte : ∀ b : UInt8, 128 ≤ b.toNat → ∀ c : Char, 128 ≤ c.val.toNat → p b = q c) :
    Tests p q := by
  intro c b hb
  obtain ⟨hc, hbytes⟩ | ⟨hc, hbytes⟩ := encodeChar_cases c
  · rw [hbytes, List.mem_singleton] at hb
    rw [hb]
    exact hcode c hc
  · exact hbyte b (hbytes b hb) c hc

/-- The test for one character. -/
lemma tests_eq (d : Char) (hd : d.val.toNat < 128) : Tests (· == code d) (· == d) := by
  refine .of_codes (fun c hc => ?_) (fun b hb c hc => ?_)
  · rw [Bool.eq_iff_iff, beq_iff_eq, beq_iff_eq]
    exact code_eq_code_iff hc hd
  · have hbyte : b ≠ code d := by
      rintro rfl
      unfold code at hb
      rw [UInt32.toNat_toUInt8] at hb
      omega
    have hchar : c ≠ d := by
      rintro rfl
      omega
    rw [beq_false_of_ne hbyte, beq_false_of_ne hchar]

/-- One test or the other. -/
lemma Tests.or {p p' : UInt8 → Bool} {q q' : Char → Bool} (h : Tests p q) (h' : Tests p' q') :
    Tests (fun b => p b || p' b) fun c => q c || q' c :=
  fun c b hb => congrArg₂ Bool.or (h c b hb) (h' c b hb)

/-- The opposite of a test. -/
lemma Tests.not {p : UInt8 → Bool} {q : Char → Bool} (h : Tests p q) :
    Tests (fun b => !p b) fun c => !q c :=
  fun c b hb => congrArg Bool.not (h c b hb)

/-- The test for blanks. -/
lemma tests_isBlank : Tests isBlankByte isBlank :=
  ((tests_eq ' ' (by decide)).or (tests_eq '\t' (by decide))).or (tests_eq '\r' (by decide))

/-- The test for what stands between commands. -/
lemma tests_isGap : Tests isGapByte isGap :=
  ((tests_isBlank.or (tests_eq '\n' (by decide))).or (tests_eq '\x0c' (by decide))).or
    (tests_eq ';' (by decide))

/-- The test for the characters from one to another. -/
lemma tests_range (lo hi : Char) (hhi : hi.val.toNat < 128) (hle : lo.val ≤ hi.val) :
    Tests (fun b => code lo ≤ b && b ≤ code hi) (fun c => lo.val ≤ c.val && c.val ≤ hi.val) := by
  rw [UInt32.le_iff_toNat_le] at hle
  refine .of_codes (fun c hc => ?_) (fun b hb c hc => ?_)
  · unfold code
    simp only [UInt8.le_iff_toNat_le, UInt32.le_iff_toNat_le, UInt32.toNat_toUInt8]
    rw [Nat.mod_eq_of_lt (by omega), Nat.mod_eq_of_lt (by omega), Nat.mod_eq_of_lt (by omega)]
  · have hbyte : ¬b ≤ code hi := by
      unfold code
      rw [UInt8.le_iff_toNat_le, UInt32.toNat_toUInt8]
      omega
    have hchar : ¬c.val ≤ hi.val := by
      rw [UInt32.le_iff_toNat_le]
      omega
    simp [hbyte, hchar]

/-- The test for what a variable name is made of. -/
lemma tests_isNameChar : Tests isNameByte isNameChar := by
  intro c b hb
  have hlower := tests_range 'a' 'z' (by decide) (by decide) c b hb
  have hupper := tests_range 'A' 'Z' (by decide) (by decide) c b hb
  have hdigit := tests_range '0' '9' (by decide) (by decide) c b hb
  have hunderscore := tests_eq '_' (by decide) c b hb
  unfold isNameByte
  simp only at hlower hupper hdigit hunderscore
  rw [hlower, hupper, hdigit, hunderscore, Bool.or_comm (_ && _) (_ && _)]
  simp [isNameChar, Char.isAlphanum, Char.isAlpha, Char.isUpper, Char.isLower, Char.isDigit]

/-- The bytes that end a text line are those of the characters that do so. -/
lemma count_bytes (cs : List Char) : (bytes cs).count (code '\n') = cs.count '\n' := by
  have hchar (c : Char) :
      (String.utf8EncodeChar c).count (code '\n') = [c].count '\n' := by
    have htest : ∀ b ∈ String.utf8EncodeChar c, (b == code '\n') = (c == '\n') :=
      tests_eq '\n' (by decide) c
    obtain ⟨hc, hbytes⟩ | ⟨hc, hbytes⟩ := encodeChar_cases c
    · rw [hbytes, List.count_singleton, List.count_singleton,
        htest (code c) (hbytes ▸ List.mem_singleton_self _)]
    · have hne : c ≠ '\n' := by
        rintro rfl
        exact absurd hc (by decide)
      rw [List.count_eq_zero.mpr, List.count_singleton, beq_false_of_ne hne]
      · rfl
      · intro hmem
        exact absurd (hbytes _ hmem) (by decide)
  induction cs with
  | nil => rfl
  | cons c cs ih =>
    unfold bytes at ih ⊢
    rw [List.flatMap_cons, List.count_append, ih, hchar, ← List.singleton_append (l := cs),
      List.count_append]

/-! ## Moves of the cursor -/

section Moves

variable {text : String} {i line : ℕ} {r : List UInt8}

/-- What is read first and gives a result is followed by the rest. -/
lemma bind_of_ok {α β : Type} {m : Reading α} {k : α → Reading β} {cursor cursor' : Cursor} {a : α}
    (h : m cursor = some (.ok (a, cursor'))) : (m >>= k) cursor = k a cursor' := by
  show Option.bind (m cursor) _ = _
  rw [h]
  rfl

/-- What is read first and stops is all that is read. -/
lemma bind_of_error {α β : Type} {m : Reading α} {k : α → Reading β} {cursor : Cursor} {e : Stop}
    (h : m cursor = some (.error e)) : (m >>= k) cursor = some (.error e) := by
  show Option.bind (m cursor) _ = _
  rw [h]
  rfl

/-- Looking at the cursor. -/
lemma get_bind {β : Type} (k : Cursor → Reading β) (cursor : Cursor) :
    (get >>= k) cursor = k cursor cursor := rfl

/-- The bytes of a text are those of its characters. -/
lemma data_toByteArray (text : String) : text.toByteArray.data.toList = bytes text.toList := by
  rw [← String.utf8Encode_toList]
  exact List.toList_data_toByteArray

/-- The next byte is the first of those that are left. -/
lemma byte?_of_drop (h : (bytes text.toList).drop i = r) :
    byte? text ⟨i, line⟩ = some (.ok (r.head?, ⟨i, line⟩)) := by
  have hbyte : text.toByteArray.data[i]? = r.head? := by
    rw [← Array.getElem?_toList, data_toByteArray, ← h, List.head?_drop]
  rw [← hbyte]
  rfl

/-- Going on by a byte leaves the bytes behind it. -/
lemma drop_succ {b : UInt8} (h : (bytes text.toList).drop i = b :: r) :
    (bytes text.toList).drop (i + 1) = r := by
  rw [← List.drop_drop, h]
  rfl

/-- The byte behind the next one. -/
lemma secondByte?_of_drop {b : UInt8} (h : (bytes text.toList).drop i = b :: r) :
    secondByte? text ⟨i, line⟩ = some (.ok (r.head?, ⟨i, line⟩)) := by
  have hbyte : text.toByteArray.data[i + 1]? = r.head? := by
    rw [← Array.getElem?_toList, data_toByteArray, ← drop_succ h, List.head?_drop]
  rw [← hbyte]
  rfl

/-- Going on by a byte, which may end a text line. -/
lemma advance_of_drop {b : UInt8} (h : (bytes text.toList).drop i = b :: r) :
    advance text ⟨i, line⟩ = some (.ok ((), ⟨i + 1, line + [b].count (code '\n')⟩)) := by
  have hline : (if b = code '\n' then line + 1 else line) = line + [b].count (code '\n') := by
    rw [List.count_singleton]
    by_cases hb : b = code '\n'
    · rw [if_pos hb, if_pos (beq_iff_eq.mpr hb)]
    · rw [if_neg hb, if_neg (by rwa [beq_iff_eq])]
      rfl
  unfold advance
  rw [bind_of_ok (byte?_of_drop h), ← hline]
  rfl

/-- Going on by some bytes. -/
lemma advanceBy_of_drop (bs : List UInt8) (h : (bytes text.toList).drop i = bs ++ r) :
    advanceBy text bs.length ⟨i, line⟩ =
      some (.ok ((), ⟨i + bs.length, line + bs.count (code '\n')⟩)) := by
  induction bs generalizing i line with
  | nil => rfl
  | cons b bs ih =>
    rw [List.cons_append] at h
    rw [List.length_cons, advanceBy, bind_of_ok (advance_of_drop h), ih (drop_succ h),
      ← List.singleton_append (l := bs), List.count_append]
    congr 4 <;> omega

/-- Bytes of a kind are skipped. -/
lemma skipWhile_of_drop {p : UInt8 → Bool} (bs : List UInt8) (hp : ∀ b ∈ bs, p b = true)
    (hr : ∀ b ∈ r.head?, p b = false) (h : (bytes text.toList).drop i = bs ++ r) {fuel : ℕ}
    (hfuel : bs.length < fuel) : skipWhile text fuel p ⟨i, line⟩ =
      some (.ok ((), ⟨i + bs.length, line + bs.count (code '\n')⟩)) := by
  induction bs generalizing i line fuel with
  | nil =>
    obtain ⟨fuel, rfl⟩ := Nat.exists_eq_add_one_of_ne_zero (Nat.ne_zero_of_lt hfuel)
    rw [skipWhile, bind_of_ok (byte?_of_drop h)]
    cases r with
    | nil => rfl
    | cons b r =>
      simp only [List.nil_append, List.head?_cons, hr b rfl]
      rfl
  | cons b bs ih =>
    obtain ⟨fuel, rfl⟩ := Nat.exists_eq_add_one_of_ne_zero (Nat.ne_zero_of_lt hfuel)
    rw [List.cons_append] at h
    have hbs : ∀ b' ∈ bs, p b' = true := fun b' hb' => hp b' (List.mem_cons_of_mem b hb')
    rw [skipWhile, bind_of_ok (byte?_of_drop h)]
    simp only [List.head?_cons, hp b List.mem_cons_self, if_true]
    rw [bind_of_ok (advance_of_drop h), ih hbs (drop_succ h) (Nat.lt_of_succ_lt_succ hfuel),
      ← List.singleton_append (l := bs), List.count_append, List.length_append]
    simp only [List.length_singleton]
    congr 4 <;> omega

/-! ## Moves by characters -/

variable {pre rest : List Char}

/-- Behind some characters the bytes of the others are left. -/
lemma drop_bytes (h : text.toList = pre ++ rest) :
    (bytes text.toList).drop (String.utf8Len pre) = bytes rest := by
  rw [h, bytes_append, ← length_bytes, List.drop_left]

/-- The first byte of a character. -/
def first (c : Char) : UInt8 := (String.utf8EncodeChar c).headD 0

/-- The bytes of a character begin with its first. -/
lemma bytes_cons (c : Char) (cs : List Char) :
    ∃ bs, String.utf8EncodeChar c = first c :: bs ∧
      bytes (c :: cs) = first c :: (bs ++ bytes cs) := by
  have hlength : (String.utf8EncodeChar c).length ≠ 0 := by
    rw [String.length_utf8EncodeChar]
    exact c.utf8Size_pos.ne'
  unfold first bytes
  rw [List.flatMap_cons]
  cases hbytes : String.utf8EncodeChar c with
  | nil =>
    rw [hbytes] at hlength
    exact absurd rfl hlength
  | cons b bs => exact ⟨bs, rfl, rfl⟩

/-- A test of the first byte is one of the character. -/
lemma Tests.first {p : UInt8 → Bool} {q : Char → Bool} (h : Tests p q) (c : Char) :
    p (first c) = q c := by
  obtain ⟨bs, hbytes, -⟩ := bytes_cons c []
  exact h c _ (hbytes ▸ List.mem_cons_self)

/-- The first byte is the code of a character of one byte if the character is that one. -/
lemma first_eq_code_iff {c d : Char} (hd : d.val.toNat < 128) : first c = code d ↔ c = d := by
  have h := (tests_eq d hd).first c
  rwa [Bool.eq_iff_iff, beq_iff_eq, beq_iff_eq] at h

/-- What is left behind characters of a kind does not begin with one. -/
lemma not_of_mem_head?_dropWhile {q : Char → Bool} {c : Char}
    (h : c ∈ (rest.dropWhile q).head?) : q c = false := by
  have hhead := rest.head?_dropWhile_not q
  rw [h] at hhead
  simpa using hhead

/-- Characters of a kind are skipped. -/
lemma skipWhile_eq {p : UInt8 → Bool} {q : Char → Bool} (hpq : Tests p q)
    (h : text.toList = pre ++ rest) {fuel : ℕ} (hfuel : String.utf8Len rest < fuel) :
    skipWhile text fuel p ⟨String.utf8Len pre, line⟩ =
      some (.ok ((), ⟨String.utf8Len (pre ++ rest.takeWhile q),
        line + (rest.takeWhile q).count '\n'⟩)) := by
  have hsplit : bytes rest = bytes (rest.takeWhile q) ++ bytes (rest.dropWhile q) := by
    conv_lhs => rw [← rest.takeWhile_append_dropWhile (p := q)]
    exact bytes_append ..
  have hp : ∀ b ∈ bytes (rest.takeWhile q), p b = true := by
    intro b hb
    obtain ⟨c, hc, hb⟩ := List.mem_flatMap.mp hb
    rw [hpq c b hb]
    exact List.mem_takeWhile_imp hc
  have hr : ∀ b ∈ (bytes (rest.dropWhile q)).head?, p b = false := by
    intro b hb
    cases hrest : rest.dropWhile q with
    | nil =>
      rw [hrest] at hb
      contradiction
    | cons c cs =>
      obtain ⟨bs, -, hbytes⟩ := bytes_cons c cs
      rw [hrest, hbytes, List.head?_cons, Option.mem_some_iff] at hb
      rw [← hb, hpq.first]
      have hhead : c ∈ (rest.dropWhile q).head? := by
        rw [hrest]
        rfl
      exact not_of_mem_head?_dropWhile hhead
  have hle : (bytes (rest.takeWhile q)).length < fuel := by
    rw [length_bytes]
    exact (String.utf8Len_le_of_prefix (rest.takeWhile_prefix q)).trans_lt hfuel
  rw [skipWhile_of_drop _ hp hr ((drop_bytes h).trans hsplit) hle, length_bytes, count_bytes,
    String.utf8Len_append]

/-- Pieces that begin and end between characters can be cut out. -/
lemma cut_eq {a m r : List Char} (h : text.toList = a ++ m ++ r) (cursor : Cursor) :
    cut text (String.utf8Len a) (String.utf8Len a + String.utf8Len m) cursor =
      some (.ok (String.ofList m, cursor)) := by
  have htext : text = String.ofList (a ++ m ++ r) := by rw [← h, String.ofList_toList]
  have hvalid (u v : List Char) (huv : a ++ m ++ r = u ++ v) :
      String.Pos.Raw.IsValid text ⟨String.utf8Len u⟩ := by
    rw [String.Pos.Raw.isValid_iff_exists_append]
    refine ⟨String.ofList u, String.ofList v, ?_, ?_⟩
    · rw [htext, huv, String.ofList_append]
    · rw [String.rawEndPos_ofList]
  have hstart := hvalid a (m ++ r) (List.append_assoc ..)
  have hstop := hvalid (a ++ m) r rfl
  rw [String.utf8Len_append] at hstop
  unfold cut
  rw [if_pos ⟨Nat.le_add_right _ _, hstart, hstop⟩]
  conv_lhs => rw [htext, String.extract_of_valid]
  rfl

/-- Reading a character. -/
lemma readChar_eq {c : Char} (h : text.toList = pre ++ c :: rest) :
    readChar text ⟨String.utf8Len pre, line⟩ =
      some (.ok (String.ofList [c], ⟨String.utf8Len (pre ++ [c]), line + [c].count '\n'⟩)) := by
  have hsize : text.utf8ByteSize = String.utf8Len pre + String.utf8Len (c :: rest) := by
    rw [← String.utf8Len_toList, h, String.utf8Len_append]
  have hwhole : text.toList = pre ++ c :: rest ++ [] := h.trans (List.append_nil _).symm
  have hrest := cut_eq hwhole ⟨String.utf8Len pre, line⟩
  rw [← hsize] at hrest
  have hadvance :
      advanceBy text (String.utf8EncodeChar c).length ⟨String.utf8Len pre, line⟩ = _ :=
    advanceBy_of_drop _ (drop_bytes h)
  have hsplit : text.toList = pre ++ [c] ++ rest := h.trans (List.append_cons pre c rest)
  have hchar := cut_eq hsplit ⟨String.utf8Len (pre ++ [c]), line + [c].count '\n'⟩
  have hcount : (String.utf8EncodeChar c).count (code '\n') = [c].count '\n' := by
    rw [← count_bytes]
    unfold bytes
    rw [List.flatMap_singleton]
  have hlength : String.utf8Len (pre ++ [c]) = String.utf8Len pre + c.utf8Size := by
    rw [String.utf8Len_append]
    simp
  rw [String.length_utf8EncodeChar, hcount, ← hlength] at hadvance
  have hall : advanceChar text ⟨String.utf8Len pre, line⟩ =
      some (.ok ((), ⟨String.utf8Len (pre ++ [c]), line + [c].count '\n'⟩)) := by
    unfold advanceChar
    rw [get_bind, bind_of_ok hrest, String.toList_ofList]
    exact hadvance
  rw [String.utf8Len_append] at hall hchar
  unfold readChar
  rw [get_bind, bind_of_ok hall, get_bind, hchar, String.utf8Len_append]

/-- Bytes inside of a character go on a block. -/
lemma readBlock_of_drop {fuel start depth : ℕ} (bs : List UInt8)
    (hbs : ∀ b ∈ bs, 128 ≤ b.toNat) (h : (bytes text.toList).drop i = bs ++ r) :
    readBlock text (fuel + bs.length) start depth ⟨i, line⟩ =
      readBlock text fuel start depth ⟨i + bs.length, line⟩ := by
  induction bs generalizing i with
  | nil => rfl
  | cons b bs ih =>
    have hb := hbs b List.mem_cons_self
    have hne (c : Char) (hc : (code c).toNat < 128) : b ≠ code c := by
      rintro rfl
      omega
    have hopen := hne '\x7b' (by decide)
    have hclose := hne '\x7d' (by decide)
    have hback := hne '\\' (by decide)
    have hcount : [b].count (code '\n') = 0 := by
      rw [List.count_singleton, if_neg (by simpa using hne '\n' (by decide))]
    have hrest := ih (fun b' hb' => hbs b' (List.mem_cons_of_mem b hb')) (drop_succ h)
    have hgo : readBlock text (fuel + bs.length + 1) start depth ⟨i, line⟩ =
        readBlock text (fuel + bs.length) start depth ⟨i + 1, line⟩ := by
      rw [readBlock, bind_of_ok (byte?_of_drop h)]
      simp only [List.cons_append, List.head?_cons, hopen, hclose, hback, false_and, if_false]
      rw [bind_of_ok (advance_of_drop h), hcount]
      rfl
    rw [List.length_cons, ← Nat.add_assoc, hgo, hrest, Nat.add_right_comm, Nat.add_assoc]

/-- A character goes on a block, whatever its bytes are, and takes a call for each of them. -/
lemma readBlock_of_char {fuel start depth : ℕ} {c : Char} (h : text.toList = pre ++ c :: rest) :
    (advance text >>= fun _ => readBlock text (fuel + (c.utf8Size - 1)) start depth)
        ⟨String.utf8Len pre, line⟩ =
      readBlock text fuel start depth
        ⟨String.utf8Len (pre ++ [c]), line + [c].count '\n'⟩ := by
  obtain ⟨bs, hchar, hbytes⟩ := bytes_cons c rest
  have hdrop := (drop_bytes h).trans hbytes
  have hsize := String.length_utf8EncodeChar c
  rw [hchar, List.length_cons] at hsize
  have hcalls : c.utf8Size - 1 = bs.length := by omega
  have hlength : String.utf8Len (pre ++ [c]) = String.utf8Len pre + 1 + bs.length := by
    rw [String.utf8Len_append, String.utf8Len_cons, String.utf8Len_nil, ← hsize]
    omega
  have hcount : [first c].count (code '\n') = [c].count '\n' := by
    rw [List.count_singleton, List.count_singleton, (tests_eq '\n' (by decide)).first c]
  have hbs : ∀ b ∈ bs, 128 ≤ b.toNat := by
    obtain ⟨-, hone⟩ | ⟨-, hmany⟩ := encodeChar_cases c
    · rw [hchar, List.cons.injEq] at hone
      rw [hone.2]
      exact fun b hb => absurd hb List.not_mem_nil
    · exact fun b hb => hmany b (hchar ▸ List.mem_cons_of_mem _ hb)
  rw [bind_of_ok (advance_of_drop hdrop), hcalls, readBlock_of_drop bs hbs (drop_succ hdrop),
    hlength, hcount]

end Moves

end Switchboard.Script.Descent
