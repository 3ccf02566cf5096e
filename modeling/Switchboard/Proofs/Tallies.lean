import Mathlib
import Switchboard.Proofs.Standpoints

/-!
# What the reader keeps of a text

A word that is a literal or a block stands for a text as it is written.  Two things can be said of
these texts however a script is read.  The words that have been read on the first line stay there
(`Script.Reader.firstRow_prefix`), and of no mark, such as a semicolon or a backslash, is there more
in the texts of all words than there was in what has been read (`Script.Reader.tally_answer`).  So a
mark that has been lost once, because it meant something, is never made up for.

Both follow from what one character can do outside of all brackets (`Script.Reader.Reads`): either
the word that is being read goes on, or it ends and another one begins.
-/

namespace Switchboard

/-- The text of a word that stands there as it is. -/
def ScriptWord.spelling? : ScriptWord → Option String
  | .literal text | .block text => some text
  | .variableRef _ | .substitution _ | .quoted _ => none

/-- How often a character occurs in the text of a word that stands there as it is. -/
def ScriptWord.tally (c : Char) (w : ScriptWord) : ℕ :=
  match w.spelling? with
  | some text => text.toList.count c
  | none => 0

namespace Script.Reader

/-! ## Words and places -/

/-- The characters that mean something outside of blocks, other than those around blocks. -/
def marks : List Char := ['#', ';', '[', '\\', '"', '$']

/-- One if a character is the one that is counted. -/
def hit (c x : Char) : ℕ := if x = c then 1 else 0

/-- How often a character occurs in a part that is text. -/
def partTally (c : Char) : ScriptPart → ℕ
  | .text text => text.toList.count c
  | .variableRef _ | .substitution _ => 0

/-- How often a character occurs in what has been read of a word. -/
def Draft.tally (c : Char) (d : Draft) : ℕ := d.text.count c + (d.parts.map (partTally c)).sum

/-- How often a character occurs in what has been read of the word at a place. -/
def Place.tally (c : Char) : Place → ℕ
  | .command | .comment | .between | .continued => 0
  | .word d | .escape d | .name d _ | .bracedName d _ => d.tally c
  | .dollar d => (d.push '$').tally c
  | .block _ text | .blockEscape _ text => text.count c

section Drafts

variable (c : Char) (d : Draft)

/-- One more character of a word. -/
lemma tally_push (x : Char) : (d.push x).tally c = d.tally c + hit c x := by
  unfold Draft.push Draft.tally hit
  rw [List.count_cons]
  by_cases hx : x = c
  · simp only [hx, beq_self_eq_true, if_true]
    omega
  · simp only [beq_eq_false_iff_ne.mpr hx, if_neg hx, Bool.false_eq_true, if_false]
    omega

/-- The end of a text in a word changes nothing. -/
lemma tally_flush : d.flush.tally c = d.tally c := by
  unfold Draft.flush
  split
  · rfl
  · simp [Draft.tally, partTally]

/-- A part that is not text adds nothing. -/
lemma tally_addPart {p : ScriptPart} (hp : partTally c p = 0) :
    (d.addPart p).tally c = d.tally c := by
  rw [← tally_flush c d]
  simp [Draft.addPart, Draft.tally, hp]

/-- A word has no more than has been read of it. -/
lemma tally_word_le : d.word.tally c ≤ d.tally c := by
  rw [← tally_flush c d]
  have hsum : (d.flush.parts.reverse.map (partTally c)).sum ≤ d.flush.tally c := by
    rw [List.map_reverse, List.sum_reverse]
    exact Nat.le_add_left _ _
  unfold Draft.word
  generalize d.flush.parts.reverse = parts at hsum ⊢
  rcases d.quoted with _ | _ <;> rcases parts with _ | ⟨p, _ | ⟨q, parts⟩⟩
  · exact Nat.zero_le _
  · cases p with
    | text text =>
      simpa [ScriptPart.word, ScriptWord.tally, ScriptWord.spelling?, partTally] using hsum
    | variableRef name => exact Nat.zero_le _
    | substitution script => exact Nat.zero_le _
  · exact Nat.zero_le _
  · exact Nat.zero_le _
  · exact Nat.zero_le _
  · exact Nat.zero_le _

end Drafts

/-- What a backslash makes of a character is no mark unless the character is. -/
lemma hit_unescape {c : Char} (hc : c ∈ marks) (x : Char) : hit c (unescape x) ≤ hit c x := by
  have hne {y : Char} (hy : y ∉ marks) : hit c y = 0 := by
    refine if_neg ?_
    rintro rfl
    exact hy hc
  unfold unescape
  split
  · rw [hne (by decide)]
    exact Nat.zero_le _
  · rw [hne (by decide)]
    exact Nat.zero_le _
  · rw [hne (by decide)]
    exact Nat.zero_le _
  · rw [hne (by decide)]
    exact Nat.zero_le _
  · exact le_refl _

/-! ## Rows of words -/

/-- The words of the lines that have been read, the line that is being read as the last one. -/
def Body.rows (b : Body) : List (List ScriptWord) :=
  (b.lines.map ScriptLine.words).reverse ++ if b.words.isEmpty then [] else [b.words.reverse]

/-- The words that have been read outside of all brackets. -/
def State.rows (s : State) : List (List ScriptWord) :=
  match s.outer.getLast? with
  | none => s.body.rows
  | some (around, _) => around.rows

/-- How often a character occurs in what has been read of the word outside of all brackets. -/
def State.pending (c : Char) (s : State) : ℕ :=
  match s.outer.getLast? with
  | none => s.place.tally c
  | some (_, draft) => draft.tally c

/-- Rows with one more word. -/
inductive Extends (w : ScriptWord) : List (List ScriptWord) → List (List ScriptWord) → Prop
  | next (rows : List (List ScriptWord)) : Extends w rows (rows ++ [[w]])
  | more (rows : List (List ScriptWord)) (row : List ScriptWord) :
    Extends w (rows ++ [row]) (rows ++ [row ++ [w]])

/-- The end of a line leaves the rows. -/
lemma Body.rows_endLine (b : Body) : b.endLine.rows = b.rows := by
  unfold endLine
  split
  · rfl
  · rename_i hwords
    simp [rows, hwords, ScriptLine.words]

/-- One more word on a line. -/
lemma Body.rows_addWord (b : Body) (w : ScriptWord) : Extends w b.rows (b.addWord w).rows := by
  obtain ⟨lines, number, words, source⟩ := b
  cases words with
  | nil =>
    have hrows : rows ⟨lines, number, [w], source⟩ = rows ⟨lines, number, [], source⟩ ++ [[w]] := by
      simp [rows]
    exact hrows ▸ .next _
  | cons v words =>
    have hrows (ws : List ScriptWord) (hws : ws ≠ []) : rows ⟨lines, number, ws, source⟩ =
        (lines.map ScriptLine.words).reverse ++ [ws.reverse] := by
      simp [rows, hws]
    rw [addWord, hrows _ (List.cons_ne_nil v words), hrows _ (List.cons_ne_nil w _),
      List.reverse_cons (a := w)]
    exact .more _ _

/-! ## One character -/

/-- What a character does outside of all brackets: the word goes on, or it ends and another one may
begin; and of the character that is counted there is not more than before, but for the one that has
been read. -/
inductive Reads (c x : Char) (before : ℕ) (rows : List (List ScriptWord)) (t : State) : Prop
  | goOn (hrows : t.rows = rows) (hpending : t.pending c ≤ before + hit c x)
  | word (w : ScriptWord) (hrows : Extends w rows t.rows) (hw : w.tally c ≤ before)
      (hpending : t.pending c ≤ hit c x)

section Characters

variable {c x : Char} (line : ℕ) (body : Body) (place : Place) (d : Draft)

/-- A character that goes on a word. -/
lemma inWord_facts : (inWord ⟨line, body, place, []⟩ d x).rows = body.rows ∧
    (inWord ⟨line, body, place, []⟩ d x).pending c ≤ d.tally c + hit c x := by
  unfold inWord
  split
  · exact ⟨rfl, (tally_push c d '$').le⟩
  · refine ⟨rfl, ?_⟩
    change d.flush.tally c ≤ _
    rw [tally_flush]
    exact Nat.le_add_right _ _
  · exact ⟨rfl, Nat.le_add_right _ _⟩
  · exact ⟨rfl, (tally_push c d x).le⟩

/-- A character between two words. -/
lemma atBetween_facts : (atBetween ⟨line, body, place, []⟩ x).rows = body.rows ∧
    (atBetween ⟨line, body, place, []⟩ x).pending c ≤ hit c x := by
  unfold atBetween
  split
  · exact ⟨rfl, Nat.zero_le _⟩
  split
  · exact ⟨body.rows_endLine, Nat.zero_le _⟩
  split
  · rename_i h
    exact absurd h.2 Bool.false_ne_true
  · split
    · exact ⟨rfl, Nat.zero_le _⟩
    · exact ⟨rfl, Nat.zero_le _⟩
    · exact ⟨rfl, Nat.zero_le _⟩
    · have hfresh : (Draft.empty false).tally c = 0 := rfl
      have hword := inWord_facts (c := c) (x := x) line body place (.empty false)
      rwa [hfresh, Nat.zero_add] at hword

/-- A character inside a word. -/
lemma reads_atWord : Reads c x (d.tally c) body.rows (atWord ⟨line, body, place, []⟩ d x) := by
  have hword : Extends d.word body.rows (body.addWord d.word).rows := body.rows_addWord d.word
  have hgoOn := inWord_facts (c := c) (x := x) line body place d
  unfold atWord
  split
  · split
    · exact .word d.word hword (tally_word_le c d) (Nat.zero_le _)
    · exact .goOn hgoOn.1 hgoOn.2
  · split
    · obtain ⟨hrows, hpending⟩ :=
        atBetween_facts (c := c) (x := x) line (body.addWord d.word) .between
      exact .word d.word (hrows ▸ hword) (tally_word_le c d) hpending
    · exact .goOn hgoOn.1 hgoOn.2

/-- A character outside of all brackets. -/
lemma reads_dispatch (hc : c ∈ marks) :
    Reads c x (place.tally c) body.rows (dispatch ⟨line, body, place, []⟩ x) := by
  have hpush (d : Draft) (y : Char) (hy : hit c y ≤ hit c x) :
      (d.push y).tally c ≤ d.tally c + hit c x := by
    rw [tally_push]
    omega
  cases place with
  | command =>
    change Reads c x 0 body.rows (atCommand _ x)
    unfold atCommand
    split
    · exact .goOn rfl (Nat.zero_le _)
    split
    · rename_i h
      exact absurd h.2 Bool.false_ne_true
    split
    · exact .goOn rfl (Nat.zero_le _)
    · obtain ⟨hrows, hpending⟩ :=
        atBetween_facts (c := c) (x := x) line { body with number := line } .command
      exact .goOn hrows (hpending.trans (Nat.le_add_left _ _))
  | comment =>
    change Reads c x 0 body.rows (if x = '\n' then _ else _)
    split
    · exact .goOn rfl (Nat.zero_le _)
    · exact .goOn rfl (Nat.zero_le _)
  | between =>
    obtain ⟨hrows, hpending⟩ := atBetween_facts (c := c) (x := x) line body .between
    exact .goOn hrows (hpending.trans (Nat.le_add_left _ _))
  | continued =>
    change Reads c x 0 body.rows (if x = '\n' then _ else _)
    split
    · exact .goOn rfl (Nat.zero_le _)
    · exact .goOn rfl (hpush (.empty false) (unescape x) (hit_unescape hc x))
  | word d => exact reads_atWord ..
  | escape d => exact .goOn rfl (hpush d (unescape x) (hit_unescape hc x))
  | dollar d =>
    have hless : d.tally c ≤ (d.push '$').tally c := by
      rw [tally_push]
      exact Nat.le_add_right _ _
    change Reads c x _ body.rows (if x = '\x7b' then _ else if isNameChar x then _ else _)
    split
    · exact .goOn rfl (hless.trans (Nat.le_add_right _ _))
    split
    · exact .goOn rfl (hless.trans (Nat.le_add_right _ _))
    · exact reads_atWord ..
  | name d name =>
    have hsame : (d.addPart (.variableRef (String.ofList name.reverse))).tally c = d.tally c :=
      tally_addPart c d rfl
    change Reads c x (d.tally c) body.rows (if isNameChar x then _ else _)
    split
    · exact .goOn rfl (Nat.le_add_right _ _)
    · exact hsame ▸ reads_atWord ..
  | bracedName d name =>
    have hsame : (d.addPart (.variableRef (String.ofList name.reverse))).tally c = d.tally c :=
      tally_addPart c d rfl
    change Reads c x (d.tally c) body.rows (if x = '\x7d' then _ else _)
    split
    · exact .goOn rfl (hsame.le.trans (Nat.le_add_right _ _))
    · exact .goOn rfl (Nat.le_add_right _ _)
  | block depth text =>
    have hcount (y : Char) : (y :: text).count c = text.count c + hit c y := by
      simp [List.count_cons, hit]
    unfold dispatch
    simp only
    split
    · exact .goOn rfl (hcount _).le
    · split
      · refine .word (.block (String.ofList text.reverse)) (body.rows_addWord _) ?_ (Nat.zero_le _)
        simp [ScriptWord.tally, ScriptWord.spelling?, Place.tally]
      · exact .goOn rfl (hcount _).le
    · exact .goOn rfl (hcount _).le
    · exact .goOn rfl (hcount _).le
  | blockEscape depth text =>
    refine .goOn rfl ?_
    change (x :: text).count c ≤ text.count c + hit c x
    simp [List.count_cons, hit]

/-- One character of a text.  In brackets nothing changes for the words outside of them. -/
lemma reads_step (hc : c ∈ marks) {s : State} (hfresh : s.Fresh) (x : Char) :
    Reads c x (s.pending c) s.rows (step s x) := by
  obtain ⟨line, body, place, outer⟩ := s
  cases outer with
  | nil =>
    have hdispatch :=
      reads_dispatch (x := x) line { body with source := x :: body.source } place hc
    unfold step
    simp only
    split
    · cases hdispatch with
      | goOn hrows hpending => exact .goOn hrows hpending
      | word w hrows hw hpending => exact .word w hrows hw hpending
    · exact hdispatch
  | cons e outer =>
    obtain ⟨around, draft⟩ := e
    cases hclose : State.closes ⟨line, body, place, (around, draft) :: outer⟩ x with
    | true =>
      rw [step_of_closes hclose rfl]
      cases outer with
      | nil =>
        refine .goOn rfl ?_
        refine (tally_addPart c draft ?_).le.trans (Nat.le_add_right _ _)
        rfl
      | cons e outer => exact .goOn rfl (Nat.le_add_right _ _)
    | false =>
      have hstays := stays_step hfresh hclose
      generalize step ⟨line, body, place, (around, draft) :: outer⟩ x = t at hstays ⊢
      cases hstays with
      | within b p => exact .goOn rfl (Nat.le_add_right _ _)
      | opens b d => exact .goOn rfl (Nat.le_add_right _ _)

end Characters

/-! ## Whole texts -/

/-- How often a character occurs in the texts of rows of words. -/
def rowsTally (c : Char) (rows : List (List ScriptWord)) : ℕ :=
  (rows.flatten.map (ScriptWord.tally c)).sum

/-- How often a character occurs in what has been read outside of all brackets. -/
def State.kept (c : Char) (s : State) : ℕ := rowsTally c s.rows + s.pending c

/-- The words of the first line. -/
def firstRow (rows : List (List ScriptWord)) : List ScriptWord := rows.headD []

section Texts

variable {c x : Char} {s : State} {S : Script} {w : ScriptWord}
  {rows rows' : List (List ScriptWord)} {cs : List Char}

/-- One more word. -/
lemma Extends.tally (h : Extends w rows rows') :
    rowsTally c rows' = rowsTally c rows + w.tally c := by
  cases h with
  | next => simp [rowsTally]
  | more rows row => simp [rowsTally, Nat.add_assoc]

/-- One more word leaves those on the first line. -/
lemma Extends.firstRow_prefix (h : Extends w rows rows') : firstRow rows <+: firstRow rows' := by
  cases h with
  | next => cases rows <;> simp [firstRow]
  | more rows row => cases rows <;> simp [firstRow]

/-- What is kept grows by no more than a character. -/
lemma kept_step (hc : c ∈ marks) (hfresh : s.Fresh) (x : Char) :
    (step s x).kept c ≤ s.kept c + hit c x := by
  unfold State.kept
  cases reads_step hc hfresh x with
  | goOn hrows hpending =>
    rw [hrows]
    omega
  | word w hrows hw hpending =>
    rw [hrows.tally]
    omega

/-- What is kept grows by no more than a text. -/
lemma kept_run (hc : c ∈ marks) (hfresh : s.Fresh) (cs : List Char) :
    (run s cs).kept c ≤ s.kept c + cs.count c := by
  induction cs using List.reverseRecOn with
  | nil => exact Nat.le_add_right _ _
  | append_singleton cs x ih =>
    have hstep := kept_step hc (run_facts_of_fresh hfresh cs).1 x
    have hcount : (cs ++ [x]).count c = cs.count c + hit c x := by
      simp [List.count_append, List.count_singleton, hit]
    rw [run_concat, hcount]
    omega

/-- The words on the first line stay. -/
lemma firstRow_run (hfresh : s.Fresh) (cs : List Char) :
    firstRow s.rows <+: firstRow (run s cs).rows := by
  induction cs using List.reverseRecOn with
  | nil => exact List.prefix_refl _
  | append_singleton cs x ih =>
    rw [run_concat]
    refine ih.trans ?_
    have hmark : '#' ∈ marks := by decide
    cases reads_step hmark (run_facts_of_fresh hfresh cs).1 x with
    | goOn hrows => rw [hrows]
    | word w hrows => exact hrows.firstRow_prefix

/-- The rows of a script are those of the reader at the end, with the word that ends there. -/
lemma rows_finish (c : Char) (h : finish s = .ok S) :
    S.lines.map ScriptLine.words = s.rows ∨
      ∃ w, Extends w s.rows (S.lines.map ScriptLine.words) ∧ w.tally c ≤ s.pending c := by
  obtain ⟨hflaw, rfl⟩ := finish_eq_ok h
  have houter := outer_of_flaw? hflaw
  obtain ⟨line, body, place, outer⟩ := s
  obtain rfl : outer = [] := houter
  have hlines (b : Body) : b.endLine.script.lines.map ScriptLine.words = b.rows := by
    rw [← b.rows_endLine]
    simp [Body.rows, b.words_endLine, Body.script, Script.lines]
  have hword (d : Draft) : Extends d.word body.rows
      ((body.addWord d.word).endLine.script.lines.map ScriptLine.words) := by
    rw [hlines]
    exact body.rows_addWord d.word
  cases place with
  | word d => exact .inr ⟨d.word, hword d, tally_word_le c d⟩
  | dollar d => exact .inr ⟨(d.push '$').word, hword _, tally_word_le c _⟩
  | name d name =>
    refine .inr ⟨(d.addPart (.variableRef (String.ofList name.reverse))).word, hword _, ?_⟩
    exact (tally_word_le c _).trans (tally_addPart c d rfl).le
  | _ => exact .inl (hlines body)

/-- Of no mark is there more in the words of a script than there was in what was kept and in the
text. -/
lemma tally_answer (hc : c ∈ marks) (hfresh : s.Fresh) (h : answer s cs = .ok S) :
    rowsTally c (S.lines.map ScriptLine.words) ≤ s.kept c + cs.count c := by
  refine le_trans ?_ (kept_run hc hfresh cs)
  unfold State.kept
  rcases rows_finish c h with hrows | ⟨w, hrows, hw⟩
  · rw [hrows]
    exact Nat.le_add_right _ _
  · rw [hrows.tally]
    exact Nat.add_le_add_left hw _

/-- The words on the first line stay to the end of the text. -/
lemma firstRow_prefix (hfresh : s.Fresh) (h : answer s cs = .ok S) :
    firstRow s.rows <+: firstRow (S.lines.map ScriptLine.words) := by
  refine (firstRow_run hfresh cs).trans ?_
  rcases rows_finish '#' h with hrows | ⟨w, hrows, -⟩
  · rw [hrows]
  · exact hrows.firstRow_prefix

end Texts

end Script.Reader

end Switchboard
