import Mathlib
import Switchboard.Script.Reader

/-!
# The shape of scripts that are read

Whatever the text, a script that is read from it is in good shape at every depth of its brackets
(`Script.Neat`): every line has a word, the line numbers do not go back, no word is made of nothing
and no two texts stand side by side in a word.  The reader keeps this of all that it has read so far
(`Script.Reader.State.Fits`), together with any property that the scripts in brackets have when they
are closed (`Script.Reader.State.Fits.run`).

What the closing of a bracket does is said once, by `Script.Reader.step_of_closes`: the script in
the brackets is the one that the reader would give if the text ended there.
-/

namespace Switchboard

/-! ## Scripts in brackets -/

/-- Whether a script in brackets is a word or a part of it. -/
inductive ScriptWord.Mentions (t : Script) : ScriptWord → Prop
  | word : Mentions t (.substitution t)
  | part {parts : List ScriptPart} (h : .substitution t ∈ parts) : Mentions t (.quoted parts)

/-- Whether a script stands in brackets in a script, at any depth. -/
inductive Script.Inside (t : Script) : Script → Prop
  | direct {s : Script} {l : ScriptLine} {w : ScriptWord} (hl : l ∈ s.lines) (hw : w ∈ l.words)
    (ht : w.Mentions t) : Inside t s
  | deeper {s u : Script} {l : ScriptLine} {w : ScriptWord} (hl : l ∈ s.lines) (hw : w ∈ l.words)
    (hu : w.Mentions u) (ht : Inside t u) : Inside t s

/-- Whether a property holds of a script and of all scripts in brackets in it. -/
def Script.Throughout (Q : Script → Prop) (s : Script) : Prop := Q s ∧ ∀ t, t.Inside s → Q t

/-- Whether a property holds of all scripts in brackets in a word. -/
def ScriptWord.Throughout (Q : Script → Prop) (w : ScriptWord) : Prop :=
  ∀ t, w.Mentions t → t.Throughout Q

/-- A property of the scripts in all words of a script is one of all scripts in brackets in it. -/
lemma Script.Inside.of_words {Q : Script → Prop} {s t : Script} (ht : t.Inside s)
    (h : ∀ l ∈ s.lines, ∀ w ∈ l.words, w.Throughout Q) : Q t := by
  cases ht with
  | direct hl hw hmentions => exact (h _ hl _ hw _ hmentions).1
  | deeper hl hw hmentions ht => exact (h _ hl _ hw _ hmentions).2 t ht

/-! ## Good shape -/

/-- Whether a part is text. -/
def ScriptPart.IsText : ScriptPart → Prop
  | .text _ => True
  | _ => False

/-- Whether two parts may stand side by side: one of them is not text. -/
def ScriptPart.Apart (p q : ScriptPart) : Prop := ¬(p.IsText ∧ q.IsText)

/-- Two parts may stand side by side in either order. -/
lemma ScriptPart.Apart.symm {p q : ScriptPart} (h : p.Apart q) : q.Apart p :=
  fun ⟨hq, hp⟩ => h ⟨hp, hq⟩

/-- Whether a word is as words are read: plain text is not empty, and a word put together from parts
has some, no two texts side by side, and no empty text unless that is all there is. -/
def ScriptWord.Neat : ScriptWord → Prop
  | .literal text => text ≠ ""
  | .quoted parts =>
    parts ≠ [] ∧ parts.IsChain ScriptPart.Apart ∧ (.text "" ∈ parts → parts = [.text ""])
  | _ => True

/-- Whether the lines of a script, brackets aside, are as lines are read from a text of which it
covers the first `last` lines at most. -/
structure Script.Neat (last : ℕ) (s : Script) : Prop where
  words : ∀ l ∈ s.lines, l.words ≠ []
  ordered : s.lines.Pairwise fun l m => l.number ≤ m.number
  numbers : ∀ l ∈ s.lines, 1 ≤ l.number ∧ l.number ≤ last
  neat : ∀ l ∈ s.lines, ∀ w ∈ l.words, w.Neat

/-- A script that covers some lines of a text covers no more than a longer part of it has. -/
lemma Script.Neat.mono {s : Script} {last last' : ℕ} (h : s.Neat last) (hle : last ≤ last') :
    s.Neat last' :=
  { h with numbers := fun l hl => ⟨(h.numbers l hl).1, (h.numbers l hl).2.trans hle⟩ }

/-- Whether a word is as words are read, with scripts in brackets that have a property. -/
structure ScriptWord.Fits (Q : Script → Prop) (w : ScriptWord) : Prop where
  neat : w.Neat
  sound : w.Throughout Q

namespace Script.Reader

variable {Q : Script → Prop}

/-! ## Drafts -/

section Drafts

variable {d : Draft}

/-- Whether the parts of a draft are as parts are read, the newest first, with scripts in brackets
that have a property throughout. -/
structure Draft.Fits (Q : Script → Prop) (d : Draft) : Prop where
  apart : d.parts.IsChain ScriptPart.Apart
  full : .text "" ∉ d.parts
  sound : ∀ t, .substitution t ∈ d.parts → t.Throughout Q
  fresh : d.text ≠ [] → ∀ p ∈ d.parts.head?, ¬p.IsText

/-- Whether text can follow the finished parts of a draft. -/
structure Draft.Open (Q : Script → Prop) (d : Draft) : Prop extends d.Fits Q where
  ready : ∀ p ∈ d.parts.head?, ¬p.IsText

/-- Whether a draft makes a word: a quote begins one, and so does anything inside of it. -/
def Draft.Begun (d : Draft) : Prop := d.quoted = true ∨ d.parts ≠ [] ∨ d.text ≠ []

/-- A word of which nothing has been read. -/
lemma Draft.open_empty (Q : Script → Prop) (quoted : Bool) : (empty quoted).Open Q where
  apart := .nil
  full := List.not_mem_nil
  sound _ h := absurd h List.not_mem_nil
  fresh h := absurd rfl h
  ready _ h := absurd h (Option.not_mem_none _)

/-- One more character. -/
lemma Draft.Open.push (h : d.Open Q) (c : Char) : (d.push c).Open Q :=
  ⟨⟨h.apart, h.full, h.sound, fun _ => h.ready⟩, h.ready⟩

/-- A character makes a word. -/
lemma Draft.begun_push (d : Draft) (c : Char) : (d.push c).Begun :=
  .inr (.inr (List.cons_ne_nil _ _))

/-- The parts of a draft whose text has been ended. -/
lemma Draft.parts_flush (d : Draft) :
    d.flush.parts =
      if d.text = [] then d.parts else .text (String.ofList d.text.reverse) :: d.parts := by
  unfold flush
  by_cases h : d.text = []
  · rw [if_pos h, if_pos (List.isEmpty_iff.mpr h)]
  · rw [if_neg h, if_neg (by rwa [List.isEmpty_iff])]

/-- No text is left when it has been ended. -/
lemma Draft.text_flush (d : Draft) : d.flush.text = [] := by
  unfold flush
  split
  · exact List.isEmpty_iff.mp ‹_›
  · rfl

/-- The end of the text of a draft. -/
lemma Draft.Fits.flush (h : d.Fits Q) : d.flush.Fits Q := by
  by_cases htext : d.text = []
  · have hflush : d.flush = d := if_pos (List.isEmpty_iff.mpr htext)
    rwa [hflush]
  · have hparts := d.parts_flush
    rw [if_neg htext] at hparts
    refine ⟨?_, ?_, ?_, fun hne => absurd d.text_flush hne⟩
    · rw [hparts, List.isChain_cons]
      exact ⟨fun p hp hboth => h.fresh htext p hp hboth.2, h.apart⟩
    · rw [hparts, List.mem_cons]
      rintro (hempty | hmem)
      · have hnil : String.ofList d.text.reverse = "" := by
          injection hempty with hempty
          exact hempty.symm
        rw [String.ofList_eq_empty_iff, List.reverse_eq_nil_iff] at hnil
        exact htext hnil
      · exact h.full hmem
    · intro t ht
      rw [hparts, List.mem_cons] at ht
      exact h.sound t (ht.resolve_left nofun)

/-- One more part that is not text. -/
lemma Draft.Fits.addPart (h : d.Fits Q) {p : ScriptPart} (hp : ¬p.IsText)
    (hsound : ∀ t, p = .substitution t → t.Throughout Q) : (d.addPart p).Open Q := by
  have hparts : (d.addPart p).parts = p :: d.flush.parts := rfl
  have htext : (d.addPart p).text = [] := d.text_flush
  refine ⟨⟨?_, ?_, ?_, fun hne => absurd htext hne⟩, ?_⟩
  · rw [hparts, List.isChain_cons]
    exact ⟨fun q _ hboth => hp hboth.1, h.flush.apart⟩
  · rw [hparts, List.mem_cons]
    rintro (rfl | hmem)
    · exact hp trivial
    · exact h.flush.full hmem
  · intro t ht
    rw [hparts, List.mem_cons] at ht
    rcases ht with rfl | ht
    · exact hsound t rfl
    · exact h.flush.sound t ht
  · intro q hq
    rw [hparts, List.head?_cons, Option.mem_some_iff] at hq
    rwa [← hq]

/-- A part makes a word. -/
lemma Draft.begun_addPart (d : Draft) (p : ScriptPart) : (d.addPart p).Begun :=
  .inr (.inl (List.cons_ne_nil _ _))

/-- A draft that makes a word makes a good one. -/
lemma Draft.Fits.word (h : d.Fits Q) (hbegun : d.Begun) : d.word.Fits Q := by
  have hflush := h.flush
  have hchain : d.flush.parts.reverse.IsChain ScriptPart.Apart :=
    List.isChain_reverse.mpr (hflush.apart.imp fun _ _ hpq => hpq.symm)
  have hfull : .text "" ∉ d.flush.parts.reverse := by simpa using hflush.full
  have hsound : ∀ t, .substitution t ∈ d.flush.parts.reverse → t.Throughout Q := by
    simpa using hflush.sound
  have hparts (hne : d.flush.parts.reverse ≠ []) :
      (ScriptWord.quoted d.flush.parts.reverse).Fits Q := by
    refine ⟨⟨hne, hchain, fun hmem => absurd hmem hfull⟩, fun t ht => ?_⟩
    cases ht with
    | part ht => exact hsound t ht
  unfold Draft.word
  simp only
  split
  · refine ⟨⟨List.cons_ne_nil _ _, .singleton _, fun _ => rfl⟩, fun t ht => ?_⟩
    cases ht with
    | part ht => simp at ht
  · rename_i hne
    exact hparts hne
  · rename_i p hquoted heq
    rw [heq] at hfull hsound
    cases p with
    | text text =>
      refine ⟨fun hempty => hfull ?_, fun t ht => nomatch ht⟩
      rw [hempty]
      exact List.mem_singleton_self _
    | variableRef name => exact ⟨trivial, fun t ht => nomatch ht⟩
    | substitution script =>
      refine ⟨trivial, fun t ht => ?_⟩
      cases ht
      exact hsound script (List.mem_singleton_self _)
  · rename_i hquoted _
    refine hparts fun hnil => ?_
    rw [List.reverse_eq_nil_iff, d.parts_flush] at hnil
    rcases hbegun with hq | hne | hne
    · rw [hquoted] at hq
      contradiction
    · split at hnil
      · exact hne hnil
      · contradiction
    · rw [if_neg hne] at hnil
      contradiction

end Drafts

/-! ## Bodies -/

/-- Whether the commands that have been read up to a text line are as commands are read. -/
structure Body.Fits (Q : Script → Prop) (line : ℕ) (b : Body) : Prop where
  lines : ∀ l ∈ b.lines, l.words ≠ [] ∧ ∀ w ∈ l.words, w.Fits Q
  numbers : ∀ l ∈ b.lines, 1 ≤ l.number ∧ l.number ≤ b.number
  ordered : b.lines.Pairwise fun l m => m.number ≤ l.number
  words : ∀ w ∈ b.words, w.Fits Q
  pos : 1 ≤ b.number
  le : b.number ≤ line

section Bodies

variable {b : Body} {line : ℕ}

/-- Commands of which none has been read. -/
lemma Body.fits_empty (Q : Script → Prop) (hline : 1 ≤ line) : Body.empty.Fits Q line where
  lines _ h := absurd h List.not_mem_nil
  numbers _ h := absurd h List.not_mem_nil
  ordered := .nil
  words _ h := absurd h List.not_mem_nil
  pos := le_rfl
  le := hline

/-- What has been read stays as it is when the text goes on. -/
lemma Body.Fits.mono (h : b.Fits Q line) {line' : ℕ} (hle : line ≤ line') : b.Fits Q line' :=
  { h with le := h.le.trans hle }

/-- The source of commands has nothing to do with their shape. -/
lemma Body.Fits.withSource (h : b.Fits Q line) (source : List Char) :
    Body.Fits Q line { b with source := source } :=
  ⟨h.lines, h.numbers, h.ordered, h.words, h.pos, h.le⟩

/-- A command that begins on the line that has been reached. -/
lemma Body.Fits.withNumber (h : b.Fits Q line) : Body.Fits Q line { b with number := line } where
  lines := h.lines
  numbers l hl := ⟨(h.numbers l hl).1, (h.numbers l hl).2.trans h.le⟩
  ordered := h.ordered
  words := h.words
  pos := h.pos.trans h.le
  le := le_rfl

/-- One more word. -/
lemma Body.Fits.addWord (h : b.Fits Q line) {w : ScriptWord} (hw : w.Fits Q) :
    (b.addWord w).Fits Q line :=
  { h with words := List.forall_mem_cons.mpr ⟨hw, h.words⟩ }

/-- The end of a line. -/
lemma Body.Fits.endLine (h : b.Fits Q line) : b.endLine.Fits Q line := by
  unfold Body.endLine
  split
  · exact h
  · rename_i hwords
    rw [List.isEmpty_iff] at hwords
    refine ⟨List.forall_mem_cons.mpr ⟨⟨?_, ?_⟩, h.lines⟩,
      List.forall_mem_cons.mpr ⟨⟨h.pos, le_rfl⟩, h.numbers⟩,
      List.pairwise_cons.mpr ⟨fun l hl => (h.numbers l hl).2, h.ordered⟩,
      fun _ hw => absurd hw List.not_mem_nil, h.pos, h.le⟩
    · exact fun hnil => hwords (List.reverse_eq_nil_iff.mp hnil)
    · intro w hw
      exact h.words w (List.mem_reverse.mp hw)

/-- Commands that are as commands are read make a script in good shape. -/
lemma Body.Fits.neat_script (h : b.Fits Q line) : b.script.Neat line where
  words l hl := (h.lines l (List.mem_reverse.mp hl)).1
  ordered := List.pairwise_reverse.mpr h.ordered
  numbers l hl :=
    have hnumber := h.numbers l (List.mem_reverse.mp hl)
    ⟨hnumber.1, hnumber.2.trans h.le⟩
  neat l hl w hw := ((h.lines l (List.mem_reverse.mp hl)).2 w hw).neat

/-- The scripts in brackets in the script that commands make have the property. -/
lemma Body.Fits.of_inside (h : b.Fits Q line) {t : Script} (ht : t.Inside b.script) : Q t :=
  ht.of_words fun l hl w hw => ((h.lines l (List.mem_reverse.mp hl)).2 w hw).sound

end Bodies

/-! ## Where a bracket is closed -/

variable {s : State} {c : Char}

/-- Whether a character closes the bracket around it where the reader stands. -/
def State.closes (s : State) (c : Char) : Bool :=
  c == ']' && s.isNested &&
    match s.place with
    | .command => true
    | .between => true
    | .word d => !d.quoted
    | .dollar d => !d.quoted
    | .name d _ => !d.quoted
    | _ => false

/-- Only a closing bracket closes a bracket, and only one that is open. -/
lemma State.exists_of_closes (h : s.closes c = true) :
    ∃ around draft outer, s.outer = (around, draft) :: outer := by
  unfold closes isNested at h
  rw [Bool.and_eq_true, Bool.and_eq_true] at h
  obtain ⟨line, body, place, _ | ⟨⟨around, draft⟩, outer⟩⟩ := s
  · exact absurd h.1.2 Bool.false_ne_true
  · exact ⟨around, draft, outer, rfl⟩

/-- The source of commands has nothing to do with where their lines end. -/
lemma Body.endLine_withSource (b : Body) (source : List Char) :
    Body.endLine { b with source := source } = { b.endLine with source := source } := by
  unfold endLine
  split <;> rfl

/-- A bracket that is closed by the character that was noted last. -/
lemma State.closeBracket_eq (line : ℕ) (b : Body) (c : Char) (place : Place) (around : Body)
    (draft : Draft) (outer : List (Body × Draft)) :
    closeBracket ⟨line, { b with source := c :: b.source }, place, (around, draft) :: outer⟩ =
      ⟨line, { around with source := c :: b.source ++ around.source },
        .word (draft.addPart (.substitution b.endLine.script)), outer⟩ := by
  have hsource : b.endLine.source = b.source := by
    unfold Body.endLine
    split <;> rfl
  have hscript : Body.script { Body.endLine { b with source := c :: b.source } with
      source := List.drop 1 (c :: b.source) } = b.endLine.script := by
    rw [b.endLine_withSource]
    unfold Body.script
    rw [hsource]
    rfl
  unfold closeBracket
  simp only [hscript]

/-- One more part does not make a quoted word of a bare one. -/
lemma Draft.quoted_addPart (d : Draft) (p : ScriptPart) : (d.addPart p).quoted = d.quoted := by
  unfold addPart flush
  simp only
  split <;> rfl

/-- Where a bracket is closed the word and the line before it end as they would at the end of the
text, and the script in the brackets becomes a part of the word around them. -/
lemma step_of_closes {around : Body} {draft : Draft} {outer : List (Body × Draft)}
    (hclose : s.closes c = true) (houter : s.outer = (around, draft) :: outer) :
    step s c = ⟨s.line, { around with source := c :: s.body.source ++ around.source },
      .word (draft.addPart (.substitution (finalBody s).script)), outer⟩ := by
  obtain ⟨line, body, place, outer'⟩ := s
  subst houter
  unfold State.closes at hclose
  rw [Bool.and_eq_true, Bool.and_eq_true, beq_iff_eq] at hclose
  obtain ⟨⟨rfl, -⟩, hplace⟩ := hclose
  -- a bare word ends before the bracket is closed
  have hword (d : Draft) (hbare : d.quoted = false) :
      atWord ⟨line, { body with source := ']' :: body.source }, place, (around, draft) :: outer⟩ d
        ']' = State.closeBracket ⟨line, { body.addWord d.word with source := ']' :: body.source },
          .between, (around, draft) :: outer⟩ := by
    unfold atWord
    rw [hbare]
    rfl
  cases place with
  | command => exact State.closeBracket_eq line body ']' .command around draft outer
  | between => exact State.closeBracket_eq line body ']' .between around draft outer
  | word d =>
    have hbare : d.quoted = false := by simpa using hplace
    exact (hword d hbare).trans
      (State.closeBracket_eq line (body.addWord d.word) ']' .between around draft outer)
  | dollar d =>
    have hbare : d.quoted = false := by simpa using hplace
    exact (hword (d.push '$') hbare).trans
      (State.closeBracket_eq line (body.addWord (d.push '$').word) ']' .between around draft outer)
  | name d name =>
    have hbare : d.quoted = false := by simpa using hplace
    exact (hword _ ((d.quoted_addPart _).trans hbare)).trans
      (State.closeBracket_eq line (body.addWord (d.addPart _).word) ']' .between around draft outer)
  | _ => contradiction

/-- One more character. -/
lemma run_concat (s : State) (cs : List Char) (c : Char) :
    run s (cs ++ [c]) = step (run s cs) c := List.foldl_concat ..

/-! ## All that has been read -/

/-- Whether what has been read of the word at a place is as words are read. -/
def Place.Fits (Q : Script → Prop) : Place → Prop
  | .word d => d.Open Q ∧ d.Begun
  | .escape d => d.Open Q
  | .dollar d => d.Open Q
  | .name d _ => d.Open Q
  | .bracedName d _ => d.Open Q
  | _ => True

/-- Whether all that a reader has read is as scripts are read, with a property throughout the
scripts in brackets that it has closed. -/
structure State.Fits (Q : Script → Prop) (s : State) : Prop where
  body : s.body.Fits Q s.line
  place : s.place.Fits Q
  outer : ∀ e ∈ s.outer, e.1.Fits Q s.line ∧ e.2.Fits Q

namespace State.Fits

/-- Nothing has been read. -/
lemma start (Q : Script → Prop) : State.start.Fits Q :=
  ⟨Body.fits_empty Q le_rfl, trivial, fun _ h => absurd h List.not_mem_nil⟩

/-- The reader goes on at another place. -/
lemma goTo (h : s.Fits Q) {p : Place} (hp : p.Fits Q) : (s.goTo p).Fits Q :=
  ⟨h.body, hp, h.outer⟩

/-- A word ends. -/
lemma endWord (h : s.Fits Q) {w : ScriptWord} (hw : w.Fits Q) : (s.endWord w).Fits Q :=
  ⟨h.body.addWord hw, trivial, h.outer⟩

/-- A line ends. -/
lemma endLine (h : s.Fits Q) : s.endLine.Fits Q := ⟨h.body.endLine, trivial, h.outer⟩

/-- A bracket is opened. -/
lemma openBracket (h : s.Fits Q) {d : Draft} (hd : d.Open Q) : (s.openBracket d).Fits Q :=
  ⟨Body.fits_empty Q (h.body.pos.trans h.body.le), trivial,
    List.forall_mem_cons.mpr ⟨⟨h.body, hd.toFits.flush⟩, h.outer⟩⟩

/-- A word goes on. -/
lemma inWord (h : s.Fits Q) {d : Draft} (hd : d.Open Q) (c : Char) :
    (Reader.inWord s d c).Fits Q := by
  unfold Reader.inWord
  split
  · exact h.goTo (p := .dollar d) hd
  · exact h.openBracket hd
  · exact h.goTo (p := .escape d) hd
  · exact h.goTo (p := .word (d.push _)) ⟨hd.push _, d.begun_push _⟩

/-- Between two words, unless a bracket is closed there. -/
lemma atBetween (h : s.Fits Q) (hnot : ¬(c = ']' ∧ s.isNested)) :
    (Reader.atBetween s c).Fits Q := by
  unfold Reader.atBetween
  split
  · exact h.goTo (p := .between) trivial
  split
  · exact h.endLine
  split
  · exact h.goTo (p := .continued) trivial
  · exact h.goTo (p := .block 1 []) trivial
  · exact h.goTo (p := .word (.empty true)) ⟨Draft.open_empty Q true, .inl rfl⟩
  · exact h.inWord (Draft.open_empty Q false) _

/-- Where a command may begin, unless a bracket is closed there. -/
lemma atCommand (h : s.Fits Q) (hnot : ¬(c = ']' ∧ s.isNested)) :
    (Reader.atCommand s c).Fits Q := by
  unfold Reader.atCommand
  split
  · exact h
  split
  · exact h.goTo (p := .comment) trivial
  · exact atBetween ⟨h.body.withNumber, h.place, h.outer⟩ hnot

/-- Inside a word, unless a bracket is closed there. -/
lemma atWord (h : s.Fits Q) {d : Draft} (hd : d.Open Q) (hbegun : d.Begun)
    (hnot : d.quoted = false → ¬(c = ']' ∧ s.isNested)) : (Reader.atWord s d c).Fits Q := by
  have hword : d.word.Fits Q := hd.toFits.word hbegun
  unfold Reader.atWord
  split
  · split
    · exact h.endWord hword
    · exact h.inWord hd c
  · rename_i hquoted
    split
    · exact (h.endWord hword).atBetween (hnot (Bool.eq_false_iff.mpr hquoted))
    · exact h.inWord hd c

/-- Where a bracket is not closed, what has been read stays as it should be. -/
lemma dispatch (h : s.Fits Q) (hclose : s.closes c = false) : (Reader.dispatch s c).Fits Q := by
  have hname (d : Draft) (hd : d.Open Q) (name : List Char) :
      (d.addPart (.variableRef (String.ofList name.reverse))).Open Q :=
    hd.toFits.addPart id nofun
  have hplace := h.place
  unfold State.closes at hclose
  unfold Reader.dispatch
  split <;> rename_i heq <;> rw [heq] at hplace hclose
  · exact h.atCommand (by simpa using hclose)
  · split
    · exact h.goTo (p := .command) trivial
    · exact h
  · exact h.atBetween (by simpa using hclose)
  · split
    · exact h.goTo (p := .between) trivial
    · exact h.goTo (p := .word _) ⟨(Draft.open_empty Q false).push _, Draft.begun_push _ _⟩
  · rename_i d
    refine h.atWord hplace.1 hplace.2 fun hquoted => ?_
    simpa [hquoted] using hclose
  · rename_i d
    exact h.goTo (p := .word _) ⟨hplace.push _, d.begun_push _⟩
  · rename_i d
    split
    · exact h.goTo (p := .bracedName d []) hplace
    split
    · exact h.goTo (p := .name d [c]) hplace
    · refine h.atWord (hplace.push '$') (d.begun_push '$') fun hquoted => ?_
      have hbare : d.quoted = false := hquoted
      simpa [hbare] using hclose
  · rename_i d name
    split
    · exact h.goTo (p := .name d (c :: name)) hplace
    · refine h.atWord (hname d hplace name) (d.begun_addPart _) fun hquoted => ?_
      rw [d.quoted_addPart] at hquoted
      simpa [hquoted] using hclose
  · rename_i d name
    split
    · exact h.goTo (p := .word _) ⟨hname d hplace name, d.begun_addPart _⟩
    · exact h.goTo (p := .bracedName d (c :: name)) hplace
  · rename_i depth text
    split
    · exact h.goTo (p := .block _ _) trivial
    · split
      · exact h.endWord ⟨trivial, fun t ht => nomatch ht⟩
      · exact h.goTo (p := .block _ _) trivial
    · exact h.goTo (p := .blockEscape _ _) trivial
    · exact h.goTo (p := .block _ _) trivial
  · exact h.goTo (p := .block _ _) trivial

/-- The commands that have been read, with the word and the line that the end of the text ends. -/
lemma finalBody (h : s.Fits Q) : (Reader.finalBody s).Fits Q s.line := by
  obtain ⟨line, body, place, outer⟩ := s
  obtain ⟨hbody, hplace, -⟩ := h
  cases place with
  | word d => exact (hbody.addWord (hplace.1.toFits.word hplace.2)).endLine
  | dollar d => exact (hbody.addWord ((hplace.push '$').toFits.word (d.begun_push '$'))).endLine
  | name d name =>
    have hopen : (d.addPart (.variableRef (String.ofList name.reverse))).Open Q :=
      hplace.toFits.addPart id nofun
    exact (hbody.addWord (hopen.toFits.word (d.begun_addPart _))).endLine
  | _ => exact hbody.endLine

/-- What has been read stays as it should be if the script that is closed has the property. -/
lemma step (h : s.Fits Q)
    (hQ : s.closes c = true → (Reader.finalBody s).script.Neat s.line →
      Q (Reader.finalBody s).script) : (Reader.step s c).Fits Q := by
  cases hclose : s.closes c with
  | true =>
    obtain ⟨around, draft, outer, houter⟩ := State.exists_of_closes hclose
    have hbody := h.finalBody
    have hscript : (Reader.finalBody s).script.Throughout Q :=
      ⟨hQ hclose hbody.neat_script, fun t ht => hbody.of_inside ht⟩
    have haround := h.outer (around, draft) (houter ▸ List.mem_cons_self)
    rw [step_of_closes hclose houter]
    have hpart : (draft.addPart (.substitution (Reader.finalBody s).script)).Open Q := by
      refine haround.2.addPart id fun t ht => ?_
      cases ht
      exact hscript
    exact ⟨haround.1.withSource _, ⟨hpart, draft.begun_addPart _⟩,
      fun e he => h.outer e (houter ▸ List.mem_cons_of_mem _ he)⟩
  | false =>
    have hdispatch := dispatch
      (s := { s with body := { s.body with source := c :: s.body.source } }) (c := c)
      ⟨h.body.withSource _, h.place, h.outer⟩ hclose
    unfold Reader.step
    simp only
    split
    · exact ⟨hdispatch.body.mono (Nat.le_succ _), hdispatch.place,
        fun e he => ⟨(hdispatch.outer e he).1.mono (Nat.le_succ _), (hdispatch.outer e he).2⟩⟩
    · exact hdispatch

/-- What has been read stays as it should be if all scripts that are closed have the property. -/
lemma run (h : s.Fits Q) (cs : List Char)
    (hQ : ∀ front c, front ++ [c] <+: cs → (Reader.run s front).closes c = true →
      (Reader.finalBody (Reader.run s front)).script.Neat (Reader.run s front).line →
        Q (Reader.finalBody (Reader.run s front)).script) : (Reader.run s cs).Fits Q := by
  induction cs using List.reverseRecOn with
  | nil => exact h
  | append_singleton cs c ih =>
    have hprefix : cs <+: cs ++ [c] := List.prefix_append cs [c]
    rw [run_concat]
    exact (ih fun front d hfront => hQ front d (hfront.trans hprefix)).step
      (hQ cs c (List.prefix_refl _))

end State.Fits

end Script.Reader

end Switchboard
