import Mathlib
import Switchboard.Proofs.Excerpts

/-!
# Where the reader may as well stand

A word, a name, a line or a comment ends before the character that ends it, so the reader learns of
the end one character late.  In such a place it may as well stand where the end has been seen
already: it would give the same (`Script.Reader.answer_bare` and its like).  In between it only goes
from one place to another (`Moved`).
-/

namespace Switchboard.Script.Reader

/-- What the reader gives when it goes on to the end of the text. -/
def answer (s : State) (rest : List Char) : Except ScriptError Script := finish (run s rest)

/-- What has been noted behind some characters more. -/
lemma noted_run {s : State} (hfresh : s.Fresh) (cs : List Char) :
    (run s cs).noted.reverse = s.noted.reverse ++ cs := by
  rw [(run_facts_of_fresh hfresh cs).2.1, List.reverse_append, List.reverse_reverse]

/-- Elsewhere than where a command may begin it does not matter whether a word has been read. -/
lemma fresh_of_place {s : State} {p : Place} (hplace : s.place = p) (hcommand : p ≠ .command)
    (hcomment : p ≠ .comment) : s.Fresh :=
  fun h => (h.elim (fun h => hcommand (hplace.symm.trans h)) fun h =>
    hcomment (hplace.symm.trans h)).elim

/-! ## Places that may stand for each other -/

section Places

variable {s t : State} {d : Draft} {c : Char} {rest : List Char}

/-- A character that has been noted as source. -/
def note (s : State) (c : Char) : State :=
  { s with body := { s.body with source := c :: s.body.source } }

/-- Readers for which a character does the same. -/
lemma step_congr (h : dispatch (note s c) c = dispatch (note t c) c) : step s c = step t c := by
  unfold note at h
  unfold step
  simp only [h]

/-- Readers that the next character takes to the same state and that give the same at the end of the
text may stand for each other. -/
lemma answer_congr (hend : finish s = finish t)
    (hstep : ∀ c ∈ rest.head?, step s c = step t c) : answer s rest = answer t rest := by
  cases rest with
  | nil => exact hend
  | cons c rest => exact congrArg (answer · rest) (hstep c rfl)

/-- A character between two words does the same wherever the reader stands. -/
lemma atBetween_goTo (s : State) (p : Place) (c : Char) :
    atBetween (s.goTo p) c = atBetween s c := by
  obtain ⟨line, body, place, _ | ⟨⟨around, draft⟩, outer⟩⟩ := s
  · unfold atBetween State.goTo State.isNested inWord
    simp only [List.isEmpty_nil, Bool.not_true, Bool.false_eq_true, and_false, if_false]
    rfl
  · rfl

/-- A dollar sign is text if the next character begins no name. -/
lemma step_dollar (hplace : s.place = .dollar d) (hbrace : c ≠ '\x7b')
    (hname : isNameChar c = false) : step s c = step (s.goTo (.word (d.push '$'))) c := by
  obtain ⟨line, body, place, outer⟩ := s
  obtain rfl : place = _ := hplace
  refine step_congr ?_
  show (if c = '\x7b' then _ else if isNameChar c then _ else _) = _
  rw [if_neg hbrace, if_neg (Bool.eq_false_iff.mp hname)]
  rfl

/-- A dollar sign with no name behind it is text. -/
lemma answer_dollar (hplace : s.place = .dollar d)
    (hrest : ∀ c ∈ rest.head?, c ≠ '\x7b' ∧ isNameChar c = false) :
    answer s rest = answer (s.goTo (.word (d.push '$'))) rest := by
  refine answer_congr ?_ fun c hc => step_dollar hplace (hrest c hc).1 (hrest c hc).2
  obtain ⟨line, body, place, outer⟩ := s
  obtain rfl : place = _ := hplace
  rfl

/-- The name of a variable ends before any other character. -/
lemma answer_name {name : List Char} (hplace : s.place = .name d name)
    (hrest : ∀ c ∈ rest.head?, isNameChar c = false) :
    answer s rest =
      answer (s.goTo (.word (d.addPart (.variableRef (String.ofList name.reverse))))) rest := by
  obtain ⟨line, body, place, outer⟩ := s
  obtain rfl : place = _ := hplace
  refine answer_congr ?_ fun c hc => step_congr ?_
  · unfold finish flaw? flaw?.inWordFlaw
    simp only [State.goTo, d.quoted_addPart]
    rfl
  · show (if isNameChar c then _ else _) = _
    rw [if_neg (Bool.eq_false_iff.mp (hrest c hc))]
    rfl

/-- A bare word ends before what ends it. -/
lemma answer_bare (hplace : s.place = .word d) (hbare : d.quoted = false)
    (hrest : ∀ c ∈ rest.head?, endsBare s c = true) :
    answer s rest = answer (s.endWord d.word) rest := by
  obtain ⟨line, body, place, outer⟩ := s
  obtain rfl : place = _ := hplace
  refine answer_congr ?_ fun c hc => step_congr ?_
  · unfold finish flaw? flaw?.inWordFlaw
    simp only [hbare]
    rfl
  · show atWord (note ⟨line, body, .word d, outer⟩ c) d c = _
    unfold atWord
    rw [hbare, if_neg Bool.false_ne_true, if_pos]
    · rfl
    · exact hrest c hc

/-- The characters that end a line, in brackets or not. -/
def endsLine (nested : Bool) (c : Char) : Bool := c == '\n' || c == ';' || (c == ']' && nested)

/-- What ends a line. -/
lemma endsLine_iff {nested : Bool} :
    endsLine nested c = true ↔ c = '\n' ∨ c = ';' ∨ c = ']' ∧ nested = true := by
  unfold endsLine
  rw [Bool.or_eq_true, Bool.or_eq_true, Bool.and_eq_true, beq_iff_eq, beq_iff_eq, beq_iff_eq,
    or_assoc]

/-- The end of a line leaves none to be ended. -/
lemma endLine_endLine (b : Body) : b.endLine.endLine = b.endLine := by
  generalize he : b.endLine = e
  have hwords : e.words = [] := he ▸ b.words_endLine
  exact if_pos (List.isEmpty_iff.mpr hwords)

/-- The end of a line is not noted. -/
lemma noted_endLine (s : State) : s.endLine.noted = s.noted := by
  unfold State.endLine State.noted
  rw [Body.source_endLine]

/-- The words of a line end before what ends it. -/
lemma answer_between (hplace : s.place = .between)
    (hrest : ∀ c ∈ rest.head?, endsLine s.isNested c = true) :
    answer s rest = answer s.endLine rest := by
  obtain ⟨line, body, place, outer⟩ := s
  obtain rfl : place = _ := hplace
  refine answer_congr ?_ fun c hc => ?_
  · unfold finish finalBody State.endLine
    simp only [endLine_endLine]
    rfl
  · have hends := hrest c hc
    have hsource := body.endLine_withSource (c :: body.source)
    obtain rfl | rfl | ⟨rfl, hnested⟩ := endsLine_iff.mp hends
    · refine step_congr
        (congrArg (fun b => (⟨line, b, .command, outer⟩ : State)) (hsource.trans ?_))
      rw [State.endLine, body.source_endLine]
    · refine step_congr
        (congrArg (fun b => (⟨line, b, .command, outer⟩ : State)) (hsource.trans ?_))
      rw [State.endLine, body.source_endLine]
    · obtain _ | ⟨⟨around, draft⟩, outer⟩ := outer
      · contradiction
      · rw [step_of_closes rfl rfl, step_of_closes rfl rfl]
        unfold finalBody State.endLine
        simp only [endLine_endLine, body.source_endLine]

/-- A character that begins a command does what it does between two words. -/
lemma step_command (hplace : s.place = .command) (hgap : isGap c = false)
    (hclose : ¬(c = ']' ∧ s.isNested)) (hcomment : c ≠ '#') :
    step s c = step { s with body := { s.body with number := s.line }, place := .between } c := by
  obtain ⟨line, body, place, outer⟩ := s
  obtain rfl : place = _ := hplace
  refine step_congr ?_
  show atCommand (note ⟨line, body, .command, outer⟩ c) c = atBetween _ c
  unfold atCommand
  rw [hgap, if_neg Bool.false_ne_true, if_neg, if_neg hcomment, ← atBetween_goTo _ .between c]
  · rfl
  · exact hclose

/-- A command begins with a character that does nothing else. -/
lemma answer_command (hplace : s.place = .command) (hgap : isGap c = false)
    (hclose : ¬(c = ']' ∧ s.isNested)) (hcomment : c ≠ '#') :
    answer s (c :: rest) =
      answer { s with body := { s.body with number := s.line }, place := .between }
        (c :: rest) :=
  congrArg (answer · rest) (step_command hplace hgap hclose hcomment)

/-- A comment ends before the end of its text line. -/
lemma answer_comment (hplace : s.place = .comment) (hrest : ∀ c ∈ rest.head?, c = '\n') :
    answer s rest = answer (s.goTo .command) rest := by
  obtain ⟨line, body, place, outer⟩ := s
  obtain rfl : place = _ := hplace
  refine answer_congr rfl fun c hc => step_congr ?_
  rw [hrest c hc]
  rfl

/-- A character that begins a bare word does what it does in one. -/
lemma step_word (hplace : s.place = .between) (hbare : endsBare s c = false) (hbrace : c ≠ '\x7b')
    (hquote : c ≠ '"') (hback : c ≠ '\\') :
    step s c = step (s.goTo (.word (.empty false))) c := by
  obtain ⟨line, body, place, outer⟩ := s
  obtain rfl : place = _ := hplace
  refine step_congr ?_
  have hword : dispatch (note ⟨line, body, .word (.empty false), outer⟩ c) c =
      inWord (note ⟨line, body, .word (.empty false), outer⟩ c) (.empty false) c := by
    show atWord (note ⟨line, body, .word (.empty false), outer⟩ c) (.empty false) c = _
    unfold atWord
    rw [if_neg (show ¬(Draft.empty false).quoted = true from Bool.false_ne_true), if_neg]
    exact Bool.eq_false_iff.mp hbare
  unfold endsBare at hbare
  rw [Bool.or_eq_false_iff, Bool.or_eq_false_iff, Bool.or_eq_false_iff, beq_eq_false_iff_ne,
    beq_eq_false_iff_ne] at hbare
  obtain ⟨⟨⟨hblank, hnewline⟩, hsemicolon⟩, hclose⟩ := hbare
  refine Eq.trans ?_ hword.symm
  show atBetween _ c = _
  unfold atBetween
  rw [hblank, if_neg Bool.false_ne_true, if_neg (not_or.mpr ⟨hnewline, hsemicolon⟩), if_neg]
  · split
    · contradiction
    · contradiction
    · contradiction
    · rfl
  · rintro ⟨rfl, hnested⟩
    rw [show State.isNested ⟨line, body, .between, outer⟩ = true from hnested] at hclose
    contradiction

/-- A bare word begins with a character that does nothing else; a backslash at the end of a text
line begins none. -/
lemma answer_word (hplace : s.place = .between) (hbare : endsBare s c = false)
    (hbrace : c ≠ '\x7b') (hquote : c ≠ '"') (hline : ¬['\\', '\n'] <+: c :: rest) :
    answer s (c :: rest) = answer (s.goTo (.word (.empty false))) (c :: rest) := by
  by_cases hback : c = '\\'
  · obtain ⟨line, body, place, outer⟩ := s
    obtain rfl : place = _ := hplace
    subst hback
    -- only a backslash at the end of a text line makes a difference
    show answer ⟨line, { body with source := '\\' :: body.source }, .continued, outer⟩ rest =
      answer ⟨line, { body with source := '\\' :: body.source }, .escape (.empty false), outer⟩ rest
    refine answer_congr rfl fun c hc => step_congr ?_
    show (if c = '\n' then _ else _) = _
    rw [if_neg]
    · rfl
    · rintro rfl
      refine hline ?_
      obtain ⟨rest', rfl⟩ := List.head?_eq_some_iff.mp hc
      exact ⟨rest', rfl⟩
  · exact congrArg (answer · rest) (step_word hplace hbare hbrace hquote hback)

/-- Where a command may begin the end of the text ends neither a word nor a line. -/
lemma finalBody_of_command (hplace : s.place = .command) (hwords : s.body.words = []) :
    finalBody s = s.body := by
  unfold finalBody
  rw [hplace]
  exact if_pos (List.isEmpty_iff.mpr hwords)

end Places

/-! ## Where the reader goes on -/

/-- Whether a reader has only noted text since a state, and where it stands then. -/
structure Moved (s t : State) (p : Place) : Prop where
  place : t.place = p
  outer : t.outer = s.outer
  body : ∃ source, t.body = { s.body with source := source }

namespace Moved

variable {s t u : State} {p q : Place} {c : Char}

/-- A reader that stays. -/
lemma refl (h : s.place = p) : Moved s s p := ⟨h, rfl, s.body.source, rfl⟩

/-- A reader that has gone on twice. -/
lemma trans (h : Moved s t p) (h' : Moved t u q) : Moved s u q := by
  obtain ⟨source, hbody⟩ := h.body
  obtain ⟨source', hbody'⟩ := h'.body
  refine ⟨h'.place, h'.outer.trans h.outer, source', ?_⟩
  rw [hbody', hbody]

/-- A character that only takes the reader to another place. -/
lemma step (hplace : s.place = p) (h : dispatch ((note s c).goTo p) c = (note s c).goTo q) :
    Moved s (step s c) q := by
  subst hplace
  unfold note State.goTo at h
  unfold Reader.step
  simp only [h]
  split <;> exact ⟨rfl, rfl, _, rfl⟩

/-- A character that ends a word. -/
lemma endWord_step {w : ScriptWord} (hplace : s.place = p)
    (h : dispatch ((note s c).goTo p) c = (note s c).endWord w) :
    Moved (s.endWord w) (Reader.step s c) .between := by
  subst hplace
  unfold note State.goTo at h
  unfold Reader.step
  simp only [h]
  split <;> exact ⟨rfl, rfl, _, rfl⟩

/-- A word that ends behind some text. -/
lemma endWord (h : Moved s t p) (w : ScriptWord) : Moved (s.endWord w) (t.endWord w) .between := by
  obtain ⟨source, hbody⟩ := h.body
  refine ⟨rfl, h.outer, source, ?_⟩
  unfold State.endWord Body.addWord
  rw [hbody]

/-- A reader that goes on at another place without a character. -/
lemma goTo (h : Moved s t p) (q : Place) : Moved s (t.goTo q) q := ⟨rfl, h.outer, h.body⟩

/-- A bracket is around a reader as long as it has only noted text. -/
lemma isNested (h : Moved s t p) : t.isNested = s.isNested := by
  unfold State.isNested
  rw [h.outer]

/-- The lines that have been read stay. -/
lemma lines (h : Moved s t p) : t.body.lines = s.body.lines := by
  obtain ⟨source, hbody⟩ := h.body
  rw [hbody]

/-- The words that have been read stay. -/
lemma words (h : Moved s t p) : t.body.words = s.body.words := by
  obtain ⟨source, hbody⟩ := h.body
  rw [hbody]

/-- The number of the line that is being read stays. -/
lemma number (h : Moved s t p) : t.body.number = s.body.number := by
  obtain ⟨source, hbody⟩ := h.body
  rw [hbody]

/-- Characters that the reader takes in one after the other. -/
lemma run (p : List Char → Place) (name : List Char) (hplace : s.place = p name)
    (cs : List Char)
    (h : ∀ c ∈ cs, ∀ name t, dispatch (State.goTo t (p name)) c = t.goTo (p (c :: name))) :
    Moved s (Reader.run s cs) (p (cs.reverse ++ name)) := by
  induction cs generalizing s name with
  | nil => exact refl hplace
  | cons c cs ih =>
    have hstep : Moved s (Reader.step s c) (p (c :: name)) :=
      step hplace (h c List.mem_cons_self name _)
    rw [List.reverse_cons, List.append_assoc]
    exact hstep.trans (ih (c :: name) hstep.place fun d hd => h d (List.mem_cons_of_mem c hd))

end Moved

section Characters

variable {s : State} {d : Draft} {c : Char}

/-- A dollar sign goes on a word. -/
lemma moved_dollar (hplace : s.place = .word d) : Moved s (step s '$') (.dollar d) := by
  refine .step hplace ?_
  show atWord _ d '$' = _
  unfold atWord
  split
  · rfl
  · rfl

/-- The characters of a name are taken in. -/
lemma moved_name {name : List Char} (hplace : s.place = .name d name) (cs : List Char)
    (hcs : ∀ c ∈ cs, isNameChar c = true) : Moved s (run s cs) (.name d (cs.reverse ++ name)) :=
  .run (.name d) _ hplace cs fun c hc _ _ => if_pos (hcs c hc)

/-- The characters of a name in braces are taken in. -/
lemma moved_bracedName {name : List Char} (hplace : s.place = .bracedName d name)
    (cs : List Char) (hcs : ∀ c ∈ cs, c ≠ '\x7d') :
    Moved s (run s cs) (.bracedName d (cs.reverse ++ name)) :=
  .run (.bracedName d) _ hplace cs fun c hc _ _ => if_neg (hcs c hc)

/-- The depth of a block behind a character. -/
def depthAfter (depth : ℕ) (c : Char) : ℕ :=
  if c = '\x7b' then depth + 1 else if c = '\x7d' then depth - 1 else depth

/-- A block goes on behind a character that does not end it. -/
lemma moved_block {depth : ℕ} {m : List Char} (hplace : s.place = .block depth m)
    (hend : ¬(c = '\x7d' ∧ depth - 1 = 0)) (hback : c ≠ '\\') :
    Moved s (step s c) (.block (depthAfter depth c) (c :: m)) := by
  refine .step hplace ?_
  unfold depthAfter dispatch State.goTo
  simp only
  split
  · rfl
  · rw [if_neg fun hle => hend ⟨rfl, by omega⟩]
    rfl
  · contradiction
  · rename_i hopen hclose _
    rw [if_neg hopen, if_neg hclose]

/-- Inside a word a character goes on the word unless it ends it. -/
lemma atWord_of_not (hquoted : ¬(d.quoted = true ∧ c = '"'))
    (hbare : ¬(¬d.quoted = true ∧ endsBare s c = true)) : atWord s d c = inWord s d c := by
  unfold atWord
  split
  · rename_i h
    exact if_neg fun hc => hquoted ⟨h, hc⟩
  · rename_i h
    exact if_neg fun hc => hbare ⟨h, hc⟩

/-- The end of the text before a part leaves none to be ended. -/
lemma addPart_flush (d : Draft) (p : ScriptPart) : d.flush.addPart p = d.addPart p := by
  have hflush : d.flush.flush = d.flush := if_pos (List.isEmpty_iff.mpr d.text_flush)
  unfold Draft.addPart
  rw [hflush]

/-- A bracket is opened in a word. -/
lemma step_bracket (hplace : s.place = .word d) : ∃ line source,
    step s '[' =
      ⟨line, .empty, .command, ({ s.body with source := source }, d.flush) :: s.outer⟩ := by
  obtain ⟨line, body, place, outer⟩ := s
  obtain rfl : place = _ := hplace
  refine ⟨line, '[' :: body.source, ?_⟩
  have hword : dispatch (note ⟨line, body, .word d, outer⟩ '[') '[' =
      State.openBracket (note ⟨line, body, .word d, outer⟩ '[') d := by
    show atWord _ d '[' = _
    unfold atWord
    split
    · rfl
    · rfl
  have hstep : step ⟨line, body, .word d, outer⟩ '[' =
      dispatch (note ⟨line, body, .word d, outer⟩ '[') '[' := by
    unfold step
    rw [if_neg (by decide)]
    rfl
  rw [hstep, hword]
  rfl

/-- A reader with other words of the line. -/
def withWords (s : State) (words : List ScriptWord) : State :=
  { s with body := { s.body with words := words } }

/-- Whatever the words of the line are, the rest of what has been read stays. -/
lemma Moved.withWords {s t u : State} {p q : Place} {w : ScriptWord} {words : List ScriptWord}
    (h : Moved (s.endWord w) t p) (h' : Moved (withWords t words) u q) :
    Moved (withWords s words) u q := by
  obtain ⟨source, hbody⟩ := h.body
  obtain ⟨source', hbody'⟩ := h'.body
  refine ⟨h'.place, h'.outer.trans h.outer, source', ?_⟩
  rw [hbody']
  unfold Reader.withWords
  rw [hbody]
  rfl

end Characters

end Switchboard.Script.Reader
