import Mathlib
import Switchboard.Proofs.ScriptShapes

/-!
# Excerpts of scripts

What the reader makes of a stretch of text does not depend on what surrounds it, the numbers of the
lines apart.  A reader in the middle of a text trails one that began there (`Trails`): it has the
same behind it, some lines further down (`Script.later`), within the brackets that were open before.
They stay in step until a bracket is closed that was open before (`Trails.step`).

Two facts follow from it.  Texts can be joined at the end of a line (`Script.ofText?_append_line`),
and the source that is kept with a script in brackets is read as that script
(`Script.ofText?_source_inside`).
-/

namespace Switchboard

/-! ## Lines further down -/

mutual

/-- A script all of whose lines, also those in brackets, stand `k` lines further down. -/
def Script.later (k : ℕ) : Script → Script
  | ⟨lines, source⟩ => ⟨lines.map (ScriptLine.later k), source⟩

/-- A line `k` lines further down. -/
def ScriptLine.later (k : ℕ) : ScriptLine → ScriptLine
  | ⟨number, words⟩ => ⟨number + k, words.map (ScriptWord.later k)⟩

/-- A word `k` lines further down. -/
def ScriptWord.later (k : ℕ) : ScriptWord → ScriptWord
  | .literal text => .literal text
  | .variableRef name => .variableRef name
  | .substitution script => .substitution (script.later k)
  | .block text => .block text
  | .quoted parts => .quoted (parts.map (ScriptPart.later k))

/-- A part of a word `k` lines further down. -/
def ScriptPart.later (k : ℕ) : ScriptPart → ScriptPart
  | .text text => .text text
  | .variableRef name => .variableRef name
  | .substitution script => .substitution (script.later k)

end

/-- A script is its lines and its source. -/
lemma Script.eq_of_lines_of_source {s t : Script} (hlines : s.lines = t.lines)
    (hsource : s.source = t.source) : s = t := by
  cases s
  cases t
  cases hlines
  cases hsource
  rfl

/-- The lines of a script further down. -/
lemma Script.lines_later (k : ℕ) (s : Script) :
    (s.later k).lines = s.lines.map (ScriptLine.later k) := by
  cases s with
  | mk lines source => rw [later]; rfl

/-- The source of a script does not change with its line numbers. -/
lemma Script.source_later (k : ℕ) (s : Script) : (s.later k).source = s.source := by
  cases s with
  | mk lines source => rw [later]; rfl

/-- A word of one part further down. -/
lemma ScriptPart.word_later (k : ℕ) (p : ScriptPart) : (p.later k).word = p.word.later k := by
  cases p <;> simp only [later, word, ScriptWord.later]

namespace Script.Reader

/-! ## One character more -/

/-- What a character can do that closes no bracket: it changes what is being read and where the
reader stands, or it opens one more bracket.  Where a command may begin no word has been read. -/
inductive Stays (line : ℕ) (source : List Char) (outer : List (Body × Draft)) : State → Prop
  | within (b : Body) (p : Place) (hsource : b.source = source)
    (hfresh : p = .command ∨ p = .comment → b.words = []) :
    Stays line source outer ⟨line, b, p, outer⟩
  | opens (b : Body) (d : Draft) (hsource : b.source = source) :
    Stays line source outer ⟨line, .empty, .command, (b, d) :: outer⟩

/-- Whether no word has been read where a command may begin. -/
def State.Fresh (s : State) : Prop := s.place = .command ∨ s.place = .comment → s.body.words = []

section Steps

variable {s : State} {c : Char}

/-- A reader that goes on in a line. -/
lemma Stays.goTo {line : ℕ} {body : Body} {outer : List (Body × Draft)} {p : Place}
    (hcommand : p ≠ .command) (hcomment : p ≠ .comment) :
    Stays line body.source outer ⟨line, body, p, outer⟩ :=
  .within body p rfl fun h => absurd h (by simp [hcommand, hcomment])

/-- A word goes on. -/
lemma stays_inWord (s : State) (d : Draft) (c : Char) :
    Stays s.line s.body.source s.outer (inWord s d c) := by
  unfold inWord
  split
  · exact Stays.goTo nofun nofun
  · exact .opens s.body d.flush rfl
  · exact Stays.goTo nofun nofun
  · exact Stays.goTo nofun nofun

/-- The end of a line leaves no word. -/
lemma Body.words_endLine (b : Body) : b.endLine.words = [] := by
  unfold endLine
  split
  · exact List.isEmpty_iff.mp ‹_›
  · rfl

/-- The end of a line does not change the source. -/
lemma Body.source_endLine (b : Body) : b.endLine.source = b.source := by
  unfold endLine
  split <;> rfl

/-- Between two words, unless a bracket is closed there. -/
lemma stays_atBetween (hnot : ¬(c = ']' ∧ s.isNested)) :
    Stays s.line s.body.source s.outer (atBetween s c) := by
  unfold atBetween
  split
  · exact Stays.goTo nofun nofun
  split
  · exact .within _ _ s.body.source_endLine fun _ => s.body.words_endLine
  split
  · exact Stays.goTo nofun nofun
  · exact Stays.goTo nofun nofun
  · exact Stays.goTo nofun nofun
  · exact stays_inWord s _ _

/-- Inside a word, unless a bracket is closed there. -/
lemma stays_atWord (d : Draft) (hnot : d.quoted = false → ¬(c = ']' ∧ s.isNested)) :
    Stays s.line s.body.source s.outer (atWord s d c) := by
  unfold atWord
  split
  · split
    · exact .within _ _ rfl nofun
    · exact stays_inWord s d c
  · rename_i hquoted
    split
    · exact stays_atBetween (s := s.endWord d.word) (hnot (Bool.eq_false_iff.mpr hquoted))
    · exact stays_inWord s d c

/-- A character that closes no bracket. -/
lemma stays_dispatch (hfresh : s.Fresh) (hclose : s.closes c = false) :
    Stays s.line s.body.source s.outer (dispatch s c) := by
  unfold State.closes at hclose
  obtain ⟨line, body, place, outer⟩ := s
  cases place with
  | command =>
    have hnot : ¬(c = ']' ∧ State.isNested ⟨line, body, .command, outer⟩) := by simpa using hclose
    show Stays line body.source outer (atCommand _ c)
    unfold atCommand
    split
    · exact .within _ _ rfl fun _ => hfresh (.inl rfl)
    split
    · exact .within _ _ rfl fun _ => hfresh (.inl rfl)
    · exact stays_atBetween (s := ⟨line, { body with number := line }, .command, outer⟩) hnot
  | comment =>
    show Stays line body.source outer (if c = '\n' then _ else _)
    split
    · exact .within _ _ rfl fun _ => hfresh (.inr rfl)
    · exact .within _ _ rfl fun _ => hfresh (.inr rfl)
  | between => exact stays_atBetween (by simpa using hclose)
  | continued =>
    show Stays line body.source outer (if c = '\n' then _ else _)
    split <;> exact Stays.goTo nofun nofun
  | word d =>
    refine stays_atWord d fun hbare => ?_
    simpa [hbare] using hclose
  | escape d => exact Stays.goTo nofun nofun
  | dollar d =>
    show Stays line body.source outer (if c = '\x7b' then _ else if isNameChar c then _ else _)
    split
    · exact Stays.goTo nofun nofun
    split
    · exact Stays.goTo nofun nofun
    · refine stays_atWord (s := ⟨line, body, .dollar d, outer⟩) (d.push '$') fun hbare => ?_
      have hbare : d.quoted = false := hbare
      simpa [hbare] using hclose
  | name d name =>
    show Stays line body.source outer (if isNameChar c then _ else _)
    split
    · exact Stays.goTo nofun nofun
    · refine stays_atWord (s := ⟨line, body, .name d name, outer⟩) _ fun hbare => ?_
      rw [d.quoted_addPart] at hbare
      simpa [hbare] using hclose
  | bracedName d name =>
    show Stays line body.source outer (if c = '\x7d' then _ else _)
    split <;> exact Stays.goTo nofun nofun
  | block depth text =>
    unfold dispatch
    simp only
    split
    · exact Stays.goTo nofun nofun
    · split
      · exact .within _ _ rfl nofun
      · exact Stays.goTo nofun nofun
    · exact Stays.goTo nofun nofun
    · exact Stays.goTo nofun nofun
  | blockEscape depth text => exact Stays.goTo nofun nofun

/-- The text line on which a character leaves the reader. -/
def lineAfter (line : ℕ) (c : Char) : ℕ := if c = '\n' then line + 1 else line

/-- One more character that closes no bracket. -/
lemma stays_step (hfresh : s.Fresh) (hclose : s.closes c = false) :
    Stays (lineAfter s.line c) (c :: s.body.source) s.outer (step s c) := by
  have hdispatch := stays_dispatch (c := c)
    (s := { s with body := { s.body with source := c :: s.body.source } }) hfresh hclose
  unfold step lineAfter
  simp only
  generalize dispatch { s with body := { s.body with source := c :: s.body.source } } c = t
    at hdispatch ⊢
  cases hdispatch with
  | within b p hsource hfresh =>
    split
    · exact .within b p hsource hfresh
    · exact .within b p hsource hfresh
  | opens b d hsource =>
    split
    · exact .opens b d hsource
    · exact .opens b d hsource

/-- The characters that have been noted, the newest first. -/
def State.noted (s : State) : List Char := s.body.source ++ s.outer.flatMap fun e => e.1.source

/-- A character is noted, it may end a text line, and no word is there where a command may begin. -/
lemma step_facts (hfresh : s.Fresh) :
    (step s c).Fresh ∧ (step s c).noted = c :: s.noted ∧ (step s c).line = lineAfter s.line c := by
  cases hclose : s.closes c with
  | true =>
    obtain ⟨around, draft, outer, houter⟩ := State.exists_of_closes hclose
    have hc : c ≠ '\n' := by
      rintro rfl
      exact absurd hclose (by simp [State.closes])
    rw [step_of_closes hclose houter]
    refine ⟨nofun, ?_, (if_neg hc).symm⟩
    simp [State.noted, houter]
  | false =>
    have hstays := stays_step hfresh hclose
    unfold State.noted
    generalize step s c = t at hstays ⊢
    cases hstays with
    | within b p hsource hfresh => exact ⟨hfresh, by rw [hsource]; rfl, rfl⟩
    | opens b d hsource =>
      refine ⟨fun _ => rfl, ?_, rfl⟩
      rw [List.flatMap_cons, hsource]
      rfl

/-- A reader that has read some more characters. -/
lemma run_facts_of_fresh (hfresh : s.Fresh) (cs : List Char) :
    (run s cs).Fresh ∧ (run s cs).noted = cs.reverse ++ s.noted ∧
      (run s cs).line = s.line + cs.count '\n' := by
  induction cs using List.reverseRecOn with
  | nil => exact ⟨hfresh, rfl, rfl⟩
  | append_singleton cs c ih =>
    obtain ⟨hfresh, hnoted, hline⟩ := ih
    obtain ⟨hfresh', hnoted', hline'⟩ := step_facts (c := c) hfresh
    rw [run_concat]
    refine ⟨hfresh', ?_, ?_⟩
    · rw [hnoted', hnoted, List.reverse_concat, List.cons_append]
    · rw [hline', hline, List.count_append]
      unfold lineAfter
      split
      · rename_i hc
        rw [hc, List.count_singleton_self]
        rfl
      · rename_i hc
        rw [List.count_singleton, if_neg (by simpa using hc)]
        rfl

/-- A reader that has read a text from its beginning. -/
lemma run_facts (cs : List Char) :
    (run .start cs).Fresh ∧ (run .start cs).noted = cs.reverse ∧
      (run .start cs).line = 1 + cs.count '\n' := by
  obtain ⟨hfresh, hnoted, hline⟩ := run_facts_of_fresh (s := .start) (fun _ => rfl) cs
  exact ⟨hfresh, hnoted.trans (List.append_nil _), hline⟩

end Steps

/-! ## Drafts, bodies and places further down -/

section Later

variable (k : ℕ) (d : Draft)

/-- A draft further down. -/
def Draft.later : Draft := { d with parts := d.parts.map (ScriptPart.later k) }

/-- The end of a text further down. -/
lemma Draft.later_flush : d.flush.later k = (d.later k).flush := by
  unfold flush
  by_cases h : d.text.isEmpty = true
  · rw [if_pos h]
    exact (if_pos h).symm
  · rw [if_neg h]
    refine Eq.trans ?_ (if_neg h).symm
    simp only [later, List.map_cons, ScriptPart.later]

/-- One more part further down. -/
lemma Draft.later_addPart (p : ScriptPart) :
    (d.addPart p).later k = (d.later k).addPart (p.later k) := by
  unfold addPart
  rw [← later_flush]
  rfl

/-- The word that a draft has become further down. -/
lemma Draft.word_later : (d.later k).word = d.word.later k := by
  have hparts : (d.later k).flush.parts.reverse =
      d.flush.parts.reverse.map (ScriptPart.later k) := by
    rw [← later_flush, List.map_reverse]
    rfl
  have hquoted : (d.later k).quoted = d.quoted := rfl
  unfold word
  rw [hparts, hquoted]
  generalize d.flush.parts.reverse = parts
  rcases d.quoted with _ | _ <;> rcases parts with _ | ⟨p, _ | ⟨q, rest⟩⟩ <;>
    simp [ScriptWord.later, ScriptPart.later, ScriptPart.word_later]

end Later

/-- What a reader in the middle of a text has behind it that one that began there has not: some text
lines, the commands of the text before, the newest first, its characters, and the brackets that
were open. -/
structure Surrounding where
  down : ℕ
  front : List ScriptLine := []
  back : List Char := []
  base : List (Body × Draft) := []

namespace Surrounding

variable (e : Surrounding)

/-- The commands before those at a depth, which at the bottom are those of the text before. -/
def frontAt : List (Body × Draft) → List ScriptLine
  | [] => e.front
  | _ => []

/-- The characters before those at a depth. -/
def backAt : List (Body × Draft) → List Char
  | [] => e.back
  | _ => []

/-- The commands at a depth as they are further down. -/
def body (outer : List (Body × Draft)) (b : Body) : Body where
  lines := b.lines.map (ScriptLine.later e.down) ++ e.frontAt outer
  number := b.number + e.down
  words := b.words.map (ScriptWord.later e.down)
  source := b.source ++ e.backAt outer

/-- The brackets around a place as they are further down. -/
def outer : List (Body × Draft) → List (Body × Draft)
  | [] => e.base
  | (b, d) :: rest => (e.body rest b, d.later e.down) :: outer rest

/-- The brackets around a place are those of the excerpt and those that were open before. -/
lemma length_outer (o : List (Body × Draft)) : (e.outer o).length = o.length + e.base.length := by
  induction o with
  | nil => exact (Nat.zero_add _).symm
  | cons x rest ih =>
    rw [outer, List.length_cons, ih, List.length_cons]
    omega

/-- A place further down. -/
def place : Place → Place
  | .word d => .word (d.later e.down)
  | .escape d => .escape (d.later e.down)
  | .dollar d => .dollar (d.later e.down)
  | .name d name => .name (d.later e.down) name
  | .bracedName d name => .bracedName (d.later e.down) name
  | p => p

/-- A reader in the middle of a text in the place of one that began there. -/
def state (s : State) : State :=
  ⟨s.line + e.down, e.body s.outer s.body, e.place s.place, e.outer s.outer⟩

variable {e}

/-- One more word further down. -/
lemma body_addWord (outer : List (Body × Draft)) (b : Body) (w : ScriptWord) :
    e.body outer (b.addWord w) = (e.body outer b).addWord (w.later e.down) := rfl

/-- The end of a line further down. -/
lemma body_endLine (outer : List (Body × Draft)) (b : Body) :
    e.body outer b.endLine = (e.body outer b).endLine := by
  unfold Body.endLine
  by_cases h : b.words = []
  · rw [if_pos (List.isEmpty_iff.mpr h), if_pos]
    simp [body, h]
  · rw [if_neg (by rwa [List.isEmpty_iff]), if_neg (by simpa [body] using h)]
    simp [body, ScriptLine.later]

/-- The script in brackets further down. -/
lemma script_body_cons (x : Body × Draft) (outer : List (Body × Draft)) (b : Body) (n : ℕ) :
    Body.script { e.body (x :: outer) b with number := n } = b.script.later e.down := by
  unfold Body.script body frontAt backAt
  rw [Script.later, List.append_nil, List.append_nil, List.map_reverse]

/-- A word that ends further down. -/
lemma state_endWord (s : State) (w : ScriptWord) :
    e.state (s.endWord w) = (e.state s).endWord (w.later e.down) := rfl

/-- A line that ends further down. -/
lemma state_endLine (s : State) : e.state s.endLine = (e.state s).endLine := by
  unfold State.endLine state
  simp only [body_endLine]
  rfl

end Surrounding

/-! ## Readers in step -/

/-- Whether a reader in the middle of a text trails one that began there.  Where a command may begin
it can still have the number of the command before. -/
inductive Trails (e : Surrounding) : State → State → Prop
  | same (s : State) : Trails e s (e.state s)
  | fresh (s : State) (n : ℕ) (hplace : s.place = .command ∨ s.place = .comment)
    (hwords : s.body.words = []) :
    Trails e s { e.state s with body := { e.body s.outer s.body with number := n } }

section Steps

variable {e : Surrounding} {s t : State} {c : Char}

/-- A word goes on. -/
lemma trails_inWord (s : State) (d : Draft) (c : Char) :
    Trails e (inWord s d c) (inWord (e.state s) (d.later e.down) c) := by
  unfold inWord
  split
  · exact .same (s.goTo (.dollar d))
  · have hfresh := Trails.fresh (e := e) (s.openBracket d) 1 (.inl rfl) rfl
    have hflush : (d.later e.down).flush = d.flush.later e.down := (d.later_flush e.down).symm
    unfold State.openBracket at hfresh ⊢
    rw [hflush]
    exact hfresh
  · exact .same (s.goTo (.escape d))
  · exact .same (s.goTo (.word (d.push _)))

/-- Between two words, unless a bracket is closed there. -/
lemma trails_atBetween (hs : ¬(c = ']' ∧ s.isNested)) (ht : ¬(c = ']' ∧ (e.state s).isNested)) :
    Trails e (atBetween s c) (atBetween (e.state s) c) := by
  unfold atBetween
  split
  · exact .same (s.goTo .between)
  split
  · rw [← Surrounding.state_endLine]
    exact .same s.endLine
  split
  · exact .same (s.goTo .continued)
  · exact .same (s.goTo (.block 1 []))
  · exact .same (s.goTo (.word (.empty true)))
  · exact trails_inWord s (.empty false) _

/-- Inside a word, unless a bracket is closed there. -/
lemma trails_atWord (d : Draft)
    (hs : d.quoted = false → ¬(c = ']' ∧ s.isNested))
    (ht : d.quoted = false → ¬(c = ']' ∧ (e.state s).isNested)) :
    Trails e (atWord s d c) (atWord (e.state s) (d.later e.down) c) := by
  have hquoted : (d.later e.down).quoted = d.quoted := rfl
  have hword : e.state (s.endWord d.word) = (e.state s).endWord (d.later e.down).word := by
    rw [d.word_later]
    exact Surrounding.state_endWord s d.word
  unfold atWord
  rw [hquoted, ← hword]
  cases hbare : d.quoted with
  | true =>
    split
    · split
      · exact .same _
      · exact trails_inWord s d c
    · contradiction
  | false =>
    have hs := hs hbare
    have ht := ht hbare
    have hends : endsBare (e.state s) c = endsBare s c := by
      unfold endsBare
      congr 1
      rw [Bool.eq_iff_iff]
      simp [hs, ht]
    rw [hends]
    split
    · contradiction
    split
    · exact trails_atBetween hs ht
    · exact trails_inWord s d c

/-- A reader that trails another is in the same place further down, within the same brackets. -/
lemma Trails.facts (h : Trails e s t) :
    t.line = s.line + e.down ∧ t.place = e.place s.place ∧ t.outer = e.outer s.outer := by
  cases h <;> exact ⟨rfl, rfl, rfl⟩

/-- Where no command has begun it does not matter whether one has ended. -/
lemma Trails.goTo (h : Trails e s t) {p : Place} (hp : p = .command ∨ p = .comment) :
    Trails e (s.goTo p) (t.goTo p) := by
  have heq : e.place p = p := by rcases hp with rfl | rfl <;> rfl
  cases h with
  | same =>
    have hsame := Trails.same (e := e) (s.goTo p)
    unfold State.goTo Surrounding.state at hsame ⊢
    simp only [heq] at hsame
    exact hsame
  | fresh n _ hwords =>
    have hfresh := Trails.fresh (e := e) (s.goTo p) n hp hwords
    unfold State.goTo Surrounding.state at hfresh ⊢
    simp only [heq] at hfresh
    exact hfresh

/-- Where a command may begin, unless a bracket is closed there. -/
lemma trails_atCommand (h : Trails e s t) (hs : ¬(c = ']' ∧ s.isNested))
    (ht : ¬(c = ']' ∧ t.isNested)) : Trails e (atCommand s c) (atCommand t c) := by
  have hnumber : { t with body := { t.body with number := t.line } } =
      e.state { s with body := { s.body with number := s.line } } := by cases h <;> rfl
  have hnested : ({ t with body := { t.body with number := t.line } } : State).isNested =
      t.isNested := rfl
  unfold atCommand
  split
  · exact h
  split
  · exact h.goTo (.inr rfl)
  · rw [← hnested, hnumber] at ht
    rw [hnumber]
    exact trails_atBetween hs ht

/-- Readers that are in step stay so, unless a bracket is closed. -/
lemma Trails.dispatch (h : Trails e s t) (hs : s.closes c = false) (ht : t.closes c = false) :
    Trails e (dispatch s c) (dispatch t c) := by
  have hplace := h.facts.2.1
  unfold State.closes at hs ht
  rw [hplace] at ht
  have hname (d : Draft) (name : List Char) :
      (d.later e.down).addPart (.variableRef (String.ofList name.reverse)) =
        (d.addPart (.variableRef (String.ofList name.reverse))).later e.down := by
    rw [d.later_addPart, ScriptPart.later]
  by_cases hcommand : s.place = .command ∨ s.place = .comment
  · unfold Reader.dispatch
    rw [hplace]
    rcases hcommand with hcommand | hcommand
    · rw [hcommand] at hs ht ⊢
      exact trails_atCommand h (by simpa using hs) (by simpa [Surrounding.place] using ht)
    · simp only [hcommand, Surrounding.place]
      split
      · exact h.goTo (.inl rfl)
      · exact h
  have hsame : t = e.state s := by
    cases h with
    | same => rfl
    | fresh n hfresh hwords => exact absurd hfresh hcommand
  subst hsame
  obtain ⟨line, body, place, outer⟩ := s
  cases place with
  | command => exact absurd (.inl rfl) hcommand
  | comment => exact absurd (.inr rfl) hcommand
  | between => exact trails_atBetween (by simpa using hs) (by simpa [Surrounding.place] using ht)
  | continued =>
    unfold Reader.dispatch Surrounding.state Surrounding.place
    simp only
    split
    · exact .same (State.goTo ⟨line, body, .continued, outer⟩ .between)
    · exact .same (State.goTo ⟨line, body, .continued, outer⟩ (.word _))
  | word d =>
    refine trails_atWord d (fun hbare => ?_) (fun hbare => ?_)
    · simpa [hbare] using hs
    · simpa [Surrounding.place, Draft.later, hbare] using ht
  | escape d => exact .same (State.goTo ⟨line, body, .escape d, outer⟩ (.word _))
  | dollar d =>
    unfold Reader.dispatch Surrounding.state Surrounding.place
    simp only
    split
    · exact .same (State.goTo ⟨line, body, .dollar d, outer⟩ (.bracedName d []))
    split
    · exact .same (State.goTo ⟨line, body, .dollar d, outer⟩ (.name d [c]))
    · refine trails_atWord (s := ⟨line, body, .dollar d, outer⟩) (d.push '$') (fun hbare => ?_)
        (fun hbare => ?_)
      · have hbare : d.quoted = false := hbare
        simpa [hbare] using hs
      · have hbare : d.quoted = false := hbare
        simpa [Surrounding.place, Draft.later, hbare] using ht
  | name d name =>
    unfold Reader.dispatch Surrounding.state Surrounding.place
    simp only
    split
    · exact .same (State.goTo ⟨line, body, .name d name, outer⟩ (.name d (c :: name)))
    · rw [hname]
      refine trails_atWord (s := ⟨line, body, .name d name, outer⟩) (d.addPart _) (fun hbare => ?_)
        (fun hbare => ?_)
      · rw [d.quoted_addPart] at hbare
        simpa [hbare] using hs
      · rw [d.quoted_addPart] at hbare
        simpa [Surrounding.place, Draft.later, hbare] using ht
  | bracedName d name =>
    unfold Reader.dispatch Surrounding.state Surrounding.place
    simp only
    split
    · rw [hname]
      exact .same (State.goTo ⟨line, body, .bracedName d name, outer⟩ (.word (d.addPart _)))
    · exact .same (State.goTo ⟨line, body, .bracedName d name, outer⟩ (.bracedName d (c :: name)))
  | block depth text =>
    unfold Reader.dispatch Surrounding.state Surrounding.place
    simp only
    split
    · exact .same (State.goTo ⟨line, body, .block depth text, outer⟩ (.block _ _))
    · split
      · have hend := Trails.same (e := e) (State.endWord ⟨line, body, .block depth text, outer⟩
          (.block (String.ofList text.reverse)))
        rw [Surrounding.state_endWord, ScriptWord.later] at hend
        exact hend
      · exact .same (State.goTo ⟨line, body, .block depth text, outer⟩ (.block _ _))
    · exact .same (State.goTo ⟨line, body, .block depth text, outer⟩ (.blockEscape _ _))
    · exact .same (State.goTo ⟨line, body, .block depth text, outer⟩ (.block _ _))
  | blockEscape depth text =>
    exact .same (State.goTo ⟨line, body, .blockEscape depth text, outer⟩ (.block _ _))

/-- The commands that readers in step have read when the text ends are those of the one that began
there, further down. -/
lemma Trails.finalBody (h : Trails e s t) :
    ∃ n, finalBody t = { e.body s.outer (finalBody s) with number := n } := by
  cases h with
  | same =>
    obtain ⟨line, body, place, outer⟩ := s
    have hend (w : ScriptWord) : ((e.body outer body).addWord (w.later e.down)).endLine =
        e.body outer (body.addWord w).endLine := by
      rw [Surrounding.body_endLine, Surrounding.body_addWord]
    refine ⟨(e.body outer (Reader.finalBody ⟨line, body, place, outer⟩)).number, ?_⟩
    cases place with
    | word d =>
      have hword := hend d.word
      rw [← d.word_later] at hword
      exact hword
    | dollar d =>
      have hword := hend (d.push '$').word
      rw [← Draft.word_later] at hword
      exact hword
    | name d name =>
      have hword := hend (d.addPart (.variableRef (String.ofList name.reverse))).word
      rw [← Draft.word_later, d.later_addPart, ScriptPart.later] at hword
      exact hword
    | _ => exact (Surrounding.body_endLine outer body).symm
  | fresh n hplace hwords =>
    obtain ⟨line, body, place, outer⟩ := s
    have hend : body.endLine = body := if_pos (List.isEmpty_iff.mpr hwords)
    have hend' : Body.endLine { e.body outer body with number := n } =
        { e.body outer body with number := n } :=
      if_pos (by simpa [Surrounding.body] using hwords)
    refine ⟨n, ?_⟩
    have hplace : place = .command ∨ place = .comment := hplace
    rcases hplace with rfl | rfl
    · exact hend'.trans (congrArg (fun b => { e.body outer b with number := n }) hend.symm)
    · exact hend'.trans (congrArg (fun b => { e.body outer b with number := n }) hend.symm)

/-- A text line ends. -/
lemma Trails.newline (h : Trails e s t) :
    Trails e { s with line := s.line + 1 } { t with line := t.line + 1 } := by
  have hline : t.line + 1 = s.line + 1 + e.down := by
    rw [h.facts.1]
    omega
  rw [hline]
  cases h with
  | same => exact .same _
  | fresh n hplace hwords => exact Trails.fresh { s with line := s.line + 1 } n hplace hwords

/-- Readers in step stay so, unless a bracket is closed that was open before. -/
lemma Trails.step (h : Trails e s t) (hclose : t.closes c = s.closes c) :
    Trails e (step s c) (step t c) := by
  obtain ⟨hline, hplace, houter⟩ := h.facts
  cases hs : s.closes c with
  | true =>
    obtain ⟨around, draft, outer, hopen⟩ := State.exists_of_closes hs
    obtain ⟨n, hfinal⟩ := h.finalBody
    have hopen' : t.outer = (e.body outer around, draft.later e.down) :: e.outer outer := by
      rw [houter, hopen]
      rfl
    have hsource : t.body.source = s.body.source := by
      have hback : t.body.source = s.body.source ++ e.backAt s.outer := by cases h <;> rfl
      rw [hopen] at hback
      exact hback.trans (List.append_nil _)
    have hpart : (draft.later e.down).addPart (.substitution (Reader.finalBody t).script) =
        (draft.addPart (.substitution (Reader.finalBody s).script)).later e.down := by
      rw [draft.later_addPart, ScriptPart.later, hfinal, hopen, Surrounding.script_body_cons]
    rw [step_of_closes hs hopen, step_of_closes (hclose.trans hs) hopen', hpart, hline, hsource]
    have hsame := Trails.same (e := e) ⟨s.line, { around with
      source := c :: s.body.source ++ around.source }, .word (draft.addPart (.substitution
        (Reader.finalBody s).script)), outer⟩
    unfold Surrounding.state Surrounding.body at hsame
    simp only [List.append_assoc] at hsame
    unfold Surrounding.body
    exact hsame
  | false =>
    have hnote : Trails e { s with body := { s.body with source := c :: s.body.source } }
        { t with body := { t.body with source := c :: t.body.source } } := by
      cases h with
      | same => exact .same _
      | fresh n hfresh hwords =>
        exact Trails.fresh { s with body := { s.body with source := c :: s.body.source } } n hfresh
          hwords
    have hdispatch := hnote.dispatch (c := c) hs (hclose.trans hs)
    unfold Reader.step
    simp only
    split
    · exact hdispatch.newline
    · exact hdispatch

/-- Readers in step close the same brackets, those that were open before apart. -/
lemma Trails.closes_eq (h : Trails e s t) (hopen : s.outer ≠ [] ∨ e.base = []) :
    t.closes c = s.closes c := by
  obtain ⟨-, hplace, houter⟩ := h.facts
  have hnested : t.isNested = s.isNested := by
    unfold State.isNested
    rw [houter]
    cases hs : s.outer with
    | nil => rw [Surrounding.outer, hopen.resolve_left (absurd hs)]
    | cons x rest => rfl
  unfold State.closes
  rw [hnested, hplace]
  cases s.place <;> rfl

/-- A reader without a bracket around it closes none. -/
lemma State.closes_of_outer (h : s.outer = []) : s.closes c = false := by
  cases hclose : s.closes c with
  | false => rfl
  | true =>
    obtain ⟨around, draft, outer, houter⟩ := exists_of_closes hclose
    rw [h] at houter
    contradiction

/-- Readers in step stay so if no bracket was open before. -/
lemma Trails.run (h : Trails e s t) (hbase : e.base = []) (cs : List Char) :
    Trails e (Reader.run s cs) (Reader.run t cs) := by
  induction cs using List.reverseRecOn with
  | nil => exact h
  | append_singleton cs c ih =>
    rw [run_concat, run_concat]
    exact ih.step (ih.closes_eq (.inr hbase))

/-- While one reader closes no bracket neither does one that is trailed by it. -/
lemma Trails.not_closes (h : Trails e s t) (hclose : t.closes c = false) : s.closes c = false := by
  by_cases hs : s.outer = []
  · exact State.closes_of_outer hs
  · exact (h.closes_eq (.inl hs)).symm.trans hclose

/-- A text that lacks nothing at its end has no open bracket. -/
lemma outer_of_flaw? (h : flaw? s = none) : s.outer = [] := by
  unfold flaw? flaw?.inWordFlaw flaw?.bodyFlaw at h
  generalize s.place = place at h
  cases hnested : s.isNested with
  | false => simpa [State.isNested] using hnested
  | true =>
    rw [hnested] at h
    cases place <;> simp at h <;> split at h <;> contradiction

/-- The script that has been read at the end has the commands of the text before in front. -/
lemma Trails.script (h : Trails e s t) (houter : s.outer = []) :
    (Reader.finalBody t).script =
      ⟨e.front.reverse ++ (Reader.finalBody s).script.lines.map (ScriptLine.later e.down),
        String.ofList (e.back.reverse ++ (Reader.finalBody s).source.reverse)⟩ := by
  obtain ⟨n, hfinal⟩ := h.finalBody
  rw [hfinal, houter]
  unfold Body.script Surrounding.body Surrounding.frontAt Surrounding.backAt
  simp [lines]

/-- What is lacking where a text ends depends on the place and the brackets around it. -/
lemma Trails.flaw?_eq (h : Trails e s t) (hbase : e.base = []) : flaw? t = flaw? s := by
  obtain ⟨-, hplace, houter⟩ := h.facts
  have hnested : t.isNested = s.isNested := by
    unfold State.isNested
    rw [houter]
    cases hs : s.outer with
    | nil => rw [Surrounding.outer, hbase]
    | cons x rest => rfl
  unfold flaw? flaw?.inWordFlaw flaw?.bodyFlaw
  rw [hnested, hplace]
  cases s.place <;> rfl

/-- The end of a text, as readers in step see it. -/
lemma Trails.finish (h : Trails e s t) (hbase : e.base = []) :
    Reader.finish t = match Reader.finish s with
      | .ok S => .ok ⟨e.front.reverse ++ S.lines.map (ScriptLine.later e.down),
          String.ofList (e.back.reverse ++ (Reader.finalBody s).source.reverse)⟩
      | .error f => .error ⟨f.flaw, f.line + e.down⟩ := by
  unfold Reader.finish
  rw [h.flaw?_eq hbase, h.facts.1]
  cases hflaw : flaw? s with
  | some flaw => rfl
  | none => exact congrArg Except.ok (h.script (outer_of_flaw? hflaw))

end Steps

/-! ## Brackets that are read on their own -/

/-- Whether each open bracket is read as its text would be on its own. -/
def State.Excerpted (t : State) : Prop :=
  ∀ inner base, t.outer = inner ++ base → base ≠ [] →
    ∃ cs k, Trails { down := k, base := base } (run .start cs) t

section Brackets

variable {t : State} {c : Char}

/-- An open bracket goes on as its text on its own. -/
lemma State.Excerpted.step (h : t.Excerpted) (hfresh : t.Fresh) (hline : 1 ≤ t.line) :
    (step t c).Excerpted := by
  cases hclose : t.closes c with
  | true =>
    obtain ⟨around, draft, outer, hopen⟩ := State.exists_of_closes hclose
    intro inner base hsplit hne
    rw [step_of_closes hclose hopen] at hsplit
    have hsplit : outer = inner ++ base := hsplit
    obtain ⟨cs, k, htrails⟩ := h ((around, draft) :: inner) base (by rw [hopen, hsplit]; rfl) hne
    have hs : (run .start cs).outer ≠ [] := by
      intro hnil
      have hlength := Surrounding.length_outer { down := k, base := base } (run .start cs).outer
      rw [← htrails.facts.2.2, hopen, hsplit, hnil] at hlength
      simp at hlength
      omega
    refine ⟨cs ++ [c], k, ?_⟩
    rw [run_concat]
    exact htrails.step (htrails.closes_eq (.inl hs))
  | false =>
    have hkeep (inner base : List (Body × Draft)) (hsplit : t.outer = inner ++ base)
        (hne : base ≠ []) :
        ∃ cs k, Trails { down := k, base := base } (run .start cs) (Reader.step t c) := by
      obtain ⟨cs, k, htrails⟩ := h inner base hsplit hne
      refine ⟨cs ++ [c], k, ?_⟩
      rw [run_concat]
      exact htrails.step (hclose.trans (htrails.not_closes hclose).symm)
    have hstays := stays_step hfresh hclose
    generalize Reader.step t c = u at hstays hkeep
    intro inner base hsplit hne
    cases hstays with
    | within b p hsource _ => exact hkeep inner base hsplit hne
    | opens b d hsource =>
      cases inner with
      | nil =>
        -- the bracket that has just been opened
        obtain ⟨k, hk⟩ : ∃ k, lineAfter t.line c = 1 + k := by
          refine Nat.exists_eq_add_of_le ?_
          unfold lineAfter
          split <;> omega
        have hbase : (b, d) :: t.outer = base := hsplit
        rw [hbase, hk]
        exact ⟨[], k, .fresh State.start 1 (.inl rfl) rfl⟩
      | cons x inner =>
        injection hsplit with _ hsplit
        exact hkeep inner base hsplit hne

/-- Every open bracket of a text is read as its text would be on its own. -/
lemma excerpted_run (cs : List Char) : (run .start cs).Excerpted := by
  induction cs using List.reverseRecOn with
  | nil =>
    intro inner base hsplit hne
    exact absurd (List.append_eq_nil_iff.mp hsplit.symm).2 hne
  | append_singleton cs c ih =>
    obtain ⟨hfresh, -, hline⟩ := run_facts cs
    rw [run_concat]
    exact ih.step hfresh (by omega)

/-- The source of what has been read when the text ends. -/
lemma source_finalBody (s : State) : (finalBody s).source = s.body.source := by
  unfold finalBody
  split <;> exact Body.source_endLine _

/-- Outside of all brackets the source of what has been read is the text. -/
lemma source_of_run {cs : List Char} (h : (run .start cs).outer = []) :
    (finalBody (run .start cs)).source.reverse = cs := by
  have hnoted := (run_facts cs).2.1
  rw [State.noted, h, List.flatMap_nil, List.append_nil] at hnoted
  rw [source_finalBody, hnoted, List.reverse_reverse]

/-- A place where a closing bracket ends the script in the brackets is one where the end of the text
would do so. -/
lemma Trails.flaw?_of_closes {e : Surrounding} {s : State} (h : Trails e s t)
    (hclose : t.closes c = true) (houter : s.outer = []) : flaw? s = none := by
  have hplace := h.facts.2.1
  have hnested : s.isNested = false := by
    unfold State.isNested
    rw [houter]
    rfl
  unfold State.closes at hclose
  unfold flaw? flaw?.inWordFlaw flaw?.bodyFlaw
  rw [hnested]
  rw [hplace] at hclose
  obtain ⟨line, body, place, outer⟩ := s
  cases place <;> simp_all [Surrounding.place, Draft.later]

end Brackets

end Script.Reader

/-- Whether a script is what its source is read as on its own, some lines further down. -/
def Script.Faithful (t : Script) : Prop := ∃ d s, ofText? t.source = .ok s ∧ t = s.later d

namespace Script.Reader

/-- A script in brackets is what its source is read as on its own. -/
lemma State.Excerpted.faithful {t : State} {c : Char} (h : t.Excerpted)
    (hclose : t.closes c = true) : (finalBody t).script.Faithful := by
  obtain ⟨around, draft, outer, hopen⟩ := State.exists_of_closes hclose
  obtain ⟨cs, k, htrails⟩ := h [] t.outer rfl (by rw [hopen]; exact List.cons_ne_nil _ _)
  have houter : (run .start cs).outer = [] := by
    have hlength := Surrounding.length_outer { down := k, base := t.outer } (run .start cs).outer
    rw [← htrails.facts.2.2] at hlength
    exact List.length_eq_zero_iff.mp (by simpa using hlength)
  have hsource := source_of_run houter
  have hscript : (finalBody t).script = (finalBody (run .start cs)).script.later k := by
    refine eq_of_lines_of_source ?_ ?_
    · rw [htrails.script houter, lines_later]
      rfl
    · rw [htrails.script houter, source_later]
      rfl
  refine ⟨k, (finalBody (run .start cs)).script, ?_, hscript⟩
  rw [hscript, source_later]
  unfold ofText? finish
  have htext : (finalBody (run .start cs)).script.source.toList = cs := by
    rw [show (finalBody (run .start cs)).script.source = String.ofList cs from
      congrArg String.ofList hsource, String.toList_ofList]
  rw [htext, htrails.flaw?_of_closes hclose houter]

/-- A text that ends where the reader lacks nothing is a script of the commands read. -/
lemma finish_eq_ok {s : State} {S : Script} (h : finish s = .ok S) :
    flaw? s = none ∧ (finalBody s).script = S := by
  unfold finish at h
  split at h
  · contradiction
  · rename_i hflaw
    injection h with h
    exact ⟨hflaw, h⟩

/-- Where nothing is lacking a new text line begins as the end of the text would leave it. -/
lemma step_newline {s : State} (hflaw : flaw? s = none) (hfresh : s.Fresh) :
    step s '\n' = ⟨s.line + 1, { finalBody s with source := '\n' :: s.body.source }, .command,
      s.outer⟩ := by
  obtain ⟨line, body, place, outer⟩ := s
  have hend (b : Body) : Body.endLine { b with source := '\n' :: b.source } =
      { b.endLine with source := '\n' :: b.source } := b.endLine_withSource _
  have hwords (h : body.words = []) : body.endLine = body := if_pos (List.isEmpty_iff.mpr h)
  have hword (d : Draft) (hbare : d.quoted = false) :
      atWord ⟨line, { body with source := '\n' :: body.source }, place, outer⟩ d '\n' =
        ⟨line, { (body.addWord d.word).endLine with source := '\n' :: body.source }, .command,
          outer⟩ := by
    unfold atWord
    rw [hbare]
    exact congrArg (fun b => (⟨line, b, .command, outer⟩ : State)) (hend (body.addWord d.word))
  have hquoted {d : Draft} (h : flaw?.inWordFlaw ⟨line, body, place, outer⟩ d = none) :
      d.quoted = false := by
    unfold flaw?.inWordFlaw at h
    cases hd : d.quoted with
    | false => rfl
    | true => simp [hd] at h
  have hdispatch : dispatch ⟨line, { body with source := '\n' :: body.source }, place, outer⟩ '\n' =
      ⟨line, { finalBody ⟨line, body, place, outer⟩ with source := '\n' :: body.source }, .command,
        outer⟩ := by
    cases place with
    | command =>
      show (⟨line, { body with source := '\n' :: body.source }, .command, outer⟩ : State) =
        ⟨line, { body.endLine with source := '\n' :: body.source }, .command, outer⟩
      rw [hwords (hfresh (.inl rfl))]
    | comment =>
      show (⟨line, { body with source := '\n' :: body.source }, .command, outer⟩ : State) =
        ⟨line, { body.endLine with source := '\n' :: body.source }, .command, outer⟩
      rw [hwords (hfresh (.inr rfl))]
    | between => exact congrArg (fun b => (⟨line, b, .command, outer⟩ : State)) (hend body)
    | word d => exact hword d (hquoted hflaw)
    | dollar d => exact hword (d.push '$') (hquoted hflaw)
    | name d name => exact hword (d.addPart _) ((d.quoted_addPart _).trans (hquoted hflaw))
    | _ => contradiction
  unfold step
  simp only [hdispatch, if_true]

end Script.Reader

/-- A script keeps the text that it was read from. -/
lemma Script.source_of_ofText? {text : String} {s : Script} (h : ofText? text = .ok s) :
    s.source = text := by
  obtain ⟨hflaw, rfl⟩ := Reader.finish_eq_ok h
  have hsource := Reader.source_of_run (Reader.outer_of_flaw? hflaw)
  exact (congrArg String.ofList hsource).trans String.ofList_toList

/-- **The source of a script in brackets is its meaning.**  Whatever script is read from a text, the
source that is kept with a script in brackets, at any depth, is read as that script; its lines and
those of all brackets in it only stand a number of lines further down. -/
theorem Script.ofText?_source_inside {text : String} {s t : Script} (h : ofText? text = .ok s)
    (ht : t.Inside s) : ∃ d u, ofText? t.source = .ok u ∧ t = u.later d := by
  obtain ⟨-, rfl⟩ := Reader.finish_eq_ok h
  have hfits : (Reader.run .start text.toList).Fits Faithful :=
    (Reader.State.Fits.start Faithful).run text.toList fun front c _ hclose _ =>
      (Reader.excerpted_run front).faithful hclose
  exact hfits.finalBody.of_inside ht

/-- A command on the second line of the brackets around it is read on its own a line further up. -/
theorem Script.ofText?_source_inside_nested :
    ofText? "set x [list\n[incr n]]" = .ok ⟨[⟨1, [.literal "set", .literal "x", .substitution
      ⟨[⟨1, [.literal "list"]⟩,
        ⟨2, [.substitution ⟨[⟨2, [.literal "incr", .literal "n"]⟩], "incr n"⟩]⟩],
        "list\n[incr n]"⟩]⟩], "set x [list\n[incr n]]"⟩ ∧
      ∃ d u, ofText? "incr n" = .ok u ∧
        (⟨[⟨2, [.literal "incr", .literal "n"]⟩], "incr n"⟩ : Script) = u.later d := by
  have h : ofText? "set x [list\n[incr n]]" = .ok ⟨[⟨1, [.literal "set", .literal "x",
      .substitution ⟨[⟨1, [.literal "list"]⟩,
        ⟨2, [.substitution ⟨[⟨2, [.literal "incr", .literal "n"]⟩], "incr n"⟩]⟩],
        "list\n[incr n]"⟩]⟩], "set x [list\n[incr n]]"⟩ := rfl
  refine ⟨h, ofText?_source_inside (t := ⟨[⟨2, [.literal "incr", .literal "n"]⟩], "incr n"⟩) h ?_⟩
  exact .deeper (.head _) (.tail _ (.tail _ (.head _))) .word
    (.direct (.tail _ (.head _)) (.head _) .word)

/-- **Texts are joined at the end of a line.**  If a text is a script, another text behind it on a
line of its own is read as it is alone: the script of both has the lines of the first and behind
them those of the second, also in brackets, as many lines further down as the first has, and if the
second is no script then both are none for the same reason, as many lines further down. -/
theorem Script.ofText?_append_line {a : String} {A : Script} (b : String)
    (ha : ofText? a = .ok A) :
    ofText? (a ++ "\n" ++ b) = match ofText? b with
      | .ok B => .ok ⟨A.lines ++ B.lines.map (ScriptLine.later (1 + a.toList.count '\n')),
          a ++ "\n" ++ b⟩
      | .error e => .error ⟨e.flaw, e.line + (1 + a.toList.count '\n')⟩ := by
  obtain ⟨hflaw, rfl⟩ := Reader.finish_eq_ok ha
  obtain ⟨hfresh, -, hline⟩ := Reader.run_facts a.toList
  have houter := Reader.outer_of_flaw? hflaw
  have hsource := Reader.source_of_run houter
  generalize hs : Reader.run .start a.toList = s at *
  -- where the second text begins
  have htrails : Reader.Trails ⟨1 + a.toList.count '\n', (Reader.finalBody s).lines,
      '\n' :: s.body.source, []⟩ .start (Reader.step s '\n') := by
    have hwords : (Reader.finalBody s).words = [] := by
      unfold Reader.finalBody
      split <;> exact Reader.Body.words_endLine _
    have hbegin := Reader.Trails.fresh (e := ⟨1 + a.toList.count '\n', (Reader.finalBody s).lines,
      '\n' :: s.body.source, []⟩) .start (Reader.finalBody s).number (.inl rfl) rfl
    have hnext : 1 + a.toList.count '\n' + 1 = 1 + (1 + a.toList.count '\n') := by omega
    have hbody : ({ Reader.finalBody s with source := '\n' :: s.body.source } : Reader.Body) =
        ⟨(Reader.finalBody s).lines, (Reader.finalBody s).number, [], '\n' :: s.body.source⟩ := by
      rw [← hwords]
    rw [Reader.step_newline hflaw hfresh, houter, hline, hnext, hbody]
    exact hbegin
  have hfinish := (htrails.run rfl b.toList).finish rfl
  have hread : (a ++ "\n" ++ b).toList = a.toList ++ '\n' :: b.toList := by simp
  have hjoined : ofText? (a ++ "\n" ++ b) =
      Reader.finish (Reader.run (Reader.step s '\n') b.toList) := by
    unfold ofText?
    rw [hread, Reader.run, List.foldl_append, ← hs]
    rfl
  rw [hjoined, hfinish]
  unfold ofText?
  cases hb : Reader.finish (Reader.run .start b.toList) with
  | error f => rfl
  | ok B =>
    have hback := Reader.source_of_run (Reader.outer_of_flaw? (Reader.finish_eq_ok hb).1)
    rw [Reader.source_finalBody] at hsource
    have htext : String.ofList (('\n' :: s.body.source).reverse ++ b.toList) = a ++ "\n" ++ b := by
      rw [List.reverse_cons, hsource, ← String.ofList_toList (s := a ++ "\n" ++ b), hread,
        List.append_assoc]
      rfl
    simp only [hback, htext]
    rfl

/-- Behind a text of two lines a command stands on the third, also what is in its brackets. -/
theorem Script.ofText?_append_line_nested :
    ofText? "set a\n$b" =
        .ok ⟨[⟨1, [.literal "set", .literal "a"]⟩, ⟨2, [.variableRef "b"]⟩], "set a\n$b"⟩ ∧
      ofText? "set a\n$b\nlist [incr n]" = .ok ⟨[⟨1, [.literal "set", .literal "a"]⟩,
        ⟨2, [.variableRef "b"]⟩, ⟨3, [.literal "list",
          .substitution ⟨[⟨3, [.literal "incr", .literal "n"]⟩], "incr n"⟩]⟩],
        "set a\n$b\nlist [incr n]"⟩ := by
  have ha : ofText? "set a\n$b" =
      .ok ⟨[⟨1, [.literal "set", .literal "a"]⟩, ⟨2, [.variableRef "b"]⟩], "set a\n$b"⟩ := rfl
  have hb : ofText? "list [incr n]" = .ok ⟨[⟨1, [.literal "list",
      .substitution ⟨[⟨1, [.literal "incr", .literal "n"]⟩], "incr n"⟩]⟩], "list [incr n]"⟩ := rfl
  have hcount : 1 + "set a\n$b".toList.count '\n' = 2 := by decide
  have h := ofText?_append_line "list [incr n]" ha
  rw [hb, hcount] at h
  refine ⟨ha, ?_⟩
  simpa [ScriptLine.later, ScriptWord.later, later, lines] using h

end Switchboard
