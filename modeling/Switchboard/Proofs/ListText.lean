import Mathlib
import Switchboard.Evaluation
import Switchboard.Proofs.Tallies

/-!
# The text of a list as a script

A list is written as its items with spaces between them, an item in braces if it is empty or holds a
blank.  The main theorem `ListItem.list_text` says for which lists of texts this is one line of a
script with a word for each item, that stands there as it is: those of which each item is legible.
In braces the braces of an item have to be paired.  Without braces an item must not have anything in
it that means something in a word, and the first one must not begin a comment.  Such a list runs as
a command when it is evaluated, with its items as they are written.

An item that is not legible is never made up for by the others.  Either a block has another end than
its item, and it stays a word of the line all the same, or a mark means something and is lost to the
texts of the words (`Script.Reader.tally_answer`), although the text has no more of them than the
items have.
-/

namespace Switchboard

/-! ## Legible items -/

namespace ListItem

/-- Whether a text stands in braces as an item of a list. -/
def needsBraces (text : String) : Bool := text.isEmpty || text.toList.any Text.isBlank

/-- What a character does to the braces that are open and to whether the next character stands
behind a backslash; nothing is left once a brace is closed that was not opened. -/
def braceStep : Option (ℕ × Bool) → Char → Option (ℕ × Bool)
  | none, _ => none
  | some (depth, true), _ => some (depth, false)
  | some (depth, false), c =>
    if c = '\\' then some (depth, true)
    else if c = '\x7b' then some (depth + 1, false)
    else if c = '\x7d' then if depth = 0 then none else some (depth - 1, false)
    else some (depth, false)

/-- Whether the braces of a text are paired, those behind backslashes aside, and no backslash stands
last. -/
def PairsBraces (t : List Char) : Prop := t.foldl braceStep (some (0, false)) = some (0, false)

/-- Whether nothing in a text means something in a bare word. -/
def Plain (t : List Char) : Prop :=
  (∀ c ∈ t, c ≠ ';' ∧ c ≠ '[' ∧ c ≠ '\\') ∧
    t.IsChain fun c d => c = '$' → d ≠ '\x7b' ∧ Script.Reader.isNameChar d = false

/-- Whether an item of a list is written so that it is read as one word with its text. -/
def Legible (first : Bool) (text : String) : Prop :=
  if needsBraces text then PairsBraces text.toList
  else Plain text.toList ∧ text.toList.head? ≠ some '\x7b' ∧ text.toList.head? ≠ some '"' ∧
    (first = true → text.toList.head? ≠ some '#')

/-- Whether all items of a list are legible; `first` says whether a command may begin with the first
one of them. -/
def AllLegible (first : Bool) : List String → Prop
  | [] => True
  | text :: texts => Legible first text ∧ AllLegible false texts

/-- Whether a text has been read as one line, with a word for each of these texts that stands there
as it is. -/
def Spells (answer : Except ScriptError Script) (texts : List (Option String)) : Prop :=
  ∃ script line, answer = .ok script ∧ script.lines = [line] ∧
    line.words.map ScriptWord.spelling? = texts

instance (t : List Char) : Decidable (PairsBraces t) :=
  inferInstanceAs (Decidable (t.foldl braceStep (some (0, false)) = some (0, false)))

-- the characters of the text are gone through, not all that there are
instance (t : List Char) : Decidable (Plain t) :=
  @instDecidableAnd _ _ (List.decidableBAll _ t) inferInstance

instance (first : Bool) (text : String) : Decidable (Legible first text) :=
  inferInstanceAs (Decidable (if needsBraces text then PairsBraces text.toList
    else Plain text.toList ∧ text.toList.head? ≠ some '\x7b' ∧ text.toList.head? ≠ some '"' ∧
      (first = true → text.toList.head? ≠ some '#')))

instance AllLegible.decidable : (first : Bool) → (texts : List String) →
    Decidable (AllLegible first texts)
  | _, [] => inferInstanceAs (Decidable True)
  | first, text :: texts =>
    @instDecidableAnd _ _ (inferInstanceAs (Decidable (Legible first text)))
      (AllLegible.decidable false texts)

/-- The word as which a legible item is read. -/
def word (text : String) : ScriptWord :=
  if needsBraces text then .block text else .literal text

/-- The text of that word. -/
lemma spelling?_word (text : String) : (word text).spelling? = some text := by
  unfold word
  split <;> rfl

end ListItem

namespace Script.Reader

open ListItem

/-! ## Standing on the first line -/

/-- Whether a reader is on the first line outside of all brackets, behind some words of it. -/
structure Stands (s : State) (ws : List ScriptWord) (p : Place) : Prop where
  outer : s.outer = []
  lines : s.body.lines = []
  words : s.body.words.reverse = ws
  place : s.place = p

section Stands

variable {s t : State} {ws : List ScriptWord} {p q : Place} {c : Char} {d : Draft}

/-- All there is to such a reader. -/
lemma Stands.eq (h : Stands s ws p) : ∃ line number source,
    s = ⟨line, ⟨[], number, ws.reverse, source⟩, p, []⟩ := by
  obtain ⟨line, ⟨lines, number, words, source⟩, place, outer⟩ := s
  obtain ⟨rfl, rfl, rfl, rfl⟩ := h
  refine ⟨line, number, source, ?_⟩
  simp only [List.reverse_reverse]

/-- A reader that has only noted text. -/
lemma Stands.moved (h : Stands s ws p) (hmoved : Moved s t q) : Stands t ws q where
  outer := hmoved.outer.trans h.outer
  lines := hmoved.lines.trans h.lines
  words := by rw [hmoved.words, h.words]
  place := hmoved.place

/-- The same at another place. -/
lemma Stands.goTo (h : Stands s ws p) (q : Place) : Stands (s.goTo q) ws q :=
  ⟨h.outer, h.lines, h.words, rfl⟩

/-- One more word has ended. -/
lemma Stands.endWord (h : Stands s ws p) (w : ScriptWord) :
    Stands (s.endWord w) (ws ++ [w]) .between where
  outer := h.outer
  lines := h.lines
  words := by simp [State.endWord, Body.addWord, h.words]
  place := rfl

/-- No bracket is open. -/
lemma Stands.isNested (h : Stands s ws p) : s.isNested = false := by
  rw [State.isNested, h.outer]
  rfl

/-- No word has been read where a command may begin. -/
lemma Stands.fresh (h : Stands s ws p) (hp : p = .command ∨ p = .comment → ws = []) : s.Fresh := by
  intro hplace
  rw [h.place] at hplace
  have hwords := h.words
  rwa [hp hplace, List.reverse_eq_nil_iff] at hwords

/-- The words that have been read are those of the first line. -/
lemma Stands.firstRow (h : Stands s ws p) : firstRow s.rows = ws := by
  obtain ⟨line, number, source, rfl⟩ := h.eq
  cases ws with
  | nil => rfl
  | cons w ws => simp [State.rows, Body.rows, Reader.firstRow]

/-- What has been kept are the words and the one that is being read. -/
lemma Stands.kept (h : Stands s ws p) (c : Char) :
    s.kept c = (ws.map (ScriptWord.tally c)).sum + p.tally c := by
  obtain ⟨line, number, source, rfl⟩ := h.eq
  cases ws with
  | nil => rfl
  | cons w ws => simp [State.kept, State.rows, State.pending, Body.rows, rowsTally]

/-- A text in two pieces. -/
lemma answer_append (s : State) (cs rest : List Char) :
    answer s (cs ++ rest) = answer (run s cs) rest :=
  congrArg finish (List.foldl_append ..)

/-! ## Blocks -/

/-- The place in a block behind its text so far. -/
def blockPlace (text : List Char) : ℕ × Bool → Place
  | (depth, false) => .block (depth + 1) text
  | (depth, true) => .blockEscape (depth + 1) text

/-- A block goes on as its braces do. -/
lemma Stands.block_step {text : List Char} {x y : ℕ × Bool} (h : Stands s ws (blockPlace text x))
    (hxy : braceStep (some x) c = some y) : Stands (step s c) ws (blockPlace (c :: text) y) := by
  obtain ⟨depth, escaped⟩ := x
  refine h.moved (.step h.place ?_)
  cases escaped with
  | true =>
    obtain rfl : (depth, false) = y := Option.some.inj hxy
    rfl
  | false =>
    simp only [braceStep] at hxy
    change dispatch ((note s c).goTo (.block (depth + 1) text)) c = _
    unfold dispatch
    simp only [State.goTo]
    split
    · rw [if_neg (by decide), if_pos rfl] at hxy
      obtain rfl := Option.some.inj hxy
      rfl
    · rw [if_neg (by decide), if_neg (by decide), if_pos rfl] at hxy
      split at hxy
      · contradiction
      · rename_i hdepth
        obtain rfl := Option.some.inj hxy
        rw [if_neg (by omega)]
        have hless : depth + 1 - 1 = depth - 1 + 1 := by omega
        rw [hless]
        rfl
    · rw [if_pos rfl] at hxy
      obtain rfl := Option.some.inj hxy
      rfl
    · rename_i hopen hclose hback
      rw [if_neg hback, if_neg hopen, if_neg hclose] at hxy
      obtain rfl := Option.some.inj hxy
      rfl

/-- A block goes on as the braces of a text do. -/
lemma Stands.block_run {text : List Char} {x y : ℕ × Bool} (h : Stands s ws (blockPlace text x))
    (cs : List Char) (hxy : cs.foldl braceStep (some x) = some y) :
    Stands (run s cs) ws (blockPlace (cs.reverse ++ text) y) := by
  induction cs using List.reverseRecOn generalizing y with
  | nil =>
    obtain rfl := Option.some.inj hxy
    exact h
  | append_singleton cs c ih =>
    rw [List.foldl_concat] at hxy
    cases hz : cs.foldl braceStep (some x) with
    | none =>
      rw [hz] at hxy
      contradiction
    | some z =>
      rw [hz] at hxy
      rw [run_concat, List.reverse_concat]
      exact (ih hz).block_step hxy

/-- A closing brace ends a block. -/
lemma Stands.block_end {text : List Char} (h : Stands s ws (.block 1 text)) :
    Stands (step s '\x7d') (ws ++ [.block (String.ofList text.reverse)]) .between :=
  (h.endWord _).moved (.endWord_step h.place rfl)

/-- Where the braces of a text come to nothing, one is closed that was not opened. -/
lemma exists_of_foldl_braceStep {cs : List Char} {x : ℕ × Bool}
    (h : cs.foldl braceStep (some x) = none) :
    ∃ p q, cs = p ++ '\x7d' :: q ∧ p.foldl braceStep (some x) = some (0, false) := by
  induction cs generalizing x with
  | nil => contradiction
  | cons c cs ih =>
    rw [List.foldl_cons] at h
    cases hy : braceStep (some x) c with
    | some y =>
      rw [hy] at h
      obtain ⟨p, q, rfl, hp⟩ := ih h
      exact ⟨c :: p, q, rfl, by rw [List.foldl_cons, hy, hp]⟩
    | none =>
      obtain ⟨depth, escaped⟩ := x
      cases escaped with
      | true => contradiction
      | false =>
        simp only [braceStep] at hy
        split at hy
        · contradiction
        split at hy
        · contradiction
        split at hy
        · rename_i hclose
          subst hclose
          split at hy
          · rename_i hdepth
            subst hdepth
            exact ⟨[], cs, rfl, rfl⟩
          · contradiction
        · contradiction

/-- A block that is begun ends with a text of which the braces are paired, and stays a word of the
line. -/
lemma Stands.block_answer {S : Script} {cs : List Char} (h : Stands s ws (.block 1 []))
    (hanswer : answer s cs = .ok S) : ∃ p, PairsBraces p ∧ p ++ ['\x7d'] <+: cs ∧
      ws ++ [.block (String.ofList p)] <+: Reader.firstRow (S.lines.map ScriptLine.words) := by
  have hstart : Stands s ws (blockPlace [] (0, false)) := h
  cases hbraces : cs.foldl braceStep (some (0, false)) with
  | some y =>
    have hplace := (hstart.block_run cs hbraces).place
    obtain ⟨hflaw, -⟩ := finish_eq_ok hanswer
    obtain ⟨depth, _ | _⟩ := y <;> simp [flaw?, hplace, blockPlace] at hflaw
  | none =>
    obtain ⟨p, q, rfl, hp⟩ := exists_of_foldl_braceStep hbraces
    have hblock := hstart.block_run p hp
    rw [List.append_nil] at hblock
    have hword := Stands.block_end hblock
    rw [List.reverse_reverse] at hword
    refine ⟨p, hp, ⟨q, by simp⟩, ?_⟩
    have hrest : answer (step (run s p) '\x7d') q = .ok S := by
      rw [← hanswer, answer_append]
      rfl
    rw [← hword.firstRow]
    exact firstRow_prefix (hword.fresh nofun) hrest

/-! ## Bare words -/

/-- A character that is no blank and no semicolon does not stand between commands. -/
lemma not_isGap (hblank : Text.isBlank c = false) (hsemicolon : c ≠ ';') : isGap c = false := by
  rw [← Bool.not_eq_true]
  intro hgap
  have hcases : c = ' ' ∨ c = '\t' ∨ c = '\r' ∨ c = '\n' ∨ c = '\x0c' ∨ c = ';' := by
    simpa [isGap, Reader.isBlank, or_assoc] using hgap
  rcases hcases with rfl | rfl | rfl | rfl | rfl | rfl
  · exact absurd hblank (by decide)
  · exact absurd hblank (by decide)
  · exact absurd hblank (by decide)
  · exact absurd hblank (by decide)
  · exact absurd hblank (by decide)
  · exact hsemicolon rfl

/-- Outside of all brackets such a character does not end a word. -/
lemma Stands.not_endsBare (h : Stands s ws p) (hgap : isGap c = false) : endsBare s c = false := by
  simp only [isGap, Bool.or_eq_false_iff] at hgap
  simp [endsBare, h.isNested, hgap]

/-- A character without a meaning goes on a bare word. -/
lemma Stands.word_step {m : List Char} (h : Stands s ws (.word ⟨false, [], m⟩))
    (hblank : Text.isBlank c = false) (hmark : c ≠ ';' ∧ c ≠ '[' ∧ c ≠ '\\') (hdollar : c ≠ '$') :
    Stands (step s c) ws (.word ⟨false, [], c :: m⟩) := by
  refine h.moved (.step h.place ?_)
  have hends : endsBare (State.goTo (note s c) (.word ⟨false, [], m⟩)) c = false :=
    h.not_endsBare (not_isGap hblank hmark.1)
  change atWord _ ⟨false, [], m⟩ c = _
  rw [atWord_of_not (by simp) (by simp [hends])]
  unfold inWord
  split
  · exact absurd rfl hdollar
  · exact absurd rfl hmark.2.1
  · exact absurd rfl hmark.2.2
  · rfl

/-- What it takes for one more character to have no meaning. -/
lemma plain_cons {t : List Char} : Plain (c :: t) ↔ (c ≠ ';' ∧ c ≠ '[' ∧ c ≠ '\\') ∧
    (c = '$' → ∀ d ∈ t.head?, d ≠ '\x7b' ∧ isNameChar d = false) ∧ Plain t := by
  unfold Plain
  rw [List.forall_mem_cons, List.isChain_cons]
  constructor
  · rintro ⟨⟨hc, hmarks⟩, hdollar, hchain⟩
    exact ⟨hc, fun heq d hd => hdollar d hd heq, hmarks, hchain⟩
  · rintro ⟨hc, hdollar, hmarks, hchain⟩
    exact ⟨⟨hc, hmarks⟩, fun d hd heq => hdollar heq d hd, hchain⟩

/-- A bare word takes in text that has no meaning, also if a dollar sign stands last. -/
lemma Stands.word_answer {m t rest : List Char} (h : Stands s ws (.word ⟨false, [], m⟩))
    (hblank : ∀ c ∈ t, Text.isBlank c = false) (ht : Plain t)
    (hrest : ∀ c ∈ rest.head?, c = ' ') :
    ∃ s', Stands s' ws (.word ⟨false, [], t.reverse ++ m⟩) ∧
      answer s (t ++ rest) = answer s' rest := by
  induction t generalizing s m with
  | nil => exact ⟨s, h, rfl⟩
  | cons c t ih =>
    obtain ⟨hc, hblanks⟩ := List.forall_mem_cons.mp hblank
    obtain ⟨hmark, hdollar, hplain⟩ := plain_cons.mp ht
    rw [List.reverse_cons, List.append_assoc]
    by_cases heq : c = '$'
    · subst heq
      have hplace := h.moved (moved_dollar h.place)
      have hnext : ∀ c ∈ (t ++ rest).head?, c ≠ '\x7b' ∧ isNameChar c = false := by
        intro c hc
        cases t with
        | nil =>
          obtain rfl := hrest c hc
          exact ⟨by decide, by decide⟩
        | cons d t => exact hdollar rfl c hc
      obtain ⟨s', hs', hanswer⟩ := ih (hplace.goTo (.word ⟨false, [], '$' :: m⟩)) hblanks hplain
      refine ⟨s', hs', ?_⟩
      rw [← hanswer]
      exact answer_dollar hplace.place hnext
    · exact ih (h.word_step hc hmark heq) hblanks hplain

/-! ## Lost marks -/

/-- Whether a text has a mark that is lost when it is read. -/
def Loses (s : State) (cs : List Char) : Prop :=
  ∃ c ∈ marks, (run s cs).kept c < s.kept c + cs.count c

/-- Counting the first character apart. -/
lemma count_cons_eq (c x : Char) (cs : List Char) : (x :: cs).count c = cs.count c + hit c x := by
  simp [List.count_cons, hit]

/-- A mark that is lost by one character is lost by the whole text. -/
lemma Loses.now {x : Char} (hc : c ∈ marks) (hfresh : s.Fresh) (cs : List Char)
    (h : (step s x).kept c < s.kept c + hit c x) : Loses s (x :: cs) := by
  have hrest := kept_run hc (step_facts (c := x) hfresh).1 cs
  refine ⟨c, hc, ?_⟩
  change (run (step s x) cs).kept c < _
  rw [count_cons_eq]
  omega

/-- A mark that is lost behind the first character is lost by the whole text. -/
lemma Loses.cons {x : Char} {cs : List Char} (hfresh : s.Fresh) (h : Loses (step s x) cs) :
    Loses s (x :: cs) := by
  obtain ⟨c, hc, hlost⟩ := h
  have hstep := kept_step hc hfresh x
  refine ⟨c, hc, ?_⟩
  change (run (step s x) cs).kept c < _
  rw [count_cons_eq]
  omega

/-- Marks are lost alike by readers that have kept the same and become the same. -/
lemma Loses.congr {x : Char} {cs : List Char} (h : Loses t (x :: cs))
    (hkept : ∀ c, s.kept c = t.kept c) (hstep : step s x = step t x) : Loses s (x :: cs) := by
  obtain ⟨c, hc, hlost⟩ := h
  refine ⟨c, hc, ?_⟩
  rw [hkept]
  change (run (step s x) cs).kept c < _
  rw [hstep]
  exact hlost

/-- A mark behind which nothing has been read of a word is lost. -/
lemma loses_of_pending (hfresh : s.Fresh) (hc : c ∈ marks) (cs : List Char)
    (hpending : (step s c).pending c = 0) : Loses s (c :: cs) := by
  refine .now hc hfresh cs ?_
  have hhit : hit c c = 1 := if_pos rfl
  unfold State.kept
  rw [hpending, hhit]
  cases reads_step hc hfresh c with
  | goOn hrows =>
    rw [hrows]
    omega
  | word w hrows hw =>
    rw [hrows.tally]
    omega

/-- A bracket keeps what has been read. -/
lemma Stands.kept_bracket (h : Stands s ws (.word d)) (c : Char) :
    (step s '[').kept c = s.kept c := by
  obtain ⟨line, source, hstep⟩ := step_bracket h.place
  rw [hstep]
  obtain ⟨line, number, source, rfl⟩ := h.eq
  exact congrArg (_ + ·) (tally_flush c d)

/-- A dollar sign behind which a name begins is lost. -/
lemma Stands.loses_name {x : Char} (h : Stands s ws (.dollar d))
    (hx : x = '\x7b' ∨ isNameChar x = true) (cs : List Char) : Loses s (x :: cs) := by
  refine .now (c := '$') (by decide) (h.fresh nofun) cs ?_
  have hmoved : ∃ p, Moved s (step s x) p ∧ p.tally '$' = d.tally '$' := by
    rcases hx with rfl | hx
    · exact ⟨.bracedName d [], .step h.place rfl, rfl⟩
    · by_cases hbrace : x = '\x7b'
      · exact ⟨.bracedName d [], .step h.place (if_pos hbrace), rfl⟩
      · exact ⟨.name d [x], .step h.place ((if_neg hbrace).trans (if_pos hx)), rfl⟩
  obtain ⟨p, hmoved, htally⟩ := hmoved
  have hdollar : (Place.dollar d).tally '$' = d.tally '$' + 1 := tally_push '$' d '$'
  rw [(h.moved hmoved).kept, h.kept, htally, hdollar]
  omega

/-- A dollar sign is lost before a name, and it is text before anything else. -/
lemma Stands.loses_dollar {x : Char} {cs : List Char} (h : Stands s ws (.dollar d))
    (htext : x ≠ '\x7b' → isNameChar x = false →
      Loses (s.goTo (.word (d.push '$'))) (x :: cs)) : Loses s (x :: cs) := by
  by_cases hx : x = '\x7b' ∨ isNameChar x = true
  · exact h.loses_name hx cs
  · obtain ⟨hbrace, hname⟩ := not_or.mp hx
    rw [Bool.not_eq_true] at hname
    refine (htext hbrace hname).congr (fun c => ?_) (step_dollar h.place hbrace hname)
    rw [h.kept, (h.goTo _).kept]
    rfl

/-- Text that has a meaning in a bare word loses a mark. -/
lemma Stands.word_loses {m t : List Char} (h : Stands s ws (.word ⟨false, [], m⟩))
    (hblank : ∀ c ∈ t, Text.isBlank c = false) (ht : ¬Plain t) : Loses s t := by
  induction t generalizing s m with
  | nil => exact absurd ⟨by simp, .nil⟩ ht
  | cons c t ih =>
    have hfresh : s.Fresh := h.fresh nofun
    obtain ⟨hc, hblanks⟩ := List.forall_mem_cons.mp hblank
    by_cases hsemicolon : c = ';'
    · subst hsemicolon
      refine loses_of_pending hfresh (by decide) t ?_
      obtain ⟨line, number, source, rfl⟩ := h.eq
      rfl
    by_cases hbracket : c = '['
    · subst hbracket
      refine .now (c := '[') (by decide) hfresh t ?_
      rw [h.kept_bracket]
      exact Nat.lt_succ_self _
    by_cases hback : c = '\\'
    · subst hback
      refine .now (c := '\\') (by decide) hfresh t ?_
      have hescape := h.moved (.step h.place rfl : Moved s (step s '\\') (.escape ⟨false, [], m⟩))
      rw [hescape.kept, h.kept]
      exact Nat.lt_succ_self _
    by_cases hdollar : c = '$'
    · subst hdollar
      have hplace := h.moved (moved_dollar h.place)
      refine .cons hfresh ?_
      cases t with
      | nil => exact absurd (plain_cons.mpr ⟨by decide, by simp, by simp, .nil⟩) ht
      | cons x t =>
        refine hplace.loses_dollar fun hbrace hname => ih (hplace.goTo _) hblanks fun hplain => ?_
        refine ht (plain_cons.mpr ⟨by decide, fun _ c hc => ?_, hplain⟩)
        exact Option.some.inj hc ▸ ⟨hbrace, hname⟩
    · refine .cons hfresh (ih (h.word_step hc ⟨hsemicolon, hbracket, hback⟩ hdollar) hblanks ?_)
      exact fun hplain => ht (plain_cons.mpr
        ⟨⟨hsemicolon, hbracket, hback⟩, fun heq => absurd heq hdollar, hplain⟩)

/-! ## Items -/

/-- Where a word of a line may begin, if there are some words before it. -/
def startPlace (ws : List ScriptWord) : Place := if ws.isEmpty then .command else .between

/-- What begins a word does so between two words. -/
lemma Stands.begin (h : Stands s ws (startPlace ws)) (hgap : isGap c = false)
    (hcomment : ws.isEmpty = true → c ≠ '#') :
    ∃ s', Stands s' ws .between ∧ step s c = step s' c := by
  unfold startPlace at h
  split at h
  · rename_i hws
    have hclose : ¬(c = ']' ∧ s.isNested) := by
      rw [h.isNested]
      exact fun hclose => Bool.false_ne_true hclose.2
    have hstep := step_command h.place hgap hclose (hcomment hws)
    refine ⟨{ s with body := { s.body with number := s.line }, place := .between }, ?_, hstep⟩
    exact ⟨h.outer, h.lines, h.words, rfl⟩
  · exact ⟨s, h, rfl⟩

/-- What begins a bare word does so in one of which nothing has been read. -/
lemma Stands.begin_word (h : Stands s ws (startPlace ws)) (hgap : isGap c = false)
    (hcomment : ws.isEmpty = true → c ≠ '#') (hbrace : c ≠ '\x7b') (hquote : c ≠ '"')
    (hback : c ≠ '\\') :
    ∃ s', Stands s' ws (.word (.empty false)) ∧ step s c = step s' c := by
  obtain ⟨s', hs', hstep⟩ := h.begin hgap hcomment
  exact ⟨s'.goTo (.word (.empty false)), hs'.goTo _,
    hstep.trans (step_word hs'.place (hs'.not_endsBare hgap) hbrace hquote hback)⟩

/-- An opening brace begins a block. -/
lemma Stands.begin_block (h : Stands s ws (startPlace ws)) :
    Stands (step s '\x7b') ws (.block 1 []) := by
  obtain ⟨s', hs', hstep⟩ := h.begin (c := '\x7b') (by decide) (fun _ => by decide)
  rw [hstep]
  exact hs'.moved (.step hs'.place rfl)

/-- Before a word only the words before it have been kept. -/
lemma Stands.kept_start (h : Stands s ws (startPlace ws)) (c : Char) :
    s.kept c = (ws.map (ScriptWord.tally c)).sum := by
  rw [h.kept]
  unfold startPlace
  split <;> rfl

/-- What it means for an item to stand without braces. -/
lemma bare_of_not_needsBraces {text : String} (h : needsBraces text = false) :
    text.toList ≠ [] ∧ ∀ c ∈ text.toList, Text.isBlank c = false := by
  simpa [needsBraces] using h

/-- An item in braces. -/
lemma braced_of_needsBraces {text : String} (h : needsBraces text = true) :
    (Value.braced text).toList = '\x7b' :: (text.toList ++ ['\x7d']) := by
  have hbraced : Value.braced text = "\x7b" ++ text ++ "\x7d" := if_pos h
  simp [hbraced]

/-- An item without braces. -/
lemma braced_of_not_needsBraces {text : String} (h : needsBraces text = false) :
    Value.braced text = text :=
  if_neg (ne_true_of_eq_false h)

/-- An item in braces is read as a block. -/
lemma Stands.read_braced {text : String} (h : Stands s ws (startPlace ws))
    (hneeds : needsBraces text = true) (hpairs : PairsBraces text.toList) (rest : List Char) :
    ∃ s', Stands s' (ws ++ [.block text]) .between ∧
      answer s ((Value.braced text).toList ++ rest) = answer s' rest := by
  have hbegin : Stands (step s '\x7b') ws (blockPlace [] (0, false)) := h.begin_block
  have hblock := hbegin.block_run text.toList hpairs
  rw [List.append_nil] at hblock
  have hend := Stands.block_end hblock
  rw [List.reverse_reverse, String.ofList_toList] at hend
  refine ⟨_, hend, ?_⟩
  rw [answer_append, braced_of_needsBraces hneeds]
  simp [run]

/-- An item without braces is read as a literal. -/
lemma Stands.read_bare {text : String} {rest : List Char} (h : Stands s ws (startPlace ws))
    (hneeds : needsBraces text = false) (hlegible : Legible ws.isEmpty text)
    (hrest : ∀ c ∈ rest.head?, c = ' ') :
    ∃ s', Stands s' (ws ++ [.literal text]) .between ∧
      answer s ((Value.braced text).toList ++ rest) = answer s' rest := by
  obtain ⟨hne, hblank⟩ := bare_of_not_needsBraces hneeds
  obtain ⟨c, cs, htext⟩ := List.exists_cons_of_ne_nil hne
  have hdraft : (Draft.mk false [] ((c :: cs).reverse ++ [])).word = .literal text := by
    have hword : text = String.ofList (c :: cs) := by rw [← htext, String.ofList_toList]
    simp [Draft.word, Draft.flush, ScriptPart.word, hword]
  unfold Legible at hlegible
  rw [if_neg (ne_true_of_eq_false hneeds)] at hlegible
  obtain ⟨hplain, hbrace, hquote, hcomment⟩ := hlegible
  rw [braced_of_not_needsBraces hneeds]
  rw [htext] at hblank hplain hbrace hquote hcomment ⊢
  simp only [List.head?_cons, ne_eq, Option.some.injEq] at hbrace hquote hcomment
  obtain ⟨hc, -⟩ := List.forall_mem_cons.mp hblank
  obtain ⟨hmark, -, -⟩ := plain_cons.mp hplain
  obtain ⟨s₀, hs₀, hstep⟩ :=
    h.begin_word (not_isGap hc hmark.1) hcomment hbrace hquote hmark.2.2
  obtain ⟨s', hs', hanswer⟩ := hs₀.word_answer hblank hplain hrest
  refine ⟨s'.endWord (.literal text), hs'.endWord _, ?_⟩
  calc answer s (c :: cs ++ rest) = answer s₀ (c :: cs ++ rest) :=
        congrArg (answer · (cs ++ rest)) hstep
    _ = answer s' rest := hanswer
    _ = answer (s'.endWord (.literal text)) rest := by
        rw [← hdraft]
        refine answer_bare hs'.place rfl fun d hd => ?_
        rw [hrest d hd]
        rfl

/-- A legible item is read as a word. -/
lemma Stands.read_item {text : String} {rest : List Char} (h : Stands s ws (startPlace ws))
    (hlegible : Legible ws.isEmpty text) (hrest : ∀ c ∈ rest.head?, c = ' ') :
    ∃ s', Stands s' (ws ++ [ListItem.word text]) .between ∧
      answer s ((Value.braced text).toList ++ rest) = answer s' rest := by
  unfold ListItem.word
  split
  · rename_i hneeds
    unfold Legible at hlegible
    rw [if_pos hneeds] at hlegible
    exact h.read_braced hneeds hlegible rest
  · rename_i hneeds
    exact h.read_bare (Bool.eq_false_iff.mpr hneeds) hlegible hrest

/-- A character that begins something other than a block or a bare word is lost. -/
lemma Stands.start_loses (h : Stands s ws (startPlace ws))
    (hc : c = ';' ∨ c = '[' ∨ c = '\\' ∨ c = '"' ∨ c = '#' ∧ ws.isEmpty = true) (hfresh : s.Fresh)
    (cs : List Char) : Loses s (c :: cs) := by
  have hmark : c ∈ marks := by
    rcases hc with rfl | rfl | rfl | rfl | ⟨rfl, -⟩ <;> decide
  refine loses_of_pending hfresh hmark cs ?_
  obtain ⟨line, number, source, rfl⟩ := h.eq
  unfold startPlace
  rcases hc with rfl | rfl | rfl | rfl | ⟨rfl, hws⟩
  · split <;> rfl
  · split <;> rfl
  · split <;> rfl
  · split <;> rfl
  · rw [if_pos hws]
    rfl

/-- A word begins on a fresh line or behind another word. -/
lemma Stands.fresh_start (h : Stands s ws (startPlace ws)) : s.Fresh := by
  refine h.fresh fun hplace => ?_
  unfold startPlace at hplace
  split at hplace
  · rename_i hws
    exact List.isEmpty_iff.mp hws
  · simp at hplace

/-- An item without braces loses a mark if it is not legible and does not begin a block. -/
lemma Stands.item_loses {text : String} (h : Stands s ws (startPlace ws)) (hfresh : s.Fresh)
    (hbare : needsBraces text = false) (hillegible : ¬Legible ws.isEmpty text)
    (hbrace : text.toList.head? ≠ some '\x7b') : Loses s text.toList := by
  obtain ⟨hne, hblank⟩ := bare_of_not_needsBraces hbare
  obtain ⟨c, cs, htext⟩ := List.exists_cons_of_ne_nil hne
  unfold Legible at hillegible
  rw [if_neg (ne_true_of_eq_false hbare)] at hillegible
  rw [htext] at hblank hillegible hbrace ⊢
  simp only [List.head?_cons, ne_eq, Option.some.injEq] at hillegible hbrace
  obtain ⟨hc, -⟩ := List.forall_mem_cons.mp hblank
  by_cases hspecial : c = ';' ∨ c = '[' ∨ c = '\\' ∨ c = '"' ∨ c = '#' ∧ ws.isEmpty = true
  · exact h.start_loses hspecial hfresh cs
  simp only [not_or] at hspecial
  obtain ⟨hsemicolon, -, hback, hquote, hcomment⟩ := hspecial
  have hcomment' : ws.isEmpty = true → c ≠ '#' := fun hws heq => hcomment ⟨heq, hws⟩
  obtain ⟨s', hs', hstep⟩ :=
    h.begin_word (not_isGap hc hsemicolon) hcomment' hbrace hquote hback
  refine (hs'.word_loses hblank fun hplain => ?_).congr (fun d => ?_) hstep
  · exact hillegible ⟨hplain, hbrace, hquote, hcomment'⟩
  · rw [h.kept_start, hs'.kept]
    rfl

/-! ## Lists -/

/-- The text of a list behind the first item. -/
def behind (texts : List String) : List Char :=
  texts.flatMap fun text => ' ' :: (Value.braced text).toList

/-- Behind an item there is a space, if anything. -/
lemma head?_behind (texts : List String) : ∀ c ∈ (behind texts).head?, c = ' ' := by
  intro c hc
  cases texts with
  | nil => contradiction
  | cons text texts => exact (Option.some.inj hc).symm

/-- At its start a reader stands before the first word. -/
lemma Stands.start : Stands .start [] (startPlace []) := ⟨rfl, rfl, rfl, rfl⟩

/-- At the end of the text the words that have been read are a line. -/
lemma Stands.end_of_text (h : Stands s ws .between) (hne : ws ≠ []) :
    ∃ script number, finish s = .ok script ∧ script.lines = [⟨number, ws⟩] := by
  obtain ⟨line, number, source, rfl⟩ := h.eq
  refine ⟨_, number, rfl, ?_⟩
  simp [finalBody, Body.endLine, hne, Body.script, Script.lines]

/-- A text is read from the start. -/
lemma ofText?_eq_answer (text : String) : Script.ofText? text = answer .start text.toList := rfl

/-- A space behind an item. -/
lemma Stands.space (h : Stands s ws .between) : Stands (step s ' ') ws .between :=
  h.moved (.step h.place rfl)

/-- Behind a word another one may begin. -/
lemma Stands.next {w : ScriptWord} (h : Stands s (ws ++ [w]) .between) :
    Stands s (ws ++ [w]) (startPlace (ws ++ [w])) := by
  have hplace : startPlace (ws ++ [w]) = .between := if_neg (by simp)
  rwa [hplace]

/-- A list is read as its items if all of them are legible. -/
lemma Stands.read_items {text : String} {texts : List String} (h : Stands s ws (startPlace ws))
    (hlegible : AllLegible ws.isEmpty (text :: texts)) :
    ∃ s', Stands s' (ws ++ (text :: texts).map ListItem.word) .between ∧
      answer s ((Value.braced text).toList ++ behind texts) = finish s' := by
  induction texts generalizing s ws text with
  | nil =>
    obtain ⟨s', hs', hanswer⟩ := h.read_item hlegible.1 (head?_behind [])
    exact ⟨s', hs', hanswer⟩
  | cons next texts ih =>
    obtain ⟨s₁, hs₁, hfirst⟩ := h.read_item hlegible.1 (head?_behind (next :: texts))
    have hempty : (ws ++ [ListItem.word text]).isEmpty = false := by simp
    obtain ⟨s', hs', hrest⟩ := ih hs₁.space.next (hempty ▸ hlegible.2)
    refine ⟨s', ?_, hfirst.trans hrest⟩
    simpa using hs'

/-- Rendering an item adds no marks. -/
lemma count_braced (hc : c ∈ marks) (text : String) :
    (Value.braced text).toList.count c = text.toList.count c := by
  cases hneeds : needsBraces text with
  | true =>
    have hopen : '\x7b' ≠ c := fun heq => absurd (heq ▸ hc) (by decide)
    have hclose : '\x7d' ≠ c := fun heq => absurd (heq ▸ hc) (by decide)
    simp [braced_of_needsBraces hneeds, hopen, hclose]
  | false => rw [braced_of_not_needsBraces hneeds]

/-- How often a mark occurs in the text of a list. -/
lemma count_behind (hc : c ∈ marks) (texts : List String) :
    (behind texts).count c = (texts.map fun text => text.toList.count c).sum := by
  have hspace : ' ' ≠ c := fun heq => absurd (heq ▸ hc) (by decide)
  induction texts with
  | nil => rfl
  | cons text texts ih =>
    have hcons : behind (text :: texts) = ' ' :: ((Value.braced text).toList ++ behind texts) := rfl
    simp [hcons, hspace, count_braced hc, ih]

/-- Words have as much of a character as their texts do. -/
lemma map_tally (c : Char) (ws : List ScriptWord) : ws.map (ScriptWord.tally c) =
    (ws.map ScriptWord.spelling?).map fun text? => (text?.map (·.toList.count c)).getD 0 := by
  rw [List.map_map]
  refine List.map_congr_left fun w _ => ?_
  unfold ScriptWord.tally Function.comp
  cases w.spelling? <;> rfl

section Spelled

variable {text : String} {texts : List String}

/-- A block that begins with an item without braces does not end with that item. -/
lemma not_prefix_behind {cs : List Char} (hblank : ∀ c ∈ '\x7b' :: cs, Text.isBlank c = false) :
    ¬ '\x7b' :: cs ++ ['\x7d'] <+: cs ++ behind texts := by
  intro hprefix
  cases texts with
  | nil =>
    have hlength := hprefix.length_le
    simp [behind] at hlength
  | cons next texts =>
    -- the block would have to go on with the space behind the item
    obtain ⟨rest, hrest⟩ := hprefix
    have hsplit : ('\x7b' :: cs) ++ ('\x7d' :: rest) =
        (cs ++ [' ']) ++ ((Value.braced next).toList ++ behind texts) := by
      simpa [behind] using hrest
    have heq := List.append_inj_left hsplit (by simp)
    have hspace : ' ' ∈ '\x7b' :: cs := heq ▸ List.mem_append_right cs List.mem_cons_self
    exact absurd (hblank ' ' hspace) (by decide)

/-- A block that is begun as an item is one if all items are the texts of the words. -/
lemma Stands.legible_block (h : Stands s ws (startPlace ws))
    (hspells : Spells (answer s ((Value.braced text).toList ++ behind texts))
      (ws.map ScriptWord.spelling? ++ (text :: texts).map some))
    (hopen : (Value.braced text).toList.head? = some '\x7b') :
    needsBraces text = true ∧ PairsBraces text.toList := by
  obtain ⟨S, l, hanswer, hlines, hwords⟩ := hspells
  obtain ⟨cs, hcs⟩ := List.head?_eq_some_iff.mp hopen
  rw [hcs] at hanswer
  obtain ⟨p, hpairs, hprefix, hrow⟩ := h.begin_block.block_answer hanswer
  -- the block is the word that stands for the item, so it has its text
  rw [hlines] at hrow
  have hspelling := hrow.map ScriptWord.spelling?
  change _ <+: l.words.map ScriptWord.spelling? at hspelling
  rw [hwords, List.map_append, List.prefix_append_right_inj] at hspelling
  obtain rfl : String.ofList p = text := by simpa [ScriptWord.spelling?] using hspelling
  rw [String.toList_ofList]
  refine ⟨?_, hpairs⟩
  by_contra hneeds
  rw [Bool.not_eq_true] at hneeds
  have hblank := (bare_of_not_needsBraces hneeds).2
  rw [braced_of_not_needsBraces hneeds] at hcs
  rw [hcs] at hblank
  rw [String.toList_ofList] at hcs
  rw [hcs] at hprefix
  exact not_prefix_behind hblank hprefix

/-- No mark is lost if all items are the texts of the words. -/
lemma Stands.not_loses (h : Stands s ws (startPlace ws)) (hfresh : s.Fresh)
    (hneeds : needsBraces text = false)
    (hspells : Spells (answer s ((Value.braced text).toList ++ behind texts))
      (ws.map ScriptWord.spelling? ++ (text :: texts).map some)) : ¬Loses s text.toList := by
  rintro ⟨c, hc, hlost⟩
  obtain ⟨S, l, hanswer, hlines, hwords⟩ := hspells
  rw [braced_of_not_needsBraces hneeds, answer_append] at hanswer
  -- the words have all the marks of the items, but not more than what is kept and still to come
  have hkept := tally_answer hc (run_facts_of_fresh hfresh text.toList).1 hanswer
  have hline : rowsTally c [l.words] = (l.words.map (ScriptWord.tally c)).sum := by
    simp [rowsTally]
  have hitems : (l.words.map (ScriptWord.tally c)).sum = (ws.map (ScriptWord.tally c)).sum +
      (text.toList.count c + (texts.map fun text => text.toList.count c).sum) := by
    rw [map_tally, map_tally, hwords]
    simp [Function.comp_def]
  rw [hlines, List.map_singleton, hline, hitems, count_behind hc] at hkept
  rw [h.kept_start] at hlost
  omega

/-- An item is legible if all items are the texts of the words. -/
lemma Stands.legible (h : Stands s ws (startPlace ws))
    (hspells : Spells (answer s ((Value.braced text).toList ++ behind texts))
      (ws.map ScriptWord.spelling? ++ (text :: texts).map some)) : Legible ws.isEmpty text := by
  by_cases hopen : (Value.braced text).toList.head? = some '\x7b'
  · obtain ⟨hneeds, hpairs⟩ := h.legible_block hspells hopen
    unfold Legible
    rwa [if_pos hneeds]
  · cases hneeds : needsBraces text with
    | true =>
      rw [braced_of_needsBraces hneeds] at hopen
      exact absurd rfl hopen
    | false =>
      rw [braced_of_not_needsBraces hneeds] at hopen
      by_contra hillegible
      exact h.not_loses h.fresh_start hneeds hspells
        (h.item_loses h.fresh_start hneeds hillegible hopen)

/-- All items of a list are legible if they are the texts of the words. -/
lemma Stands.all_legible (h : Stands s ws (startPlace ws))
    (hspells : Spells (answer s ((Value.braced text).toList ++ behind texts))
      (ws.map ScriptWord.spelling? ++ (text :: texts).map some)) :
    AllLegible ws.isEmpty (text :: texts) := by
  induction texts generalizing s ws text with
  | nil => exact ⟨h.legible hspells, trivial⟩
  | cons next texts ih =>
    have hlegible := h.legible hspells
    obtain ⟨s₁, hs₁, hfirst⟩ := h.read_item hlegible (head?_behind (next :: texts))
    have hrest : Spells (answer (step s₁ ' ') ((Value.braced next).toList ++ behind texts))
        (ws.map ScriptWord.spelling? ++ (text :: next :: texts).map some) := hfirst ▸ hspells
    have hwords : ws.map ScriptWord.spelling? ++ (text :: next :: texts).map some =
        (ws ++ [ListItem.word text]).map ScriptWord.spelling? ++ (next :: texts).map some := by
      simp [ListItem.spelling?_word]
    have hempty : (ws ++ [ListItem.word text]).isEmpty = false := by simp
    exact ⟨hlegible, hempty ▸ ih hs₁.space.next (hwords ▸ hrest)⟩

end Spelled

end Stands

end Script.Reader

/-! ## Lists of texts -/

/-- Whether a script has one line, which hands over these words to a command. -/
def ScriptRun.Commands (run : ScriptRun) (words : List Value) : Prop :=
  ∃ line, (∀ s, run.step s = (.goOn line, s)) ∧ line.rest = [] ∧
    ∀ s, line.step s = match commandFrame s run.scope words with
      | .error f => (.finish .error [.fault f], s)
      | .ok (child, s) =>
        (.push child (.command { line with current := line.current.map LineRun.spent }), s)

namespace ListItem

open Script.Reader

/-- The value as which a legible item arrives when the list runs as a command. -/
def value (text : String) : Value := if needsBraces text then .text text else literalValue text

/-- The list of some texts. -/
def listOf (texts : List String) : Value := .list (texts.map .text)

/-- The items of a list of texts as they are written. -/
lemma renderItems_text (texts : List String) :
    Value.renderItems (texts.map .text) = texts.map Value.braced := by
  induction texts with
  | nil => rfl
  | cons text texts ih => simp [Value.renderItems, Value.render, ih]

/-- The text of a list that is not empty. -/
lemma toList_render (text : String) (texts : List String) :
    (listOf (text :: texts)).render.toList = (Value.braced text).toList ++ behind texts := by
  have hrender : (listOf (text :: texts)).render.toList =
      [' '].intercalate (((text :: texts).map Value.braced).map String.toList) := by
    rw [← renderItems_text]
    simp [listOf, Value.render, Text.join]
  rw [hrender]
  clear hrender
  induction texts generalizing text with
  | nil => simp [behind]
  | cons next texts ih =>
    have hrest := ih next
    simp only [List.map_cons] at hrest ⊢
    rw [List.intercalate_cons_cons, hrest]
    simp [behind]

/-- A legible item is evaluated to its value. -/
lemma evalWords_cons (s : Scopes) (r : ScopeRef) (number : ℕ) (ready : List Value) (text : String)
    (todo : List ScriptWord) : evalWords s r number ready (word text :: todo) =
      evalWords s r number (ready ++ [value text]) todo := by
  unfold word value
  split <;> rfl

/-- Legible items are evaluated to their values. -/
lemma evalWords_words (s : Scopes) (r : ScopeRef) (number : ℕ) (ready : List Value)
    (texts : List String) :
    evalWords s r number ready (texts.map word) = .words (ready ++ texts.map value) := by
  induction texts generalizing ready with
  | nil => simp [evalWords]
  | cons text texts ih =>
    rw [List.map_cons, evalWords_cons, ih, List.map_cons, List.append_assoc, List.singleton_append]

/-- A list of legible items is read as one line. -/
lemma ofText?_render {texts : List String} (hne : texts ≠ []) (h : AllLegible true texts) :
    ∃ script number, Script.ofText? (listOf texts).render = .ok script ∧
      script.lines = [⟨number, texts.map word⟩] := by
  obtain ⟨text, texts, rfl⟩ := List.exists_cons_of_ne_nil hne
  obtain ⟨s, hs, hanswer⟩ := Stands.start.read_items h
  obtain ⟨script, number, hscript, hlines⟩ := hs.end_of_text (by simp)
  refine ⟨script, number, ?_, hlines⟩
  rw [ofText?_eq_answer, toList_render, hanswer, hscript]

/-- A list that is not empty is one line of a script in which its items stand as they are, a word
for each, if and only if all of them are legible.  Then a command is run when the list is evaluated,
with the items as its words. -/
theorem list_text {texts : List String} (hne : texts ≠ []) :
    (Spells (Script.ofText? (listOf texts).render) (texts.map some) ↔ AllLegible true texts) ∧
      (AllLegible true texts → ∀ s r, ∃ run,
        Command.eval s r [listOf texts] = .ok (.script run, (s.newChild r).2) ∧
        run.scope = (s.newChild r).1 ∧ run.Commands (texts.map value)) := by
  refine ⟨⟨fun hspells => ?_, fun hlegible => ?_⟩, fun hlegible s r => ?_⟩
  · obtain ⟨text, texts, rfl⟩ := List.exists_cons_of_ne_nil hne
    rw [ofText?_eq_answer, toList_render] at hspells
    exact Stands.start.all_legible hspells
  · obtain ⟨script, number, hscript, hlines⟩ := ofText?_render hne hlegible
    refine ⟨script, _, hscript, hlines, ?_⟩
    simp [ScriptLine.words, Function.comp_def, spelling?_word]
  · obtain ⟨script, number, hscript, hlines⟩ := ofText?_render hne hlegible
    have hspaced : Command.spaced [listOf texts] = (listOf texts).render := by
      simp [Command.spaced, Text.join]
    refine ⟨⟨(s.newChild r).1, false, [], none, script.lines, [], []⟩, ?_, rfl, ?_⟩
    · simp [Command.eval, hspaced, Command.body, Value.render, hscript, Frame.ofScript]
    · rw [hlines]
      refine ⟨_, fun s' => rfl, rfl, fun s' => ?_⟩
      have heval : LineRun.eval ⟨number, [], none, texts.map word⟩ s' (s.newChild r).1 =
          .words (texts.map value) := evalWords_words ..
      unfold ScriptRun.step
      simp only [ScriptLine.number, ScriptLine.words, heval]
      cases commandFrame s' (s.newChild r).1 (texts.map value) with
      | error f => rfl
      | ok child => rfl

/-- Items with a blank and without any text stand in braces, and a dollar sign may stand alone. -/
theorem list_text_dollar :
    ["list", "a b", "", "$"] ≠ [] ∧ AllLegible true ["list", "a b", "", "$"] ∧
      Spells (Script.ofText? (listOf ["list", "a b", "", "$"]).render)
        [some "list", some "a b", some "", some "$"] ∧
      ∀ s r, ∃ run, Command.eval s r [listOf ["list", "a b", "", "$"]] =
          .ok (.script run, (s.newChild r).2) ∧ run.scope = (s.newChild r).1 ∧
        run.Commands (["list", "a b", "", "$"].map value) := by
  have hne : ["list", "a b", "", "$"] ≠ [] := by decide
  have hlegible : AllLegible true ["list", "a b", "", "$"] := by decide
  exact ⟨hne, hlegible, (list_text hne).1.mpr hlegible, (list_text hne).2 hlegible⟩

/-- A semicolon in an item ends the line. -/
theorem list_text_semicolon :
    ¬Spells (Script.ofText? (listOf ["list", "a;b"]).render) [some "list", some "a;b"] := by
  have hrender : (listOf ["list", "a;b"]).render = "list a;b" := by decide
  have hread : Script.ofText? "list a;b" =
      .ok ⟨[⟨1, [.literal "list", .literal "a"]⟩, ⟨1, [.literal "b"]⟩], "list a;b"⟩ := rfl
  rintro ⟨script, line, hscript, hlines, -⟩
  rw [hrender, hread] at hscript
  cases hscript
  simp [Script.lines] at hlines

end ListItem

end Switchboard
