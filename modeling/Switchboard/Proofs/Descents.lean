import Mathlib
import Switchboard.Proofs.Cursors
import Switchboard.Proofs.Standpoints

/-!
# Reading by descent

Reading by descent always comes to an end and never cuts a character apart, and what it gives is
what the reader gives (`Script.Descent.read?_eq`).  So all that is known of the one holds of the
other.

A call of the descent is compared with what the reader does from a state on: the call ends with a
flaw and so does the reader, or it gives a result and goes on behind it, and the reader would give
the same from there (`Reads`).  The cursor of the descent is always behind the characters that the
reader has noted.  The calls are compared one after the other, and the descent into brackets by
induction on the depth of calls that is allowed; for a text of some bytes a depth of five calls for
each of them is enough (`Brackets`).
-/

namespace Switchboard.Script.Descent

open Reader

/-! ## The descent and the reader -/

/-- Where the descent is when the reader is in a state: behind the characters that it has noted. -/
def cursorOf (s : State) : Cursor := ⟨String.utf8Len s.noted.reverse, s.line⟩

/-- Whether a state is one of the reader with some of the text left. -/
structure Ready (text : String) (s : State) (rest : List Char) : Prop where
  fresh : s.Fresh
  noted : text.toList = s.noted.reverse ++ rest

/-- What a call of the descent does where the reader is in a state with some text left: it stops
with the flaw that the reader comes to, or it gives a result and leaves some text, and the reader
would give the same from another state on, with the text that is left. -/
def Reads (text : String) {α : Type} (m : Reading α) (s : State) (rest : List Char)
    (P : α → State → List Char → Prop) : Prop :=
  Ready text s rest →
    (∃ a t rest', Ready text t rest' ∧ rest' <:+ rest ∧
      m (cursorOf s) = some (.ok (a, cursorOf t)) ∧ answer s rest = answer t rest' ∧
      P a t rest') ∨
    ∃ e, m (cursorOf s) = some (.error (.flaw e)) ∧ answer s rest = .error e

/-- Some characters are read. -/
lemma Ready.run {text : String} {s : State} {cs rest : List Char} (h : Ready text s (cs ++ rest)) :
    Ready text (Reader.run s cs) rest := by
  obtain ⟨hfresh, hnoted, -⟩ := run_facts_of_fresh h.fresh cs
  refine ⟨hfresh, ?_⟩
  rw [hnoted, List.reverse_append, List.reverse_reverse, List.append_assoc]
  exact h.noted

/-- The cursor behind some characters more. -/
lemma cursorOf_run {s : State} (hfresh : s.Fresh) (cs : List Char) : cursorOf (run s cs) =
    ⟨String.utf8Len (s.noted.reverse ++ cs), s.line + cs.count '\n'⟩ := by
  obtain ⟨-, hnoted, hline⟩ := run_facts_of_fresh hfresh cs
  unfold cursorOf
  rw [hnoted, hline, List.reverse_append, List.reverse_reverse]

namespace Reads

variable {text : String} {α β : Type} {s t : State} {c : Char} {rest : List Char}
  {P P' : α → State → List Char → Prop} {Q : β → State → List Char → Prop}

/-- What is to be shown where the reader is in a state with the text that is left. -/
lemma of_ready {m : Reading α} (h : Ready text s rest → Reads text m s rest P) :
    Reads text m s rest P :=
  fun hready => h hready hready

/-- A result without reading. -/
lemma pure {a : α} (h : P a s rest) : Reads text (pure a) s rest P :=
  fun hready => .inl ⟨a, s, rest, hready, List.suffix_refl _, rfl, rfl, h⟩

/-- The end of the text where something is lacking. -/
lemma fail {flaw : ScriptFlaw} (h : flaw? s = some flaw) : Reads text (fail flaw) s [] P := by
  refine fun _ => .inr ⟨⟨flaw, s.line⟩, rfl, ?_⟩
  show finish s = _
  unfold finish
  rw [h]

/-- What is known of the result, the state and the text that is left. -/
lemma mono {m : Reading α} (hm : Reads text m s rest P)
    (h : ∀ a t rest', rest' <:+ rest → P a t rest' → P' a t rest') : Reads text m s rest P' := by
  intro hready
  obtain ⟨a, t, rest', hready', hsuffix, hresult, hanswer, hP⟩ | hflaw := hm hready
  · exact .inl ⟨a, t, rest', hready', hsuffix, hresult, hanswer, h a t rest' hsuffix hP⟩
  · exact .inr hflaw

/-- One call after another. -/
lemma bind {m : Reading α} {k : α → Reading β} (hm : Reads text m s rest P)
    (hk : ∀ a t rest', Ready text t rest' → rest' <:+ rest → P a t rest' →
      Reads text (k a) t rest' Q) : Reads text (m >>= k) s rest Q := by
  intro hready
  obtain ⟨a, t, rest', hready', hsuffix, hresult, hanswer, hP⟩ | ⟨e, hresult, hanswer⟩ := hm hready
  · obtain ⟨b, u, rest'', hready'', hsuffix', hresult', hanswer', hQ⟩ | ⟨e, hresult', hanswer'⟩ :=
      hk a t rest' hready' hsuffix hP hready'
    · exact .inl ⟨b, u, rest'', hready'', hsuffix'.trans hsuffix,
        (bind_of_ok hresult).trans hresult', hanswer.trans hanswer', hQ⟩
    · exact .inr ⟨e, (bind_of_ok hresult).trans hresult', hanswer.trans hanswer'⟩
  · exact .inr ⟨e, bind_of_error hresult, hanswer⟩

/-- Looking at the cursor. -/
lemma get {k : Cursor → Reading β} (h : Reads text (k (cursorOf s)) s rest Q) :
    Reads text (get >>= k) s rest Q := h

/-- The same from another state that the reader may as well be in. -/
lemma instead {m : Reading α} (hanswer : answer s rest = answer t rest)
    (hfresh : s.Fresh → t.Fresh) (hnoted : t.noted = s.noted) (hline : t.line = s.line)
    (h : Reads text m t rest P) : Reads text m s rest P := by
  have hcursor : cursorOf t = cursorOf s := by
    unfold cursorOf
    rw [hnoted, hline]
  unfold Reads at h ⊢
  rw [hcursor, ← hanswer] at h
  exact fun hready => h ⟨hfresh hready.fresh, hnoted ▸ hready.noted⟩

/-- A call that does what another does behind some characters. -/
lemma pass (cs : List Char) {m m' : Reading α}
    (hm : Ready text s (cs ++ rest) → m (cursorOf s) = m' (cursorOf (run s cs)))
    (h : Reads text m' (run s cs) rest P) : Reads text m s (cs ++ rest) P := by
  intro hready
  have hanswer : answer s (cs ++ rest) = answer (run s cs) rest := by
    unfold answer Reader.run
    rw [List.foldl_append]
  rw [hm hready, hanswer]
  obtain ⟨a, t, rest', hready', hsuffix, hP⟩ | hflaw := h hready.run
  · exact .inl ⟨a, t, rest', hready', hsuffix.trans (List.suffix_append _ _), hP⟩
  · exact .inr hflaw

/-- A move over some characters. -/
lemma move (cs : List Char) {m : Reading α} {k : α → Reading β} (a : α)
    (hm : Ready text s (cs ++ rest) →
      m (cursorOf s) = some (.ok (a, ⟨String.utf8Len (s.noted.reverse ++ cs),
        s.line + cs.count '\n'⟩)))
    (h : Reads text (k a) (run s cs) rest Q) : Reads text (m >>= k) s (cs ++ rest) Q := by
  refine pass cs (fun hready => ?_) h
  rw [cursorOf_run hready.fresh]
  exact bind_of_ok (hm hready)

/-- Looking at the next byte at the end of the text. -/
lemma byte?_nil {k : Option UInt8 → Reading β} (h : Reads text (k none) s [] Q) :
    Reads text (byte? text >>= k) s [] Q := by
  refine move [] none (fun hready => ?_) h
  rw [List.append_nil]
  exact byte?_of_drop (drop_bytes hready.noted)

/-- Looking at the first byte of a character. -/
lemma byte?_cons {k : Option UInt8 → Reading β}
    (h : Reads text (k (some (first c))) s (c :: rest) Q) :
    Reads text (byte? text >>= k) s (c :: rest) Q := by
  refine move [] (some (first c)) (fun hready => ?_) h
  obtain ⟨bs, -, hbytes⟩ := bytes_cons c rest
  rw [List.append_nil]
  exact byte?_of_drop ((drop_bytes hready.noted).trans hbytes)

/-- Looking at the byte behind a character, or inside of it. -/
lemma secondByte? {k : Option UInt8 → Reading β}
    (h : ∀ o, (c.val.toNat < 128 → o = rest.head?.map first) → Reads text (k o) s (c :: rest) Q) :
    Reads text (secondByte? text >>= k) s (c :: rest) Q := by
  refine of_ready fun hready => ?_
  obtain ⟨bs, hchar, hbytes⟩ := bytes_cons c rest
  refine move [] (bs ++ bytes rest).head? (fun _ => ?_) (h _ fun hc => ?_)
  · rw [List.append_nil]
    exact secondByte?_of_drop ((drop_bytes hready.noted).trans hbytes)
  · have hone := bytes_singleton_of_lt hc
    unfold bytes at hone
    rw [List.flatMap_singleton, hchar, List.cons.injEq] at hone
    rw [hone.2, List.nil_append]
    cases rest with
    | nil => rfl
    | cons d rest =>
      obtain ⟨ds, -, hds⟩ := bytes_cons d rest
      rw [hds]
      rfl

/-- Going on at the end of the text. -/
lemma advance_nil {k : Unit → Reading β} (h : Reads text (k ()) s [] Q) :
    Reads text (advance text >>= k) s [] Q := by
  refine move [] () (fun hready => ?_) h
  unfold advance
  rw [List.append_nil]
  exact bind_of_ok (byte?_of_drop (drop_bytes hready.noted))

/-- Going on by a character of one byte. -/
lemma advance (hc : c.val.toNat < 128) {k : Unit → Reading β}
    (h : Reads text (k ()) (step s c) rest Q) :
    Reads text (advance text >>= k) s (c :: rest) Q := by
  refine move [c] () (fun hready => ?_) h
  have hlength : String.utf8Len (s.noted.reverse ++ [c]) = String.utf8Len s.noted.reverse + 1 := by
    rw [← length_bytes, ← length_bytes, bytes_append, bytes_singleton_of_lt hc]
    simp
  have hcount : [code c].count (code '\n') = [c].count '\n' := by
    rw [← count_bytes, bytes_singleton_of_lt hc]
  have hdrop := drop_bytes hready.noted
  rw [bytes_append, bytes_singleton_of_lt hc] at hdrop
  rw [hlength, ← hcount]
  exact advance_of_drop hdrop

/-- Reading a character. -/
lemma readChar {k : String → Reading β}
    (h : Reads text (k (String.ofList [c])) (step s c) rest Q) :
    Reads text (readChar text >>= k) s (c :: rest) Q :=
  move [c] _ (fun hready => readChar_eq hready.noted) h

/-- Skipping characters of a kind. -/
lemma skipWhile {p : UInt8 → Bool} {q : Char → Bool} (hpq : Tests p q) {fuel : ℕ}
    (hfuel : String.utf8Len rest < fuel) {k : Unit → Reading β}
    (h : Reads text (k ()) (run s (rest.takeWhile q)) (rest.dropWhile q) Q) :
    Reads text (skipWhile text fuel p >>= k) s rest Q := by
  conv => arg 4; rw [← rest.takeWhile_append_dropWhile (p := q)]
  refine move _ () (fun hready => ?_) h
  have hread := hready.noted
  rw [rest.takeWhile_append_dropWhile] at hread
  exact skipWhile_eq hpq hread hfuel

/-- Cutting out what has been noted before the last characters. -/
lemma cut_before {a m back : List Char} {stop : ℕ} (hnoted : s.noted.reverse = a ++ m ++ back)
    (hstop : stop = String.utf8Len a + String.utf8Len m) {k : String → Reading β}
    (h : Reads text (k (String.ofList m)) s rest Q) :
    Reads text (Descent.cut text (String.utf8Len a) stop >>= k) s rest Q := by
  refine move [] (String.ofList m) (fun hready => ?_) h
  rw [hstop, List.append_nil]
  refine cut_eq (r := back ++ rest) ?_ _
  rw [hready.noted, hnoted, List.append_assoc]
  rfl

/-- Cutting out what has been noted last. -/
lemma cut {a m : List Char} (hnoted : s.noted.reverse = a ++ m) {k : String → Reading β}
    (h : Reads text (k (String.ofList m)) s rest Q) :
    Reads text (Descent.cut text (String.utf8Len a) (cursorOf s).index >>= k) s rest Q := by
  have hnoted' : s.noted.reverse = a ++ m ++ [] := hnoted.trans (List.append_nil _).symm
  refine cut_before hnoted' ?_ h
  unfold cursorOf
  rw [hnoted, String.utf8Len_append]

/-- Going on by a character in a block, byte by byte, with a call for each of them. -/
lemma advance_readBlock {fuel start depth : ℕ} (hfuel : String.utf8Len (c :: rest) ≤ fuel)
    {P : String → State → List Char → Prop}
    (h : ∀ fuel' ≤ fuel, String.utf8Len rest < fuel' →
      Reads text (readBlock text fuel' start depth) (step s c) rest P) :
    Reads text (Descent.advance text >>= fun _ => readBlock text fuel start depth) s (c :: rest)
      P := by
  have hsize := c.utf8Size_pos
  rw [String.utf8Len_cons] at hfuel
  obtain ⟨fuel', rfl⟩ : ∃ fuel', fuel = fuel' + (c.utf8Size - 1) :=
    ⟨fuel - (c.utf8Size - 1), by omega⟩
  refine pass [c] (fun hready => ?_) (h fuel' (Nat.le_add_right _ _) (by omega))
  rw [cursorOf_run hready.fresh]
  exact readBlock_of_char hready.noted

end Reads

/-! ## Words that are read by descent -/

variable {text : String} {s : State} {c : Char} {rest : List Char}

/-- Text behind a character has fewer bytes than with it. -/
lemma utf8Len_lt_cons {rest' : List Char} (c : Char) (h : rest' <:+ rest) :
    String.utf8Len rest' < String.utf8Len (c :: rest) := by
  have hle := String.utf8Len_le_of_suffix h
  have hsize := c.utf8Size_pos
  rw [String.utf8Len_cons]
  omega

/-- The blanks are characters of one byte. -/
lemma lt_of_isBlank (h : isBlank c = true) : c.val.toNat < 128 := by
  unfold isBlank at h
  rw [Bool.or_eq_true, Bool.or_eq_true, beq_iff_eq, beq_iff_eq, beq_iff_eq] at h
  rcases h with (rfl | rfl) | rfl <;> decide

/-- The blanks between two words. -/
lemma reads_skipBlanks {fuel : ℕ} (hfuel : String.utf8Len rest < fuel)
    (hplace : s.place = .between) :
    Reads text (skipBlanks text fuel) s rest fun _ t rest' => Moved s t .between ∧
      (∀ c ∈ rest'.head?, isBlank c = false) ∧ ¬['\\', '\n'] <+: rest' := by
  induction fuel generalizing s rest with
  | zero => exact absurd hfuel (Nat.not_lt_zero _)
  | succ fuel ih =>
    rw [skipBlanks]
    cases rest with
    | nil =>
      refine .byte?_nil (.pure ⟨.refl hplace, fun c hc => absurd hc (Option.not_mem_none c), ?_⟩)
      simp
    | cons c rest =>
      refine .byte?_cons ?_
      simp only [tests_isBlank.first, first_eq_code_iff (d := '\\') (by decide)]
      split
      · rename_i hblank
        have hmoved : Moved s (step s c) .between := .step hplace (if_pos hblank)
        refine .advance (lt_of_isBlank hblank) ?_
        have hlt := utf8Len_lt_cons c (List.suffix_refl rest)
        exact (ih (by omega) hmoved.place).mono
          fun _ t rest' _ h => ⟨hmoved.trans h.1, h.2⟩
      · rename_i hblank
        refine .secondByte? fun o ho => ?_
        split
        · rename_i hline
          obtain ⟨rfl, hsecond⟩ := hline
          have hhead := (ho (by decide)).symm.trans hsecond
          cases rest with
          | nil => contradiction
          | cons d rest =>
            rw [List.head?_cons, Option.map_some, Option.some_inj,
              first_eq_code_iff (by decide)] at hhead
            subst hhead
            have hmoved : Moved s (step s '\\') .continued := .step hplace rfl
            have hmoved' : Moved (step s '\\') (step (step s '\\') '\n') .between :=
              .step hmoved.place rfl
            refine .advance (by decide) (.advance (by decide) ?_)
            have hlt := utf8Len_lt_cons '\\' (List.suffix_cons '\n' rest)
            exact (ih (by omega) hmoved'.place).mono
              fun _ t rest' _ h => ⟨(hmoved.trans hmoved').trans h.1, h.2⟩
        · rename_i hline
          refine .pure ⟨.refl hplace, fun d hd => ?_, fun hprefix => ?_⟩
          · rw [List.head?_cons, Option.mem_some_iff] at hd
            rw [← hd]
            exact Bool.eq_false_iff.mpr hblank
          · obtain ⟨rest', hrest⟩ := hprefix
            injection hrest with hc hrest
            subst hc
            refine hline ⟨rfl, ?_⟩
            rw [ho (by decide), ← hrest]
            rfl

/-- The word that goes on behind a dollar sign, with a name or without. -/
def named (d : Draft) : Option String → Draft
  | some name => d.addPart (.variableRef name)
  | none => d.push '$'

/-- A name that stands in no braces, or the dollar sign where there is none. -/
lemma reads_bareName {fuel : ℕ} (hfuel : String.utf8Len rest < fuel) {d : Draft}
    (hplace : s.place = .dollar d) (hrest : ∀ c ∈ rest.head?, c ≠ '\x7b') : Reads text (do
      let start := (← get).index
      skipWhile text fuel isNameByte
      if start = (← get).index then return none
      else return some (← cut text start (← get).index)) s rest fun name t _ =>
        Moved s t (.word (named d name)) := by
  have hfresh : s.Fresh := fresh_of_place hplace nofun nofun
  have hdrop : ∀ c ∈ (rest.dropWhile isNameChar).head?, isNameChar c = false :=
    fun c => not_of_mem_head?_dropWhile
  refine .get (.skipWhile tests_isNameChar hfuel (.get ?_))
  cases hcs : rest.takeWhile isNameChar with
  | nil =>
    have hrest' : rest.dropWhile isNameChar = rest := by
      have hsplit := rest.takeWhile_append_dropWhile (p := isNameChar)
      rwa [hcs, List.nil_append] at hsplit
    have hindex : (cursorOf s).index = (cursorOf (run s [])).index := rfl
    rw [hrest'] at hdrop ⊢
    rw [if_pos hindex]
    exact .instead (answer_dollar hplace fun c hc => ⟨hrest c hc, hdrop c hc⟩)
      (fun _ => fresh_of_place rfl nofun nofun) rfl rfl (.pure ((Moved.refl hplace).goTo _))
  | cons c cs =>
    have hall : ∀ e ∈ c :: cs, isNameChar e = true :=
      fun e he => List.mem_takeWhile_imp (hcs ▸ he)
    have hfirst : c ≠ '\x7b' := by
      rintro rfl
      exact absurd (hall _ List.mem_cons_self) (by decide)
    have hname : Moved s (step s c) (.name d [c]) :=
      .step hplace ((if_neg hfirst).trans (if_pos (hall c List.mem_cons_self)))
    have hnames := hname.trans
      (moved_name hname.place cs fun e he => hall e (List.mem_cons_of_mem c he))
    have hindex : (cursorOf s).index ≠ (cursorOf (run s (c :: cs))).index := by
      rw [cursorOf_run hfresh]
      simp [cursorOf, String.utf8Len_append, c.utf8Size_pos.ne']
    have hread : (cs.reverse ++ [c]).reverse = c :: cs := by simp
    rw [if_neg hindex]
    refine .instead (answer_name hnames.place hdrop) (fun _ => fresh_of_place rfl nofun nofun)
      rfl rfl ?_
    refine .get (.cut (a := s.noted.reverse) (m := c :: cs) ?_ (.pure ?_))
    · exact noted_run hfresh _
    · rw [hread]
      exact hnames.goTo _

/-- A name in braces behind the one that opens them. -/
lemma reads_bracedName {fuel : ℕ} (hfuel : String.utf8Len rest < fuel) {d : Draft}
    (hplace : s.place = .bracedName d []) : Reads text (do
      let start := (← get).index
      skipWhile text fuel (· != code '\x7d')
      match ← byte? text with
      | none => fail .openName
      | some _ =>
        let name ← cut text start (← get).index
        advance text
        return some name) s rest fun name t _ => Moved s t (.word (named d name)) := by
  have hfresh : s.Fresh := fresh_of_place hplace nofun nofun
  have hname := moved_bracedName hplace (rest.takeWhile fun c => !(c == '\x7d'))
    fun c hc => by simpa using List.mem_takeWhile_imp hc
  rw [List.append_nil] at hname
  refine .get (.skipWhile ((tests_eq '\x7d' (by decide)).not) hfuel ?_)
  cases hdrop : rest.dropWhile fun c => !(c == '\x7d') with
  | nil =>
    refine .byte?_nil (.fail ?_)
    unfold flaw?
    rw [hname.place]
  | cons e rest' =>
    obtain rfl : e = '\x7d' := by
      have he : e ∈ (rest.dropWhile fun c => !(c == '\x7d')).head? := by
        rw [hdrop]
        rfl
      simpa using not_of_mem_head?_dropWhile he
    refine .byte?_cons (.get (.cut (a := s.noted.reverse) (noted_run hfresh _)
      (.advance (by decide) (.pure (hname.trans (.step hname.place ?_))))))
    show State.goTo _ (.word (d.addPart (.variableRef (String.ofList (List.reverse _))))) = _
    rw [List.reverse_reverse]
    rfl

/-- The name of a variable, or the dollar sign where there is none. -/
lemma reads_readName {fuel : ℕ} (hfuel : String.utf8Len rest < fuel) {d : Draft}
    (hplace : s.place = .word d) :
    Reads text (readName text fuel) s ('$' :: rest) fun name t rest' =>
      Moved s t (.word (named d name)) ∧ rest' <:+ rest := by
  have hdollar := moved_dollar hplace
  unfold readName
  refine .advance (by decide) ?_
  generalize step s '$' = u at hdollar
  refine Reads.mono (P := fun name t _ => Moved u t (.word (named d name))) ?_
    fun name t rest' hsuffix h => ⟨hdollar.trans h, hsuffix⟩
  cases rest with
  | nil =>
    refine .byte?_nil ?_
    rw [if_neg (Option.some_ne_none _).symm]
    exact reads_bareName hfuel hdollar.place fun c hc => absurd hc (Option.not_mem_none c)
  | cons c rest =>
    refine .byte?_cons ?_
    simp only [Option.some_inj, first_eq_code_iff (d := '\x7b') (by decide)]
    split
    · rename_i hc
      subst hc
      have hbrace : Moved u (step u '\x7b') (.bracedName d []) := .step hdollar.place rfl
      have hlt := utf8Len_lt_cons '\x7b' (List.suffix_refl rest)
      refine .advance (by decide) ?_
      exact (reads_bracedName (by omega) hbrace.place).mono fun _ _ _ _ h => hbrace.trans h
    · rename_i hc
      refine reads_bareName hfuel hdollar.place fun d hd => ?_
      rw [List.head?_cons, Option.mem_some_iff] at hd
      rwa [← hd]

/-- A block up to the brace that ends it. -/
lemma reads_readBlock {fuel depth : ℕ} (hfuel : String.utf8Len rest < fuel) {a m : List Char}
    (hplace : s.place = .block depth m) (hnoted : s.noted.reverse = a ++ m.reverse) :
    Reads text (readBlock text fuel (String.utf8Len a) depth) s rest fun block t _ =>
      Moved (s.endWord (.block block)) t .between := by
  -- a character of several bytes takes as many calls, so the fuel may fall by more than one
  induction fuel using Nat.strong_induction_on generalizing s rest m depth with
  | _ fuel ih =>
    obtain ⟨fuel, rfl⟩ := Nat.exists_eq_add_one_of_ne_zero (Nat.ne_zero_of_lt hfuel)
    have hfresh : s.Fresh := fresh_of_place hplace nofun nofun
    rw [readBlock]
    cases rest with
    | nil =>
      refine .byte?_nil (.fail ?_)
      unfold flaw?
      rw [hplace]
    | cons c rest =>
      refine .byte?_cons ?_
      simp only [first_eq_code_iff (d := '\x7d') (by decide),
        first_eq_code_iff (d := '\x7b') (by decide), first_eq_code_iff (d := '\\') (by decide)]
      split
      · rename_i hend
        obtain ⟨rfl, hdepth⟩ := hend
        refine .get (.cut hnoted (.advance (by decide) (.pure (.endWord_step hplace ?_))))
        exact if_pos (by omega)
      · rename_i hend
        split
        · rename_i hback
          subst hback
          have hescape : Moved s (step s '\\') (.blockEscape depth ('\\' :: m)) := .step hplace rfl
          refine .advance (by decide) ?_
          have hlt := utf8Len_lt_cons '\\' (List.suffix_refl rest)
          cases rest with
          | nil =>
            obtain ⟨fuel, rfl⟩ := Nat.exists_eq_add_one_of_ne_zero (n := fuel) (by omega)
            rw [readBlock]
            refine .advance_nil (.byte?_nil (.fail ?_))
            unfold flaw?
            rw [hescape.place]
          | cons e rest =>
            have hmoved : Moved s (step (step s '\\') e) (.block depth (e :: '\\' :: m)) :=
              hescape.trans (.step hescape.place rfl)
            have hnoted' : (run s ['\\', e]).noted.reverse = a ++ (e :: '\\' :: m).reverse := by
              rw [noted_run hfresh, hnoted]
              simp
            refine .advance_readBlock (by omega) fun fuel' hle hlt => ?_
            exact (ih fuel' (Nat.lt_succ_of_le hle) hlt hmoved.place hnoted').mono
              fun block t rest' _ h => (hmoved.endWord _).trans h
        · rename_i hback
          have hmoved := moved_block hplace hend hback
          have hnoted' : (run s [c]).noted.reverse = a ++ (c :: m).reverse := by
            rw [noted_run hfresh, hnoted]
            simp
          refine .advance_readBlock (Nat.le_of_lt_succ hfuel) fun fuel' hle hlt => ?_
          exact (ih fuel' (Nat.lt_succ_of_le hle) hlt hmoved.place hnoted').mono
            fun block t rest' _ h => (hmoved.endWord _).trans h

/-! ## Words of several parts -/

/-- The draft of a word of which some parts and some text have been read. -/
def draftOf (quoted : Bool) (parts : List ScriptPart) (buffer : String) : Draft :=
  ⟨quoted, parts.reverse, buffer.toList.reverse⟩

/-- The word that parts make. -/
def wordOf : Bool → List ScriptPart → ScriptWord
  | true, parts => .quoted parts
  | false, [p] => p.word
  | false, parts => .quoted parts

section Drafts

variable (quoted : Bool) (parts : List ScriptPart) (buffer : String)

/-- One more character. -/
lemma draftOf_push (c : Char) :
    draftOf quoted parts (buffer.push c) = (draftOf quoted parts buffer).push c := by
  unfold draftOf Draft.push
  rw [String.toList_push, List.reverse_concat]

/-- One more character that was cut out. -/
lemma draftOf_append (c : Char) :
    draftOf quoted parts (buffer ++ String.ofList [c]) = (draftOf quoted parts buffer).push c := by
  unfold draftOf Draft.push
  rw [String.toList_append, String.toList_ofList, List.reverse_concat]

/-- The end of the text behind the parts. -/
lemma draftOf_flushed :
    draftOf quoted (flushed parts buffer) "" = (draftOf quoted parts buffer).flush := by
  unfold draftOf flushed Draft.flush
  by_cases h : buffer = ""
  · subst h
    rfl
  · have hlist : buffer.toList.reverse ≠ [] := by simpa using h
    rw [if_neg (by simpa using h), if_neg (by rwa [List.isEmpty_iff]), List.reverse_concat,
      List.reverse_reverse, String.ofList_toList]
    rfl

/-- One more part that is not text. -/
lemma draftOf_addPart (p : ScriptPart) :
    draftOf quoted (flushed parts buffer ++ [p]) "" = (draftOf quoted parts buffer).addPart p := by
  unfold Draft.addPart
  rw [← draftOf_flushed]
  unfold draftOf
  rw [List.reverse_concat]

/-- The end of the word. -/
lemma word_draftOf :
    (draftOf quoted parts buffer).word = wordOf quoted (ended quoted parts buffer) := by
  have hquoted : (draftOf quoted parts buffer).quoted = quoted := rfl
  have hparts : (draftOf quoted parts buffer).flush.parts.reverse = flushed parts buffer := by
    rw [← draftOf_flushed]
    exact List.reverse_reverse _
  unfold Draft.word ended
  rw [hparts, hquoted]
  generalize flushed parts buffer = ps
  rcases quoted with _ | _ <;> rcases ps with _ | ⟨p, _ | ⟨q, ps⟩⟩ <;> rfl

end Drafts

/-- What a backslash makes of the character behind it. -/
lemma escape?_first (c : Char) :
    (escape? (first c) = some (unescape c) ∧ c.val.toNat < 128) ∨
      escape? (first c) = none ∧ unescape c = c := by
  unfold escape?
  simp only [first_eq_code_iff (d := 'n') (by decide), first_eq_code_iff (d := 't') (by decide),
    first_eq_code_iff (d := 'r') (by decide), first_eq_code_iff (d := '\n') (by decide)]
  by_cases hn : c = 'n'
  · subst hn
    exact .inl ⟨rfl, by decide⟩
  by_cases ht : c = 't'
  · subst ht
    exact .inl ⟨rfl, by decide⟩
  by_cases hr : c = 'r'
  · subst hr
    exact .inl ⟨rfl, by decide⟩
  by_cases hnewline : c = '\n'
  · subst hnewline
    exact .inl ⟨rfl, by decide⟩
  rw [if_neg hn, if_neg ht, if_neg hr, if_neg hnewline]
  refine .inr ⟨rfl, ?_⟩
  unfold unescape
  split <;> first | contradiction | rfl

/-- The character behind a backslash. -/
lemma reads_escape {α : Type} {P : α → State → List Char → Prop} {d : Draft} {buffer : String}
    {k : String → Reading α} (hplace : s.place = .escape d)
    (hgo : ∀ e rest', rest = e :: rest' →
      Reads text (k (buffer.push (unescape e))) (step s e) rest' P) : Reads text (do
      match ← byte? text with
      | none => fail .openEscape
      | some e =>
        match escape? e with
        | some c =>
          advance text
          k (buffer.push c)
        | none =>
          let char ← readChar text
          k (buffer ++ char)) s rest P := by
  cases rest with
  | nil =>
    refine .byte?_nil (.fail ?_)
    unfold flaw?
    rw [hplace]
  | cons e rest =>
    have hread := hgo e rest rfl
    refine .byte?_cons ?_
    obtain ⟨hsome, hone⟩ | ⟨hnone, hself⟩ := escape?_first e
    · simp only [hsome]
      exact .advance hone hread
    · simp only [hnone]
      rw [hself, ← String.append_singleton] at hread
      exact .readChar hread

/-- The test for what ends a bare word. -/
lemma tests_endsBare {nested : Bool} (hnested : s.isNested = nested) :
    Tests (endsBareByte nested) (endsBare s) := by
  have hbracket : Tests (fun b => b == code ']' && nested) fun c => c == ']' && s.isNested := by
    rw [hnested]
    exact fun c b hb => congrArg (· && nested) (tests_eq ']' (by decide) c b hb)
  exact ((tests_isBlank.or (tests_eq '\n' (by decide))).or (tests_eq ';' (by decide))).or hbracket

/-- Whether scripts in brackets are read as the reader reads them in fewer calls than some number.
Five calls for each byte that is left are enough: between two brackets that are opened one in the
other stand a body, a line, a word, its parts and the bracket itself. -/
def Brackets (text : String) (n : ℕ) : Prop :=
  ∀ {fuel : ℕ} {s : State} {d : Draft} {rest : List Char}, fuel < n →
    5 * String.utf8Len rest + 6 ≤ fuel → s.place = .word d →
    Reads text (readSubstitution text fuel) s ('[' :: rest) fun script t rest' =>
      Moved s t (.word (d.addPart (.substitution script))) ∧ rest' <:+ rest

/-- Whether a reader has come behind a word of some parts: behind its quote, or to what ends a bare
word. -/
def Behind (quoted nested : Bool) (s : State) (parts : List ScriptPart) (t : State)
    (rest : List Char) : Prop :=
  Moved (s.endWord (wordOf quoted parts)) t .between ∧
    (quoted = false → ∀ e ∈ rest.head?, endsBareByte nested (first e) = true)

/-- A bare word ends where the text does or what follows ends it. -/
lemma reads_bare {nested : Bool} {parts : List ScriptPart} {buffer : String}
    (hplace : s.place = .word (draftOf false parts buffer)) (hnested : s.isNested = nested)
    (hrest : ∀ e ∈ rest.head?, endsBareByte nested (first e) = true) :
    Reads text (pure (ended false parts buffer)) s rest (Behind false nested s) := by
  refine .instead (answer_bare hplace rfl fun e he => ?_)
    (fun _ => fresh_of_place rfl nofun nofun) rfl rfl (.pure ⟨?_, fun _ => hrest⟩)
  · rw [← (tests_endsBare hnested).first]
    exact hrest e he
  · rw [← word_draftOf]
    exact .refl rfl

/-- A character in a word that does not end it: a name, brackets or a character go on the word. -/
lemma reads_inWord {n : ℕ} (hbrackets : Brackets text n) {fuel : ℕ} (hdepth : fuel < n)
    (hfuel : 5 * String.utf8Len (c :: rest) + 1 ≤ fuel) {quoted : Bool}
    {parts : List ScriptPart} {buffer : String} {α : Type} {P : α → State → List Char → Prop}
    {k : List ScriptPart → String → Reading α}
    (hplace : s.place = .word (draftOf quoted parts buffer))
    (hword : dispatch ((note s c).goTo (.word (draftOf quoted parts buffer))) c =
      inWord (note s c) (draftOf quoted parts buffer) c)
    (hgo : ∀ parts' buffer' t rest', rest' <:+ rest →
      Moved s t (.word (draftOf quoted parts' buffer')) →
        Reads text (k parts' buffer') t rest' P) : Reads text (do
      if first c = code '$' then
        match ← readName text fuel with
        | some name => k (flushed parts buffer ++ [.variableRef name]) ""
        | none => k parts (buffer.push '$')
      else if first c = code '[' then
        let script ← readSubstitution text fuel
        k (flushed parts buffer ++ [.substitution script]) ""
      else if first c = code '\\' then
        advance text
        match ← byte? text with
        | none => fail .openEscape
        | some e =>
          match escape? e with
          | some d =>
            advance text
            k parts (buffer.push d)
          | none =>
            let char ← readChar text
            k parts (buffer ++ char)
      else
        let char ← readChar text
        k parts (buffer ++ char)) s (c :: rest) P := by
  have hlt := utf8Len_lt_cons c (List.suffix_refl rest)
  simp only [first_eq_code_iff (d := '$') (by decide), first_eq_code_iff (d := '[') (by decide),
    first_eq_code_iff (d := '\\') (by decide)]
  split
  · rename_i hc
    subst hc
    refine .bind (reads_readName (by omega) hplace) ?_
    rintro name t rest' - - ⟨hmoved, hsuffix⟩
    cases name with
    | some name => exact hgo _ _ t rest' hsuffix (draftOf_addPart quoted parts buffer _ ▸ hmoved)
    | none => exact hgo _ _ t rest' hsuffix (draftOf_push quoted parts buffer _ ▸ hmoved)
  split
  · rename_i hc
    subst hc
    refine .bind (hbrackets hdepth (by omega) hplace) ?_
    rintro script t rest' - - ⟨hmoved, hsuffix⟩
    exact hgo _ _ t rest' hsuffix (draftOf_addPart quoted parts buffer _ ▸ hmoved)
  split
  · rename_i hc
    subst hc
    have hescape : Moved s (step s '\\') (.escape (draftOf quoted parts buffer)) :=
      .step hplace hword
    refine .advance (by decide) (reads_escape (k := k parts) hescape.place fun e rest' hrest => ?_)
    have hpush := hescape.trans (.step hescape.place (rfl : dispatch _ e = _))
    subst hrest
    exact hgo _ _ _ rest' (List.suffix_cons _ _) (draftOf_push quoted parts buffer _ ▸ hpush)
  · rename_i hdollar hbracket hback
    have hpush : Moved s (step s c) (.word ((draftOf quoted parts buffer).push c)) := by
      refine .step hplace (hword.trans ?_)
      unfold inWord
      split <;> first | contradiction | rfl
    exact .readChar (hgo _ _ _ rest (List.suffix_refl _)
      (draftOf_append quoted parts buffer _ ▸ hpush))

/-- The parts of a word up to its end. -/
lemma reads_readParts {n : ℕ} (hbrackets : Brackets text n) {fuel : ℕ} (hdepth : fuel ≤ n)
    (hfuel : 5 * String.utf8Len rest + 2 ≤ fuel) {quoted nested : Bool}
    {parts : List ScriptPart} {buffer : String}
    (hplace : s.place = .word (draftOf quoted parts buffer)) (hnested : s.isNested = nested) :
    Reads text (readParts text fuel quoted nested parts buffer) s rest
      (Behind quoted nested s) := by
  induction fuel generalizing s rest parts buffer with
  | zero => omega
  | succ fuel ih =>
    rw [readParts]
    cases rest with
    | nil =>
      refine .byte?_nil ?_
      cases quoted with
      | true =>
        refine .fail ?_
        unfold flaw?
        rw [hplace]
        rfl
      | false => exact reads_bare hplace hnested nofun
    | cons c rest =>
      refine .byte?_cons ?_
      simp only [first_eq_code_iff (d := '"') (by decide)]
      split
      · rename_i hend
        obtain ⟨rfl, rfl⟩ := hend
        refine .advance (by decide) (.pure ⟨?_, nofun⟩)
        rw [← word_draftOf]
        exact .endWord_step hplace rfl
      rename_i hquote
      split
      · rename_i hend
        obtain ⟨hbare, hends⟩ := hend
        have hbare : quoted = false := Bool.eq_false_iff.mpr hbare
        subst hbare
        refine reads_bare hplace hnested fun e he => ?_
        rw [List.head?_cons, Option.mem_some_iff] at he
        rwa [← he]
      rename_i hends
      have hword : dispatch ((note s c).goTo (.word (draftOf quoted parts buffer))) c =
          inWord (note s c) (draftOf quoted parts buffer) c :=
        atWord_of_not hquote fun h => hends ⟨h.1, ((tests_endsBare hnested).first c).trans h.2⟩
      refine reads_inWord hbrackets (by omega) (by omega) (k := readParts text fuel quoted nested)
        hplace hword fun parts' buffer' t rest' hsuffix hmoved => ?_
      have hlt := utf8Len_lt_cons c hsuffix
      exact (ih (by omega) (by omega) hmoved.place (hmoved.isNested.trans hnested)).mono
        fun _ _ _ _ h => ⟨(hmoved.endWord _).trans h.1, h.2⟩

/-! ## Commands -/

/-- Text that is left begins behind a character unless the same can be said of the character. -/
lemma suffix_of_suffix_cons {q : Char → Bool} {rest' : List Char} (hsuffix : rest' <:+ c :: rest)
    (hc : q c = false) (hrest : ∀ e ∈ rest'.head?, q e = true) : rest' <:+ rest := by
  obtain rfl | hsuffix := List.suffix_cons_iff.mp hsuffix
  · rw [hrest c rfl] at hc
    contradiction
  · exact hsuffix

/-- What ends a bare word is a blank or ends the line. -/
lemma endsBareByte_first (nested : Bool) (c : Char) :
    endsBareByte nested (first c) = (isBlank c || endsLine nested c) := by
  unfold endsBareByte endsLine
  rw [tests_isBlank.first, (tests_eq '\n' (by decide)).first, (tests_eq ';' (by decide)).first,
    (tests_eq ']' (by decide)).first]
  simp only [Bool.or_assoc]

/-- A word that begins behind the blanks of a line that is not at its end. -/
lemma reads_readWord {n : ℕ} (hbrackets : Brackets text n) {fuel : ℕ} (hdepth : fuel ≤ n)
    (hfuel : 5 * String.utf8Len (c :: rest) + 3 ≤ fuel) {nested : Bool}
    (hplace : s.place = .between) (hnested : s.isNested = nested)
    (hblank : isBlank c = false) (hends : endsLine nested c = false)
    (hline : ¬['\\', '\n'] <+: c :: rest) :
    Reads text (readWord text fuel nested) s (c :: rest) fun w t rest' =>
      Moved (s.endWord w) t .between ∧ rest' <:+ rest := by
  obtain ⟨fuel, rfl⟩ := Nat.exists_eq_add_one_of_ne_zero (Nat.ne_zero_of_lt hfuel)
  have hlt := utf8Len_lt_cons c (List.suffix_refl rest)
  rw [readWord]
  refine .byte?_cons ?_
  simp only [Option.some_inj, first_eq_code_iff (d := '\x7b') (by decide),
    first_eq_code_iff (d := '"') (by decide)]
  split
  · rename_i hc
    subst hc
    have hblock : Moved s (step s '\x7b') (.block 1 []) := .step hplace rfl
    refine .advance (by decide) (.get (.bind (reads_readBlock (by omega)
      (a := (step s '\x7b').noted.reverse) hblock.place (List.append_nil _).symm) ?_))
    exact fun block t rest' _ hsuffix hmoved =>
      .pure ⟨(hblock.endWord _).trans hmoved, hsuffix⟩
  split
  · rename_i hc
    subst hc
    have hquote : Moved s (step s '"') (.word (draftOf true [] "")) := .step hplace rfl
    refine .advance (by decide) (.bind (reads_readParts hbrackets (by omega) (by omega)
      hquote.place (hquote.isNested.trans hnested)) ?_)
    exact fun parts t rest' _ hsuffix h =>
      .pure ⟨(hquote.endWord _).trans h.1, hsuffix⟩
  · rename_i hbrace hquote
    have hnot : endsBareByte nested (first c) = false := by
      rw [endsBareByte_first, hblank, hends]
      rfl
    have hbare : endsBare s c = false := ((tests_endsBare hnested).first c).symm.trans hnot
    refine .instead (answer_word hplace hbare hbrace hquote hline)
      (fun _ => fresh_of_place rfl nofun nofun) rfl rfl ?_
    refine .bind (reads_readParts hbrackets (by omega) (by omega)
      (s := s.goTo (.word (.empty false))) rfl hnested) ?_
    intro parts t rest' _ hsuffix h
    have hend : Reads text (pure (wordOf false parts)) t rest' fun w t rest' =>
        Moved (s.endWord w) t .between ∧ rest' <:+ rest :=
      .pure ⟨h.1, suffix_of_suffix_cons (q := fun e => endsBareByte nested (first e)) hsuffix hnot
        (h.2 rfl)⟩
    rcases parts with _ | ⟨p, _ | ⟨q, parts⟩⟩ <;> exact hend

/-- The words of a line up to its end. -/
lemma reads_readWords {n : ℕ} (hbrackets : Brackets text n) {fuel : ℕ} (hdepth : fuel ≤ n)
    (hfuel : 5 * String.utf8Len rest + 4 ≤ fuel) {nested : Bool} {words : List ScriptWord}
    (hplace : s.place = .between) (hnested : s.isNested = nested)
    (hwords : s.body.words = words.reverse) :
    Reads text (readWords text fuel nested words) s rest fun words' t rest' =>
      Moved (withWords s words'.reverse) t .between ∧
        ∀ e ∈ rest'.head?, endsLine nested e = true := by
  induction fuel generalizing s rest words with
  | zero => omega
  | succ fuel ih =>
    rw [readWords]
    refine .bind (reads_skipBlanks (by omega) hplace) ?_
    intro _ t rest' _ hsuffix h
    obtain ⟨hmoved, hblank, hline⟩ := h
    have hstay : Moved (withWords s words.reverse) t .between := by
      unfold withWords
      rw [← hwords]
      exact ⟨hmoved.place, hmoved.outer, hmoved.body⟩
    have hle := String.utf8Len_le_of_suffix hsuffix
    cases rest' with
    | nil => exact .byte?_nil (.pure ⟨hstay, nofun⟩)
    | cons c rest' =>
      refine .byte?_cons ?_
      simp only [first_eq_code_iff (d := '\n') (by decide),
        first_eq_code_iff (d := ';') (by decide), first_eq_code_iff (d := ']') (by decide)]
      split
      · rename_i hend
        refine .pure ⟨hstay, fun e he => ?_⟩
        rw [List.head?_cons, Option.mem_some_iff] at he
        rw [← he]
        exact endsLine_iff.mpr hend
      · rename_i hend
        refine .bind (reads_readWord hbrackets (by omega) (by omega) hmoved.place
          (hmoved.isNested.trans hnested) (hblank c rfl)
          (Bool.eq_false_iff.mpr fun h => hend (endsLine_iff.mp h)) hline) ?_
        rintro w u rest'' - - ⟨hword, hsuffix'⟩
        have hlt := utf8Len_lt_cons c hsuffix'
        have hwords' : u.body.words = (words ++ [w]).reverse := by
          rw [((hmoved.endWord w).trans hword).words, List.reverse_concat, ← hwords]
          rfl
        refine (ih (by omega) (by omega) hword.place
          (hword.isNested.trans (hmoved.isNested.trans hnested)) hwords').mono ?_
        exact fun words' v _ _ h => ⟨((hmoved.endWord w).trans hword).withWords h.1, h.2⟩

/-- The state of a reader that has read the commands of a script or of a bracket. -/
structure AtEnd (s : State) (lines : List ScriptLine) (t : State) : Prop where
  place : t.place = .command
  outer : t.outer = s.outer
  lines : t.body.lines = lines.reverse
  words : t.body.words = []

/-- Whether a reader has come behind the commands that it was reading: to the end of the text, or
behind the bracket that closes them. -/
def Closed (nested : Bool) (s : State) (lines : List ScriptLine) (t : State) (rest : List Char) :
    Prop :=
  ∃ u, AtEnd s lines u ∧ (nested = true → t = step u ']') ∧ (nested = false → t = u ∧ rest = [])

/-- More commands do not change what is around them. -/
lemma AtEnd.closed {s t u : State} {rest : List Char} {nested : Bool}
    {lines lines' : List ScriptLine}
    (h : AtEnd s lines t) (h' : Closed nested t lines' u rest) : Closed nested s lines' u rest := by
  obtain ⟨v, hv, hclosed⟩ := h'
  exact ⟨v, ⟨hv.place, hv.outer.trans h.outer, hv.lines, hv.words⟩, hclosed⟩

/-- A comment up to the end of its text line. -/
lemma reads_comment {fuel : ℕ} (hfuel : String.utf8Len ('#' :: rest) < fuel) {α : Type}
    {P : α → State → List Char → Prop} {k : Unit → Reading α} (hplace : s.place = .command)
    (hwords : s.body.words = [])
    (hgo : ∀ t rest', rest' <:+ rest → Moved s t .command → Reads text (k ()) t rest' P) :
    Reads text (skipWhile text fuel (· != code '\n') >>= k) s ('#' :: rest) P := by
  have hcomment : Moved s (step s '#') .comment := .step hplace rfl
  have hcomments : Moved (step s '#') (run (step s '#') (rest.takeWhile fun c => !(c == '\n')))
      .comment :=
    .run (fun _ => .comment) [] hcomment.place _ fun c hc _ _ =>
      if_neg (by simpa using List.mem_takeWhile_imp hc)
  have hmoved := (hcomment.trans hcomments).goTo .command
  refine .skipWhile ((tests_eq '\n' (by decide)).not) hfuel ?_
  refine .instead (answer_comment hcomments.place fun c hc => ?_)
    (fun _ _ => hmoved.words.trans hwords) rfl rfl ?_
  · simpa using not_of_mem_head?_dropWhile hc
  · exact hgo _ _ (rest.dropWhile_suffix _) hmoved

/-- A command up to the end of its line; what has been read ends with it. -/
lemma reads_line {n : ℕ} (hbrackets : Brackets text n) {fuel : ℕ} (hdepth : fuel ≤ n)
    (hfuel : 5 * String.utf8Len (c :: rest) + 4 ≤ fuel) {nested : Bool} {lines : List ScriptLine}
    {α : Type} {P : α → State → List Char → Prop} {k : ℕ → List ScriptWord → Reading α}
    (hplace : s.place = .command) (hnested : s.isNested = nested)
    (hlines : s.body.lines = lines.reverse) (hwords : s.body.words = []) (hgap : isGap c = false)
    (hclose : ¬(c = ']' ∧ nested)) (hcomment : c ≠ '#')
    (hgo : ∀ words t rest', rest' <:+ rest →
      AtEnd s (if words.isEmpty then lines else lines ++ [⟨s.line, words⟩]) t →
        Reads text (k s.line words) t rest' P) : Reads text (do
      let cursor ← get
      let words ← readWords text fuel nested []
      k cursor.line words) s (c :: rest) P := by
  have hnot : endsLine nested c = false := by
    refine Bool.eq_false_iff.mpr fun h => ?_
    obtain rfl | rfl | hbracket := endsLine_iff.mp h
    · exact absurd hgap (by decide)
    · exact absurd hgap (by decide)
    · exact hclose hbracket
  refine .instead (answer_command hplace hgap (hnested ▸ hclose) hcomment)
    (fun _ => fresh_of_place rfl nofun nofun) rfl rfl (.get ?_)
  refine .bind (reads_readWords hbrackets hdepth hfuel rfl hnested hwords) ?_
  intro words t rest' _ hsuffix h
  obtain ⟨hmoved, hends⟩ := h
  have hnested' : t.isNested = nested := hmoved.isNested.trans hnested
  have hlines' : t.endLine.body.lines =
      (if words.isEmpty then lines else lines ++ [⟨s.line, words⟩]).reverse := by
    have hbefore : t.body.lines = lines.reverse := hmoved.lines.trans hlines
    have hcommand : t.body.words = words.reverse := hmoved.words
    have hnumber : t.body.number = s.line := hmoved.number
    unfold State.endLine Body.endLine
    rw [hcommand, hnumber, hbefore]
    cases words with
    | nil => exact hbefore
    | cons w words => simp
  refine .instead (answer_between hmoved.place (hnested' ▸ hends))
    (fun _ _ => t.body.words_endLine) (noted_endLine t) rfl ?_
  exact hgo words t.endLine rest' (suffix_of_suffix_cons hsuffix hnot hends)
    ⟨rfl, hmoved.outer, hlines', t.body.words_endLine⟩

/-- The commands up to the end of the text or behind the bracket that closes them. -/
lemma reads_readBody {n : ℕ} (hbrackets : Brackets text n) {fuel : ℕ} (hdepth : fuel ≤ n)
    (hfuel : 5 * String.utf8Len rest + 5 ≤ fuel) {nested : Bool} {lines : List ScriptLine}
    (hplace : s.place = .command) (hnested : s.isNested = nested)
    (hlines : s.body.lines = lines.reverse) (hwords : s.body.words = []) :
    Reads text (readBody text fuel nested lines) s rest (Closed nested s) := by
  induction fuel generalizing s rest lines with
  | zero => omega
  | succ fuel ih =>
    have hgaps : Moved s (run s (rest.takeWhile isGap)) .command :=
      .run (fun _ => .command) [] hplace _ fun c hc _ _ =>
        if_pos (List.mem_takeWhile_imp hc)
    have hle := String.utf8Len_le_of_suffix (rest.dropWhile_suffix isGap)
    have hgap : ∀ c ∈ (rest.dropWhile isGap).head?, isGap c = false :=
      fun c => not_of_mem_head?_dropWhile
    rw [readBody]
    refine .skipWhile tests_isGap (by omega) ?_
    generalize rest.dropWhile isGap = rest' at hle hgap
    generalize run s (rest.takeWhile isGap) = t at hgaps
    have hend : AtEnd s lines t :=
      ⟨hgaps.place, hgaps.outer, hgaps.lines.trans hlines, hgaps.words.trans hwords⟩
    have hnested' : t.isNested = nested := hgaps.isNested.trans hnested
    -- more commands follow
    have hgo {u : State} {rest'' : List Char} {lines' : List ScriptLine} (hu : AtEnd s lines' u)
        (hlt : String.utf8Len rest'' < String.utf8Len rest) :
        Reads text (readBody text fuel nested lines') u rest'' (Closed nested s) := by
      have hnested'' : u.isNested = nested := by
        rw [← hnested, State.isNested, hu.outer]
        rfl
      exact (ih (by omega) (by omega) hu.place hnested'' hu.lines hu.words).mono
        fun _ _ _ _ h => hu.closed h
    cases rest' with
    | nil =>
      refine .byte?_nil ?_
      cases nested with
      | true =>
        refine .fail ?_
        unfold flaw? flaw?.bodyFlaw
        rw [hgaps.place, hnested']
        rfl
      | false => exact .pure ⟨t, hend, fun h => absurd h Bool.false_ne_true, fun _ => ⟨rfl, rfl⟩⟩
    | cons c rest' =>
      refine .byte?_cons ?_
      simp only [first_eq_code_iff (d := ']') (by decide), first_eq_code_iff (d := '#') (by decide)]
      split
      · rename_i hclose
        obtain ⟨rfl, rfl⟩ := hclose
        exact .advance (by decide)
          (.pure ⟨t, hend, fun _ => rfl, fun h => absurd h.symm Bool.false_ne_true⟩)
      rename_i hclose
      split
      · rename_i hc
        subst hc
        refine reads_comment (by omega) hgaps.place hend.words fun u rest'' hsuffix hmoved => ?_
        exact hgo ⟨hmoved.place, hmoved.outer.trans hend.outer, hmoved.lines.trans hend.lines,
          hmoved.words.trans hend.words⟩ ((utf8Len_lt_cons _ hsuffix).trans_le hle)
      · rename_i hcomment
        have hcalls : 5 * String.utf8Len (c :: rest') + 4 ≤ fuel := by omega
        have hline := reads_line hbrackets (by omega) hcalls hgaps.place hnested' hend.lines
          hend.words (hgap c rfl) hclose hcomment (P := Closed nested s)
          (k := fun number words => readBody text fuel nested
            (if words.isEmpty then lines else lines ++ [⟨number, words⟩]))
        refine hline fun words u rest'' hsuffix hu => ?_
        exact hgo ⟨hu.place, hu.outer.trans hend.outer, hu.lines, hu.words⟩
          ((utf8Len_lt_cons c hsuffix).trans_le hle)

/-- The script in brackets behind the character that opens them. -/
lemma reads_readSubstitution {n : ℕ} (hbrackets : Brackets text n) {fuel : ℕ}
    (hdepth : fuel ≤ n) (hfuel : 5 * String.utf8Len rest + 6 ≤ fuel) {d : Draft}
    (hplace : s.place = .word d) :
    Reads text (readSubstitution text fuel) s ('[' :: rest) fun script t rest' =>
      Moved s t (.word (d.addPart (.substitution script))) ∧ rest' <:+ rest := by
  obtain ⟨fuel, rfl⟩ := Nat.exists_eq_add_one_of_ne_zero (Nat.ne_zero_of_lt hfuel)
  obtain ⟨line, source, hopen⟩ := step_bracket hplace
  rw [readSubstitution]
  refine .advance (by decide) ?_
  generalize step s '[' = v at hopen
  refine Reads.mono (P := fun script t _ => Moved s t (.word (d.addPart (.substitution script)))) ?_
    fun _ _ _ hsuffix h => ⟨h, hsuffix⟩
  refine .get (.bind (reads_readBody hbrackets (by omega) (by omega) (by rw [hopen])
    (by rw [hopen]; rfl) (by rw [hopen]; rfl) (by rw [hopen]; rfl)) ?_)
  rintro lines _ rest' - - ⟨u, hu, hclosed, -⟩
  obtain rfl := hclosed rfl
  have houter : u.outer = ({ s.body with source := source }, d.flush) :: s.outer := by
    rw [hu.outer, hopen]
  have hclose : u.closes ']' = true := by
    unfold State.closes State.isNested
    rw [hu.place, houter]
    rfl
  have hread : (step u ']').noted.reverse = v.noted.reverse ++ u.body.source.reverse ++ [']'] := by
    rw [(step_facts fun _ => hu.words).2.1, List.reverse_cons, State.noted, houter,
      List.reverse_append, hopen]
    rfl
  have hscript : (finalBody u).script = ⟨lines, String.ofList u.body.source.reverse⟩ := by
    rw [finalBody_of_command hu.place hu.words, Body.script, hu.lines, List.reverse_reverse]
  refine .get (.cut_before hread ?_ (.pure ?_))
  · unfold cursorOf
    rw [hread, String.utf8Len_append, String.utf8Len_append]
    rfl
  · rw [← hscript, ← addPart_flush, step_of_closes hclose houter]
    exact ⟨rfl, rfl, _, rfl⟩

/-- All scripts in brackets are read as the reader reads them. -/
lemma brackets (text : String) (n : ℕ) : Brackets text n := by
  induction n with
  | zero => exact fun hlt => absurd hlt (Nat.not_lt_zero _)
  | succ n ih =>
    exact fun hlt hfuel hplace =>
      reads_readSubstitution ih (Nat.le_of_lt_succ hlt) hfuel hplace

/-- **Reading by descent is reading.**  For every text the descent comes to an end, cuts no
character apart and nothing beyond the end of the text, and gives what the reader gives.  No more
calls than five for each byte and five more stand in each other. -/
theorem read?_eq (text : String) {fuel : ℕ} (hfuel : 5 * text.utf8ByteSize + 5 ≤ fuel) :
    read? text fuel = some ((ofText? text).mapError Stop.flaw) := by
  have hready : Ready text .start text.toList := ⟨fun _ => rfl, rfl⟩
  have hreads : Reads text (readBody text fuel false []) .start text.toList
      (Closed false .start) := by
    rw [← String.utf8Len_toList] at hfuel
    exact reads_readBody (brackets text fuel) le_rfl hfuel rfl rfl rfl rfl
  have hrun : read? text fuel = Option.map (Except.map fun p => (⟨p.1, text⟩ : Script))
      (readBody text fuel false [] (cursorOf .start)) := rfl
  obtain ⟨lines, t, rest, -, -, hresult, hanswer, u, hu, -, hend⟩ | ⟨e, hresult, hanswer⟩ :=
    hreads hready
  · obtain ⟨rfl, rfl⟩ := hend rfl
    have hflaw : flaw? t = none := by
      unfold flaw? flaw?.bodyFlaw State.isNested
      rw [hu.place, hu.outer]
      rfl
    have hfinal : (finalBody t).script = ⟨lines, String.ofList t.body.source.reverse⟩ := by
      rw [finalBody_of_command hu.place hu.words, Body.script, hu.lines, List.reverse_reverse]
    have hread : ofText? text = .ok ⟨lines, String.ofList t.body.source.reverse⟩ := by
      refine hanswer.trans ?_
      show finish t = _
      unfold finish
      rw [hflaw, hfinal]
    rw [hrun, hresult, hread, ← source_of_ofText? hread]
    rfl
  · have hread : ofText? text = .error e := hanswer
    rw [hrun, hresult, hread]
    rfl

/-- **Reading by descent ends, in bounds, with a neat script or a flaw.**  For every text it comes
to an end within five calls in each other for each byte and five more, and cuts no character apart
and nothing beyond the end of the text; and a script that it gives is in good shape at every depth
of its brackets, with line numbers of the text. -/
theorem read?_ends (text : String) : ∃ r : Except ScriptError Script,
    (∀ fuel, 5 * text.utf8ByteSize + 5 ≤ fuel → read? text fuel = some (r.mapError .flaw)) ∧
      r = ofText? text ∧
        ∀ s, r = .ok s → s.Throughout (Script.Neat (1 + text.toList.count '\n')) := by
  refine ⟨ofText? text, fun _ => read?_eq text, rfl, fun s hs => ?_⟩
  obtain ⟨-, rfl⟩ := finish_eq_ok hs
  have hline (front : List Char) (hfront : front <+: text.toList) :
      (run .start front).line ≤ 1 + text.toList.count '\n' := by
    rw [(run_facts front).2.2]
    exact Nat.add_le_add_left (hfront.sublist.count_le '\n') 1
  have hfits : (run .start text.toList).Fits (Script.Neat (1 + text.toList.count '\n')) :=
    (State.Fits.start _).run text.toList fun front c hfront _ hneat =>
      hneat.mono (hline front ((List.prefix_append front [c]).trans hfront))
  exact ⟨hfits.finalBody.neat_script.mono (hline _ (List.prefix_refl _)),
    fun t ht => hfits.finalBody.of_inside ht⟩

end Switchboard.Script.Descent
