import Mathlib
import Switchboard.Proofs.StoredValues

/-!
# The language of addresses

Which texts are addresses, and of which kind, is said by four regular languages over characters,
`Written.path`, `Written.endpoint`, `Written.port` and their sum `Written.address`.  The four
readers cut a text at different places, and the reader of all kinds guesses the kind from what
stands behind the last slash.  None of that shows in what they accept: each gives an address exactly
for the text that the address is written as (`Path.ofText?_eq_ok` and its likes), since nothing is
lost where a text is cut and no mark that texts are cut at is in an identifier.

The main theorem `Address.ofText?_bijective` puts the languages and the readers together: reading
and writing are inverse to each other between the texts of the language and the addresses, kind by
kind.
-/

namespace Switchboard

open scoped Computability

/-! ## The written forms -/

namespace Written

/-- The texts of one character that has the property. -/
def single (P : Char → Prop) : Language Char := {cs | ∃ c, cs = [c] ∧ P c}

/-- The text of this one character. -/
def mark (c : Char) : Language Char := single (· = c)

/-- Letters, `[A-Za-z]`. -/
def letter : Language Char := single fun c => ('A' ≤ c ∧ c ≤ 'Z') ∨ ('a' ≤ c ∧ c ≤ 'z')

/-- Digits, `[0-9]`. -/
def digit : Language Char := single fun c => '0' ≤ c ∧ c ≤ '9'

/-- Identifiers, `[A-Za-z][A-Za-z0-9_-]*`. -/
def id : Language Char := letter * (letter + digit + mark '_' + mark '-')∗

/-- One or more identifiers, each behind a slash. -/
def path : Language Char := mark '/' * id * (mark '/' * id)∗

/-- A path, a point and an identifier, before which one underscore may stand. -/
def endpoint : Language Char := path * mark '.' * ((1 + mark '_') * id)

/-- A path, an exclamation mark and an identifier. -/
def port : Language Char := path * mark '!' * id

/-- The texts of addresses of all kinds. -/
def address : Language Char := path + endpoint + port

variable {cs : List Char} {c : Char} {P Q : Char → Prop} {L : Language Char}

/-- What is of one of two kinds of characters is of both kinds together. -/
lemma single_add_single : single P + single Q = single fun c => P c ∨ Q c := by
  ext cs
  rw [Language.mem_add]
  constructor
  · rintro (⟨c, rfl, h⟩ | ⟨c, rfl, h⟩)
    · exact ⟨c, rfl, .inl h⟩
    · exact ⟨c, rfl, .inr h⟩
  · rintro ⟨c, rfl, h | h⟩
    · exact .inl ⟨c, rfl, h⟩
    · exact .inr ⟨c, rfl, h⟩

/-- What begins with a mark has the mark in front of something else. -/
lemma mem_mark_mul : cs ∈ mark c * L ↔ ∃ rest ∈ L, cs = c :: rest := by
  rw [Language.mem_mul]
  constructor
  · rintro ⟨_, ⟨_, rfl, rfl⟩, rest, hrest, rfl⟩
    exact ⟨rest, hrest, rfl⟩
  · rintro ⟨rest, hrest, rfl⟩
    exact ⟨[c], ⟨c, rfl, rfl⟩, rest, hrest, rfl⟩

/-- Where the texts of a language are the texts of some things, its repetitions are the texts of
lists of them. -/
lemma mem_kstar_iff {α : Type} {f : α → List Char} (h : ∀ cs, cs ∈ L ↔ ∃ a, f a = cs) :
    cs ∈ L∗ ↔ ∃ as : List α, as.flatMap f = cs := by
  rw [Language.mem_kstar]
  constructor
  · rintro ⟨pieces, rfl, hpieces⟩
    have hrange : pieces ∈ Set.range (List.map f) := by
      rw [Set.range_list_map]
      exact fun piece hpiece => (h piece).mp (hpieces piece hpiece)
    obtain ⟨as, rfl⟩ := hrange
    exact ⟨as, rfl⟩
  · rintro ⟨as, rfl⟩
    refine ⟨as.map f, rfl, ?_⟩
    intro piece hpiece
    obtain ⟨a, -, rfl⟩ := List.mem_map.mp hpiece
    exact (h _).mpr ⟨a, rfl⟩

/-- The characters of a repetition are those of the language that is repeated. -/
lemma mem_kstar_single : cs ∈ (single P)∗ ↔ ∀ c ∈ cs, P c := by
  rw [Language.mem_kstar]
  constructor
  · rintro ⟨pieces, rfl, hpieces⟩ c hc
    obtain ⟨piece, hpiece, hc⟩ := List.mem_flatten.mp hc
    obtain ⟨d, rfl, hd⟩ := hpieces piece hpiece
    rwa [List.mem_singleton.mp hc]
  · intro h
    refine ⟨cs.map fun c => [c], (List.flatMap_singleton' cs).symm, ?_⟩
    intro piece hpiece
    obtain ⟨c, hc, rfl⟩ := List.mem_map.mp hpiece
    exact ⟨c, rfl, h c hc⟩

/-- Letters are what the reader of identifiers takes for letters. -/
lemma isAlpha_iff : c.isAlpha = true ↔ ('A' ≤ c ∧ c ≤ 'Z') ∨ ('a' ≤ c ∧ c ≤ 'z') := by
  simp [Char.isAlpha, Char.isUpper, Char.isLower, Char.le_def]

/-- The characters behind the first one of an identifier. -/
lemma isIdChar_iff :
    isIdChar c = true ↔
      ((('A' ≤ c ∧ c ≤ 'Z') ∨ ('a' ≤ c ∧ c ≤ 'z')) ∨ ('0' ≤ c ∧ c ≤ '9')) ∨ c = '_' ∨ c = '-' := by
  have hdigit : c.isDigit = true ↔ '0' ≤ c ∧ c ≤ '9' := by
    simp [Char.isDigit, Char.le_def]
  simp only [isIdChar, Char.isAlphanum, Bool.or_eq_true, isAlpha_iff, hdigit, beq_iff_eq]
  tauto

/-- The identifiers are the texts that the reader takes for identifiers. -/
lemma mem_id : cs ∈ id ↔ isId cs = true := by
  have hrest : letter + digit + mark '_' + mark '-' = single (isIdChar · = true) := by
    simp only [letter, digit, mark, single_add_single, isIdChar_iff, or_assoc]
  rw [id, hrest, Language.mem_mul]
  constructor
  · rintro ⟨_, ⟨c, rfl, hc⟩, rest, hrest, rfl⟩
    rw [List.singleton_append, isId, Bool.and_eq_true, List.all_eq_true]
    exact ⟨isAlpha_iff.mpr hc, mem_kstar_single.mp hrest⟩
  · intro h
    cases cs with
    | nil => contradiction
    | cons c rest =>
      rw [isId, Bool.and_eq_true, List.all_eq_true] at h
      exact ⟨[c], ⟨c, rfl, isAlpha_iff.mp h.1⟩, rest, mem_kstar_single.mpr h.2, rfl⟩

/-- The identifiers of endpoints are the texts that the reader takes for such. -/
lemma mem_endpointId : cs ∈ (1 + mark '_') * id ↔ isEndpointId cs = true := by
  rw [add_mul, one_mul, Language.mem_add, mem_mark_mul]
  unfold isEndpointId
  split
  · rename_i rest
    have hfirst : ¬isId ('_' :: rest) = true := by simp [isId]
    simp [mem_id, hfirst]
  · rename_i hne
    simp only [mem_id, or_iff_left_iff_imp]
    rintro ⟨rest, -, rfl⟩
    exact absurd rfl (hne rest)

end Written

/-! ## Cutting without loss -/

namespace Text

variable {sep : Char}

/-- There is always a piece. -/
lemma cutAt_ne_nil (cs : List Char) : cutAt sep cs ≠ [] := by
  cases cs with
  | nil => exact List.cons_ne_nil _ _
  | cons c cs =>
    rw [cutAt]
    split_ifs
    · exact List.cons_ne_nil _ _
    · split <;> exact List.cons_ne_nil _ _

/-- The pieces of a text, each behind a separator, are the text behind a separator. -/
lemma flatMap_cutAt (cs : List Char) :
    ((cutAt sep cs).flatMap fun piece => sep :: piece) = sep :: cs := by
  induction cs with
  | nil => rfl
  | cons c cs ih =>
    rw [cutAt]
    split_ifs with hc
    · rw [List.flatMap_cons, ih, hc, List.singleton_append]
    · cases hpieces : cutAt sep cs with
      | nil => exact absurd hpieces (cutAt_ne_nil cs)
      | cons piece pieces =>
        rw [hpieces, List.flatMap_cons, List.cons_append, List.cons_inj_right] at ih
        rw [List.flatMap_cons, List.cons_append, List.cons_append, ih]

end Text

/-- The two sides of the last slash make up the text. -/
lemma append_of_cutLastSlash? {cs front back : List Char}
    (h : cutLastSlash? cs = some (front, back)) : front ++ back = cs := by
  induction cs generalizing front with
  | nil => contradiction
  | cons c cs ih =>
    rw [cutLastSlash?] at h
    cases hcut : cutLastSlash? cs with
    | some cut =>
      simp only [hcut, Option.some.injEq, Prod.mk.injEq] at h
      obtain ⟨rfl, rfl⟩ := h
      rw [List.cons_append, ih hcut]
    | none =>
      simp only [hcut] at h
      split_ifs at h
      simp only [Option.some.injEq, Prod.mk.injEq] at h
      obtain ⟨rfl, rfl⟩ := h
      rfl

/-- The two sides of a mark make up the text with the mark between them. -/
lemma append_of_cutAtMark? {mark : Char} {cs front id : List Char}
    (h : cutAtMark? mark cs = .ok (front, id)) : front ++ mark :: id = cs := by
  unfold cutAtMark? at h
  split at h
  · contradiction
  · rename_i before back hcut
    split at h
    · contradiction
    · rename_i c rest hdrop
      have hc : c = mark := by
        have hhead := List.head?_dropWhile_not (· != mark) back
        rw [hdrop] at hhead
        simpa using hhead
      simp only [Except.ok.injEq, Prod.mk.injEq] at h
      obtain ⟨rfl, rfl⟩ := h
      calc before ++ back.takeWhile (· != mark) ++ mark :: rest
          = before ++ (back.takeWhile (· != mark) ++ back.dropWhile (· != mark)) := by
            rw [hdrop, hc, List.append_assoc]
        _ = cs := by rw [List.takeWhile_append_dropWhile, append_of_cutLastSlash? hcut]

/-! ## What is read is what is written -/

section

variable {ε α β : Type}

/-- What is made of a result was made of one. -/
lemma exists_of_map_eq_ok {f : α → β} {x : Except ε α} {b : β} (h : x.map f = .ok b) :
    ∃ a, x = .ok a ∧ f a = b := by
  cases x with
  | error e => contradiction
  | ok a =>
    cases h
    exact ⟨a, rfl, rfl⟩

/-- Where two steps in turn have a result, both have one. -/
lemma exists_of_bind_eq_ok {f : α → Except ε β} {x : Except ε α} {b : β}
    (h : x >>= f = .ok b) : ∃ a, x = .ok a ∧ f a = .ok b := by
  cases x with
  | error e => contradiction
  | ok a => exact ⟨a, rfl, h⟩

end

/-- A text is read as the identifier that it is the text of. -/
lemma Id.ofText?_eq_ok {s : String} {i : Id} : ofText? s = .ok i ↔ i.text = s := by
  constructor
  · intro h
    unfold ofText? at h
    split at h
    · cases h
      rfl
    · contradiction
  · rintro rfl
    exact i.ofText?_text

/-- A text is read as the identifier of an endpoint that it is the text of. -/
lemma EndpointId.ofText?_eq_ok {s : String} {i : EndpointId} : ofText? s = .ok i ↔ i.text = s := by
  constructor
  · intro h
    unfold ofText? at h
    split at h
    · cases h
      rfl
    · contradiction
  · rintro rfl
    exact i.ofText?_text

namespace Path

/-- Pieces are read as the identifiers that they are the texts of. -/
lemma idsOfPieces?_eq_ok {pieces : List (List Char)} {is : List Id} :
    idsOfPieces? pieces = .ok is ↔ (is.map fun i => i.text.toList) = pieces := by
  constructor
  · intro h
    induction pieces generalizing is with
    | nil =>
      cases h
      rfl
    | cons piece pieces ih =>
      rw [idsOfPieces?] at h
      split at h
      · contradiction
      · rename_i i hi
        cases hrest : idsOfPieces? pieces with
        | error e =>
          rw [hrest] at h
          contradiction
        | ok rest =>
          rw [hrest] at h
          cases h
          rw [List.map_cons, ih hrest, Id.ofText?_eq_ok.mp hi, String.toList_ofList]
  · rintro rfl
    exact idsOfPieces?_map is

/-- Characters are read as the path that is written with them. -/
lemma ofChars?_eq_ok {cs : List Char} {p : Path} : ofChars? cs = .ok p ↔ p.text.toList = cs := by
  constructor
  · intro h
    unfold ofChars? at h
    split at h
    · contradiction
    · rename_i rest
      split at h
      · contradiction
      · contradiction
      · rename_i root below hids
        cases h
        have hpieces := idsOfPieces?_eq_ok.mp hids
        rw [toList_text, ids, ← Text.flatMap_cutAt rest, ← hpieces, List.flatMap_map]
    · contradiction
  · rintro rfl
    exact p.ofChars?_text

/-- A text is read as the path that is written so. -/
lemma ofText?_eq_ok {s : String} {p : Path} : ofText? s = .ok p ↔ p.text = s := by
  rw [ofText?, ofChars?_eq_ok, String.toList_inj]

end Path

/-- What is read of a text that is cut at a mark is read of a path and of what stands behind the
mark. -/
lemma exists_of_read_eq_ok {α : Type} {mark : Char} {cs : List Char} {a : α}
    {read : Path → String → Except AddressError α}
    (h : (do
      let (path, id) ← cutAtMark? mark cs
      read (← Path.ofChars? path) (String.ofList id)) = .ok a) :
    ∃ (p : Path) (id : List Char),
      read p (String.ofList id) = .ok a ∧ p.text.toList ++ mark :: id = cs := by
  obtain ⟨⟨front, id⟩, hcut, h⟩ := exists_of_bind_eq_ok h
  obtain ⟨p, hp, h⟩ := exists_of_bind_eq_ok h
  refine ⟨p, id, h, ?_⟩
  rw [Path.ofChars?_eq_ok.mp hp]
  exact append_of_cutAtMark? hcut

/-- The address that an endpoint is named by is a path with an identifier behind it. -/
lemma Path.endpoint?_eq_ok {p : Path} {s : String} {e : Endpoint} :
    p.endpoint? s = .ok e ↔ e.path = p ∧ e.id.text = s := by
  constructor
  · intro h
    obtain ⟨i, hi, rfl⟩ := exists_of_map_eq_ok h
    exact ⟨rfl, EndpointId.ofText?_eq_ok.mp hi⟩
  · rintro ⟨rfl, rfl⟩
    rw [endpoint?, e.id.ofText?_text]
    rfl

/-- The address that a port is named by is a path with an identifier behind it. -/
lemma Path.port?_eq_ok {p : Path} {s : String} {e : PortAddress} :
    p.port? s = .ok e ↔ e.path = p ∧ e.id.text = s := by
  constructor
  · intro h
    obtain ⟨i, hi, rfl⟩ := exists_of_map_eq_ok h
    exact ⟨rfl, Id.ofText?_eq_ok.mp hi⟩
  · rintro ⟨rfl, rfl⟩
    rw [port?, e.id.ofText?_text]
    rfl

/-- The reader of all kinds gives what the reader of the kind gives. -/
lemma Address.ofChars?_kind {cs : List Char} {a : Address} (h : ofChars? cs = .ok a) :
    match a with
    | .unit p => Path.ofChars? cs = .ok p
    | .endpoint e => Endpoint.ofChars? cs = .ok e
    | .port e => PortAddress.ofChars? cs = .ok e := by
  unfold ofChars? at h
  simp only at h
  split_ifs at h
  all_goals
    obtain ⟨b, hb, rfl⟩ := exists_of_map_eq_ok h
    exact hb

namespace Endpoint

/-- The characters of the address of an endpoint. -/
lemma toList_text (e : Endpoint) :
    e.text.toList = e.path.text.toList ++ '.' :: e.id.text.toList := by
  simp [text]

/-- A text is read as the address of an endpoint that is written so. -/
lemma ofText?_eq_ok {s : String} {e : Endpoint} : ofText? s = .ok e ↔ e.text = s := by
  constructor
  · intro h
    obtain ⟨p, id, h, hcs⟩ := exists_of_read_eq_ok h
    obtain ⟨rfl, hid⟩ := Path.endpoint?_eq_ok.mp h
    rw [← String.toList_inj, toList_text, hid, String.toList_ofList, hcs]
  · rintro rfl
    exact Address.ofChars?_kind (Address.ofText?_text (.endpoint e))

end Endpoint

namespace PortAddress

/-- The characters of the address of a port. -/
lemma toList_text (e : PortAddress) :
    e.text.toList = e.path.text.toList ++ '!' :: e.id.text.toList := by
  simp [text]

/-- A text is read as the address of a port that is written so. -/
lemma ofText?_eq_ok {s : String} {e : PortAddress} : ofText? s = .ok e ↔ e.text = s := by
  constructor
  · intro h
    obtain ⟨p, id, h, hcs⟩ := exists_of_read_eq_ok h
    obtain ⟨rfl, hid⟩ := Path.port?_eq_ok.mp h
    rw [← String.toList_inj, toList_text, hid, String.toList_ofList, hcs]
  · rintro rfl
    exact Address.ofChars?_kind (Address.ofText?_text (.port e))

end PortAddress

/-- A text is read as the address that is written so. -/
lemma Address.ofText?_eq_ok {s : String} {a : Address} : ofText? s = .ok a ↔ a.text = s := by
  constructor
  · intro h
    have hkind := ofChars?_kind h
    cases a with
    | unit p => exact Path.ofText?_eq_ok.mp hkind
    | endpoint e => exact Endpoint.ofText?_eq_ok.mp hkind
    | port e => exact PortAddress.ofText?_eq_ok.mp hkind
  · rintro rfl
    exact a.ofText?_text

/-! ## The texts of addresses -/

namespace Written

/-- The texts of identifiers. -/
lemma mem_id_iff {cs : List Char} : cs ∈ id ↔ ∃ i : Id, i.text.toList = cs := by
  rw [mem_id]
  constructor
  · intro h
    exact ⟨⟨String.ofList cs, by rwa [String.toList_ofList]⟩, String.toList_ofList⟩
  · rintro ⟨i, rfl⟩
    exact i.valid

/-- The texts of identifiers of endpoints. -/
lemma mem_endpointId_iff {cs : List Char} :
    cs ∈ (1 + mark '_') * id ↔ ∃ i : EndpointId, i.text.toList = cs := by
  rw [mem_endpointId]
  constructor
  · intro h
    exact ⟨⟨String.ofList cs, by rwa [String.toList_ofList]⟩, String.toList_ofList⟩
  · rintro ⟨i, rfl⟩
    exact i.valid

/-- The texts of paths. -/
lemma mem_path {cs : List Char} : cs ∈ path ↔ ∃ p : Path, p.text.toList = cs := by
  have hsegment : ∀ cs, cs ∈ mark '/' * id ↔ ∃ i : Id, '/' :: i.text.toList = cs := by
    intro cs
    rw [mem_mark_mul]
    constructor
    · rintro ⟨rest, hrest, rfl⟩
      obtain ⟨i, rfl⟩ := mem_id_iff.mp hrest
      exact ⟨i, rfl⟩
    · rintro ⟨i, rfl⟩
      exact ⟨_, mem_id_iff.mpr ⟨i, rfl⟩, rfl⟩
  rw [path, Language.mem_mul]
  constructor
  · rintro ⟨_, hroot, _, hbelow, rfl⟩
    obtain ⟨root, rfl⟩ := (hsegment _).mp hroot
    obtain ⟨below, rfl⟩ := (mem_kstar_iff hsegment).mp hbelow
    exact ⟨⟨root, below⟩, Path.toList_text _⟩
  · rintro ⟨p, rfl⟩
    exact ⟨_, (hsegment _).mpr ⟨p.root, rfl⟩, _, (mem_kstar_iff hsegment).mpr ⟨p.below, rfl⟩,
      p.toList_text.symm⟩

/-- The texts that are made up of a path, a mark and something else. -/
lemma mem_path_mark_mul {cs : List Char} {c : Char} {L : Language Char} :
    cs ∈ path * mark c * L ↔ ∃ p : Path, ∃ rest ∈ L, p.text.toList ++ c :: rest = cs := by
  rw [mul_assoc, Language.mem_mul]
  constructor
  · rintro ⟨_, hpath, _, hmarked, rfl⟩
    obtain ⟨p, rfl⟩ := mem_path.mp hpath
    obtain ⟨rest, hrest, rfl⟩ := mem_mark_mul.mp hmarked
    exact ⟨p, rest, hrest, rfl⟩
  · rintro ⟨p, rest, hrest, rfl⟩
    exact ⟨_, mem_path.mpr ⟨p, rfl⟩, _, mem_mark_mul.mpr ⟨rest, hrest, rfl⟩, rfl⟩

/-- The texts of addresses of endpoints. -/
lemma mem_endpoint {cs : List Char} : cs ∈ endpoint ↔ ∃ e : Endpoint, e.text.toList = cs := by
  rw [endpoint, mem_path_mark_mul]
  constructor
  · rintro ⟨p, _, hid, rfl⟩
    obtain ⟨i, rfl⟩ := mem_endpointId_iff.mp hid
    exact ⟨⟨p, i⟩, Endpoint.toList_text _⟩
  · rintro ⟨e, rfl⟩
    exact ⟨e.path, _, mem_endpointId_iff.mpr ⟨e.id, rfl⟩, e.toList_text.symm⟩

/-- The texts of addresses of ports. -/
lemma mem_port {cs : List Char} : cs ∈ port ↔ ∃ e : PortAddress, e.text.toList = cs := by
  rw [port, mem_path_mark_mul]
  constructor
  · rintro ⟨p, _, hid, rfl⟩
    obtain ⟨i, rfl⟩ := mem_id_iff.mp hid
    exact ⟨⟨p, i⟩, PortAddress.toList_text _⟩
  · rintro ⟨e, rfl⟩
    exact ⟨e.path, _, mem_id_iff.mpr ⟨e.id, rfl⟩, e.toList_text.symm⟩

/-- The texts of addresses. -/
lemma mem_address {cs : List Char} : cs ∈ address ↔ ∃ a : Address, a.text.toList = cs := by
  rw [address, Language.mem_add, Language.mem_add, mem_path, mem_endpoint, mem_port]
  constructor
  · rintro ((⟨p, hp⟩ | ⟨e, he⟩) | ⟨e, he⟩)
    · exact ⟨.unit p, hp⟩
    · exact ⟨.endpoint e, he⟩
    · exact ⟨.port e, he⟩
  · rintro ⟨a, ha⟩
    cases a with
    | unit p => exact .inl (.inl ⟨p, ha⟩)
    | endpoint e => exact .inl (.inr ⟨e, ha⟩)
    | port e => exact .inr ⟨e, ha⟩

end Written

/-! ## Addresses that are put together -/

namespace Address

/-- The addresses that are put together from the texts of identifiers, beginning with a root. -/
inductive Built : Address → Prop where
  | root {s : String} {p : Path} : Path.ofRoot? s = .ok p → Built (.unit p)
  | child {s : String} {p q : Path} : Built (.unit p) → p.child? s = .ok q → Built (.unit q)
  | parent {p q : Path} : Built (.unit p) → p.parent? = some q → Built (.unit q)
  | endpoint {s : String} {p : Path} {e : Endpoint} :
      Built (.unit p) → p.endpoint? s = .ok e → Built (.endpoint e)
  | port {s : String} {p : Path} {e : PortAddress} :
      Built (.unit p) → p.port? s = .ok e → Built (.port e)

/-- Every path is put together from its root downwards. -/
lemma built_unit (p : Path) : Built (.unit p) := by
  obtain ⟨root, below⟩ := p
  induction below using List.reverseRecOn with
  | nil =>
    refine .root (s := root.text) ?_
    rw [Path.ofRoot?, root.ofText?_text]
    rfl
  | append_singleton below i ih =>
    refine .child (s := i.text) ih ?_
    rw [Path.child?, i.ofText?_text]
    rfl

/-- Every address is put together from identifiers. -/
lemma built (a : Address) : Built a := by
  cases a with
  | unit p => exact built_unit p
  | endpoint e => exact .endpoint (built_unit e.path) (Path.endpoint?_eq_ok.mpr ⟨rfl, rfl⟩)
  | port e => exact .port (built_unit e.path) (Path.port?_eq_ok.mpr ⟨rfl, rfl⟩)

/-- A text is read as an address exactly if it belongs to the language of addresses, and the
address is then the only one that is written so; its kind is that of the language.  The reader of
one kind accepts the texts of its kind alone and gives the same address.  Every address can be put
together from identifiers, and all that are put together are read back from their texts. -/
theorem ofText?_bijective :
    (∀ s, (∃ a, ofText? s = .ok a) ↔ s.toList ∈ Written.address) ∧
      (∀ s a, ofText? s = .ok a ↔ a.text = s) ∧
      (∀ s, ((∃ p, ofText? s = .ok (.unit p)) ↔ s.toList ∈ Written.path) ∧
        ((∃ e, ofText? s = .ok (.endpoint e)) ↔ s.toList ∈ Written.endpoint) ∧
        ((∃ e, ofText? s = .ok (.port e)) ↔ s.toList ∈ Written.port)) ∧
      (∀ s, (∀ p, Path.ofText? s = .ok p ↔ ofText? s = .ok (.unit p)) ∧
        (∀ e, Endpoint.ofText? s = .ok e ↔ ofText? s = .ok (.endpoint e)) ∧
        ∀ e, PortAddress.ofText? s = .ok e ↔ ofText? s = .ok (.port e)) ∧
      ∀ a, Built a ∧ ofText? a.text = .ok a := by
  refine ⟨?_, fun s a => ofText?_eq_ok, ?_, ?_, fun a => ⟨built a, a.ofText?_text⟩⟩
  · intro s
    simp only [ofText?_eq_ok, Written.mem_address, String.toList_inj]
  · intro s
    simp only [ofText?_eq_ok, Written.mem_path, Written.mem_endpoint, Written.mem_port,
      String.toList_inj, text, and_self]
  · intro s
    simp only [ofText?_eq_ok, Path.ofText?_eq_ok, Endpoint.ofText?_eq_ok,
      PortAddress.ofText?_eq_ok, text, implies_true, and_self]

end Address

end Switchboard
