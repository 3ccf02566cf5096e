import Switchboard.Text.Blank

/-!
# Addresses

A unit is named by a path of identifiers, `/root/child/grandchild`. An endpoint of the unit, which
receives calls, is named by the path, a point and an identifier; a port of it by the path, an
exclamation mark and an identifier. Identifiers carry the proof that they are well formed, so an
address of any kind can only be built from accepted identifiers.
-/

namespace Switchboard

/-- Why a text is not an address. -/
inductive AddressError where
  | empty
  | missingSlash (text : String)
  | badId (id : String)
  | malformed (text : String)
deriving DecidableEq

/-- The text of an address fault, with the offending text between quotes. -/
def AddressError.message : AddressError → String
  | .empty => "empty address"
  | .missingSlash text => "address '" ++ text ++ "' must start with '/'"
  | .badId id => "invalid identifier '" ++ id ++ "'"
  | .malformed text => "malformed address '" ++ text ++ "'"

/-- The characters that may follow the first one of an identifier. -/
def isIdChar (c : Char) : Bool := c.isAlphanum || c == '-' || c == '_'

/-- A letter followed by letters, digits, hyphens and underscores. -/
def isId : List Char → Bool
  | [] => false
  | c :: rest => c.isAlpha && rest.all isIdChar

/-- An identifier, before which one underscore may stand. -/
def isEndpointId : List Char → Bool
  | '_' :: rest => isId rest
  | cs => isId cs

/-- An identifier of a unit or a port. -/
structure Id where
  text : String
  valid : isId text.toList = true
deriving DecidableEq

/-- An identifier of an endpoint. -/
structure EndpointId where
  text : String
  valid : isEndpointId text.toList = true
deriving DecidableEq

/-- The identifier of this text. -/
def Id.ofText? (text : String) : Except AddressError Id :=
  if h : isId text.toList = true then .ok ⟨text, h⟩ else .error (.badId text)

/-- The endpoint identifier of this text. -/
def EndpointId.ofText? (text : String) : Except AddressError EndpointId :=
  if h : isEndpointId text.toList = true then .ok ⟨text, h⟩ else .error (.badId text)

/-- The path of a unit: the identifier of its root unit and those of the units below it. -/
structure Path where
  root : Id
  below : List Id
deriving DecidableEq

namespace Path

/-- The identifiers of a path, the root first. -/
def ids (p : Path) : List Id := p.root :: p.below

/-- The identifiers of a path as texts, from the root down. -/
def segments (p : Path) : List String := p.ids.map Id.text

/-- The path of a root unit. -/
def ofRoot? (text : String) : Except AddressError Path := (Id.ofText? text).map fun id => ⟨id, []⟩

/-- The path of the unit below `p` that is named `id`. -/
def append (p : Path) (id : Id) : Path := ⟨p.root, p.below ++ [id]⟩

/-- The path of the child with an identifier, which must be well formed. -/
def child? (p : Path) (text : String) : Except AddressError Path := (Id.ofText? text).map p.append

/-- The path of the unit above; a root has none. -/
def parent? (p : Path) : Option Path :=
  if p.below.isEmpty then none else some ⟨p.root, p.below.dropLast⟩

/-- The last identifier of a path. -/
def last (p : Path) : Id := p.below.getLast?.getD p.root

/-- The number of identifiers in a path. -/
def depth (p : Path) : Nat := p.ids.length

/-- Whether `q` lies strictly below `p`. -/
def isAncestorOf (p q : Path) : Bool := p.ids.length < q.ids.length && p.ids.isPrefixOf q.ids

/-- A path is written as its identifiers, each after a slash. -/
def text (p : Path) : String := String.join (p.ids.map fun id => "/" ++ id.text)

/-- Reads identifiers; the first piece that is none is the fault. -/
def idsOfPieces? : List (List Char) → Except AddressError (List Id)
  | [] => .ok []
  | piece :: pieces =>
    match Id.ofText? (String.ofList piece) with
    | .error e => .error e
    | .ok id => (idsOfPieces? pieces).map (id :: ·)

/-- Reads a path. -/
def ofChars? : List Char → Except AddressError Path
  | [] => .error .empty
  | '/' :: rest =>
    match idsOfPieces? (Text.cutAt '/' rest) with
    | .error e => .error e
    | .ok [] => .error .empty
    | .ok (root :: below) => .ok ⟨root, below⟩
  | cs => .error (.missingSlash (String.ofList cs))

/-- Reads a path. -/
def ofText? (text : String) : Except AddressError Path := ofChars? text.toList

end Path

/-- The address of an endpoint. -/
structure Endpoint where
  path : Path
  id : EndpointId
deriving DecidableEq

/-- The address of a port. -/
structure PortAddress where
  path : Path
  id : Id
deriving DecidableEq

/-- The control of that identifier at a path. -/
def Path.endpoint? (p : Path) (text : String) : Except AddressError Endpoint :=
  (EndpointId.ofText? text).map fun id => ⟨p, id⟩

/-- The port of that identifier at a path. -/
def Path.port? (p : Path) (text : String) : Except AddressError PortAddress :=
  (Id.ofText? text).map fun id => ⟨p, id⟩

/-- The part of a text from its last slash on, with what stands before it. -/
def cutLastSlash? (cs : List Char) : Option (List Char × List Char) :=
  match cs with
  | [] => none
  | c :: rest =>
    match cutLastSlash? rest with
    | some (front, back) => some (c :: front, back)
    | none => if c = '/' then some ([], c :: rest) else none

/-- The parts of a text before and after the first `mark` that stands behind its last slash. -/
def cutAtMark? (mark : Char) (cs : List Char) : Except AddressError (List Char × List Char) :=
  match cutLastSlash? cs with
  | none => .error (.missingSlash (String.ofList cs))
  | some (front, back) =>
    match back.dropWhile (· != mark) with
    | [] => .error (.malformed (String.ofList cs))
    | _ :: id => .ok (front ++ back.takeWhile (· != mark), id)

namespace Endpoint

/-- A control is written as its unit, a dot and its identifier. -/
def text (e : Endpoint) : String := e.path.text ++ "." ++ e.id.text

/-- Reads a control address from characters, cut at the dot of its last segment. -/
def ofChars? (cs : List Char) : Except AddressError Endpoint := do
  let (path, id) ← cutAtMark? '.' cs
  (← Path.ofChars? path).endpoint? (String.ofList id)

/-- Reads a control address. -/
def ofText? (text : String) : Except AddressError Endpoint := ofChars? text.toList

end Endpoint

namespace PortAddress

/-- A port is written as its unit, an exclamation mark and its identifier. -/
def text (e : PortAddress) : String := e.path.text ++ "!" ++ e.id.text

/-- Reads a port address from characters, cut at the mark of its last segment. -/
def ofChars? (cs : List Char) : Except AddressError PortAddress := do
  let (path, id) ← cutAtMark? '!' cs
  (← Path.ofChars? path).port? (String.ofList id)

/-- Reads a port address. -/
def ofText? (text : String) : Except AddressError PortAddress := ofChars? text.toList

end PortAddress

/-- An address of any kind. -/
inductive Address where
  | unit (path : Path)
  | endpoint (address : Endpoint)
  | port (address : PortAddress)
deriving DecidableEq

namespace Address

/-- The path of the unit that an address belongs to. -/
def path : Address → Path
  | .unit p => p
  | .endpoint e => e.path
  | .port e => e.path

/-- An address is written the way addresses of its kind are. -/
def text : Address → String
  | .unit p => p.text
  | .endpoint e => e.text
  | .port e => e.text

/-- What follows the last slash, the whole text where there is none. -/
def lastPiece (cs : List Char) : List Char :=
  match cutLastSlash? cs with
  | some (_, _ :: back) => back
  | _ => cs

/-- Reads an address; its last piece tells the kind. -/
def ofChars? (cs : List Char) : Except AddressError Address :=
  let piece := lastPiece cs
  if piece.contains '.' then (Endpoint.ofChars? cs).map .endpoint
  else if piece.contains '!' then (PortAddress.ofChars? cs).map .port
  else (Path.ofChars? cs).map .unit

/-- Reads an address of any kind. -/
def ofText? (text : String) : Except AddressError Address := ofChars? text.toList

end Address

/-! ## Order

Shorter paths come first, those of one length by their identifiers. Addresses of units come before
those of endpoints and these before those of ports.
-/

/-- The order of texts by their characters. -/
def compareTexts (a b : String) : Ordering := compareOfLessAndEq a b

/-- The order of the first pair of identifiers that differ; a shorter list comes first. -/
def compareIds : List String → List String → Ordering
  | [], [] => .eq
  | [], _ :: _ => .lt
  | _ :: _, [] => .gt
  | a :: as, b :: bs => (compareTexts a b).then (compareIds as bs)

/-- Shorter paths come first, and paths of one length by their identifiers. -/
def Path.compare (p q : Path) : Ordering :=
  (compareOfLessAndEq p.depth q.depth).then (compareIds p.segments q.segments)

/-- The place of the kind of an address in the order of kinds. -/
def Address.rank : Address → Nat
  | .unit _ => 0
  | .endpoint _ => 1
  | .port _ => 2

/-- The identifier behind the mark of an address, empty for a unit. -/
def Address.ownId : Address → String
  | .unit _ => ""
  | .endpoint e => e.id.text
  | .port e => e.id.text

/-- Addresses are ordered by kind, then by path, then by their own identifier. -/
def Address.compare (a b : Address) : Ordering :=
  (compareOfLessAndEq a.rank b.rank).then
    ((a.path.compare b.path).then (compareTexts a.ownId b.ownId))

end Switchboard
