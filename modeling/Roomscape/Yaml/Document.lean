import Roomscape.Yaml.Tag

/-!
The value that the tokens of a YAML text write down. A text holds at most one document.
-/
namespace Roomscape.Yaml

inductive Node where
  | scalar (tag : Option Tag) (style : ScalarStyle) (text : String)
  | sequence (items : List Node)
  | mapping (entries : List (Node × Node))
  | alias (place : Nat)
deriving Inhabited

def Node.blank : Node := .scalar none .plain ""

/-- A document: its node, if it has one, and the nodes with an anchor. -/
structure Document where
  root : Option Node
  anchored : Array Node
  /-- For every named place the number of the node that stands there. -/
  places : Array Nat

/-- The node itself, or the one at the place that it names. -/
def Document.resolve (d : Document) : Node → Node
  | .alias place => ((d.places[place]?).bind fun k => d.anchored[k]?).getD .blank
  | node => node

structure Reading where
  rest : List Token
  /-- What each tag handle stands for. -/
  handles : List (String × Tag)
  /-- The place of each anchor name, the latest first, and each name once. -/
  names : List (String × Nat)
  anchored : Array Node
  places : Array Nat

namespace Reading

abbrev Reader := StateT Reading Option

def peek : Reader (Option Token) := do return (← get).rest.head?

def advance : Reader Unit := modify fun s => { s with rest := s.rest.drop 1 }

/-- Is this one of the tokens after which a value was left out? -/
def isOneOf (tokens : List Token) (t : Option Token) : Bool := t.any tokens.contains

/-- Give a name to the node that begins here; its number is answered. A new name gets the place after
those of all other names, and so does a name that is given again. A later node at a place replaces
the one before. -/
def define (name : String) : Reader Nat := do
  let s ← get
  let place := s.names.length
  let number := s.anchored.size
  set { s with
    names := (name, place) :: s.names.filter (·.1 != name)
    anchored := s.anchored.push .blank
    places := if place < s.places.size then s.places.setIfInBounds place number
      else s.places.push number }
  return number

/-- The full tag: what the handle stands for, and the suffix after it. -/
def expandTag (handle : String) (suffix : Tag) : Reader Tag := do
  if handle.isEmpty then return suffix
  let some stem := (← get).handles.lookup handle | failure
  return stem ++ suffix

def anchor? : Reader (Option String) := do
  if let some (.anchor name) ← peek then
    advance
    return some name
  return none

def tag? : Reader (Option Tag) := do
  if let some (.tag handle suffix) ← peek then
    advance
    return some (← expandTag handle suffix)
  return none

/-- The anchor and the tag of a node, in either order and each at most once. -/
def properties : Reader (Option String × Option Tag) := do
  match ← anchor? with
  | some name =>
    let tag ← tag?
    return (some name, tag)
  | none =>
    match ← tag? with
    | some tag =>
      let anchor ← anchor?
      return (anchor, some tag)
    | none => return (none, none)

mutual

/-- A node. In block context it may be a block collection, and `indentless` allows a sequence whose
dashes are not set in. `fuel` bounds the nodes and entries still to come. -/
def node (fuel : Nat) (block indentless : Bool) : Reader Node := do
  match fuel with
  | 0 => failure
  | fuel + 1 =>
    if let some (.alias name) ← peek then
      advance
      let some place := (← get).names.lookup name | failure
      return .alias place
    let (anchor, tag) ← properties
    let number ← anchor.mapM define
    let leftOut : Reader Node :=
      if anchor.isSome || tag.isSome then pure (.scalar tag .plain "") else failure
    let content ← match ← peek with
      | some .dash => if indentless then .sequence <$> dashes fuel true else leftOut
      | some (.scalar style text) => advance; pure (.scalar tag style text)
      | some .flowSequence => advance; .sequence <$> flowItems fuel true
      | some .flowMapping => advance; .mapping <$> flowEntries fuel true
      | some token =>
        if block && token == .blockSequence then
          advance; .sequence <$> dashes fuel false
        else if block && token == .blockMapping then
          advance; .mapping <$> entries fuel
        else leftOut
      | none => leftOut
    if let some number := number then
      modify fun s => { s with anchored := s.anchored.setIfInBounds number content }
    return content

/-- The items of a block sequence. One that is not set in ends at the first token that is no dash. -/
def dashes (fuel : Nat) (indentless : Bool) : Reader (List Node) := do
  match fuel with
  | 0 => failure
  | fuel + 1 =>
    match ← peek with
    | some .dash =>
      advance
      let ends : List Token :=
        if indentless then [.dash, .key, .value, .blockEnd] else [.dash, .blockEnd]
      let item ← if isOneOf ends (← peek) then pure .blank else node fuel true false
      return item :: (← dashes fuel indentless)
    | some .blockEnd =>
      if !indentless then advance
      return []
    | _ => if indentless then return [] else failure

def entries (fuel : Nat) : Reader (List (Node × Node)) := do
  match fuel with
  | 0 => failure
  | fuel + 1 =>
    let ends : List Token := [.key, .value, .blockEnd]
    match ← peek with
    | some .key =>
      advance
      let key ← if isOneOf ends (← peek) then pure .blank else node fuel true true
      let value ← match ← peek with
        | some .value => do
          advance
          if isOneOf ends (← peek) then pure .blank else node fuel true true
        | _ => pure .blank
      return (key, value) :: (← entries fuel)
    | some .blockEnd => advance; return []
    | _ => failure

/-- The value after a colon in a flow collection, if there is a colon. -/
def flowValue (fuel : Nat) (ends : List Token) : Reader Node := do
  match fuel with
  | 0 => failure
  | fuel + 1 =>
    match ← peek with
    | some .value =>
      advance
      if isOneOf ends (← peek) then pure .blank else node fuel false false
    | _ => pure .blank

/-- The items of a flow sequence. A pair among them is a mapping of one entry. -/
def flowItems (fuel : Nat) (first : Bool) : Reader (List Node) := do
  match fuel with
  | 0 => failure
  | fuel + 1 =>
    if (← peek) == some .flowSequenceEnd then advance; return []
    if !first then
      if (← peek) != some .comma then failure
      advance
    match ← peek with
    | some .flowSequenceEnd => advance; return []
    | some .key =>
      advance
      let key ←
        if isOneOf [.value, .comma, .flowSequenceEnd] (← peek) then advance; pure .blank
        else node fuel false false
      let value ← flowValue fuel [.comma, .flowSequenceEnd]
      return .mapping [(key, value)] :: (← flowItems fuel false)
    | _ =>
      let item ← node fuel false false
      return item :: (← flowItems fuel false)

/-- The entries of a flow mapping. A key without a question mark or a colon has no value. -/
def flowEntries (fuel : Nat) (first : Bool) : Reader (List (Node × Node)) := do
  match fuel with
  | 0 => failure
  | fuel + 1 =>
    if (← peek) == some .flowMappingEnd then advance; return []
    if !first then
      if (← peek) != some .comma then failure
      advance
    match ← peek with
    | some .flowMappingEnd => advance; return []
    | some .key =>
      advance
      let key ←
        if isOneOf [.value, .comma, .flowMappingEnd] (← peek) then pure .blank
        else node fuel false false
      let value ← flowValue fuel [.comma, .flowMappingEnd]
      return (key, value) :: (← flowEntries fuel false)
    | _ =>
      let key ← node fuel false false
      return (key, .blank) :: (← flowEntries fuel false)

end

/-- The directives in front of a document: one version at most, and each handle once. -/
def directives (versionSeen : Bool) : List Token → Reader Unit
  | .version major minor :: rest => do
    if versionSeen || major != 1 || (minor != 1 && minor != 2) then failure
    advance
    directives true rest
  | .tagHandle handle stem :: rest => do
    if ((← get).handles.lookup handle).isSome then failure
    modify fun s => { s with handles := (handle, stem) :: s.handles }
    advance
    directives versionSeen rest
  | _ => pure ()

/-- The handles that every document has unless it defines them itself. -/
def standardHandles : List (String × Tag) :=
  [("!", .ofText "!"), ("!!", .ofText "tag:yaml.org,2002:")]

/-- The content of a document, which may be left out. -/
def content (fuel : Nat) : Reader Node := do
  match ← peek with
  | none | some .documentStart | some .documentEnd | some (.version ..) | some (.tagHandle ..) =>
    pure .blank
  | _ => node fuel true false

/-- The only document of a text. Directives need the line that starts a document after them. -/
def document (fuel : Nat) : Reader (Option Node) := do
  match ← peek with
  | none => return none
  | some .documentStart | some (.version ..) | some (.tagHandle ..) =>
    directives false (← get).rest
    modify fun s => { s with handles := s.handles ++ standardHandles }
    if (← peek) != some .documentStart then failure
    advance
    let root ← content fuel
    if !(← get).rest.all (· == .documentEnd) then failure
    return some root
  | _ =>
    modify fun s => { s with handles := standardHandles }
    let root ← node fuel true false
    if !(← get).rest.all (· == .documentEnd) then failure
    return some root

end Reading

/-- The document that the tokens write down, if they write down one. -/
def Document.ofTokens? (tokens : List Token) : Option Document := do
  let (root, s) ← (Reading.document (3 * tokens.length + 3)).run ⟨tokens, [], [], #[], #[]⟩
  some ⟨root, s.anchored, s.places⟩

end Roomscape.Yaml
