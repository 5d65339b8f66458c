import Roomscape.Yaml.Scalar.Block
import Roomscape.Yaml.Scalar.Plain
import Roomscape.Yaml.Tag

/-!
From the characters of a YAML text to its tokens. A key is known for one only at the colon after it,
so the place where one may have begun is remembered, and its token is put there later.
-/
namespace Roomscape.Yaml

/-- A place where a key may have begun. -/
structure KeyPlace where
  /-- Nothing but a key can stand here. -/
  required : Bool
  /-- How many tokens there were. -/
  token : Nat
  position : Position

/-- A key and its colon stand on one line, not more than 1024 octets apart. -/
def KeyPlace.isStale (k : KeyPlace) (p : Position) : Bool :=
  k.position.line < p.line || k.position.index + 1024 < p.index

structure Lexer where
  cursor : Cursor
  tokens : Array Token
  /-- The columns of the open block collections, innermost first. -/
  indents : List Nat
  /-- A key place for every open flow collection, innermost first, and last the one of the block. -/
  places : List (Option KeyPlace)
  keyAllowed : Bool

namespace Lexer

def start (cs : List Char) : Lexer := ⟨⟨cs, .start⟩, #[], [], [none], true⟩

def inFlow (l : Lexer) : Bool := 1 < l.places.length

def column (l : Lexer) : Nat := l.cursor.position.column

/-- Close the block collections that stand right of `column`; all of them if none is given. -/
def unroll (l : Lexer) (column : Option Nat) : Lexer :=
  if l.inFlow then l
  else
    let isOpen (n : Nat) : Bool := column.any (n ≤ ·)
    { l with
      tokens := l.tokens ++ (l.indents.takeWhile (!isOpen ·)).map fun _ => Token.blockEnd
      indents := l.indents.dropWhile (!isOpen ·) }

/-- Open a block collection at `column` unless one is open there. Its token becomes number `index`. -/
def roll (l : Lexer) (column index : Nat) (token : Token) : Lexer :=
  if l.inFlow || l.indents.head?.any (column ≤ ·) then l
  else
    { l with
      indents := column :: l.indents
      tokens := l.tokens.insertIdxIfInBounds index token }

/-- Give up the innermost key place. `none` if a key had to stand there. -/
def dropPlace (l : Lexer) : Option Lexer :=
  match l.places with
  | some k :: outer => if k.required then none else some { l with places := none :: outer }
  | _ => some l

/-- Give up every key place whose colon can no longer come. -/
def dropStale (l : Lexer) : Option Lexer :=
  let stale (place : Option KeyPlace) : Bool := place.any (·.isStale l.cursor.position)
  if l.places.any fun place => stale place && place.any (·.required) then none
  else if l.places.any stale then
    some { l with places := l.places.map fun place => if stale place then none else place }
  else some l

/-- Remember that a key may begin here, if one may. -/
def savePlace (l : Lexer) : Option Lexer :=
  if l.keyAllowed then do
    let l ← l.dropPlace
    let required := !l.inFlow && l.indents.head? == some l.column
    some { l with places := some ⟨required, l.tokens.size, l.cursor.position⟩ :: l.places.drop 1 }
  else some l

def emit (l : Lexer) (token : Token) (next : Cursor) : Lexer :=
  { l with tokens := l.tokens.push token, cursor := next }

/-- Pass blanks, comments and breaks. A tab counts as a blank where no block key may begin, and a byte
order mark at the start of a line. In block context a key may begin on every new line. -/
def skipGap (inFlow inComment keyAllowed : Bool) : List Char → Position → Bool × Cursor
  | [], p => (keyAllowed, ⟨[], p⟩)
  | c :: cs, p =>
    if isBreak c then skipGap inFlow false (keyAllowed || !inFlow) cs (p.after c)
    else if inComment || c == ' ' || (c == '\t' && (inFlow || !keyAllowed)) ||
        (c == byteOrderMark && p.column == 0) then
      skipGap inFlow inComment keyAllowed cs (p.after c)
    else if c == '#' then skipGap inFlow true keyAllowed cs (p.after c)
    else (keyAllowed, ⟨c :: cs, p⟩)

/-- A token that belongs to no block: a directive, or a line between documents. -/
def betweenDocuments (l : Lexer) : Option Lexer := do
  let l ← (l.unroll none).dropPlace
  some { l with keyAllowed := false }

/-- The tokens of an opening bracket, a closing bracket, a comma. -/
def openFlow (l : Lexer) (token : Token) : Option Lexer := do
  let l ← l.savePlace
  some { l.emit token (l.cursor.skip 1) with places := none :: l.places, keyAllowed := true }

def closeFlow (l : Lexer) (token : Token) : Option Lexer := do
  let l ← l.dropPlace
  let places := if l.inFlow then l.places.drop 1 else l.places
  some { l.emit token (l.cursor.skip 1) with places, keyAllowed := false }

def comma (l : Lexer) : Option Lexer := do
  let l ← l.dropPlace
  some { l.emit .comma (l.cursor.skip 1) with keyAllowed := true }

/-- A token that opens a block collection at its own column where none is open there. -/
def blockIndicator (l : Lexer) (collection token : Token) : Option Lexer := do
  if !l.inFlow && !l.keyAllowed then none
  let l := l.roll l.column l.tokens.size collection
  some (l.emit token (l.cursor.skip 1))

def dash (l : Lexer) : Option Lexer := do
  let l ← (← l.blockIndicator .blockSequence .dash).dropPlace
  some { l with keyAllowed := true }

def questionMark (l : Lexer) : Option Lexer := do
  let l ← (← l.blockIndicator .blockMapping .key).dropPlace
  some { l with keyAllowed := !l.inFlow }

/-- A colon: what stands since the innermost key place is a key, if there is such a place. -/
def colon (l : Lexer) : Option Lexer :=
  match l.places with
  | some k :: outer =>
    let l := { l with
      places := none :: outer, keyAllowed := false
      tokens := l.tokens.insertIdxIfInBounds k.token .key }
    let l := l.roll k.position.column k.token .blockMapping
    some (l.emit .value (l.cursor.skip 1))
  | _ => do
    let l ← l.blockIndicator .blockMapping .value
    some { l with keyAllowed := !l.inFlow }

/-- A token that may begin a key. -/
def keyStart (l : Lexer) (read : Cursor → Option (Token × Cursor)) : Option Lexer := do
  let l ← l.savePlace
  let (token, next) ← read l.cursor
  some { l.emit token next with keyAllowed := false }

def quoted (l : Lexer) (read : List Char → Position → Option Quoted) : Option Lexer :=
  l.keyStart fun c => do
    let c := c.skip 1
    let q ← read c.rest c.position
    some (.scalar .quoted (String.ofList q.text), q.next)

def plain (l : Lexer) : Option Lexer := do
  let l ← l.savePlace
  let margin := match l.indents.head? with
    | some n => n + 1
    | none => 0
  let s ← Plain.read l.inFlow margin [] .none l.cursor.rest l.cursor.position
  some { l.emit (.scalar .plain (String.ofList s.text)) s.next with keyAllowed := s.lineEnded }

def block (l : Lexer) (style : ScalarStyle) : Option Lexer := do
  let l ← l.dropPlace
  let b ← Block.scalar style l.indents.head? (l.cursor.skip 1)
  some { l.emit (.scalar style (String.ofList b.text)) b.next with keyAllowed := true }

/-- The next token and those that it brings with it. The text has not ended. -/
def step (l : Lexer) : Option Lexer :=
  let cs := l.cursor.rest
  let after := cs.drop 1
  let inFlow := l.inFlow
  match l.column == 0, cs.head? with
  | true, some '%' => do
    let l ← l.betweenDocuments
    let (token, next) ← Directive.read (l.cursor.skip 1)
    some (l.emit token next)
  | atStart, first =>
    if atStart && isDocumentMark cs then do
      let l ← l.betweenDocuments
      some (l.emit (if first == some '-' then .documentStart else .documentEnd) (l.cursor.skip 3))
    else
      match first with
      | some '[' => l.openFlow .flowSequence
      | some '{' => l.openFlow .flowMapping
      | some ']' => l.closeFlow .flowSequenceEnd
      | some '}' => l.closeFlow .flowMappingEnd
      | some ',' => l.comma
      | some '*' => l.keyStart fun c => do
        let (name, next) ← Anchor.read (c.skip 1)
        some (.alias name, next)
      | some '&' => l.keyStart fun c => do
        let (name, next) ← Anchor.read (c.skip 1)
        some (.anchor name, next)
      | some '!' => l.keyStart (Tag.read inFlow)
      | some '\'' => l.quoted (Quoted.single [] .none)
      | some '"' => l.quoted (Quoted.double [] .none .outside)
      | some '-' => if endsWord after then l.dash else l.plain
      | some '?' =>
        if inFlow || endsWord after then l.questionMark else l.plain
      | some ':' =>
        if inFlow || endsWord after then l.colon else l.plain
      | some '|' => if inFlow then none else l.block .literal
      | some '>' => if inFlow then none else l.block .folded
      | _ => if Plain.startsAt inFlow cs then l.plain else none

/-- Pass the gap in front of the next token and close what ends there. -/
def approach (l : Lexer) : Option Lexer := do
  let (keyAllowed, cursor) := skipGap l.inFlow false l.keyAllowed l.cursor.rest l.cursor.position
  let l ← { l with keyAllowed, cursor }.dropStale
  some (l.unroll (some l.column))

/-- The tokens of the rest of the text. Each step takes at least one character, so that as many steps
as there are characters suffice. -/
def run : Nat → Lexer → Option (List Token)
  | 0, _ => none
  | fuel + 1, l => do
    let l ← l.approach
    if l.cursor.rest.isEmpty then
      let l ← (l.unroll none).dropPlace
      some l.tokens.toList
    else run fuel (← l.step)

end Lexer

def Token.ofText? (text : String) : Option (List Token) :=
  let cs := text.toList
  if cs.all isPrintable then
    let cs := unifyBreaks cs
    Lexer.run (cs.length + 1) (.start cs)
  else none

end Roomscape.Yaml
