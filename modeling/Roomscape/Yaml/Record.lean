import Roomscape.Yaml.Document
import Roomscape.Yaml.Lexer

/-!
Reading a document as a record with known fields. Other fields are passed over, and a value that was
left out stands for a record without fields or a list without items.
-/
namespace Roomscape.Yaml

/-- The fields of a record in the order written. -/
abbrev Fields := List (String × Node)

def Document.ofText? (text : String) : Option Document := do
  Document.ofTokens? (← Token.ofText? text)

/-- The value of a field: none if it is not there. Fails if it is there twice. -/
def Fields.field? (fields : Fields) (name : String) : Option (Option Node) :=
  match fields.filter fun f => f.1 == name with
  | [] => some none
  | [f] => some (some f.2)
  | _ => none

def Fields.getD? {α : Type} (fields : Fields) (name : String) (otherwise : α)
    (read : Node → Option α) : Option α := do
  match ← fields.field? name with
  | none => some otherwise
  | some node => read node

def Fields.get? {α : Type} (fields : Fields) (name : String) (read : Node → Option α) :
    Option α := do
  match ← fields.field? name with
  | none => none
  | some node => read node

namespace Document

variable (d : Document)

def text? (node : Node) : Option String :=
  match d.resolve node with
  | .scalar _ _ text => some text
  | _ => none

def fields? (node : Node) : Option Fields :=
  match d.resolve node with
  | .mapping entries => entries.mapM fun (key, value) => return (← d.text? key, value)
  | .scalar _ .plain "" => some []
  | _ => none

def items? (node : Node) : Option (List Node) :=
  match d.resolve node with
  | .sequence items => some items
  | .scalar _ .plain "" => some []
  | _ => none

/-- The fields of the whole document; a text without a document has none. -/
def rootFields? : Option Fields :=
  match d.root with
  | some node => d.fields? node
  | none => some []

/-- The name of a choice among alternatives that hold nothing: the text of a scalar, or a local tag on
a value that was left out or is null. -/
def choice? (node : Node) : Option String :=
  match d.resolve node with
  | .scalar tag style text =>
    match tag.bind Tag.localName? with
    | some name =>
      if style = .plain ∧ text ∈ ["", "~", "null", "Null", "NULL"] then some name else none
    | none => some text
  | _ => none

def integerTag : Tag := .ofText "tag:yaml.org,2002:int"

/-- The text of a number: in plain style, or in literal style with the tag of integers. -/
def numeral? (node : Node) : Option (List Char) :=
  match d.resolve node with
  | .scalar _ .plain text => some text.toList
  | .scalar (some tag) .literal text => if tag == integerTag then some text.toList else none
  | _ => none

end Document

namespace Numeral

/-- One or more digits to the given base. -/
def digits? (base : Nat) (cs : List Char) : Option Nat :=
  let step (n : Nat) (c : Char) : Option Nat := do
    let d ← hexDigit? c
    if d < base then some (base * n + d) else none
  if cs.isEmpty then none else cs.foldlM step 0

/-- Digits after `0x`, `0o` or `0b`, or decimal digits without a leading zero. -/
def magnitude? : List Char → Option Nat
  | '0' :: 'x' :: cs => digits? 16 cs
  | '0' :: 'o' :: cs => digits? 8 cs
  | '0' :: 'b' :: cs => digits? 2 cs
  | '0' :: _ :: _ => none
  | cs => digits? 10 cs

/-- A number from 0 up to `limit`, with or without a plus sign. -/
def unsigned? (limit : Nat) (cs : List Char) : Option Nat := do
  let n ← magnitude? (if cs.head? == some '+' then cs.drop 1 else cs)
  if n ≤ limit then some n else none

/-- A number from `least` to `greatest` with a sign or without. -/
def signed? (least greatest : Int) (cs : List Char) : Option Int := do
  let n : Int ←
    match cs with
    | '-' :: cs => (magnitude? cs).map fun n => -(n : Int)
    | '+' :: cs => (magnitude? cs).map Int.ofNat
    | cs => (magnitude? cs).map Int.ofNat
  if least ≤ n ∧ n ≤ greatest then some n else none

end Numeral

def Document.unsigned? (d : Document) (limit : Nat) (node : Node) : Option Nat := do
  Numeral.unsigned? limit (← d.numeral? node)

def Document.signed? (d : Document) (least greatest : Int) (node : Node) : Option Int := do
  Numeral.signed? least greatest (← d.numeral? node)

end Roomscape.Yaml
