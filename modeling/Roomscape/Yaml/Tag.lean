import Roomscape.Yaml.Scalar.Quoted
import Roomscape.Yaml.Token

/-!
Names in a YAML text: anchors and aliases, tags, and the directives at the head of a document.
-/
namespace Roomscape.Yaml

/-- The names in front, and the place after it. -/
def Cursor.name (c : Cursor) : String × Cursor :=
  (String.ofList (c.rest.takeWhile isNameChar), c.skipWhile isNameChar)

namespace Anchor

def mayFollow (cs : List Char) : Bool :=
  endsWord cs || cs.head?.any fun c =>
    c == '?' || c == ':' || c == ',' || c == ']' || c == '}' || c == '%' || c == '@' ||
      c == Char.ofNat 0x60

def read (c : Cursor) : Option (String × Cursor) :=
  let (name, next) := c.name
  if name.isEmpty || !mayFollow next.rest then none else some (name, next)

end Anchor

namespace Tag

instance : Append Tag := ⟨fun s t => ⟨s.octets ++ t.octets⟩⟩

def ofText (text : String) : Tag := ⟨text.toUTF8.toList⟩

def isEmpty (t : Tag) : Bool := t.octets.isEmpty

/-- The name in a local tag, which begins with an exclamation mark and is the encoding of a text. -/
def localName? (t : Tag) : Option String :=
  match t.octets with
  | 0x21 :: name => String.fromUTF8? ⟨name.toArray⟩
  | _ => none

def isUriChar (verbatim : Bool) (c : Char) : Bool :=
  isNameChar c ||
    c == ';' || c == '/' || c == '?' || c == ':' || c == '@' || c == '&' || c == '=' || c == '+' ||
    c == '$' || c == '.' || c == '%' || c == '!' || c == '~' || c == '*' || c == '\'' ||
    c == '(' || c == ')' || (verbatim && (c == ',' || c == '[' || c == ']'))

/-- The octets written as a percent sign and two hexadecimal digits each. -/
def octets? : List Char → Option (List UInt8)
  | [] => some []
  | '%' :: high :: low :: cs => do
    let octet := UInt8.ofNat (16 * (← hexDigit? high) + (← hexDigit? low))
    return octet :: (← octets? cs)
  | '%' :: _ => none
  | c :: cs => do return (String.singleton c).toUTF8.toList ++ (← octets? cs)

/-- How many octets a character takes whose first octet this is. -/
def octetCount? (first : UInt8) : Option Nat :=
  if first < 0x80 then some 1
  else if 0xC0 ≤ first ∧ first < 0xE0 then some 2
  else if 0xE0 ≤ first ∧ first < 0xF0 then some 3
  else if 0xF0 ≤ first ∧ first < 0xF8 then some 4
  else none

/-- Every first octet is followed by as many further octets as it announces. -/
def wellGrouped : Nat → List UInt8 → Bool
  | 0, [] => true
  | _ + 1, [] => false
  | 0, o :: rest =>
    match octetCount? o with
    | some n => wellGrouped (n - 1) rest
    | none => false
  | n + 1, o :: rest => 0x80 ≤ o && o < 0xC0 && wellGrouped n rest

/-- A tag with its escapes resolved. It ends before the first zero octet. -/
def unescape? (cs : List Char) : Option Tag := do
  let octets ← octets? cs
  if wellGrouped 0 octets then some ⟨octets.takeWhile (· != 0)⟩ else none

def startsUri (verbatim : Bool) (c : Cursor) : Bool := c.rest.head?.any (isUriChar verbatim)

/-- The characters of a tag, unescaped. -/
def uri (verbatim : Bool) (c : Cursor) : Option (Tag × Cursor) := do
  let tag ← unescape? (c.rest.takeWhile (isUriChar verbatim))
  some (tag, c.skipWhile (isUriChar verbatim))

/-- An exclamation mark, a name that may be empty, and perhaps a second mark. -/
def handle (c : Cursor) : Option (String × Cursor) :=
  if c.rest.head? == some '!' then
    let (name, next) := (c.skip 1).name
    if next.rest.head? == some '!' then some ("!" ++ name ++ "!", next.skip 1)
    else some ("!" ++ name, next)
  else none

/-- A tag whose exclamation mark stands at `c`: in angle brackets, with a handle, or local. A local
tag without a name has no handle. -/
def read (flow : Bool) (c : Cursor) : Option (Token × Cursor) := do
  let (token, next) ←
    if (c.rest.drop 1).head? == some '<' then do
      let c := c.skip 2
      let (tag, next) ← uri true c
      if !startsUri true c || next.rest.head? != some '>' then none
      some (Token.tag "" tag, next.skip 1)
    else do
      let (handle, c) ← handle c
      let (tag, next) ← uri false c
      if 1 < handle.length && handle.endsWith "!" then
        if !startsUri false c then none
        some (Token.tag handle tag, next)
      else
        let suffix := ofText (handle.drop 1).toString ++ tag
        some (if suffix.isEmpty then Token.tag "" (ofText "!") else Token.tag "!" suffix, next)
  if endsWord next.rest || (flow && next.rest.head? == some ',') then some (token, next) else none

end Tag

namespace Directive

def number (c : Cursor) : Option (Nat × Cursor) :=
  let digits := c.rest.takeWhile Char.isDigit
  if digits.isEmpty || 9 < digits.length then none
  else some (digits.foldl (fun n d => 10 * n + (d.toNat - 48)) 0, c.skip digits.length)

def version (c : Cursor) : Option (Token × Cursor) := do
  let (major, c) ← number (c.skipWhile isBlank)
  if c.rest.head? != some '.' then none
  let (minor, c) ← number (c.skip 1)
  some (.version major minor, c)

def tagHandle (c : Cursor) : Option (Token × Cursor) := do
  let (handle, c) ← Tag.handle (c.skipWhile isBlank)
  if handle != "!" && !(1 < handle.length && handle.endsWith "!") then none
  if !(c.rest.head?.any isBlank) then none
  let c := c.skipWhile isBlank
  let (stem, next) ← Tag.uri true c
  if !Tag.startsUri true c || !endsWord next.rest then none
  some (.tagHandle handle stem, next)

/-- A directive whose percent sign stands just before `c`, with its whole line. -/
def read (c : Cursor) : Option (Token × Cursor) := do
  let (name, c) := c.name
  if !endsWord c.rest then none
  let (token, c) ← match name with
    | "YAML" => version c
    | "TAG" => tagHandle c
    | _ => none
  some (token, ← c.finishLine)

end Directive
end Roomscape.Yaml
