import Roomscape.Yaml.Scalar.Gap

/-!
Scalars in single or double quotes. In single quotes a quote is written twice; in double quotes a
backslash starts an escape.
-/
namespace Roomscape.Yaml

structure Quoted where
  text : List Char
  next : Cursor

def hexDigit? (c : Char) : Option Nat :=
  if '0' ≤ c ∧ c ≤ '9' then some (c.toNat - 48)
  else if 'a' ≤ c ∧ c ≤ 'f' then some (c.toNat - 87)
  else if 'A' ≤ c ∧ c ≤ 'F' then some (c.toNat - 55)
  else none

namespace Quoted

/-- What a backslash and this character stand for. -/
def escaped? : Char → Option Char
  | '0' => some (Char.ofNat 0x00)
  | 'a' => some (Char.ofNat 0x07)
  | 'b' => some (Char.ofNat 0x08)
  | 't' => some '\t'
  | '\t' => some '\t'
  | 'n' => some '\n'
  | 'v' => some (Char.ofNat 0x0B)
  | 'f' => some (Char.ofNat 0x0C)
  | 'r' => some '\r'
  | 'e' => some (Char.ofNat 0x1B)
  | ' ' => some ' '
  | '"' => some '"'
  | '/' => some '/'
  | '\\' => some '\\'
  | 'N' => some nextLine
  | '_' => some (Char.ofNat 0xA0)
  | 'L' => some lineSeparator
  | 'P' => some paragraphSeparator
  | _ => none

/-- How many hexadecimal digits follow this letter after a backslash. -/
def digitsAfter? : Char → Option Nat
  | 'x' => some 2
  | 'u' => some 4
  | 'U' => some 8
  | _ => none

/-- Where in an escape the reader stands. -/
inductive Escape where
  | outside
  | opened
  | digits (left value : Nat)

def charOf? (n : Nat) : Option Char := if n.isValidChar then some (Char.ofNat n) else none

/-- Read on in double quotes, after `done` (latest first) and `gap`. -/
def double (done : List Char) (gap : Gap) : Escape → List Char → Position → Option Quoted
  | _, [], _ => none
  | .opened, c :: cs, p =>
    if isBreak c then double done (.overLines none []) .outside cs (p.after c)
    else
      match escaped? c, digitsAfter? c with
      | some x, _ => double (x :: done) .none .outside cs (p.after c)
      | none, some n => double done .none (.digits n 0) cs (p.after c)
      | none, none => none
  | .digits left value, c :: cs, p => do
    let value := 16 * value + (← hexDigit? c)
    if left ≤ 1 then double ((← charOf? value) :: done) .none .outside cs (p.after c)
    else double done .none (.digits (left - 1) value) cs (p.after c)
  | .outside, c :: cs, p =>
    if isBlank c then double done (gap.blank c) .outside cs (p.after c)
    else if isBreak c then double done (gap.newline c) .outside cs (p.after c)
    else if p.column == 0 && isDocumentMark (c :: cs) then none
    else
      let done := gap.text.reverse ++ done
      if c == '"' then some ⟨done.reverse, ⟨cs, p.after c⟩⟩
      else if c == '\\' then double done .none .opened cs (p.after c)
      else double (c :: done) .none .outside cs (p.after c)

def single (done : List Char) (gap : Gap) : List Char → Position → Option Quoted
  | [], _ => none
  | '\'' :: '\'' :: cs, p =>
    single ('\'' :: (gap.text.reverse ++ done)) .none cs ((p.after '\'').after '\'')
  | c :: cs, p =>
    if isBlank c then single done (gap.blank c) cs (p.after c)
    else if isBreak c then single done (gap.newline c) cs (p.after c)
    else if p.column == 0 && isDocumentMark (c :: cs) then none
    else
      let done := gap.text.reverse ++ done
      if c == '\'' then some ⟨done.reverse, ⟨cs, p.after c⟩⟩
      else single (c :: done) .none cs (p.after c)

end Quoted
end Roomscape.Yaml
