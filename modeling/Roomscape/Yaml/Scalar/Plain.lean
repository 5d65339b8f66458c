import Roomscape.Yaml.Scalar.Gap

/-!
Plain scalars: text without quotes, over one or more lines.
-/
namespace Roomscape.Yaml

/-- A plain scalar with the place after it. -/
structure Plain where
  text : List Char
  next : Cursor
  /-- A line ended between the scalar and `next`. -/
  lineEnded : Bool

namespace Plain

def isFlowIndicator (c : Char) : Bool :=
  c == ',' || c == '[' || c == ']' || c == '{' || c == '}'

/-- The scalar of the characters in `done`, the latest first, and of nothing after them. -/
def ended (done : List Char) (gap : Gap) (next : Cursor) : Plain :=
  ⟨done.reverse, next, gap.isOverLines⟩

/-- Read on, after `done` (latest first) and `gap`. In block context every line of the scalar begins
at column `margin` or later. `none` when a tab stands before the margin, or a colon in flow context
before a character that it cannot be followed by. -/
def read (flow : Bool) (margin : Nat) (done : List Char) (gap : Gap) :
    List Char → Position → Option Plain
  | [], p => some (ended done gap ⟨[], p⟩)
  | c :: cs, p =>
    if isBlank c then
      if gap.isOverLines && p.column < margin && c == '\t' then none
      else read flow margin done (gap.blank c) cs (p.after c)
    else if isBreak c then read flow margin done (gap.newline c) cs (p.after c)
    else if !gap.isEmpty && (c == '#' || (!flow && p.column < margin) ||
        (p.column == 0 && isDocumentMark (c :: cs))) then some (ended done gap ⟨c :: cs, p⟩)
    else if flow && c == ':' && cs.head?.any fun d => isFlowIndicator d || d == '?' then none
    else if (c == ':' && endsWord cs) || (flow && isFlowIndicator c) then
      some (ended done gap ⟨c :: cs, p⟩)
    else read flow margin (c :: (gap.text.reverse ++ done)) .none cs (p.after c)

/-- May a plain scalar begin here? -/
def startsAt (flow : Bool) : List Char → Bool
  | [] => false
  | '-' :: cs => !(cs.head?.any isBlank)
  | '?' :: cs => !flow && !endsWord cs
  | ':' :: cs => !flow && !endsWord cs
  | c :: _ =>
    !(isBlank c || isBreak c || isFlowIndicator c ||
      c == '#' || c == '&' || c == '*' || c == '!' || c == '|' || c == '>' ||
      c == '\'' || c == '"' || c == '%' || c == '@' || c == Char.ofNat 0x60)

end Plain
end Roomscape.Yaml
