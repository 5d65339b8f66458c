import Roomscape.Yaml.Cursor
import Roomscape.Yaml.Token

/-!
Literal and folded block scalars: lines set in from the block that holds them. Where no indentation is
given, the first line with text sets it.
-/
namespace Roomscape.Yaml

/-- What is done with the line breaks after the last line. -/
inductive Chomp where
  | strip
  | clip
  | keep

structure Block where
  text : List Char
  next : Cursor

namespace Block

def chomp? (c : Char) : Option Chomp :=
  if c == '+' then some .keep else if c == '-' then some .strip else none

def digit? (c : Char) : Option Nat := if c.isDigit then some (c.toNat - 48) else none

/-- The indicators after `|` or `>` and how many there are: chomping, and indentation from 1 to 9, in
either order. -/
def indicators (cs : List Char) : Option (Chomp × Option Nat × Nat) :=
  let after := (cs.drop 1).head?
  match cs.head?.bind chomp?, cs.head?.bind digit? with
  | some chomp, _ =>
    match after.bind digit? with
    | some 0 => none
    | some n => some (chomp, some n, 2)
    | none => some (chomp, none, 1)
  | none, some 0 => none
  | none, some n =>
    match after.bind chomp? with
    | some chomp => some (chomp, some n, 2)
    | none => some (.clip, some n, 1)
  | none, none => some (.clip, none, 0)

/-- The reader of the lines. Lists hold the latest character first. -/
structure State where
  done : List Char
  /-- The break after the last line with text. -/
  lastBreak : List Char
  /-- The breaks of the empty lines since then. -/
  emptyLines : List Char
  /-- The last line with text began with a blank. -/
  wasBlank : Bool
  indent : Option Nat
  /-- The widest indentation among the lines so far, while `indent` is unknown. -/
  widest : Nat
  inLine : Bool

namespace State

def start (indent : Option Nat) : State := ⟨[], [], [], false, indent, 0, false⟩

/-- Begin a line with text whose first character is `c`. Folding joins it to the line before unless
one of them begins with a blank. -/
def enterLine (folded : Bool) (s : State) (c : Char) : State :=
  let joined :=
    if folded && s.lastBreak == ['\n'] && !s.wasBlank && !isBlank c then
      if s.emptyLines.isEmpty then ' ' :: s.done else s.done
    else s.lastBreak ++ s.done
  { s with
    done := c :: (s.emptyLines ++ joined), lastBreak := [], emptyLines := []
    wasBlank := isBlank c, inLine := true }

def chomped (s : State) : Chomp → List Char
  | .strip => s.done.reverse
  | .clip => (s.lastBreak ++ s.done).reverse
  | .keep => (s.emptyLines ++ (s.lastBreak ++ s.done)).reverse

end State

/-- Read on line by line. A scalar is set in at least to the column `least`. `none` when a tab stands
in the indentation. -/
def read (folded : Bool) (chomp : Chomp) (least : Nat) (s : State) :
    List Char → Position → Option Block
  | [], p => some ⟨s.chomped chomp, ⟨[], p⟩⟩
  | c :: cs, p =>
    if s.inLine then
      let s := if isBreak c then { s with lastBreak := [c], inLine := false }
        else { s with done := c :: s.done }
      read folded chomp least s cs (p.after c)
    else
      let inMargin := match s.indent with
        | some n => decide (p.column < n)
        | none => true
      let widest := max s.widest p.column
      if inMargin && c == ' ' then read folded chomp least { s with widest } cs (p.after c)
      else if inMargin && c == '\t' then none
      else if isBreak c then
        read folded chomp least { s with widest, emptyLines := c :: s.emptyLines } cs (p.after c)
      else
        let indent := s.indent.getD (max widest least)
        if p.column == indent then
          read folded chomp least ({ s with indent := some indent }.enterLine folded c) cs
            (p.after c)
        else some ⟨s.chomped chomp, ⟨c :: cs, p⟩⟩

/-- The scalar whose `|` or `>` stands just before `c`, in a block whose column is `parent?`. -/
def scalar (style : ScalarStyle) (parent? : Option Nat) (c : Cursor) : Option Block := do
  let (chomp, given, length) ← indicators c.rest
  let c ← (c.skip length).finishLine
  let indent := given.map fun n => parent?.getD 0 + n
  let least := match parent? with
    | some n => n + 1
    | none => 1
  read (style == .folded) chomp least (.start indent) c.rest c.position

end Block
end Roomscape.Yaml
