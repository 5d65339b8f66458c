import Roomscape.Yaml.Cursor

/-!
Line folding: what is kept of the blanks and breaks between two pieces of a scalar.
-/
namespace Roomscape.Yaml

/-- The blanks and breaks met since the last piece, the latest first. -/
inductive Gap where
  | onLine (blanks : List Char)
  /-- `first` is the break that ended the piece's line, or nothing if that break was escaped. -/
  | overLines (first : Option Char) (later : List Char)

namespace Gap

def none : Gap := .onLine []

/-- Blanks at the start of a line do not count. -/
def blank : Gap → Char → Gap
  | .onLine blanks, c => .onLine (c :: blanks)
  | gap, _ => gap

/-- Blanks at the end of a line do not count. -/
def newline : Gap → Char → Gap
  | .onLine _, c => .overLines (some c) []
  | .overLines first later, c => .overLines first (c :: later)

def isOverLines : Gap → Bool
  | .onLine _ => false
  | .overLines .. => true

def isEmpty : Gap → Bool
  | .onLine [] => true
  | _ => false

/-- A line feed alone becomes a space, and is left out where more breaks follow it. -/
def text : Gap → List Char
  | .onLine blanks => blanks.reverse
  | .overLines (some '\n') [] => [' ']
  | .overLines (some '\n') later => later.reverse
  | .overLines (some c) later => c :: later.reverse
  | .overLines Option.none later => later.reverse

end Gap
end Roomscape.Yaml
