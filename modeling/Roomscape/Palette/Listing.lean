import Roomscape.Palette

/-!
The listing of a palette: the fine slots in use, then every coarse slot, as `$name: #RRGGBB` lines or
as a JSON array.
-/
namespace Roomscape

structure SlotLine where
  name : String
  slot : Nat
  entry : Entry

namespace SlotLine

def colour (l : SlotLine) : String := l.entry.text

def plain (l : SlotLine) : String := "$" ++ l.name ++ ": " ++ l.colour

/-- One object of the JSON array. Names and colours hold nothing that JSON escapes. -/
def json (l : SlotLine) : String :=
  let channels := l.entry.toBytes.map fun b => "      " ++ toString b.toNat
  "  \x7b\n    \"name\": \"" ++ l.name ++ "\",\n    \"slot\": " ++ toString l.slot ++
  ",\n    \"colour\": \"" ++ l.colour ++ "\",\n    \"rgb6\": [\n" ++
  ",\n".intercalate channels ++ "\n    ]\n  \x7d"

def jsonArray : List SlotLine → String
  | [] => "[]"
  | lines => "[\n" ++ ",\n".intercalate (lines.map json) ++ "\n]"

end SlotLine

/-- Fine slots count from 1 and coarse slots from 0. -/
def Palette.listing (p : Palette) (fineUsed : Nat) : List SlotLine :=
  ((p.fine.take fineUsed).mapIdx fun i e => ⟨s!"fine-{i + 1}", i, e⟩) ++
    (p.coarse.mapIdx fun key e => ⟨s!"coarse-{key}", fineSlots + key, e⟩)

end Roomscape
