import Roomscape.Palette.Display
import Roomscape.Grid

/-!
Pictures for people: a frame of display bytes, looked up in the colour table and enlarged by a whole
factor.
-/
namespace Roomscape

structure Rgba where
  red : UInt8
  green : UInt8
  blue : UInt8
  alpha : UInt8
deriving DecidableEq

namespace Rgba

/-- What stands where nothing was drawn. -/
def clear : Rgba := ⟨0, 0, 0, 0⟩

def octets (c : Rgba) : List UInt8 := [c.red, c.green, c.blue, c.alpha]

def blueFirst (c : Rgba) : List UInt8 := [c.blue, c.green, c.red, c.alpha]

end Rgba

/-- The colour at eight bits a channel, without transparency. -/
def Entry.rgba (e : Entry) : Rgba := ⟨e.wide.red, e.wide.green, e.wide.blue, 255⟩

abbrev Picture := Grid Rgba

namespace Picture

/-- One more than the longest side of a picture. -/
def sideSpace : Nat := UInt32.size

/-- A side of `n` pixels, each made `factor` pixels long, counted with 32 bits. -/
def enlargedSide (n factor : Nat) : Nat := n * factor % sideSpace

theorem enlargedSide_lt (n factor : Nat) : enlargedSide n factor < sideSpace :=
  Nat.mod_lt _ (by decide)

theorem enlargedArea_lt (width height factor : Nat) :
    enlargedSide width factor * enlargedSide height factor < addressSpace :=
  calc
    _ < sideSpace * sideSpace := Nat.mul_lt_mul'' (enlargedSide_lt ..) (enlargedSide_lt ..)
    _ = addressSpace := by decide

/-- Every pixel becomes a square of `scale` by `scale` pixels; the scale 0 counts as 1. -/
def ofFrame (frame : Grid UInt8) (display : Display) (scale : Nat) : Picture :=
  let factor := max scale 1
  let shown := frame.map fun byte => (display.lookup byte).rgba
  Grid.ofFn (enlargedSide frame.width factor) (enlargedSide frame.height factor)
      (enlargedArea_lt ..) fun x y =>
    (shown.get? (x / factor) (y / factor)).getD .clear

/-- The picture of a frame. It is drawn if 32 bits hold its sides and an allocation its bytes. -/
def draw (frame : Grid UInt8) (display : Display) (scale : Nat) : Except Fault Picture :=
  let width := frame.width * max scale 1
  let height := frame.height * max scale 1
  if width < sideSpace ∧ height < sideSpace ∧ width * height * 4 ≤ largestBuffer then
    .ok (ofFrame frame display scale)
  else .error (.undrawable width height)

end Picture
end Roomscape
