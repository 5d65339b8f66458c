import Roomscape.Grid
import Roomscape.Header
import Roomscape.Palette

/-!
A room photo: a palette slot for every pixel, and beside it the 2:2:2 reduction for displays without
a palette of their own. Both grids have the shape of the header, and every slot exists.
-/
namespace Roomscape

/-- The grid has the shape that the header declares. -/
def Header.Fits {α : Type} (h : Header) (g : Grid α) : Prop :=
  g.width = h.width.toNat ∧ g.height = h.height.toNat

instance {α : Type} (h : Header) (g : Grid α) : Decidable (h.Fits g) :=
  inferInstanceAs (Decidable (_ ∧ _))

structure Photo where
  header : Header
  palette : Palette
  indices : Grid UInt8
  fallback : Grid UInt8
  indices_fits : header.Fits indices
  fallback_fits : header.Fits fallback
  indices_lt : ∀ i ∈ indices.pixels, i.toNat < paletteSlots

namespace Photo

/-- What is said of a grid whose shape is not the header's. -/
def misshapen (kind : PixelKind) (h : Header) (g : Grid UInt8) : Fault :=
  .malformed none (.gridShape kind g.width g.height h.width.toNat h.height.toNat)

/-- A photo from its pieces: the shapes are checked first, then the slots in row order. -/
def assemble (header : Header) (palette : Palette) (indices fallback : Grid UInt8) :
    Except Fault Photo :=
  if hi : header.Fits indices then
    if hf : header.Fits fallback then
      match hlt : indices.pixels.find? fun i => decide (paletteSlots ≤ i.toNat) with
      | some bad => .error (.malformed none (.indexRange bad.toNat))
      | none =>
        .ok ⟨header, palette, indices, fallback, hi, hf, by
          intro i mem
          have := Array.find?_eq_none.mp hlt i mem
          simpa using this⟩
    else .error (misshapen .photo header fallback)
  else .error (misshapen .photo header indices)

def width (p : Photo) : Nat := p.header.width.toNat
def height (p : Photo) : Nat := p.header.height.toNat

end Photo
end Roomscape
