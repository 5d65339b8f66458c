import Roomscape.Octets
import Roomscape.Picture

/-!
The BMP form of a picture: 32 bits a pixel with alpha, no compression, the bottom row first.
-/
namespace Roomscape.Bmp

/-- The size of the part that tells the form of the pixels. -/
def formSize : Nat := 108

def start : Nat := 14 + formSize

/-- Pixels of 32 bits whose channels are given by masks, one plane of them. -/
def form (p : Picture) : List (Nat × Nat) :=
  [(4, formSize), (4, p.width), (4, p.height), (2, 1), (2, 32), (4, 3), (4, 4 * p.len), (16, 0),
   (4, 0x00FF0000), (4, 0x0000FF00), (4, 0x000000FF), (4, 0xFF000000), (4, 0x73524742), (48, 0)]

def encode (p : Picture) : List UInt8 :=
  Octets.ascii "BM" ++ Octets.fields [(4, start + 4 * p.len), (4, 0), (4, start)] ++
    Octets.fields (form p) ++
    p.rows.toList.reverse.flatMap fun row => row.toList.flatMap Rgba.blueFirst

end Roomscape.Bmp
