import Roomscape.Octets
import Roomscape.Picture

/-!
The TGA form of a picture: 32 bits a pixel with alpha, runs of equal pixels, the top row first.
-/
namespace Roomscape.Tga

/-- A pixel and how often it stands there, at most 128 times. -/
def packet (pixel : Rgba) (count : Nat) : List UInt8 :=
  UInt8.ofNat (127 + count) :: pixel.blueFirst

def run (pixels : List Rgba) : List UInt8 :=
  (Octets.pieces 128 pixels).flatMap fun piece =>
    match piece with
    | pixel :: _ => packet pixel piece.length
    | [] => []

/-- True colours in runs, without a colour table, the origin at the top left. -/
def header (p : Picture) : List (Nat × Nat) :=
  [(1, 0), (1, 0), (1, 10), (5, 0), (2, 0), (2, 0), (2, p.width), (2, p.height), (1, 32), (1, 0x28)]

def encode (p : Picture) : List UInt8 :=
  Octets.fields (header p) ++
    p.rows.toList.flatMap fun row => (row.toList.splitBy (· == ·)).flatMap run

end Roomscape.Tga
