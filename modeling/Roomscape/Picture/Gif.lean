import Roomscape.Octets
import Roomscape.Picture

/-!
The GIF form of a picture: a table of its colours, and for every pixel a place in it. The picture of a
frame has no more than the 256 colours that a table holds.
-/
namespace Roomscape.Gif

def colours (p : Picture) : List Rgba := p.pixels.toList.eraseDups.take 256

/-- Three channels a colour, filled up to 256 colours. -/
def table (colours : List Rgba) : List UInt8 :=
  let unused := List.replicate (256 - colours.length) Rgba.clear
  (colours ++ unused).flatMap fun c => [c.red, c.green, c.blue]

def clearCode : Nat := 256

def endCode : Nat := 257

/-- So few codes in a row that none needs a tenth bit. -/
def longestSequence : Nat := 250

/-- Every pixel as a code of its own. -/
def codes (p : Picture) (colours : List Rgba) : List Nat :=
  (Octets.pieces longestSequence (p.pixels.toList.map colours.idxOf)).flatMap (clearCode :: ·) ++
    [endCode]

/-- Data in blocks behind their lengths, and an empty one at the end. -/
def blocks (data : List UInt8) : List UInt8 :=
  (Octets.pieces 255 data).flatMap (fun block => UInt8.ofNat block.length :: block) ++ [0]

def encode (p : Picture) : List UInt8 :=
  let colours := colours p
  let codes := (codes p colours).foldl (fun (w : Octets.BitWriter) code => w.push 9 code) .empty
  Octets.ascii "GIF89a" ++ Octets.fields [(2, p.width), (2, p.height), (1, 0xF7), (2, 0)] ++
    table colours ++
    Octets.fields [(1, 0x2C), (4, 0), (2, p.width), (2, p.height), (1, 0), (1, 8)] ++
    blocks codes.finish ++ [0x3B]

end Roomscape.Gif
