import Roomscape.Octets
import Roomscape.Picture

/-!
The PAM form of a picture: a head of text lines, then the four channels of every pixel.
-/
namespace Roomscape.Pam

def head (p : Picture) : List String :=
  ["P7", s!"WIDTH {p.width}", s!"HEIGHT {p.height}", "DEPTH 4", "MAXVAL 255",
   "TUPLTYPE RGB_ALPHA", "ENDHDR"]

def encode (p : Picture) : List UInt8 :=
  (head p).flatMap (fun text => Octets.ascii text ++ [10]) ++ p.pixels.toList.flatMap Rgba.octets

end Roomscape.Pam
