import Roomscape.Picture.Png

/-!
The icon form of a picture: a list of one picture, whose form is PNG. A side of 256 pixels is written
as 0.
-/
namespace Roomscape.Icon

def encode (p : Picture) : List UInt8 :=
  let picture := Png.encode p
  Octets.fields [(2, 0), (2, 1), (2, 1), (1, p.width), (1, p.height), (2, 0), (2, 1), (2, 32),
    (4, picture.length), (4, 22)] ++ picture

end Roomscape.Icon
