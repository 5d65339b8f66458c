import Roomscape.Photo

/-!
Sprite images: bytes kept verbatim, one of which is reserved for "transparent".
-/
namespace Roomscape

structure Sprite where
  header : Header
  pixels : Grid UInt8
  pixels_fits : header.Fits pixels

namespace Sprite

def ofGrid (header : Header) (pixels : Grid UInt8) : Except Fault Sprite :=
  if h : header.Fits pixels then .ok ⟨header, pixels, h⟩
  else .error (Photo.misshapen .image header pixels)

/-- A width or height that a header can hold. -/
def dimension (n : Nat) : Except Fault UInt16 :=
  if n < 65536 then .ok (UInt16.ofNat n) else .error (.malformed none (.dimensionRange n))

/-- An image from its rows, top first. Unequal rows are reported before sizes, width before height. -/
def ofRows (rows : List (Array UInt8)) : Except Fault Sprite := do
  let width := (rows.head?.map Array.size).getD 0
  if rows.any fun r => r.size != width then
    throw (.malformed none .raggedRows)
  let header : Header := ⟨← dimension width, ← dimension rows.length⟩
  let pixels ← Grid.ofArray width rows.length (rows.foldl (· ++ ·) #[])
  ofGrid header pixels

def width (s : Sprite) : Nat := s.header.width.toNat
def height (s : Sprite) : Nat := s.header.height.toNat

def visibleCount (s : Sprite) : Nat :=
  s.pixels.pixels.countP fun b => !(ObjectPixel.mk b).isTransparent

end Sprite
end Roomscape
