import Roomscape.Sprite

/-!
A room is a photo with sprites placed over it. A line across or down the map is painted from the back:
first the photo, then each sprite in the order of placement, cut to the part that meets the line.
-/
namespace Roomscape

structure Placement where
  x : Int32
  y : Int32
  image : Sprite

structure Room where
  name : String
  photo : Photo
  placements : List Placement

/-- What is shown where there is neither photo nor sprite. -/
def backdrop : UInt8 := 0

/-- The two ways a line can run over the map. -/
inductive Course where
  | across
  | down
deriving DecidableEq

/-- How a stretch of pixels meets a line: its pixels from `skip` on show on the line from `start` on. -/
structure Clip where
  start : Nat
  skip : Nat
deriving DecidableEq

/-- The meeting of a line of `length` pixels from `origin` with a stretch of `size` pixels from `place`. -/
def clip? (origin : Int) (length : Nat) (place : Int) (size : Nat) : Option Clip :=
  if origin + length ≤ place ∨ place + size ≤ origin then none
  else if origin ≤ place then some ⟨(place - origin).toNat, 0⟩
  else some ⟨0, (origin - place).toNat⟩

/-- Put one pixel on a line. If there is none, or a transparent one, the line stays. -/
def stamp (buffer : Array UInt8) (i : Nat) : Option UInt8 → Array UInt8
  | some b => if (ObjectPixel.mk b).isTransparent then buffer else buffer.setIfInBounds i b
  | none => buffer

/-- Lay up to `count` pixels over a line from `start` on. -/
def overlay (start count : Nat) (pixel : Nat → Option UInt8) (buffer : Array UInt8) : Array UInt8 :=
  (min (buffer.size - start) count).fold (fun k _ buffer => stamp buffer (start + k) (pixel k)) buffer

/-- Lay a stretch of `size` pixels from `place` over a line from `origin`, cut to where they meet. -/
def overlayCut (origin place : Int) (size : Nat) (pixel : Nat → Option UInt8) (buffer : Array UInt8) :
    Array UInt8 :=
  match clip? origin buffer.size place size with
  | some clip => overlay clip.start (size - clip.skip) (fun k => pixel (clip.skip + k)) buffer
  | none => buffer

namespace Placement

/-- Paint the sprite over the line that runs right from `(x, y)`: one of its rows is laid over it. -/
def paintAcross (p : Placement) (x y : Int) (buffer : Array UInt8) : Array UInt8 :=
  let image := p.image.pixels
  if y < p.y.toInt ∨ p.y.toInt + image.height ≤ y then buffer
  else
    match image.row? (y - p.y.toInt).toNat with
    | some row => overlayCut x p.x.toInt image.width (fun k => row[k]?) buffer
    | none => buffer

/-- Paint the sprite over the line that runs down from `(x, y)`: one of its columns is read pixel by
pixel. -/
def paintDown (p : Placement) (x y : Int) (buffer : Array UInt8) : Array UInt8 :=
  let image := p.image.pixels
  if x < p.x.toInt ∨ p.x.toInt + image.width ≤ x then buffer
  else overlayCut y p.y.toInt image.height (image.get? (x - p.x.toInt).toNat) buffer

def paint (p : Placement) : Course → Int → Int → Array UInt8 → Array UInt8
  | .across => p.paintAcross
  | .down => p.paintDown

end Placement

namespace Room

def place (r : Room) (p : Placement) : Room := { r with placements := r.placements ++ [p] }

/-- A palette slot of the photo as a display byte, moved up by `offset`. -/
def shade (offset : UInt8) : Option UInt8 → UInt8
  | some slot => slot + offset
  | none => backdrop

/-- Overwrite a buffer with the photo along the line that runs right from `(x, y)`. -/
def photoAcross (r : Room) (offset : UInt8) (x y : Int) (buffer : Array UInt8) : Array UInt8 :=
  match if 0 ≤ y then r.photo.indices.row? y.toNat else none with
  | some row =>
    buffer.mapIdx fun i _ =>
      let column := x + i
      shade offset (if 0 ≤ column then row[column.toNat]? else none)
  | none => buffer.map fun _ => backdrop

/-- Overwrite a buffer with the photo along the line that runs down from `(x, y)`. -/
def photoDown (r : Room) (offset : UInt8) (x y : Int) (buffer : Array UInt8) : Array UInt8 :=
  buffer.mapIdx fun i _ => shade offset (r.photo.indices.at? x (y + i))

def photoAlong (r : Room) (offset : UInt8) : Course → Int → Int → Array UInt8 → Array UInt8
  | .across => r.photoAcross offset
  | .down => r.photoDown offset

/-- Overwrite a buffer with the display bytes of the line from `(x, y)`, as long as the buffer is. -/
def fill (r : Room) (offset : UInt8) (course : Course) (x y : Int32) (buffer : Array UInt8) :
    Array UInt8 :=
  r.placements.foldl (fun buffer p => p.paint course x.toInt y.toInt buffer)
    (r.photoAlong offset course x.toInt y.toInt buffer)

def line (r : Room) (offset : UInt8) (course : Course) (x y : Int32) (length : Nat) : Array UInt8 :=
  r.fill offset course x y (Array.replicate length backdrop)

end Room
end Roomscape
