import Roomscape.Fault

/-!
Rectangles of pixels, top row first. The number of pixels is part of the type, so pixel `(x, y)` of a
grid stands at `y * width + x` and nothing is read outside the buffer.
-/
namespace Roomscape

universe u v

/-- One more than the largest count of pixels or bytes that can be addressed. -/
def addressSpace : Nat := UInt64.size

structure Grid (α : Type u) where
  width : Nat
  height : Nat
  pixels : Array α
  size_pixels : pixels.size = width * height
  area_lt : width * height < addressSpace

def largestBuffer : Nat := UInt64.size / 2 - 1

namespace Grid

variable {α : Type u} {β : Type v}

instance [DecidableEq α] : BEq (Grid α) where
  beq g h := g.width == h.width && g.height == h.height && g.pixels == h.pixels

/-- The grid with these pixels in row order, if there are as many as it needs. -/
def ofArray (width height : Nat) (pixels : Array α) : Except Fault (Grid α) :=
  if area : addressSpace ≤ width * height then
    .error (.malformed none (.areaOverflow width height))
  else if size : pixels.size = width * height then
    .ok ⟨width, height, pixels, size, Nat.lt_of_not_le area⟩
  else
    .error (.malformed none (.pixelCount width height (width * height) pixels.size))

/-- A grid of one value, if its area can be counted and its bytes allocated. -/
def filled (width height : Nat) (value : α) (pixelBytes : Nat) : Except Fault (Grid α) :=
  if area : addressSpace ≤ width * height then
    .error (.exhausted (.area width height))
  else if largestBuffer < width * height * pixelBytes then
    .error (.exhausted .grid)
  else
    .ok ⟨width, height, Array.replicate (width * height) value, by simp, Nat.lt_of_not_le area⟩

def ofFn (width height : Nat) (area : width * height < addressSpace) (f : Nat → Nat → α) : Grid α :=
  ⟨width, height, Array.ofFn fun i : Fin (width * height) => f (i.val % width) (i.val / width),
    by simp, area⟩

def map (f : α → β) (g : Grid α) : Grid β :=
  ⟨g.width, g.height, g.pixels.map f, by simp [g.size_pixels], g.area_lt⟩

def len (g : Grid α) : Nat := g.pixels.size

def isEmpty (g : Grid α) : Bool := g.pixels.isEmpty

def offset? (g : Grid α) (x y : Nat) : Option Nat :=
  if x < g.width ∧ y < g.height then some (y * g.width + x) else none

def get? (g : Grid α) (x y : Nat) : Option α :=
  (g.offset? x y).bind fun i => g.pixels[i]?

/-- The pixel at signed coordinates; there is none left of or above the grid. -/
def at? (g : Grid α) : Int → Int → Option α
  | .ofNat x, .ofNat y => g.get? x y
  | _, _ => none

def row? (g : Grid α) (y : Nat) : Option (Array α) :=
  if y < g.height then some (g.pixels.extract (y * g.width) (y * g.width + g.width)) else none

/-- The grid with one pixel overwritten, unless `(x, y)` is outside. -/
def set? (g : Grid α) (x y : Nat) (value : α) : Option (Grid α) :=
  (g.offset? x y).map fun i =>
    ⟨g.width, g.height, g.pixels.setIfInBounds i value, by simp [g.size_pixels], g.area_lt⟩

/-- As `set?`, with no change when `(x, y)` is outside. -/
def put (g : Grid α) (x y : Nat) (value : α) : Grid α :=
  ⟨g.width, g.height,
    if x < g.width ∧ y < g.height then g.pixels.setIfInBounds (y * g.width + x) value else g.pixels,
    by split <;> simp [g.size_pixels], g.area_lt⟩

/-- The grid with a line of pixels laid over it, pixel `k` at `spot k`. Pixels outside are dropped. -/
def writeAlong (g : Grid α) (spot : Nat → Nat × Nat) (run : Array α) : Grid α :=
  run.size.fold (fun k _ g => g.put (spot k).1 (spot k).2 run[k]) g

def writeRow (g : Grid α) (y : Nat) : Array α → Grid α := g.writeAlong fun x => (x, y)

def writeColumn (g : Grid α) (x : Nat) : Array α → Grid α := g.writeAlong fun y => (x, y)

/-- The grid with row `y` rewritten pixel by pixel, unless there is no such row. -/
def updateRow? (g : Grid α) (y : Nat) (f : Nat → α → α) : Option (Grid α) :=
  if y < g.height then
    some ⟨g.width, g.height,
      g.pixels.mapIdx fun i p =>
        if y * g.width ≤ i ∧ i < y * g.width + g.width then f (i - y * g.width) p else p,
      by simp [g.size_pixels], g.area_lt⟩
  else none

theorem position_lt (g : Grid α) (x : Fin g.width) (y : Fin g.height) :
    y.val * g.width + x.val < g.pixels.size := by
  rw [g.size_pixels]
  calc y.val * g.width + x.val < y.val * g.width + g.width := by omega
    _ = (y.val + 1) * g.width := by rw [Nat.add_mul, Nat.one_mul]
    _ ≤ g.height * g.width := Nat.mul_le_mul_right _ y.isLt
    _ = g.width * g.height := Nat.mul_comm ..

def rows (g : Grid α) : Vector (Vector α g.width) g.height :=
  Vector.ofFn fun y => Vector.ofFn fun x =>
    have := g.position_lt x y
    g.pixels[y.val * g.width + x.val]

end Grid
end Roomscape
