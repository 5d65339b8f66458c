import Roomscape.Notice
import Roomscape.Source
import Roomscape.Sprite

/-!
Photo and image files: a header, then the pixels in rows, the bottom row first. A photo pixel takes
two bytes, an image pixel one.
-/
namespace Roomscape

inductive PaletteMode where
  | adaptive
  | fixed
deriving DecidableEq

def PaletteMode.text : PaletteMode → String
  | .adaptive => "adaptive"
  | .fixed => "fixed"

/-- Size limits for each kind of file, and where a photo's palette comes from. -/
structure LoadOptions where
  maxPhotoWidth : UInt16
  maxPhotoHeight : UInt16
  maxImageWidth : UInt16
  maxImageHeight : UInt16
  paletteMode : PaletteMode
deriving DecidableEq

def LoadOptions.standard : LoadOptions := ⟨1024, 1024, 160, 100, .adaptive⟩

/-- How a pixel is written: in so many bytes. -/
structure PixelCode (α : Type) where
  bytes : Nat
  decode : Vector UInt8 bytes → α

def PixelCode.raw : PixelCode Raw := ⟨2, fun byte => Raw.ofBytes byte[0] byte[1]⟩

def PixelCode.object : PixelCode UInt8 := ⟨1, fun byte => byte[0]⟩

namespace PixelFile

def header : Decoder Header := do
  let bytes ← Decoder.exactly 4 (.malformed none .shortHeader)
  let byte (k : Nat) := bytes.getD k 0
  pure (Header.ofBytes (byte 0) (byte 1) (byte 2) (byte 3))

/-- Refuse a header past the limits of its kind. -/
def checkLimits (kind : PixelKind) (h : Header) (maxWidth maxHeight : UInt16) :
    Except Fault Unit :=
  if maxWidth < h.width ∨ maxHeight < h.height then
    .error (.malformed none
      (.oversize kind h.width.toNat h.height.toNat maxWidth.toNat maxHeight.toNat))
  else .ok ()

variable {α : Type}

def decodeRow (code : PixelCode α) (width : Nat) (bytes : Array UInt8) : Array α :=
  Array.ofFn fun x : Fin width =>
    code.decode (Vector.ofFn fun k => bytes.getD (x.val * code.bytes + k.val) 0)

/-- Read the rows above the lowest ones, which the grid has already. Row `y - 1` comes first. -/
def rowsAbove (code : PixelCode α) (h : Header) : Nat → Grid α → Decoder (Grid α)
  | 0, grid => pure grid
  | y + 1, grid => do
    let bytes ← Decoder.exactly (h.width.toNat * code.bytes)
      (.malformed none (.shortRow y h.width.toNat h.height.toNat))
    rowsAbove code h y (grid.writeRow y (decodeRow code h.width.toNat bytes))

def pixels [Inhabited α] (code : PixelCode α) (h : Header) : Decoder (Grid α) := do
  let blank ← ofExcept (Grid.filled h.width.toNat h.height.toNat default code.bytes)
  rowsAbove code h h.height.toNat blank

/-- A whole file of one kind: the header, once it is within the limits, and the grid behind it. -/
def file [Inhabited α] (kind : PixelKind) (code : PixelCode α) (maxWidth maxHeight : UInt16) :
    Decoder (Header × Grid α) := do
  let h ← header
  ofExcept (checkLimits kind h maxWidth maxHeight)
  return (h, ← pixels code h)

def rawPhoto (options : LoadOptions) : Decoder (Grid Raw) := do
  let (_, grid) ← file .photo .raw options.maxPhotoWidth options.maxPhotoHeight
  return grid

def sprite (options : LoadOptions) : Decoder Sprite := do
  let (h, grid) ← file .image .object options.maxImageWidth options.maxImageHeight
  ofExcept (Sprite.ofGrid h grid)

/-- The photo made of raw pixels. In fixed mode every pixel shows its own object colour. -/
def develop (mode : PaletteMode) (raw : Grid Raw) : Except Fault (Photo × List Notice) := do
  let h : Header := ⟨UInt16.ofNat raw.width, UInt16.ofNat raw.height⟩
  let fallback := raw.map fun p => p.toObject.bits
  match mode with
  | .adaptive =>
    let q := Quantized.ofRaw raw
    let photo ← Photo.assemble h q.palette q.indices fallback
    pure (photo, [.quantized raw.width raw.height q.figures])
  | .fixed => return (← Photo.assemble h Palette.fixed fallback fallback, [])

def photo (options : LoadOptions) : Decoder (Photo × List Notice) := do
  let raw ← rawPhoto options
  ofExcept (develop options.paletteMode raw)

end PixelFile
end Roomscape
