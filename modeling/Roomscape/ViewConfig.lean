import Roomscape.Palette.Display
import Roomscape.PixelFile
import Roomscape.WhiteSpace
import Roomscape.Yaml.Record

/-!
The view's settings: the size of the scroll window, the palette offset and the limits of pixel files.
A text names the settings that differ from the standard ones.
-/
namespace Roomscape

structure ViewConfig where
  scrollWidth : Nat
  scrollHeight : Nat
  paletteOffset : UInt8
  load : LoadOptions
deriving DecidableEq

def greatestSize : Nat := UInt64.size - 1

def PaletteMode.ofText? (text : String) : Option PaletteMode :=
  [PaletteMode.adaptive, PaletteMode.fixed].find? fun mode => mode.text == text

/-- The limits in a node; those left out are the standard ones. -/
def LoadOptions.ofNode? (d : Yaml.Document) (node : Yaml.Node) : Option LoadOptions := do
  let fields ← d.fields? node
  let limit (name : String) (otherwise : UInt16) : Option UInt16 :=
    fields.getD? name otherwise fun node => (d.unsigned? 65535 node).map UInt16.ofNat
  let standard := LoadOptions.standard
  some
    { maxPhotoWidth := ← limit "max_photo_width" standard.maxPhotoWidth
      maxPhotoHeight := ← limit "max_photo_height" standard.maxPhotoHeight
      maxImageWidth := ← limit "max_image_width" standard.maxImageWidth
      maxImageHeight := ← limit "max_image_height" standard.maxImageHeight
      paletteMode := ← fields.getD? "palette_mode" standard.paletteMode fun node => do
        PaletteMode.ofText? (← d.choice? node) }

namespace ViewConfig

def standard : ViewConfig := ⟨320, 182, 64, LoadOptions.standard⟩

def fileName : UnixPath := ⟨"roomview.yaml"⟩

/-- Refuse settings that no window can be made with. -/
def validate (c : ViewConfig) : Except Fault Unit := do
  checkPaletteOffset c.paletteOffset
  if c.scrollWidth = 0 ∨ c.scrollHeight = 0 then
    throw (.emptyWindow c.scrollWidth c.scrollHeight)

def ofDocument? (d : Yaml.Document) : Option ViewConfig := do
  let fields ← d.rootFields?
  let size (name : String) (otherwise : Nat) : Option Nat :=
    fields.getD? name otherwise (d.unsigned? greatestSize)
  some
    { scrollWidth := ← size "scroll_width" standard.scrollWidth
      scrollHeight := ← size "scroll_height" standard.scrollHeight
      paletteOffset := ← fields.getD? "palette_offset" standard.paletteOffset fun node =>
        (d.unsigned? 255 node).map UInt8.ofNat
      load := ← fields.getD? "load" standard.load (LoadOptions.ofNode? d) }

/-- The settings in a text. A blank text names none. -/
def parse (text : String) : Except Fault ViewConfig :=
  if isBlankText text then .ok standard
  else
    match (Yaml.Document.ofText? text).bind ofDocument? with
    | none => .error .badConfig
    | some c => do
      c.validate
      pure c

end ViewConfig
end Roomscape
