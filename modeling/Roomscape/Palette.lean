import Roomscape.Colour
import Roomscape.Fault

/-!
The 192 colours of one photo: 128 fine slots for the most frequent 4:4:4 buckets, then 64 coarse
slots, one for each 2:2:2 bucket.
-/
namespace Roomscape

abbrev fineSlots : Nat := 128
abbrev paletteSlots : Nat := 192

/-- The fixed colours of sprite pixels, by their 2:2:2 value. -/
def objectColours : Vector Entry 64 :=
  Vector.ofFn fun k => (ObjectPixel.mk (UInt8.ofNat k.val)).entry

structure Palette where
  entries : Vector Entry paletteSlots
deriving DecidableEq

namespace Palette

def black : Palette := ⟨Vector.replicate paletteSlots Entry.black⟩

/-- The object colours in the first 64 slots, black in the others. -/
def fixed : Palette :=
  ⟨Vector.ofFn fun slot => (objectColours[slot.val]?).getD Entry.black⟩

def get? (p : Palette) (slot : Nat) : Option Entry := p.entries[slot]?

def fine (p : Palette) : List Entry := p.entries.toList.take fineSlots

def coarse (p : Palette) : List Entry := p.entries.toList.drop fineSlots

def toBytes (p : Palette) : List UInt8 := p.entries.toList.flatMap Entry.toBytes

/-- The palette that a display was sent. High bits of a byte are dropped. -/
def ofBytes (bytes : Array UInt8) : Except Fault Palette :=
  if bytes.size = 3 * paletteSlots then
    .ok ⟨Vector.ofFn fun slot =>
      let channel (k : Nat) := bytes.getD (3 * slot.val + k) 0
      Entry.ofRgb ⟨channel 0, channel 1, channel 2⟩⟩
  else
    .error (.malformed none (.paletteLength bytes.size))

def summary (p : Palette) : String :=
  "Palette \x7b fine: " ++ toString p.fine.length ++ ", coarse: " ++ toString p.coarse.length ++ " \x7d"

end Palette
end Roomscape
