import Roomscape.Palette

/-!
The 256-slot colour table of the display. The object colours come first, then the photo's colours are
laid over them from some slot on; what would pass slot 255 is dropped.
-/
namespace Roomscape

/-- The last slot from which a photo's palette still fits the table. -/
def highestPaletteOffset : Nat := 64

/-- Accept a slot from which every photo colour stays inside the table. -/
def checkPaletteOffset (offset : UInt8) : Except Fault Unit :=
  if highestPaletteOffset < offset.toNat then .error (.paletteOffset offset.toNat) else .ok ()

structure Display where
  table : Vector Entry 256

namespace Display

/-- Lay a run of colours over the table from slot `start` on. -/
def install {n : Nat} (start : Nat) (run : Vector Entry n) (d : Display) : Display :=
  ⟨d.table.mapIdx fun slot below => if start ≤ slot then (run[slot - start]?).getD below else below⟩

def black : Display := ⟨Vector.replicate 256 Entry.black⟩

def ofPhoto (photo : Palette) (offset : UInt8) : Display :=
  (black.install 0 objectColours).install offset.toNat photo.entries

def lookup (d : Display) (byte : UInt8) : Entry :=
  d.table.get ⟨byte.toNat, byte.toNat_lt⟩

end Display
end Roomscape
