import Roomscape.Histogram
import Roomscape.Palette

/-!
A photo reduced to its own 192 colours. Every pixel is counted under its fine and its coarse key. The
128 best-ranked fine buckets get the fine slots in rank order, and every coarse bucket gets the slot
of its key; a pixel whose fine bucket missed the cut takes its coarse slot.
-/
namespace Roomscape

def fineKeys : Nat := 4096
def coarseKeys : Nat := 64

structure Figures where
  pixels : Nat
  fineUsed : Nat
  coarseUsed : Nat
  fineCoverage : Nat
deriving DecidableEq

/-- The share of pixels in fine slots; a photo without pixels is fully covered. -/
def Figures.fineRatio (f : Figures) : Float :=
  if f.pixels = 0 then 1.0
  else (UInt64.ofNat f.fineCoverage).toFloat / (UInt64.ofNat f.pixels).toFloat

structure Quantized where
  palette : Palette
  indices : Grid UInt8
  figures : Figures

/-- The colours of all pixels under `key`, in row order. -/
def Grid.tally (key : Raw → Nat) (size : Nat) (raw : Grid Raw) : Histogram :=
  raw.pixels.foldl (fun h p => h.record (key p) p.rgb6) (Histogram.empty size)

namespace Quantized

def fineHistogram (raw : Grid Raw) : Histogram := raw.tally Raw.fineKey fineKeys

def coarseHistogram (raw : Grid Raw) : Histogram := raw.tally Raw.coarseKey coarseKeys

/-- For every fine key the slot it won, if any. -/
def slotTable (winners : List Bucket) : Array (Option UInt8) :=
  winners.zipIdx.foldl
    (fun table won => table.setIfInBounds won.1.key.toNat (some (UInt8.ofNat won.2)))
    (Array.replicate fineKeys none)

def paletteOf (winners : List Bucket) (coarse : Histogram) : Palette :=
  let best := winners.toArray
  ⟨Vector.ofFn fun slot =>
    let bucket := if slot.val < fineSlots then best[slot.val]? else coarse.bucket? (slot.val - fineSlots)
    (bucket.map Bucket.entry).getD Entry.black⟩

def slotOf (table : Array (Option UInt8)) (p : Raw) : Option UInt8 := (table[p.fineKey]?).join

/-- The slot of a pixel whose fine bucket missed the cut. -/
def coarseSlot (p : Raw) : UInt8 := UInt8.ofNat (fineSlots + p.coarseKey)

def ofRaw (raw : Grid Raw) : Quantized :=
  let fine := fineHistogram raw
  let coarse := coarseHistogram raw
  let winners := fine.ranked.take fineSlots
  let table := slotTable winners
  { palette := paletteOf winners coarse
    indices := raw.map fun p => (slotOf table p).getD (coarseSlot p)
    figures :=
      { pixels := raw.len
        fineUsed := fine.occupied
        coarseUsed := coarse.occupied
        fineCoverage := raw.pixels.countP fun p => (slotOf table p).isSome } }

end Quantized
end Roomscape
