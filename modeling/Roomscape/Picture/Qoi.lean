import Roomscape.Octets
import Roomscape.Picture

/-!
The QOI form of a picture. Every pixel is written by what it has in common with those before it: it
repeats the last one, was seen lately, or differs little from the last one.
-/
namespace Roomscape.Qoi

structure Writer where
  /-- The pixels seen lately, each at its own slot. -/
  seen : Vector Rgba 64
  last : Rgba
  repeats : Nat
  done : Array UInt8

def slot (c : Rgba) : Fin 64 :=
  ⟨(3 * c.red.toNat + 5 * c.green.toNat + 7 * c.blue.toNat + 11 * c.alpha.toNat) % 64,
    Nat.mod_lt _ (by decide)⟩

/-- The step from one pixel to another of the same transparency. -/
def difference (before after : Rgba) : List UInt8 :=
  let red := after.red - before.red
  let green := after.green - before.green
  let blue := after.blue - before.blue
  if red + 2 < 4 ∧ green + 2 < 4 ∧ blue + 2 < 4 then
    [0x40 + 16 * (red + 2) + 4 * (green + 2) + (blue + 2)]
  else if green + 32 < 64 ∧ red - green + 8 < 16 ∧ blue - green + 8 < 16 then
    [0x80 + (green + 32), 16 * (red - green + 8) + (blue - green + 8)]
  else [0xFE, after.red, after.green, after.blue]

namespace Writer

def start : Writer := ⟨Vector.replicate 64 .clear, ⟨0, 0, 0, 255⟩, 0, #[]⟩

def endRun (w : Writer) : Writer :=
  if w.repeats = 0 then w
  else { w with repeats := 0, done := w.done.push (UInt8.ofNat (0xC0 + (w.repeats - 1))) }

def push (w : Writer) (c : Rgba) : Writer :=
  if c = w.last then
    let w := { w with repeats := w.repeats + 1 }
    if w.repeats = 62 then w.endRun else w
  else
    let w := w.endRun
    let i := slot c
    if w.seen.get i = c then { w with last := c, done := w.done.push (UInt8.ofNat i.val) }
    else
      let octets := if c.alpha = w.last.alpha then difference w.last c else 0xFF :: c.octets
      { w with seen := w.seen.set i.val c i.isLt, last := c, done := w.done ++ octets }

end Writer

def encode (p : Picture) : List UInt8 :=
  Octets.ascii "qoif" ++ Octets.high 4 p.width ++ Octets.high 4 p.height ++ [4, 0] ++
    (p.pixels.foldl Writer.push .start).endRun.done.toList ++ [0, 0, 0, 0, 0, 0, 0, 1]

end Roomscape.Qoi
