import Roomscape.Colour

/-!
One histogram bucket: how many colours it took and their running mean. Each colour changes a channel
from `a` to `(a * n + v) / (n + 1)`, rounded down at every step, so the mean depends on the order.
-/
namespace Roomscape

structure Bucket where
  key : UInt16
  count : UInt64
  average : Rgb
deriving DecidableEq

namespace Bucket

def empty (key : UInt16) : Bucket := ⟨key, 0, ⟨0, 0, 0⟩⟩

/-- The mean of `n` values was `a`; the next value is `v`. -/
def blend (n : UInt64) (a v : UInt8) : UInt8 :=
  ((a.toUInt64 * n + v.toUInt64) / (n + 1)).toUInt8

def add (b : Bucket) (c : Rgb) : Bucket :=
  { b with
    count := b.count + 1
    average := ⟨blend b.count b.average.red c.red, blend b.count b.average.green c.green,
      blend b.count b.average.blue c.blue⟩ }

/-- The bucket has as many colours as it can count, and one more would be averaged over none. -/
def isFull (b : Bucket) : Bool := b.count + 1 == 0

/-- The mean as a display colour; an empty bucket is black. -/
def entry (b : Bucket) : Entry := Entry.ofRgb b.average

end Bucket
end Roomscape
