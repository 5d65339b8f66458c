import Roomscape.Grid
import Roomscape.Histogram.Bucket

/-!
A bucket for every key below a size, and the ranking of the buckets: most pixels first, and among
equals the lower key first.
-/
namespace Roomscape

structure Histogram where
  buckets : Array Bucket

namespace Histogram

def bucketBytes : Nat := 16

/-- Keys are 16 bits wide and start over after 65535. -/
def empty (size : Nat) : Histogram :=
  ⟨Array.ofFn fun i : Fin size => Bucket.empty (UInt16.ofNat i.val)⟩

def allocate (size : Nat) : Except Fault Histogram :=
  if largestBuffer < size * bucketBytes then .error (.exhausted .histogram) else .ok (empty size)

/-- One more colour under `key`. A key past the end changes nothing. -/
def record (h : Histogram) (key : Nat) (c : Rgb) : Histogram :=
  ⟨h.buckets.modify key (·.add c)⟩

def bucket? (h : Histogram) (key : Nat) : Option Bucket := h.buckets[key]?

/-- As `record`, refusing a key past the end and a colour for a full bucket. -/
def record? (h : Histogram) (key : Nat) (c : Rgb) : Option Histogram :=
  match h.bucket? key with
  | some b => if b.isFull then none else some (h.record key c)
  | none => none

def len (h : Histogram) : Nat := h.buckets.size

def isEmpty (h : Histogram) : Bool := h.buckets.isEmpty

def occupied (h : Histogram) : Nat := h.buckets.countP fun b => 0 < b.count

/-- `a` stands no later than `b` in the ranking. -/
def ranksBefore (a b : Bucket) : Bool :=
  decide (b.count < a.count) || (a.count == b.count && decide (a.key ≤ b.key))

def ranked (h : Histogram) : List Bucket := h.buckets.toList.mergeSort ranksBefore

end Histogram
end Roomscape
