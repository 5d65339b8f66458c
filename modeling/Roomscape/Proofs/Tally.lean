import Roomscape.Quantized

/-! What a histogram holds after one pass over a photo. Updates of different buckets are interleaved in
the pass, but each bucket sees exactly the colours under its own key, in row order. -/
namespace Roomscape

namespace Bucket

theorem key_foldl_add (b : Bucket) (colours : List Rgb) : (colours.foldl add b).key = b.key := by
  induction colours generalizing b with
  | nil => rfl
  | cons c rest ih => exact ih (b.add c)

theorem count_foldl_add (b : Bucket) (colours : List Rgb) :
    (colours.foldl add b).count.toNat = (b.count.toNat + colours.length) % UInt64.size := by
  induction colours generalizing b with
  | nil => simp
  | cons c rest ih =>
    rw [List.foldl_cons, ih]
    simp only [add, UInt64.toNat_add, UInt64.toNat_one, List.length_cons, UInt64.size]
    omega

end Bucket

namespace Histogram

theorem bucket?_record (h : Histogram) (key : Nat) (c : Rgb) (k : Nat) :
    (h.record key c).bucket? k =
      (h.bucket? k).map fun b => if key = k then b.add c else b := by
  simp only [record, bucket?, Array.getElem?_modify]
  split <;> simp

theorem bucket?_empty (size k : Nat) :
    (empty size).bucket? k = if k < size then some (Bucket.empty (UInt16.ofNat k)) else none := by
  simp only [empty, bucket?, Array.getElem?_ofFn]
  split <;> rfl

end Histogram

namespace Grid

variable (key : Raw → Nat) (size : Nat) (raw : Grid Raw)

/-- The widened colours of the pixels under a key, in row order. -/
def coloursUnder (k : Nat) : List Rgb :=
  (raw.pixels.toList.filter fun p => key p = k).map Raw.rgb6

/-- How many pixels have a key. -/
def count (k : Nat) : Nat := raw.pixels.countP fun p => key p = k

/-- What a bucket comes to when it is given nothing but its own colours. -/
def ownBucket (k : Nat) : Bucket :=
  (raw.coloursUnder key k).foldl Bucket.add (Bucket.empty (UInt16.ofNat k))

theorem length_coloursUnder (k : Nat) : (raw.coloursUnder key k).length = raw.count key k := by
  simp [coloursUnder, count, ← Array.countP_toList, List.countP_eq_length_filter]

/-- One pass hands every bucket its own colours. -/
private theorem bucket?_pass (pixels : List Raw) (h : Histogram) (k : Nat) :
    (pixels.foldl (fun h p => h.record (key p) p.rgb6) h).bucket? k =
      (h.bucket? k).map fun b =>
        ((pixels.filter fun p => key p = k).map Raw.rgb6).foldl Bucket.add b := by
  induction pixels generalizing h with
  | nil => simp
  | cons p rest ih =>
    rw [List.foldl_cons, ih, Histogram.bucket?_record, Option.map_map]
    congr 1
    funext b
    -- Only the bucket of the pixel's own key takes its colour.
    by_cases own : key p = k <;> simp [own]

theorem bucket?_tally (k : Nat) :
    (raw.tally key size).bucket? k = if k < size then some (raw.ownBucket key k) else none := by
  rw [tally, ← Array.foldl_toList, bucket?_pass, Histogram.bucket?_empty]
  split <;> rfl

theorem buckets_tally :
    (raw.tally key size).buckets.toList = (List.range size).map (raw.ownBucket key) := by
  apply List.ext_getElem?
  intro k
  have entry := raw.bucket?_tally key size k
  simp only [Histogram.bucket?] at entry
  rw [Array.getElem?_toList, entry]
  split <;> simp [*]

theorem key_ownBucket (k : Nat) : (raw.ownBucket key k).key = UInt16.ofNat k :=
  Bucket.key_foldl_add _ _

/-- The number of pixels of a grid can be counted, so no bucket's count starts over. -/
theorem count_ownBucket (k : Nat) : (raw.ownBucket key k).count.toNat = raw.count key k := by
  have all : raw.count key k ≤ raw.pixels.size := Array.countP_le_size
  have bound := raw.area_lt
  rw [← raw.size_pixels] at bound
  rw [ownBucket, Bucket.count_foldl_add, length_coloursUnder]
  simp only [Bucket.empty, UInt64.toNat_zero, addressSpace, UInt64.size] at bound ⊢
  omega

end Grid
end Roomscape
