import Roomscape.Proofs.GridPixels
import Roomscape.Proofs.Tally

/-! The ranking of a photo's buckets, and the slots that follow from it. No two buckets share a key, so
the order is strict and a bucket stands after exactly the buckets that outrank it. -/
namespace Roomscape

namespace Histogram

/-- `a` stands before `b` in the ranking. -/
def outranks (a b : Bucket) : Bool :=
  decide (b.count < a.count) || (a.count == b.count && decide (a.key < b.key))

theorem ranksBefore_iff {a b : Bucket} : ranksBefore a b ↔
    b.count.toNat < a.count.toNat ∨
      (a.count.toNat = b.count.toNat ∧ a.key.toNat ≤ b.key.toNat) := by
  simp [ranksBefore, UInt64.lt_iff_toNat_lt, ← UInt64.toNat_inj, UInt16.le_iff_toNat_le]

theorem outranks_iff {a b : Bucket} : outranks a b ↔
    b.count.toNat < a.count.toNat ∨
      (a.count.toNat = b.count.toNat ∧ a.key.toNat < b.key.toNat) := by
  simp [outranks, UInt64.lt_iff_toNat_lt, ← UInt64.toNat_inj, UInt16.lt_iff_toNat_lt]

theorem outranks_irrefl (a : Bucket) : ¬ outranks a a := by
  rw [outranks_iff]; omega

theorem outranks_asymm {a b : Bucket} (before : outranks a b) : ¬ outranks b a := by
  rw [outranks_iff] at before ⊢; omega

theorem ranked_perm (h : Histogram) : h.ranked.Perm h.buckets.toList :=
  List.mergeSort_perm _ _

theorem ranked_pairwise (h : Histogram) : h.ranked.Pairwise fun a b => ranksBefore a b := by
  apply List.pairwise_mergeSort
  · intro a b c first second
    rw [ranksBefore_iff] at first second ⊢
    omega
  · intro a b
    rw [Bool.or_eq_true, ranksBefore_iff, ranksBefore_iff]
    omega

/-- Between buckets with keys of their own there are no ties. -/
theorem ranked_strict (h : Histogram) (keys : (h.buckets.toList.map Bucket.key).Nodup) :
    h.ranked.Pairwise fun a b => outranks a b := by
  -- Sorting gives an order with ties, and distinct keys leave no tie.
  have distinct : h.ranked.Pairwise fun a b => a.key ≠ b.key :=
    List.pairwise_map.mp ((h.ranked_perm.map Bucket.key).nodup_iff.mpr keys)
  refine (h.ranked_pairwise.and distinct).imp ?_
  rintro a b ⟨before, apart⟩
  rw [ranksBefore_iff] at before
  rw [Ne, ← UInt16.toNat_inj] at apart
  rw [outranks_iff]
  omega

/-- Keys do not start over below 65536, so up to there no two buckets have one key. -/
theorem keys_nodup_of_range {size : Nat} (small : size ≤ 65536) {own : Nat → Bucket}
    (keyed : ∀ k, (own k).key = UInt16.ofNat k) : (((List.range size).map own).map Bucket.key).Nodup := by
  rw [List.map_map, List.Nodup, List.pairwise_map]
  refine List.pairwise_lt_range.imp_of_mem ?_
  intro a b ha hb less
  rw [List.mem_range] at ha hb
  simp only [Function.comp, keyed, Ne, ← UInt16.toNat_inj, UInt16.toNat_ofNat']
  rw [Nat.mod_eq_of_lt (by omega), Nat.mod_eq_of_lt (by omega)]
  omega

/-- In a strict ranking a position is the number of buckets that outrank the one standing there. -/
theorem countP_outranks {l : List Bucket} (strict : l.Pairwise fun a b => outranks a b) {i : Nat}
    {b : Bucket} (found : l[i]? = some b) : l.countP (outranks · b) = i := by
  induction l generalizing i with
  | nil => simp at found
  | cons a rest ih =>
    obtain ⟨first, strict⟩ := List.pairwise_cons.mp strict
    cases i with
    | zero =>
      obtain rfl : a = b := by simpa using found
      have behind : rest.countP (outranks · a) = 0 := by
        rw [List.countP_eq_zero]
        intro c member
        exact outranks_asymm (first c member)
      rw [List.countP_cons, behind, if_neg (outranks_irrefl a)]
    | succ i =>
      have found : rest[i]? = some b := by simpa using found
      rw [List.countP_cons, ih strict found, if_pos (first b (List.mem_of_getElem? found))]

end Histogram

namespace Grid

variable (key : Raw → Nat) (size : Nat) (raw : Grid Raw)

/-- How many keys come before `k`: those with more pixels, and the lower ones with as many. -/
def rank (k : Nat) : Nat :=
  (List.range size).countP fun other =>
    raw.count key k < raw.count key other ∨
      (raw.count key other = raw.count key k ∧ other < k)

variable {size}

theorem outranks_ownBucket (small : size ≤ 65536) {a b : Nat} (ha : a < size) (hb : b < size) :
    Histogram.outranks (raw.ownBucket key a) (raw.ownBucket key b) ↔
      raw.count key b < raw.count key a ∨ (raw.count key a = raw.count key b ∧ a < b) := by
  rw [Histogram.outranks_iff]
  simp only [count_ownBucket, key_ownBucket, UInt16.toNat_ofNat']
  rw [Nat.mod_eq_of_lt (by omega), Nat.mod_eq_of_lt (by omega)]

theorem keys_nodup (small : size ≤ 65536) :
    ((raw.tally key size).buckets.toList.map Bucket.key).Nodup := by
  rw [buckets_tally]
  exact Histogram.keys_nodup_of_range small (raw.key_ownBucket key)

/-- Only one place in the ranking can hold a key's bucket. -/
theorem position_eq_rank (small : size ≤ 65536) {i k : Nat} (hk : k < size)
    (found : (raw.tally key size).ranked[i]? = some (raw.ownBucket key k)) :
    i = raw.rank key size k := by
  have strict := (raw.tally key size).ranked_strict (raw.keys_nodup key small)
  rw [← Histogram.countP_outranks strict found,
    (raw.tally key size).ranked_perm.countP_eq, buckets_tally, List.countP_map, rank]
  apply List.countP_congr
  intro other member
  simp [raw.outranks_ownBucket key small (List.mem_range.mp member) hk]

/-- A key's bucket stands in the ranking at the key's rank. -/
theorem ranked_rank (small : size ≤ 65536) {k : Nat} (hk : k < size) :
    (raw.tally key size).ranked[raw.rank key size k]? = some (raw.ownBucket key k) := by
  have member : raw.ownBucket key k ∈ (raw.tally key size).ranked := by
    rw [(raw.tally key size).ranked_perm.mem_iff, buckets_tally]
    exact List.mem_map_of_mem (List.mem_range.mpr hk)
  obtain ⟨i, found⟩ := List.mem_iff_getElem?.mp member
  rwa [← raw.position_eq_rank key small hk found]

theorem eq_ownBucket_of_mem_ranked {b : Bucket} (member : b ∈ (raw.tally key size).ranked) :
    ∃ k < size, b = raw.ownBucket key k := by
  rw [(raw.tally key size).ranked_perm.mem_iff, buckets_tally] at member
  obtain ⟨k, hk, rfl⟩ := List.mem_map.mp member
  exact ⟨k, List.mem_range.mp hk, rfl⟩

/-- Two keys do not have one rank, since no two buckets stand in one place. -/
theorem rank_injective (small : size ≤ 65536) {a b : Nat} (ha : a < size) (hb : b < size)
    (same : raw.rank key size a = raw.rank key size b) : a = b := by
  have place := raw.ranked_rank key small ha
  rw [same, raw.ranked_rank key small hb] at place
  have keys := congrArg Bucket.key (Option.some.inj place)
  rw [key_ownBucket, key_ownBucket, ← UInt16.toNat_inj, UInt16.toNat_ofNat', UInt16.toNat_ofNat',
    Nat.mod_eq_of_lt (by omega), Nat.mod_eq_of_lt (by omega)] at keys
  exact keys.symm

/-- Every place in the ranking is some key's. -/
theorem exists_rank_eq (small : size ≤ 65536) {i : Nat} (hi : i < size) :
    ∃ k < size, raw.rank key size k = i := by
  have length : (raw.tally key size).ranked.length = size := by
    rw [(raw.tally key size).ranked_perm.length_eq, buckets_tally, List.length_map, List.length_range]
  have inside : i < (raw.tally key size).ranked.length := by rwa [length]
  have found := List.getElem?_eq_getElem inside
  generalize (raw.tally key size).ranked[i] = b at found
  obtain ⟨k, hk, rfl⟩ := raw.eq_ownBucket_of_mem_ranked key (List.mem_of_getElem? found)
  exact ⟨k, hk, (raw.position_eq_rank key small hk found).symm⟩

/-- A key that comes before another has no fewer pixels. -/
theorem count_le_of_rank_lt {a b : Nat} (before : raw.rank key size a < raw.rank key size b) :
    raw.count key b ≤ raw.count key a := by
  refine Nat.le_of_not_lt fun fewer => Nat.not_le.mpr before ?_
  refine List.countP_mono_left fun other _ earlier => ?_
  simp only [decide_eq_true_eq] at earlier ⊢
  omega

end Grid
end Roomscape
