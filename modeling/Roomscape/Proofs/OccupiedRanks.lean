import Roomscape.Proofs.Ranking

/-! The occupied buckets of a photo come first in its ranking. A rank below their number has pixels, and
from that rank on there are only empty buckets, which stand for black. -/
namespace Roomscape.Grid

variable (key : Raw → Nat) (size : Nat) (raw : Grid Raw)

theorem occupied_tally :
    (raw.tally key size).occupied = (List.range size).countP fun k => 0 < raw.count key k := by
  rw [Histogram.occupied, ← Array.countP_toList, buckets_tally, List.countP_map]
  refine List.countP_congr fun k _ => ?_
  simp [UInt64.lt_iff_toNat_lt, count_ownBucket]

/-- A key without pixels has the bucket that it began with. -/
theorem ownBucket_of_count_eq_zero {k : Nat} (unused : raw.count key k = 0) :
    raw.ownBucket key k = Bucket.empty (UInt16.ofNat k) := by
  have colours : raw.coloursUnder key k = [] := by
    rw [← List.length_eq_zero_iff, length_coloursUnder, unused]
  rw [ownBucket, colours, List.foldl_nil]

variable {size}

/-- The keys before one with pixels have pixels, and so has the key itself. -/
theorem rank_lt_occupied {k : Nat} (hk : k < size) (used : 0 < raw.count key k) :
    raw.rank key size k < (raw.tally key size).occupied := by
  rw [occupied_tally, rank, List.countP_eq_length_filter, List.countP_eq_length_filter]
  -- The key and those before it are different keys, and all of them have pixels.
  generalize before : (List.range size).filter _ = earlier
  have own : k ∉ earlier := by simp [← before]
  have distinct : (k :: earlier).Nodup :=
    List.nodup_cons.mpr ⟨own, before ▸ List.nodup_range.filter _⟩
  refine distinct.length_le_of_subset fun other member => ?_
  rw [List.mem_filter, List.mem_range, decide_eq_true_eq]
  rcases List.mem_cons.mp member with rfl | member
  · exact ⟨hk, used⟩
  · rw [← before, List.mem_filter, List.mem_range, decide_eq_true_eq] at member
    exact ⟨member.1, by omega⟩

/-- Every key with pixels comes before a key without. -/
theorem occupied_le_rank {k : Nat} (unused : raw.count key k = 0) :
    (raw.tally key size).occupied ≤ raw.rank key size k := by
  rw [occupied_tally, rank]
  refine List.countP_mono_left fun other _ used => ?_
  simp only [decide_eq_true_eq] at used ⊢
  omega

/-- The ranks below the number of occupied buckets are those of the keys with pixels. -/
theorem rank_lt_occupied_iff {k : Nat} (hk : k < size) :
    raw.rank key size k < (raw.tally key size).occupied ↔ 0 < raw.count key k := by
  refine ⟨fun early => Nat.pos_of_ne_zero fun unused => ?_, raw.rank_lt_occupied key hk⟩
  exact Nat.not_lt.mpr (raw.occupied_le_rank key unused) early

/-- What stands in the ranking past the occupied buckets is black. -/
theorem entry_of_unoccupied (small : size ≤ 65536) {i : Nat} {b : Bucket}
    (past : (raw.tally key size).occupied ≤ i)
    (found : (raw.tally key size).ranked[i]? = some b) : b.entry = Entry.black := by
  obtain ⟨k, hk, rfl⟩ := raw.eq_ownBucket_of_mem_ranked key (List.mem_of_getElem? found)
  have place := raw.position_eq_rank key small hk found
  have unused : raw.count key k = 0 := by
    refine Nat.eq_zero_of_not_pos fun used => ?_
    have early := (raw.rank_lt_occupied_iff key hk).mpr used
    omega
  rw [raw.ownBucket_of_count_eq_zero key unused]
  rfl

end Roomscape.Grid
