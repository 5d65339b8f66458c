import Mathlib.Algebra.BigOperators.Ring.Finset
import Mathlib.Algebra.Order.BigOperators.Group.Finset
import Roomscape.Proofs.OccupiedRanks
import Roomscape.Proofs.ShownColours

/-! How well the 128 fine slots are given away. The keys that win them have no fewer pixels than any
others, so no choice of as many keys covers more of the photo; and they cover all of it exactly when
there are no more than 128 keys to choose from. -/
namespace Roomscape

open Finset

namespace Grid

variable (key : Raw → Nat) (raw : Grid Raw)

/-- The keys that pixels have. -/
def keysUsed : Finset Nat := (raw.pixels.toList.map key).toFinset

theorem mem_keysUsed {k : Nat} : k ∈ raw.keysUsed key ↔ ∃ p ∈ raw.pixels, key p = k := by
  simp [keysUsed]

theorem count_pos_iff {k : Nat} : 0 < raw.count key k ↔ k ∈ raw.keysUsed key := by
  rw [mem_keysUsed, count, Array.countP_pos_iff]
  simp

/-- There are no more keys than colours. -/
theorem card_keysUsed_le : (raw.keysUsed key).card ≤ raw.pixels.toList.toFinset.card := by
  have image : raw.keysUsed key = raw.pixels.toList.toFinset.image key := by
    ext k
    simp [mem_keysUsed]
  rw [image]
  exact card_image_le

/-- As many buckets are occupied as there are keys. -/
theorem occupied_eq_card {size : Nat} (inside : ∀ p, key p < size) :
    (raw.tally key size).occupied = (raw.keysUsed key).card := by
  have keys : (range size).filter (fun k => 0 < raw.count key k) = raw.keysUsed key := by
    ext k
    rw [mem_filter, count_pos_iff, mem_range, and_iff_right_iff_imp, mem_keysUsed]
    rintro ⟨p, _, rfl⟩
    exact inside p
  rw [occupied_tally, List.countP_eq_length_filter, ← keys]
  rfl

/-- The pixels with keys of a set, counted key by key. -/
theorem countP_mem_eq_sum (keys : Finset Nat) :
    raw.pixels.countP (fun p => key p ∈ keys) = ∑ k ∈ keys, raw.count key k := by
  simp only [count, ← Array.countP_toList]
  induction raw.pixels.toList with
  | nil => simp
  | cons p rest ih => simp [List.countP_cons, sum_add_distrib, ih]

end Grid

/-- Of two sets the one with fewer members has the smaller sum, if no member that is only in it has a
larger term than any that is only in the other. -/
theorem sum_le_sum_of_exchange {S W : Finset Nat} {f : Nat → Nat} (fewer : S.card ≤ W.card)
    (best : ∀ a ∈ S \ W, ∀ b ∈ W \ S, f a ≤ f b) : ∑ a ∈ S, f a ≤ ∑ b ∈ W, f b := by
  rw [← sum_sdiff_le_sum_sdiff]
  let peak := (S \ W).sup f
  calc ∑ a ∈ S \ W, f a ≤ (S \ W).card * peak := sum_le_card_nsmul _ _ _ fun a only => le_sup only
    _ ≤ (W \ S).card * peak := Nat.mul_le_mul_right _ (card_sdiff_le_card_sdiff_iff.mpr fewer)
    _ ≤ ∑ b ∈ W \ S, f b := card_nsmul_le_sum _ _ _ fun b only =>
      Finset.sup_le fun a other => best a other b only

namespace Quantized

variable (raw : Grid Raw)

/-- The keys that won a fine slot. -/
def chosenKeys : Finset Nat :=
  (range fineKeys).filter fun k => raw.rank Raw.fineKey fineKeys k < fineSlots

theorem fineSlots_le_card : fineSlots ≤ (chosenKeys raw).card := by
  have slots : range fineSlots ⊆ (chosenKeys raw).image (raw.rank Raw.fineKey fineKeys) := by
    intro s fine
    obtain ⟨k, inside, rfl⟩ := raw.exists_rank_eq Raw.fineKey (show fineKeys ≤ 65536 by decide)
      (Nat.lt_trans (mem_range.mp fine) (by decide))
    exact mem_image_of_mem _ (mem_filter.mpr ⟨mem_range.mpr inside, mem_range.mp fine⟩)
  calc fineSlots = (range fineSlots).card := (card_range _).symm
    _ ≤ _ := card_le_card slots
    _ ≤ _ := card_image_le

theorem fineKey_mem_chosenKeys {p : Raw} :
    p.fineKey ∈ chosenKeys raw ↔ raw.rank Raw.fineKey fineKeys p.fineKey < fineSlots := by
  simp [chosenKeys, p.fineKey_lt]

/-- A key that won no slot has no more pixels than one that did. -/
theorem count_le_of_chosen {a b : Nat} (lost : a ∉ chosenKeys raw) (won : b ∈ chosenKeys raw) :
    raw.count Raw.fineKey a ≤ raw.count Raw.fineKey b := by
  rcases Nat.eq_zero_or_pos (raw.count Raw.fineKey a) with none | some
  · exact none ▸ Nat.zero_le _
  · obtain ⟨p, _, rfl⟩ := (raw.mem_keysUsed _).mp ((raw.count_pos_iff _).mp some)
    rw [fineKey_mem_chosenKeys, Nat.not_lt] at lost
    exact raw.count_le_of_rank_lt Raw.fineKey (Nat.lt_of_lt_of_le (mem_filter.mp won).2 lost)

theorem fineCoverage_eq_countP :
    (ofRaw raw).figures.fineCoverage = raw.pixels.countP fun p => p.fineKey ∈ chosenKeys raw := by
  refine Array.countP_congr fun p _ => ?_
  rw [slotOf, slotTable_of_rank raw p.fineKey_lt, decide_eq_true_eq, fineKey_mem_chosenKeys]
  split <;> simp [*]

/-- No 128 fine keys have more pixels among them than the ones that were chosen. -/
theorem countP_mem_le_fineCoverage {keys : Finset Nat} (few : keys.card ≤ 128) :
    raw.pixels.countP (fun p => p.fineKey ∈ keys) ≤ (ofRaw raw).figures.fineCoverage := by
  rw [fineCoverage_eq_countP, raw.countP_mem_eq_sum Raw.fineKey, raw.countP_mem_eq_sum Raw.fineKey]
  refine sum_le_sum_of_exchange (few.trans (fineSlots_le_card raw)) fun a lost b won => ?_
  exact count_le_of_chosen raw (mem_sdiff.mp lost).2 (mem_sdiff.mp won).1

theorem fineUsed_eq_card : (ofRaw raw).figures.fineUsed = (raw.keysUsed Raw.fineKey).card :=
  raw.occupied_eq_card Raw.fineKey Raw.fineKey_lt

theorem coarseUsed_eq_card : (ofRaw raw).figures.coarseUsed = (raw.keysUsed Raw.coarseKey).card :=
  raw.occupied_eq_card Raw.coarseKey Raw.coarseKey_lt

/-- Every pixel's key wins a slot exactly when there is a slot for every key. -/
theorem all_chosen_iff :
    (∀ p ∈ raw.pixels, p.fineKey ∈ chosenKeys raw) ↔ (raw.keysUsed Raw.fineKey).card ≤ 128 := by
  rw [← fineUsed_eq_card]
  constructor
  · intro all
    by_contra many
    obtain ⟨k, inside, rank⟩ := raw.exists_rank_eq Raw.fineKey (show fineKeys ≤ 65536 by decide)
      (show fineSlots < fineKeys by decide)
    -- The key at place 128 is one of those with pixels, and it has won no slot.
    have used := (raw.rank_lt_occupied_iff Raw.fineKey inside).mp (rank ▸ Nat.lt_of_not_le many)
    obtain ⟨p, pixel, rfl⟩ := (raw.mem_keysUsed _).mp ((raw.count_pos_iff _).mp used)
    have won := (fineKey_mem_chosenKeys raw).mp (all p pixel)
    omega
  · intro few p pixel
    have early := (raw.rank_lt_occupied_iff Raw.fineKey p.fineKey_lt).mpr (Grid.count_pos pixel)
    exact (fineKey_mem_chosenKeys raw).mpr (Nat.lt_of_lt_of_le early few)

theorem fineCoverage_le_len : (ofRaw raw).figures.fineCoverage ≤ raw.len := by
  rw [fineCoverage_eq_countP]
  exact Array.countP_le_size

theorem fineCoverage_eq_len_iff : (ofRaw raw).figures.fineCoverage = raw.len ↔
    (raw.keysUsed Raw.fineKey).card ≤ 128 := by
  rw [fineCoverage_eq_countP, Grid.len, Array.countP_eq_size, ← all_chosen_iff]
  simp

/-- A pixel's slot is a fine one exactly when its key won it. -/
theorem slot_lt_iff {p : Raw} : raw.slot p < 128 ↔ p.fineKey ∈ chosenKeys raw := by
  simp only [fineKey_mem_chosenKeys, Grid.slot, fineSlots]
  split <;> omega

/-- The slot that a key won is its rank. -/
theorem slot_of_chosen {p : Raw} (won : p.fineKey ∈ chosenKeys raw) :
    raw.slot p = raw.rank Raw.fineKey fineKeys p.fineKey := by
  rw [fineKey_mem_chosenKeys] at won
  simp only [Grid.slot, if_pos won]

/-- The pixels in fine slots are those with an index below 128. -/
theorem countP_indices :
    (ofRaw raw).indices.pixels.countP (·.toNat < 128) = (ofRaw raw).figures.fineCoverage := by
  rw [fineCoverage_eq_countP, indices_eq_map, Grid.map, Array.countP_map]
  refine Array.countP_congr fun p _ => ?_
  simp only [Function.comp, toNat_index, slot_lt_iff]

/-- The other pixels have fallen back to a coarse slot. -/
theorem fineCoverage_add_countP :
    (ofRaw raw).figures.fineCoverage + (ofRaw raw).indices.pixels.countP (128 ≤ ·.toNat) =
      raw.len := by
  have all : (ofRaw raw).indices.pixels.size = raw.len := by
    rw [indices_eq_map]
    exact Array.size_map
  have split : (ofRaw raw).indices.pixels.size = _ :=
    Array.size_eq_countP_add_countP (p := (·.toNat < 128))
  rw [all, countP_indices] at split
  simpa only [Bool.not_eq_true, decide_eq_false_iff_not, Nat.not_lt] using split.symm

theorem pixels_sub_fineCoverage :
    (ofRaw raw).figures.pixels - (ofRaw raw).figures.fineCoverage =
      (ofRaw raw).indices.pixels.countP (128 ≤ ·.toNat) :=
  Nat.sub_eq_of_eq_add' (fineCoverage_add_countP raw).symm

/-- A pixel falls back exactly when there are more keys than fine slots. -/
theorem countP_pos_iff : 0 < (ofRaw raw).indices.pixels.countP (128 ≤ ·.toNat) ↔
    128 < (ofRaw raw).figures.fineUsed := by
  have parts := fineCoverage_add_countP raw
  have full := fineCoverage_eq_len_iff raw
  rw [← fineUsed_eq_card] at full
  omega

end Quantized
end Roomscape
