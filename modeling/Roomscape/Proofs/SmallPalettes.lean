import Roomscape.Proofs.FineSelection
import Roomscape.Proofs.PaletteBytes

/-! Photos whose fine keys all win a slot. There indices are as good as keys, and a photo that has no
two colours under one key is shown in its own colours. -/
namespace Roomscape

theorem Rgb.ext_channel {c d : Rgb} (same : ∀ ch, (c.channel ch).toNat = (d.channel ch).toNat) :
    c = d := by
  have red := UInt8.toNat_inj.mp (same .red)
  have green := UInt8.toNat_inj.mp (same .green)
  have blue := UInt8.toNat_inj.mp (same .blue)
  cases c
  cases d
  simp_all [channel]

theorem Entry.channel_toRgb (e : Entry) (ch : Channel) :
    (e.toRgb.channel ch).toNat = (e.channel ch).val := by
  cases ch <;> exact toNat_sixBits _

namespace Quantized

/-- The colour that the palette has for a pixel. -/
def shown? (q : Quantized) (x y : Nat) : Option Entry :=
  (q.indices.get? x y).bind fun i => q.palette.get? i.toNat

variable (raw : Grid Raw)

/-- The index of a pixel. -/
theorem exists_index {x y : Nat} {p : Raw} (pixel : raw.get? x y = some p) :
    ∃ i, (ofRaw raw).indices.get? x y = some i ∧ i.toNat = raw.slot p := by
  have index := get?_indices raw x y
  rw [pixel, Option.map_some] at index
  exact Option.map_eq_some_iff.mp index

theorem shown?_eq {x y : Nat} {p : Raw} (pixel : raw.get? x y = some p) :
    (ofRaw raw).shown? x y = some (raw.shownBucket p).entry := by
  obtain ⟨i, found, slot⟩ := exists_index raw pixel
  rw [shown?, found, Option.bind_some, slot, palette_slot]

section Few

variable {raw} (few : (raw.keysUsed Raw.fineKey).card ≤ 128)

include few

theorem slot_lt_fineUsed {p : Raw} (pixel : p ∈ raw.pixels) :
    raw.slot p < (ofRaw raw).figures.fineUsed := by
  rw [slot_of_chosen raw ((all_chosen_iff raw).mpr few p pixel)]
  exact (raw.rank_lt_occupied_iff Raw.fineKey p.fineKey_lt).mpr (Grid.count_pos pixel)

theorem index_lt_fineUsed {i : UInt8} (member : i ∈ (ofRaw raw).indices.pixels) :
    i.toNat < (ofRaw raw).figures.fineUsed := by
  rw [indices_eq_map] at member
  obtain ⟨p, pixel, rfl⟩ := Array.mem_map.mp member
  rw [toNat_index]
  exact slot_lt_fineUsed few pixel

theorem slot_eq_iff {p r : Raw} (first : p ∈ raw.pixels) (second : r ∈ raw.pixels) :
    raw.slot p = raw.slot r ↔ p.fineKey = r.fineKey := by
  have chosen := (all_chosen_iff raw).mpr few
  rw [slot_of_chosen raw (chosen p first), slot_of_chosen raw (chosen r second)]
  refine ⟨raw.rank_injective Raw.fineKey (by decide) p.fineKey_lt r.fineKey_lt, ?_⟩
  exact congrArg (raw.rank Raw.fineKey fineKeys)

theorem index_eq_iff {x y x' y' : Nat} {p r : Raw} (first : raw.get? x y = some p)
    (second : raw.get? x' y' = some r) :
    (ofRaw raw).indices.get? x y = (ofRaw raw).indices.get? x' y' ↔ p.fineKey = r.fineKey := by
  obtain ⟨i, found, slot⟩ := exists_index raw first
  obtain ⟨j, found', slot'⟩ := exists_index raw second
  rw [found, found', Option.some_inj, ← UInt8.toNat_inj, slot, slot']
  exact slot_eq_iff few (raw.mem_pixels_of_get? first) (raw.mem_pixels_of_get? second)

end Few

/-- The mean of pixels of one colour is that colour. -/
theorem toRgb_shownBucket (countable : 63 * raw.len < UInt64.size) {p : Raw}
    (pixel : p ∈ raw.pixels) (fine : raw.slot p < 128)
    (alone : ∀ r ∈ raw.pixels, r.fineKey = p.fineKey → r = p) :
    (raw.shownBucket p).entry.toRgb = p.rgb6 := by
  -- The range of the bucket's colours is a point, which the mean cannot leave.
  have within := raw.within_ownBucket Raw.fineKey p.toNat_rgb6_le
    (fun r member same ch => by rw [alone r member same]; exact ⟨Nat.le_refl _, Nat.le_refl _⟩) countable
  have used : 0 < (raw.ownBucket Raw.fineKey p.fineKey).count.toNat := by
    rw [Grid.count_ownBucket]
    exact Grid.count_pos pixel
  rw [Grid.shownBucket, if_pos fine]
  refine Rgb.ext_channel fun ch => ?_
  have mean := Nat.le_antisymm (within.high ch) (within.low used ch)
  rw [Entry.channel_toRgb, Bucket.entry, Entry.channel_ofRgb, mean]
  exact Nat.mod_eq_of_lt (Nat.lt_add_one_of_le (p.toNat_rgb6_le ch))

/-- With no more than 128 fine keys the indices stand for the keys, and no pixel falls back. A pixel
with a fine index is shown in its own colour if no other colour is under its key; so a photo of at most
128 colours, each under a key of its own, is shown as it is. The sums behind the means must be counted
in 64 bits. -/
theorem small_palettes_lossless :
    ((raw.keysUsed Raw.fineKey).card ≤ 128 →
      (∀ i ∈ (ofRaw raw).indices.pixels, i.toNat < (ofRaw raw).figures.fineUsed) ∧
      (ofRaw raw).figures.fineCoverage = raw.width * raw.height ∧
      ∀ x y x' y' p r, raw.get? x y = some p → raw.get? x' y' = some r →
        ((ofRaw raw).indices.get? x y = (ofRaw raw).indices.get? x' y' ↔ p.fineKey = r.fineKey)) ∧
    (63 * raw.len < UInt64.size →
      (∀ x y p i, raw.get? x y = some p → (ofRaw raw).indices.get? x y = some i → i.toNat < 128 →
        (∀ r ∈ raw.pixels, r.fineKey = p.fineKey → r = p) →
          ((ofRaw raw).palette.get? i.toNat).map Entry.toRgb = some p.rgb6) ∧
      (raw.pixels.toList.toFinset.card ≤ 128 →
        (∀ p ∈ raw.pixels, ∀ r ∈ raw.pixels, r.fineKey = p.fineKey → r = p) →
          ∀ x y, ((ofRaw raw).shown? x y).map Entry.toRgb = (raw.get? x y).map Raw.rgb6)) := by
  refine ⟨fun few => ⟨fun i => index_lt_fineUsed few, ?_, ?_⟩, fun countable => ⟨?_, ?_⟩⟩
  · rw [(fineCoverage_eq_len_iff raw).mpr few]
    exact raw.size_pixels
  · intro x y x' y' p r
    exact index_eq_iff few
  · intro x y p i pixel index fine alone
    obtain ⟨j, found, slot⟩ := exists_index raw pixel
    obtain rfl : i = j := Option.some.inj (index.symm.trans found)
    rw [slot] at fine ⊢
    rw [palette_slot, Option.map_some,
      toRgb_shownBucket raw countable (raw.mem_pixels_of_get? pixel) fine alone]
  · intro few alone x y
    have keys := (raw.card_keysUsed_le Raw.fineKey).trans few
    cases pixel : raw.get? x y with
    | none =>
      have index := get?_indices raw x y
      rw [pixel, Option.map_none, Option.map_eq_none_iff] at index
      rw [shown?, index]
      rfl
    | some p =>
      have member := raw.mem_pixels_of_get? pixel
      have fine := (slot_lt_iff raw).mpr ((all_chosen_iff raw).mpr keys p member)
      rw [shown?_eq raw pixel, Option.map_some, Option.map_some,
        toRgb_shownBucket raw countable member fine (alone p member)]

theorem small_palettes_lossless_dusk :
    (dusk.keysUsed Raw.fineKey).card ≤ 128 ∧ 63 * dusk.len < UInt64.size ∧
    ∃ i, (ofRaw dusk).indices.get? 1 0 = some i ∧ i.toNat < (ofRaw dusk).figures.fineUsed ∧
      ((ofRaw dusk).palette.get? i.toNat).map Entry.toRgb = some ⟨62, 63, 62⟩ := by
  have few : (dusk.keysUsed Raw.fineKey).card ≤ 128 := by decide
  have countable : 63 * dusk.len < UInt64.size := by decide
  have white : dusk.get? 1 0 = some ⟨0xffff⟩ := by decide
  have bright : Raw.rgb6 ⟨0xffff⟩ = ⟨62, 63, 62⟩ := by decide
  obtain ⟨slots, shown⟩ := small_palettes_lossless dusk
  obtain ⟨i, found, _⟩ := exists_index dusk white
  have used := (slots few).1 i ((ofRaw dusk).indices.mem_pixels_of_get? found)
  have fine : i.toNat < 128 := Nat.lt_of_lt_of_le used (fineUsed_eq_card dusk ▸ few)
  have colour := (shown countable).1 1 0 _ i white found fine (by decide)
  exact ⟨few, countable, i, found, used, bright ▸ colour⟩

end Quantized
end Roomscape
