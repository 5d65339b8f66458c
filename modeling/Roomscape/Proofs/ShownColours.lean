import Roomscape.Proofs.PixelSlots
import Roomscape.Proofs.RunningMean

/-! The colour that a reduced photo shows for a pixel is the mean of a bucket the pixel itself was
counted in, so it is as near to the pixel's own colour as the bucket is wide. -/
namespace Roomscape

/-- The digit a channel has in a key, red standing highest. -/
def Channel.digit (base key : Nat) : Channel → Nat
  | .red => key / (base * base)
  | .green => key / base % base
  | .blue => key % base

/-- Every channel of the colour agrees with the pixel's when divided by `step`, and the two are less
than `step` apart. -/
def Entry.Near (step : Nat) (e : Entry) (p : Raw) : Prop :=
  ∀ ch, (e.channel ch).val / step = (p.rgb6.channel ch).toNat / step ∧
    (e.channel ch).val ≤ (p.rgb6.channel ch).toNat + (step - 1) ∧
    (p.rgb6.channel ch).toNat ≤ (e.channel ch).val + (step - 1)

namespace Raw

variable (p : Raw) (ch : Channel)

theorem red_lt : p.red < 32 :=
  Nat.div_lt_of_lt_mul p.bits.toNat_lt

theorem green_lt : p.green < 64 := Nat.mod_lt _ (by decide)

theorem blue_lt : p.blue < 32 := Nat.mod_lt _ (by decide)

/-- A channel at six bits. -/
def six : Channel → Nat
  | .red => 2 * p.red
  | .green => p.green
  | .blue => 2 * p.blue

theorem six_lt : p.six ch < 64 := by
  have red := p.red_lt
  have green := p.green_lt
  have blue := p.blue_lt
  cases ch <;> simp only [six] <;> omega

theorem channel_rgb6 : (p.rgb6.channel ch).toNat = p.six ch := by
  have fits := p.six_lt ch
  cases ch <;>
    simp only [six, Rgb.channel, rgb6, UInt8.toNat_ofNat'] at fits ⊢ <;>
    exact Nat.mod_eq_of_lt (by omega)

theorem toNat_rgb6_le : (p.rgb6.channel ch).toNat ≤ 63 := by
  rw [channel_rgb6]
  exact Nat.le_of_lt_add_one (p.six_lt ch)

/-- The digits of the fine key are the top four bits of the channels. -/
theorem digit_fineKey : ch.digit 16 p.fineKey = p.six ch / 4 := by
  have green := p.green_lt
  have blue := p.blue_lt
  cases ch <;> simp only [Channel.digit, fineKey, six] <;> omega

/-- The digits of the coarse key are the top two bits of the channels. -/
theorem digit_coarseKey : ch.digit 4 p.coarseKey = p.six ch / 16 := by
  have green := p.green_lt
  have blue := p.blue_lt
  cases ch <;> simp only [Channel.digit, coarseKey, six] <;> omega

end Raw

namespace Grid

variable {key : Raw → Nat} {raw : Grid Raw}

theorem count_pos {p : Raw} (pixel : p ∈ raw.pixels) : 0 < raw.count key (key p) :=
  Array.countP_pos_iff.mpr ⟨p, pixel, by simp⟩

/-- Where the digits of a key are the channels divided by `step`, a pixel is near its bucket's mean. -/
theorem mean_near {base step : Nat} (divides : step ∣ 64)
    (digits : ∀ (p : Raw) ch, ch.digit base (key p) = p.six ch / step)
    (countable : 63 * raw.len < UInt64.size) {p : Raw} (pixel : p ∈ raw.pixels) :
    (raw.ownBucket key (key p)).entry.Near step p := by
  have pos : 0 < step := Nat.pos_of_dvd_of_pos divides (by decide)
  -- All colours of the bucket share the pixel's digit, so they and their mean lie in its range.
  let low (ch : Channel) := ch.digit base (key p) * step
  have top (ch : Channel) : low ch + step - 1 ≤ 63 := by
    obtain ⟨steps, whole⟩ := divides
    have below := p.six_lt ch
    rw [whole] at below
    have digit : ch.digit base (key p) + 1 ≤ steps := by
      rw [digits]
      exact Nat.div_lt_of_lt_mul below
    have room := Nat.mul_le_mul_right step digit
    rw [Nat.add_one_mul, Nat.mul_comm steps, ← whole] at room
    change ch.digit base (key p) * step + step - 1 ≤ 63
    omega
  have range : ∀ q ∈ raw.pixels, key q = key p → ∀ ch,
      low ch ≤ (q.rgb6.channel ch).toNat ∧ (q.rgb6.channel ch).toNat ≤ low ch + step - 1 := by
    intro q _ same ch
    rw [← Nat.div_eq_iff pos, Raw.channel_rgb6, ← digits, same]
  have within := raw.within_ownBucket key top range countable
  have some : 0 < (raw.ownBucket key (key p)).count.toNat := by
    rw [count_ownBucket]
    exact count_pos pixel
  intro ch
  obtain ⟨low_own, own_high⟩ := range p pixel rfl ch
  have low_mean := within.low some ch
  have mean_high := within.high ch
  have six_bits := top ch
  rw [Bucket.entry, Entry.channel_ofRgb, Nat.mod_eq_of_lt (by omega)]
  refine ⟨?_, by omega, by omega⟩
  rw [(Nat.div_eq_iff pos).mpr ⟨low_mean, mean_high⟩, (Nat.div_eq_iff pos).mpr ⟨low_own, own_high⟩]

/-- The bucket that a pixel's slot stands for. -/
def shownBucket (raw : Grid Raw) (p : Raw) : Bucket :=
  if raw.slot p < fineSlots then raw.ownBucket Raw.fineKey p.fineKey
  else raw.ownBucket Raw.coarseKey p.coarseKey

end Grid

namespace Quantized

theorem get?_paletteOf (winners : List Bucket) (coarse : Histogram) {slot : Nat}
    (inside : slot < paletteSlots) :
    (paletteOf winners coarse).get? slot = some
      (((if slot < fineSlots then winners[slot]? else coarse.bucket? (slot - fineSlots)).map
        Bucket.entry).getD Entry.black) := by
  simp [paletteOf, Palette.get?, inside]

variable (raw : Grid Raw)

/-- A fine key that is among the first 128 has its mean in the slot of its rank. -/
theorem get?_fine {k : Nat} (key : k < fineKeys) (won : raw.rank Raw.fineKey fineKeys k < fineSlots) :
    (ofRaw raw).palette.get? (raw.rank Raw.fineKey fineKeys k) =
      some (raw.ownBucket Raw.fineKey k).entry := by
  change (paletteOf ((fineHistogram raw).ranked.take fineSlots) (coarseHistogram raw)).get? _ = _
  have place := raw.ranked_rank Raw.fineKey (by decide) key
  rw [get?_paletteOf _ _ (Nat.lt_trans won (by decide)), if_pos won, List.getElem?_take_of_lt won,
    fineHistogram, place, Option.map_some, Option.getD_some]

/-- Every coarse key has its mean in a slot of its own. -/
theorem get?_coarse {k : Nat} (key : k < coarseKeys) :
    (ofRaw raw).palette.get? (fineSlots + k) = some (raw.ownBucket Raw.coarseKey k).entry := by
  change (paletteOf ((fineHistogram raw).ranked.take fineSlots) (coarseHistogram raw)).get? _ = _
  have behind : ¬ fineSlots + k < fineSlots := Nat.not_lt.mpr (Nat.le_add_right ..)
  rw [get?_paletteOf _ _ (Nat.add_lt_add_left key fineSlots), if_neg behind, Nat.add_sub_cancel_left,
    coarseHistogram, Grid.bucket?_tally, if_pos key, Option.map_some, Option.getD_some]

/-- A pixel's slot holds the mean of the pixel's own bucket. -/
theorem palette_slot (p : Raw) :
    (ofRaw raw).palette.get? (raw.slot p) = some (raw.shownBucket p).entry := by
  by_cases won : raw.rank Raw.fineKey fineKeys p.fineKey < 128
  · have slot : raw.slot p = raw.rank Raw.fineKey fineKeys p.fineKey := by
      simp only [Grid.slot, if_pos won]
    have fine : raw.slot p < fineSlots := slot ▸ won
    rw [Grid.shownBucket, if_pos fine, slot]
    exact get?_fine raw p.fineKey_lt won
  · have slot : raw.slot p = fineSlots + p.coarseKey := by
      simp only [Grid.slot, if_neg won]
    have coarse : ¬ raw.slot p < fineSlots := slot ▸ Nat.not_lt.mpr (Nat.le_add_right ..)
    rw [Grid.shownBucket, if_neg coarse, slot]
    exact get?_coarse raw p.coarseKey_lt

/-- The colour shown for a pixel is in the pixel's own bucket: it shares the top four bits of every
channel in a fine slot, and the top two in a coarse one. The sums behind the means must be counted in
64 bits; a photo too large for that, of 2^58 pixels, has no place in memory. -/
theorem shown_colour_near (countable : 63 * raw.len < UInt64.size) {x y : Nat} {p : Raw}
    (pixel : raw.get? x y = some p) :
    ∃ i e, (ofRaw raw).indices.get? x y = some i ∧ (ofRaw raw).palette.get? i.toNat = some e ∧
      (i.toNat < 128 → e.Near 4 p) ∧ (128 ≤ i.toNat → e.Near 16 p) := by
  have member := raw.mem_pixels_of_get? pixel
  have index := get?_indices raw x y
  rw [pixel, Option.map_some] at index
  obtain ⟨i, found, slot⟩ := Option.map_eq_some_iff.mp index
  refine ⟨i, (raw.shownBucket p).entry, found, slot ▸ palette_slot raw p, ?_, ?_⟩
  · intro fine
    rw [Grid.shownBucket, ← slot, if_pos fine]
    exact Grid.mean_near (by decide) Raw.digit_fineKey countable member
  · intro coarse
    rw [Grid.shownBucket, ← slot, if_neg (Nat.not_lt.mpr coarse)]
    exact Grid.mean_near (by decide) Raw.digit_coarseKey countable member

/-- Two pixels under one fine key and a third under its own. -/
def dusk : Grid Raw := ⟨3, 1, #[⟨0x0841⟩, ⟨0xffff⟩, ⟨0x0020⟩], rfl, by decide⟩

theorem shown_colour_near_dusk :
    63 * dusk.len < UInt64.size ∧ dusk.get? 2 0 = some ⟨0x0020⟩ ∧
    ∃ i e, (ofRaw dusk).indices.get? 2 0 = some i ∧ (ofRaw dusk).palette.get? i.toNat = some e ∧
      (i.toNat < 128 → e.Near 4 ⟨0x0020⟩) ∧ (128 ≤ i.toNat → e.Near 16 ⟨0x0020⟩) :=
  ⟨by decide, by decide, shown_colour_near dusk (by decide) (by decide)⟩

end Quantized
end Roomscape
