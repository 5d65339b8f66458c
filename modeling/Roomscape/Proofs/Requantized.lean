import Roomscape.Proofs.SmallPalettes

/-! Photos that are reduced once more. As long as every fine key has a slot, a shown colour can be
written back as a photo pixel without leaving its bucket. The photo made of such pixels has the counts
of the first one, so the ranks and slots are the same; and each of its buckets holds a single colour,
which is then its mean. -/
namespace Roomscape

namespace Entry

/-- The photo pixel of a colour. Red and blue lose their lowest bit. -/
def toRaw (e : Entry) : Raw := .ofChannels (e.red.val / 2) e.green.val (e.blue.val / 2)

/-- The colour with the lowest bit of red and blue cleared. -/
def evened (e : Entry) : Entry :=
  ⟨⟨e.red.val / 2 * 2, by omega⟩, e.green, ⟨e.blue.val / 2 * 2, by omega⟩⟩

variable (e : Entry)

theorem channels_toRaw : e.toRaw.red = e.red.val / 2 ∧ e.toRaw.green = e.green.val ∧
    e.toRaw.blue = e.blue.val / 2 := by
  have red := e.red.isLt
  have green := e.green.isLt
  have blue := e.blue.isLt
  simp only [toRaw, Raw.ofChannels, Raw.red, Raw.green, Raw.blue, UInt16.toNat_ofNat']
  omega

theorem six_toRaw (ch : Channel) : e.toRaw.six ch = (e.evened.channel ch).val := by
  obtain ⟨red, green, blue⟩ := e.channels_toRaw
  cases ch <;> simp [Raw.six, red, green, blue, channel, evened, Nat.mul_comm]

theorem rgb6_toRaw : e.toRaw.rgb6 = e.evened.toRgb :=
  Rgb.ext_channel fun ch => by rw [Raw.channel_rgb6, channel_toRgb, six_toRaw]

/-- A pixel says all of its colour that it can. -/
theorem toRaw_evened : e.evened.toRaw = e.toRaw := by
  simp [toRaw, evened]

theorem toRgb_injective {d e : Entry} (same : d.toRgb = e.toRgb) : d = e := by
  rw [← ofRgb_toRgb d, same, ofRgb_toRgb]

variable {e}

/-- A colour near a pixel is written back under the pixel's own keys. -/
theorem Near.keys {p : Raw} (near : e.Near 4 p) :
    e.toRaw.fineKey = p.fineKey ∧ e.toRaw.coarseKey = p.coarseKey := by
  have quarter (ch : Channel) : (e.channel ch).val / 4 = p.six ch / 4 := by
    rw [(near ch).1, Raw.channel_rgb6]
  have red := quarter .red
  have green := quarter .green
  have blue := quarter .blue
  obtain ⟨red', green', blue'⟩ := e.channels_toRaw
  simp only [channel, Raw.six] at red green blue
  simp only [Raw.fineKey, Raw.coarseKey, red', green', blue']
  omega

end Entry

namespace Grid

section Keys

variable {key : Raw → Nat} {raw : Grid Raw} {f : Raw → Raw}
  (same : ∀ p ∈ raw.pixels, key (f p) = key p)

include same

/-- Pixels that are changed under their keys are counted as before. -/
theorem count_map (k : Nat) : (raw.map f).count key k = raw.count key k := by
  rw [count, count, map, Array.countP_map]
  exact Array.countP_congr fun p member => by simp [same p member]

theorem rank_map (size k : Nat) : (raw.map f).rank key size k = raw.rank key size k := by
  simp only [rank, count_map same]

theorem keysUsed_map : (raw.map f).keysUsed key = raw.keysUsed key := by
  ext k
  simp only [← count_pos_iff, count_map same]

end Keys
end Grid

namespace Quantized

variable (raw : Grid Raw)

/-- The photo in the colours that it is shown in, each written back as a photo pixel. -/
def repainted : Grid Raw :=
  (ofRaw raw).indices.map fun i => (((ofRaw raw).palette.get? i.toNat).getD Entry.black).toRaw

/-- The colour that a pixel is shown in, written back. -/
def repaint (p : Raw) : Raw := (raw.shownBucket p).entry.toRaw

theorem repainted_eq_map : repainted raw = raw.map (repaint raw) := by
  rw [repainted, indices_eq_map, Grid.map_map]
  refine Grid.map_congr fun p _ => ?_
  simp only [toNat_index, palette_slot, Option.getD_some, repaint]

theorem map_repainted {α : Type} (h : Raw → α) :
    (repainted raw).map h = raw.map fun p => h (repaint raw p) := by
  rw [repainted_eq_map, Grid.map_map]

theorem get?_repainted (x y : Nat) :
    (repainted raw).get? x y = ((ofRaw raw).shown? x y).map Entry.toRaw := by
  rw [repainted_eq_map, Grid.get?_map]
  cases pixel : raw.get? x y with
  | some p => simp [shown?_eq raw pixel, repaint]
  | none =>
    have index := get?_indices raw x y
    simp_all [shown?]

theorem len_repainted : (repainted raw).len = raw.len := by
  simp [repainted_eq_map, Grid.len, Grid.map]

variable {raw}

theorem repaint_mem {p : Raw} (pixel : p ∈ raw.pixels) : repaint raw p ∈ (repainted raw).pixels := by
  rw [repainted_eq_map]
  exact Array.mem_map_of_mem pixel

section Few

variable (few : (raw.keysUsed Raw.fineKey).card ≤ 128) (countable : 63 * raw.len < UInt64.size)

include few

theorem shownBucket_of_few {p : Raw} (pixel : p ∈ raw.pixels) :
    raw.shownBucket p = raw.ownBucket Raw.fineKey p.fineKey :=
  if_pos ((slot_lt_iff raw).mpr ((all_chosen_iff raw).mpr few p pixel))

include countable

theorem keys_repaint {p : Raw} (pixel : p ∈ raw.pixels) :
    (repaint raw p).fineKey = p.fineKey ∧ (repaint raw p).coarseKey = p.coarseKey := by
  rw [repaint, shownBucket_of_few few pixel]
  exact (Grid.mean_near (by decide) Raw.digit_fineKey countable pixel).keys

theorem rank_repainted (k : Nat) :
    (repainted raw).rank Raw.fineKey fineKeys k = raw.rank Raw.fineKey fineKeys k := by
  rw [repainted_eq_map]
  exact Grid.rank_map (fun p pixel => (keys_repaint few countable pixel).1) fineKeys k

theorem keysUsed_repainted :
    (repainted raw).keysUsed Raw.fineKey = raw.keysUsed Raw.fineKey ∧
      (repainted raw).keysUsed Raw.coarseKey = raw.keysUsed Raw.coarseKey := by
  rw [repainted_eq_map]
  exact ⟨Grid.keysUsed_map fun p pixel => (keys_repaint few countable pixel).1,
    Grid.keysUsed_map fun p pixel => (keys_repaint few countable pixel).2⟩

theorem indices_repainted : (ofRaw (repainted raw)).indices = (ofRaw raw).indices := by
  have slot (p : Raw) (pixel : p ∈ raw.pixels) :
      (repainted raw).slot (repaint raw p) = raw.slot p := by
    simp only [Grid.slot, keys_repaint few countable pixel, rank_repainted few countable]
  rw [indices_eq_map, indices_eq_map, map_repainted]
  refine Grid.map_congr fun p pixel => UInt8.toNat_inj.mp ?_
  rw [toNat_index, toNat_index, slot p pixel]

theorem figures_repainted : (ofRaw (repainted raw)).figures = (ofRaw raw).figures := by
  obtain ⟨fine, coarse⟩ := keysUsed_repainted few countable
  have pixels : (ofRaw (repainted raw)).figures.pixels = (ofRaw raw).figures.pixels :=
    len_repainted raw
  have fineUsed : (ofRaw (repainted raw)).figures.fineUsed = (ofRaw raw).figures.fineUsed := by
    rw [fineUsed_eq_card, fineUsed_eq_card, fine]
  have coarseUsed : (ofRaw (repainted raw)).figures.coarseUsed = (ofRaw raw).figures.coarseUsed := by
    rw [coarseUsed_eq_card, coarseUsed_eq_card, coarse]
  have covered : (ofRaw (repainted raw)).figures.fineCoverage = (ofRaw raw).figures.fineCoverage := by
    rw [(fineCoverage_eq_len_iff raw).mpr few,
      (fineCoverage_eq_len_iff (repainted raw)).mpr (fine ▸ few), len_repainted]
  generalize (ofRaw (repainted raw)).figures = again at *
  generalize (ofRaw raw).figures = once at *
  cases again
  cases once
  simp_all

theorem few_repainted : ((repainted raw).keysUsed Raw.fineKey).card ≤ 128 := by
  rwa [(keysUsed_repainted few countable).1]

theorem shownBucket_repainted {p : Raw} (pixel : p ∈ raw.pixels) :
    (repainted raw).shownBucket (repaint raw p) =
      (repainted raw).ownBucket Raw.fineKey p.fineKey := by
  rw [shownBucket_of_few (few_repainted few countable) (repaint_mem pixel),
    (keys_repaint few countable pixel).1]

/-- A bucket of the repainted photo is filled with a single colour, the one that was shown. -/
theorem entry_repainted (k : Nat) : ((repainted raw).ownBucket Raw.fineKey k).entry =
    (raw.ownBucket Raw.fineKey k).entry.evened := by
  by_cases used : 0 < raw.count Raw.fineKey k
  · obtain ⟨p, pixel, rfl⟩ := (raw.mem_keysUsed _).mp ((raw.count_pos_iff _).mp used)
    have alone : ∀ r ∈ (repainted raw).pixels, r.fineKey = (repaint raw p).fineKey →
        r = repaint raw p := by
      intro r member same
      rw [repainted_eq_map] at member
      obtain ⟨q, own, rfl⟩ := Array.mem_map.mp member
      rw [(keys_repaint few countable own).1, (keys_repaint few countable pixel).1] at same
      simp only [repaint, shownBucket_of_few few own, shownBucket_of_few few pixel, same]
    have painted := repaint_mem pixel
    have fine := (slot_lt_iff _).mpr
      ((all_chosen_iff _).mpr (few_repainted few countable) _ painted)
    have colour := toRgb_shownBucket (repainted raw) (len_repainted raw ▸ countable) painted fine alone
    rw [shownBucket_repainted few countable pixel, repaint, Entry.rgb6_toRaw,
      shownBucket_of_few few pixel] at colour
    exact Entry.toRgb_injective colour
  · have counts : (repainted raw).count Raw.fineKey k = raw.count Raw.fineKey k := by
      rw [repainted_eq_map]
      exact Grid.count_map (fun p pixel => (keys_repaint few countable pixel).1) k
    have unused : raw.count Raw.fineKey k = 0 := by omega
    have black : (Bucket.empty (UInt16.ofNat k)).entry = Entry.black := rfl
    rw [Grid.ownBucket_of_count_eq_zero _ _ unused,
      Grid.ownBucket_of_count_eq_zero _ _ (counts.trans unused), black]
    rfl

theorem fine_repainted {s : Nat} (fine : s < 128) : (ofRaw (repainted raw)).palette.get? s =
    ((ofRaw raw).palette.get? s).map Entry.evened := by
  have inside : s < fineKeys := by
    simp only [fineKeys]
    omega
  obtain ⟨k, key, rfl⟩ := raw.exists_rank_eq Raw.fineKey (show fineKeys ≤ 65536 by decide) inside
  have rank := rank_repainted few countable k
  have again := get?_fine (repainted raw) key (rank.trans_lt fine)
  rw [rank, entry_repainted few countable] at again
  rw [again, get?_fine raw key fine, Option.map_some]

/-- A pixel that has been written back stays as it is. -/
theorem repaint_repaint {p : Raw} (pixel : p ∈ raw.pixels) :
    repaint (repainted raw) (repaint raw p) = repaint raw p := by
  rw [repaint, shownBucket_repainted few countable pixel, entry_repainted few countable,
    Entry.toRaw_evened, repaint, shownBucket_of_few few pixel]

theorem repainted_repainted : repainted (repainted raw) = repainted raw := by
  calc repainted (repainted raw)
      = raw.map fun p => repaint (repainted raw) (repaint raw p) := by
        simp only [repainted_eq_map (repainted raw), map_repainted raw]
    _ = raw.map (repaint raw) := Grid.map_congr fun p pixel => repaint_repaint few countable pixel
    _ = repainted raw := (repainted_eq_map raw).symm

end Few

/-- With no more than 128 fine keys, reducing a photo that is already in its shown colours changes
nothing: indices and figures are the same, every fine colour is the pixel it was written back as, and
the photo in its shown colours is the one reduced. The sums behind the means must be counted in 64
bits. -/
theorem reduction_settles (raw : Grid Raw)
    (few : (raw.keysUsed Raw.fineKey).card ≤ 128) (countable : 63 * raw.len < UInt64.size) :
    (∀ x y, (repainted raw).get? x y = ((ofRaw raw).shown? x y).map Entry.toRaw) ∧
    (ofRaw (repainted raw)).indices = (ofRaw raw).indices ∧
    (ofRaw (repainted raw)).figures = (ofRaw raw).figures ∧
    (∀ slot < 128, (ofRaw (repainted raw)).palette.get? slot =
      ((ofRaw raw).palette.get? slot).map Entry.evened) ∧
    repainted (repainted raw) = repainted raw :=
  ⟨get?_repainted raw, indices_repainted few countable, figures_repainted few countable,
    fun _ => fine_repainted few countable, repainted_repainted few countable⟩

/-- Two of the three pixels take one colour, and keep it. -/
theorem reduction_settles_dusk :
    (dusk.keysUsed Raw.fineKey).card ≤ 128 ∧ 63 * dusk.len < UInt64.size ∧
    dusk.get? 0 0 ≠ dusk.get? 2 0 ∧ (repainted dusk).get? 0 0 = (repainted dusk).get? 2 0 ∧
    (ofRaw (repainted dusk)).indices = (ofRaw dusk).indices ∧
    repainted (repainted dusk) = repainted dusk := by
  have few : (dusk.keysUsed Raw.fineKey).card ≤ 128 := by decide
  have countable : 63 * dusk.len < UInt64.size := by decide
  have first : dusk.get? 0 0 = some ⟨0x0841⟩ := by decide
  have third : dusk.get? 2 0 = some ⟨0x0020⟩ := by decide
  have index := (index_eq_iff few first third).mpr (by decide)
  obtain ⟨painted, indices, _, _, settled⟩ := reduction_settles dusk few countable
  have colour : (repainted dusk).get? 0 0 = (repainted dusk).get? 2 0 := by
    rw [painted, painted, shown?, shown?, index]
  exact ⟨few, countable, by decide, colour, indices, settled⟩

end Quantized
end Roomscape
