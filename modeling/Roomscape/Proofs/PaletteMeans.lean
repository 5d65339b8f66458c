import Roomscape.Proofs.ExactMeans
import Roomscape.Proofs.ShownColours

/-! What stands in every slot of a reduced photo's palette: the running mean of the pixels under one
key, in row order, with no bit of it dropped. -/
namespace Roomscape

namespace Bucket

/-- The running mean as a bucket keeps it, in words that may overflow. -/
def wordMean (values : List UInt8) : UInt8 :=
  (values.foldl (fun (a, n) v => (blend n a v, n + 1)) ((0 : UInt8), (0 : UInt64))).1

/-- A channel goes its own way through a run of colours, whatever the others do. -/
private theorem channel_foldl_add (b : Bucket) (colours : List Rgb) (ch : Channel) :
    (colours.map fun c => c.channel ch).foldl (fun (a, n) v => (blend n a v, n + 1))
        (b.average.channel ch, b.count) =
      ((colours.foldl add b).average.channel ch, (colours.foldl add b).count) := by
  induction colours generalizing b with
  | nil => rfl
  | cons c rest ih =>
    rw [List.map_cons, List.foldl_cons, List.foldl_cons, ← ih, channel_add]
    rfl

theorem average_eq_wordMean (key : UInt16) (colours : List Rgb) (ch : Channel) :
    (colours.foldl add (empty key)).average.channel ch =
      wordMean (colours.map fun c => c.channel ch) := by
  have run := channel_foldl_add (empty key) colours ch
  have fresh : (empty key).average.channel ch = 0 := by cases ch <;> rfl
  rw [fresh] at run
  exact (congrArg Prod.fst run).symm

/-- The mean of any run of colours is no larger than the largest of them, also where sums overflow. -/
theorem average_foldl_le_peak {b : Bucket} {peak : Nat} {colours : List Rgb}
    (range : ∀ c ∈ colours, ∀ ch, (c.channel ch).toNat ≤ peak) (ch : Channel)
    (mean : (b.average.channel ch).toNat ≤ peak) :
    ((colours.foldl add b).average.channel ch).toNat ≤ peak := by
  induction colours generalizing b with
  | nil => exact mean
  | cons c rest ih =>
    refine ih (fun d member => range d (List.mem_cons_of_mem _ member)) ?_
    rw [channel_add]
    exact (toNat_blend_le ..).trans (blended_le mean (range c List.mem_cons_self ch))

end Bucket

/-- A colour is the running mean of pixels: of words for any number of them, and of numbers for as many
as can be summed in 64 bits. Where there are none it is black. -/
structure Entry.MeanOf (e : Entry) (pixels : List Raw) : Prop where
  words : ∀ ch, (e.channel ch).val = (Bucket.wordMean (pixels.map fun p => p.rgb6.channel ch)).toNat
  numbers : 63 * pixels.length < UInt64.size →
    ∀ ch, (e.channel ch).val = runningMean (pixels.map fun p => (p.rgb6.channel ch).toNat)
  black : pixels = [] → e = Entry.black

namespace Grid

variable (key : Raw → Nat) (raw : Grid Raw) (k : Nat)

/-- The pixels with a key, in row order. -/
def pixelsUnder : List Raw := raw.pixels.toList.filter fun p => key p = k

theorem coloursUnder_eq_map : raw.coloursUnder key k = (raw.pixelsUnder key k).map Raw.rgb6 := rfl

theorem coloursUnder_le {c : Rgb} (member : c ∈ raw.coloursUnder key k) (ch : Channel) :
    (c.channel ch).toNat ≤ 63 := by
  obtain ⟨p, _, rfl⟩ := List.mem_map.mp member
  exact p.toNat_rgb6_le ch

/-- The six bits of a display colour hold the whole mean. -/
theorem channel_ownBucket (ch : Channel) : ((raw.ownBucket key k).entry.channel ch).val =
    ((raw.ownBucket key k).average.channel ch).toNat := by
  have range := fun c member => raw.coloursUnder_le (c := c) key k member
  have fresh : ((Bucket.empty (UInt16.ofNat k)).average.channel ch).toNat ≤ 63 := by
    cases ch <;> exact Nat.zero_le 63
  have mean := Bucket.average_foldl_le_peak range ch fresh
  rw [Bucket.entry, Entry.channel_ofRgb]
  exact Nat.mod_eq_of_lt (Nat.lt_add_one_of_le mean)

theorem meanOf_ownBucket : (raw.ownBucket key k).entry.MeanOf (raw.pixelsUnder key k) where
  words := by
    intro ch
    rw [channel_ownBucket, ownBucket, Bucket.average_eq_wordMean, coloursUnder_eq_map, List.map_map]
    rfl
  numbers := by
    intro countable ch
    have length : (raw.coloursUnder key k).length = (raw.pixelsUnder key k).length :=
      List.length_map _
    obtain ⟨_, averages⟩ := Bucket.averages_foldl (by decide : 0 < 63) (by decide)
      (fun c member => raw.coloursUnder_le key k member) (length ▸ countable) (UInt16.ofNat k)
    rw [channel_ownBucket, ownBucket, averages.average, Bucket.channelValues, coloursUnder_eq_map,
      List.map_map]
    rfl
  black := by
    intro none
    rw [ownBucket, coloursUnder_eq_map, none]
    rfl

end Grid

namespace Quantized

/-- Each of the first 128 slots holds the mean of the pixels whose fine key has the slot as its rank,
and each of the 64 behind them the mean of the pixels with its coarse key. -/
theorem slots_hold_means (raw : Grid Raw) :
    (∀ s < 128, ∃ k < 4096, raw.rank Raw.fineKey 4096 k = s ∧
      (∀ other < 4096, raw.rank Raw.fineKey 4096 other = s → other = k) ∧
      ∃ e, (ofRaw raw).palette.get? s = some e ∧ e.MeanOf (raw.pixelsUnder Raw.fineKey k)) ∧
    ∀ k < 64, ∃ e, (ofRaw raw).palette.get? (128 + k) = some e ∧
      e.MeanOf (raw.pixelsUnder Raw.coarseKey k) := by
  constructor
  · intro s fine
    obtain ⟨k, key, rfl⟩ : ∃ k < 4096, raw.rank Raw.fineKey 4096 k = s :=
      raw.exists_rank_eq Raw.fineKey (by decide) (Nat.lt_trans fine (by decide))
    refine ⟨k, key, rfl, ?_, _, get?_fine raw key fine, raw.meanOf_ownBucket Raw.fineKey k⟩
    intro other inside same
    exact raw.rank_injective Raw.fineKey (by decide) inside key same
  · intro k key
    exact ⟨_, get?_coarse raw key, raw.meanOf_ownBucket Raw.coarseKey k⟩

theorem slots_hold_means_dusk :
    63 * (dusk.pixelsUnder Raw.coarseKey 0).length < UInt64.size ∧
    ∃ e, (ofRaw dusk).palette.get? 128 = some e ∧ (e.channel .green).val = 1 := by
  obtain ⟨e, found, mean⟩ := (slots_hold_means dusk).2 0 (by decide)
  have countable : 63 * (dusk.pixelsUnder Raw.coarseKey 0).length < UInt64.size := by decide
  refine ⟨countable, e, found, ?_⟩
  rw [mean.numbers countable]
  decide

end Quantized
end Roomscape
