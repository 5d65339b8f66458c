import Roomscape.Proofs.PaletteBytes
import Roomscape.Proofs.PaletteMeans
import Roomscape.Proofs.SmallPalettes

/-! Palettes there and back. The bytes of a palette make the same palette again, and bytes that make a
palette come back with their high bits dropped. The means of a photo's colours and the colours of
sprites have no high bits, so of them nothing is dropped. -/
namespace Roomscape

namespace Entry

theorem toBytes_ofRgb (c : Rgb) : (ofRgb c).toBytes = [c.red % 64, c.green % 64, c.blue % 64] := by
  have masked (byte : UInt8) : UInt8.ofNat (Fin.ofNat 64 byte.toNat).val = byte % 64 := by
    rw [← UInt8.toNat_inj, toNat_sixBits, UInt8.toNat_mod]
    rfl
  simp only [toBytes, toRgb, ofRgb, masked]

theorem toRgb_channel_lt (e : Entry) (ch : Channel) : (e.toRgb.channel ch).toNat < 64 := by
  rw [channel_toRgb]
  exact (e.channel ch).isLt

end Entry

/-- Two bits repeated three times are six bits. -/
theorem ObjectPixel.widen_val (c : Nat) : (widen c).val = c % 4 * 21 :=
  Nat.mod_eq_of_lt (by omega)

/-- The mean that a bucket holds is its colour. -/
theorem Grid.toRgb_entry {key : Raw → Nat} {size : Nat} {raw : Grid Raw} {b : Bucket}
    (member : b ∈ (raw.tally key size).buckets) : b.entry.toRgb = b.average := by
  rw [← Array.mem_toList_iff, buckets_tally] at member
  obtain ⟨k, _, rfl⟩ := List.mem_map.mp member
  refine Rgb.ext_channel fun ch => ?_
  rw [Entry.channel_toRgb, channel_ownBucket]

namespace Palette

variable {bytes : Array UInt8} {p : Palette}

theorem ofBytes_eq_ok (size : bytes.size = 576) : ∃ p, ofBytes bytes = .ok p :=
  ⟨_, if_pos size⟩

theorem ofBytes_error_iff {fault : Fault} : ofBytes bytes = .error fault ↔
    bytes.size ≠ 576 ∧ fault = .malformed none (.paletteLength bytes.size) := by
  by_cases size : bytes.size = 576
  · obtain ⟨p, made⟩ := ofBytes_eq_ok size
    simp [made, size]
  · have refused : ofBytes bytes = .error (.malformed none (.paletteLength bytes.size)) := if_neg size
    rw [refused, Except.error.injEq, eq_comm]
    exact (and_iff_right size).symm

/-- Of the bytes that a palette is made from, the low six bits come back. -/
theorem toBytes_of_ofBytes (made : ofBytes bytes = .ok p) : p.toBytes = bytes.toList.map (· % 64) := by
  have size : bytes.size = 576 := Decidable.not_not.mp fun other => by
    rw [ofBytes_error_iff.mpr ⟨other, rfl⟩] at made
    cases made
  rw [ofBytes, if_pos (show bytes.size = 3 * paletteSlots from size), Except.ok.injEq] at made
  apply List.ext_getElem?
  intro i
  by_cases inside : i < 576
  · obtain ⟨slot, k, rfl, channel⟩ : ∃ slot k, i = 3 * slot + k ∧ k < 3 :=
      ⟨i / 3, i % 3, by omega, by omega⟩
    have known : slot < paletteSlots := by
      simp only [paletteSlots]
      omega
    have byte : bytes.toList[3 * slot + k]? = some (bytes.getD (3 * slot + k) 0) := by
      have found := Array.getElem?_eq_getElem (show 3 * slot + k < bytes.size by omega)
      rw [Array.getD_eq_getD_getElem?, Array.getElem?_toList, found, Option.getD_some]
    rw [getElem?_toBytes p known channel, ← made, List.getElem?_map, byte, Vector.getElem_ofFn,
      Entry.toBytes_ofRgb]
    obtain rfl | rfl | rfl : k = 0 ∨ k = 1 ∨ k = 2 := by omega
    all_goals rfl
  · rw [List.getElem?_eq_none (by rw [length_toBytes]; omega), List.getElem?_eq_none (by simp; omega)]

/-- Every palette, however it came about, is sent as 576 bytes of six bits, and they make it again. Any
576 bytes, and no others, make a palette, which is sent as these bytes without their high bits; sent
and received once more it stays as it is. The mask to six bits drops nothing of the means in a photo's
histograms, nor of the widened colours of sprites. -/
theorem palettes_round_trip :
    (∀ p : Palette, p.toBytes.length = 576 ∧ ofBytes p.toBytes.toArray = .ok p ∧
      ∀ slot e, p.get? slot = some e → ∀ ch, (e.toRgb.channel ch).toNat < 64) ∧
    (∀ (bytes : Array UInt8) fault, ofBytes bytes = .error fault ↔
      bytes.size ≠ 576 ∧ fault = .malformed none (.paletteLength bytes.size)) ∧
    (∀ bytes : Array UInt8, bytes.size = 576 →
      ∃ p, ofBytes bytes = .ok p ∧ p.toBytes = bytes.toList.map (· % 64) ∧
        ∃ again, ofBytes p.toBytes.toArray = .ok again ∧ again.toBytes = p.toBytes) ∧
    (∀ raw : Grid Raw, ∀ b, b ∈ (Quantized.fineHistogram raw).buckets ∨
      b ∈ (Quantized.coarseHistogram raw).buckets → b.entry.toRgb = b.average) ∧
    ∀ pixel : ObjectPixel, pixel.entry.red.val = pixel.bits.toNat / 16 % 4 * 21 ∧
      pixel.entry.green.val = pixel.bits.toNat / 4 % 4 * 21 ∧
      pixel.entry.blue.val = pixel.bits.toNat % 4 * 21 := by
  refine ⟨fun p => ⟨p.length_toBytes, p.ofBytes_toBytes, fun _ e _ => e.toRgb_channel_lt⟩,
    fun _ _ => ofBytes_error_iff, fun bytes size => ?_, fun raw b member => ?_, fun pixel => ?_⟩
  · obtain ⟨p, made⟩ := ofBytes_eq_ok size
    exact ⟨p, made, toBytes_of_ofBytes made, p, p.ofBytes_toBytes, rfl⟩
  · exact member.elim Grid.toRgb_entry Grid.toRgb_entry
  · exact ⟨ObjectPixel.widen_val _, ObjectPixel.widen_val _, ObjectPixel.widen_val _⟩

end Palette
end Roomscape
