import Roomscape.Palette
import Roomscape.Proofs.GridPixels

/-! A palette as the display receives it: three bytes a slot, each of six bits. Six bits are what a
channel has, so nothing is dropped on the way back and the palette that is rebuilt is the one sent. -/
namespace Roomscape

namespace Entry

/-- A channel of six bits is the same as a byte. -/
theorem toNat_sixBits (channel : Fin 64) : (UInt8.ofNat channel.val).toNat = channel.val := by
  have bound := channel.isLt
  rw [UInt8.toNat_ofNat', Nat.mod_eq_of_lt (by omega)]

theorem toNat_toBytes (e : Entry) :
    e.toBytes.map UInt8.toNat = [e.red.val, e.green.val, e.blue.val] := by
  simp only [toBytes, toRgb, List.map_cons, List.map_nil, toNat_sixBits]

theorem ofRgb_toRgb (e : Entry) : ofRgb e.toRgb = e := by
  have back (channel : Fin 64) : Fin.ofNat 64 (UInt8.ofNat channel.val).toNat = channel := by
    rw [toNat_sixBits]
    exact Fin.ext (Nat.mod_eq_of_lt channel.isLt)
  simp only [ofRgb, toRgb, back]

theorem toBytes_lt (e : Entry) : ∀ b ∈ e.toBytes, b.toNat < 64 := by
  intro b member
  simp only [toBytes, toRgb, List.mem_cons, List.not_mem_nil, or_false] at member
  rcases member with rfl | rfl | rfl <;> rw [toNat_sixBits] <;> exact Fin.isLt _

theorem length_toBytes (e : Entry) : e.toBytes.length = 3 := rfl

/-- The bytes of a run of colours stand in threes. -/
theorem getElem?_flatMap_toBytes (entries : List Entry) (slot : Nat) {k : Nat} (channel : k < 3) :
    (entries.flatMap toBytes)[3 * slot + k]? = entries[slot]?.bind fun e => e.toBytes[k]? :=
  getElem?_flatMap_of_length (fun e _ => e.length_toBytes) slot channel

end Entry

namespace Palette

variable (p : Palette)

theorem length_toBytes : p.toBytes.length = 576 := by
  rw [toBytes, length_flatMap_of_length fun e _ => e.length_toBytes, Vector.length_toList, paletteSlots]

theorem toBytes_lt : ∀ b ∈ p.toBytes, b.toNat < 64 := by
  intro b member
  obtain ⟨e, _, own⟩ := List.mem_flatMap.mp member
  exact e.toBytes_lt b own

theorem getElem?_toBytes {slot k : Nat} (inside : slot < paletteSlots) (channel : k < 3) :
    p.toBytes[3 * slot + k]? = p.entries[slot].toBytes[k]? := by
  rw [toBytes, Entry.getElem?_flatMap_toBytes _ _ channel, Vector.getElem?_toList,
    Vector.getElem?_eq_getElem inside, Option.bind_some]

/-- The palette that is rebuilt from the bytes sent is the one that was sent. -/
theorem ofBytes_toBytes : ofBytes p.toBytes.toArray = .ok p := by
  have size : p.toBytes.toArray.size = 3 * paletteSlots := p.length_toBytes
  rw [ofBytes, if_pos size]
  refine congrArg (fun entries => Except.ok (Palette.mk entries)) (Vector.ext fun slot inside => ?_)
  have byte {k : Nat} (channel : k < 3) :
      p.toBytes.toArray.getD (3 * slot + k) 0 = p.entries[slot].toBytes[k] := by
    have found := p.getElem?_toBytes inside channel
    rw [← List.getElem?_toArray] at found
    rw [Array.getD_eq_getD_getElem?, found, List.getElem?_eq_getElem channel, Option.getD_some]
  rw [Vector.getElem_ofFn]
  simp only [byte (show 0 < 3 by decide), byte (show 1 < 3 by decide), byte (show 2 < 3 by decide)]
  exact Entry.ofRgb_toRgb p.entries[slot]

end Palette
end Roomscape
