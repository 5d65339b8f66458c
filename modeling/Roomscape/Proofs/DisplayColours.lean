import Roomscape.Proofs.Scene

/-! What a display shows for the bytes of a line. The photo's colours are laid over the object colours
from the offset on, and the same offset is added to the photo's slots in a line, so every photo pixel is
shown in the colour that its own palette has for it. -/
namespace Roomscape

theorem getElem?_objectColours (k : Nat) :
    objectColours[k]? = if k < 64 then some (ObjectPixel.mk (UInt8.ofNat k)).entry else none := by
  rw [objectColours, Vector.getElem?_ofFn]
  split <;> rfl

/-- In the fixed palette every slot below 64 has its own object colour. -/
theorem Palette.get?_fixed {slot : Nat} (object : slot < 64) :
    fixed.get? slot = some (ObjectPixel.mk (UInt8.ofNat slot)).entry := by
  have inside : slot < paletteSlots := by simp only [paletteSlots]; omega
  rw [get?, fixed, Vector.getElem?_ofFn, dif_pos inside, getElem?_objectColours, if_pos object,
    Option.getD_some]

theorem checkPaletteOffset_eq_ok_iff {offset : UInt8} :
    checkPaletteOffset offset = .ok () ↔ offset.toNat ≤ 64 := by
  rw [checkPaletteOffset, highestPaletteOffset, ← Nat.not_lt]
  split <;> simp_all

namespace Display

theorem getElem?_table (d : Display) (byte : UInt8) : d.table[byte.toNat]? = some (d.lookup byte) :=
  Vector.getElem?_eq_getElem byte.toNat_lt

@[simp] theorem lookup_black (byte : UInt8) : black.lookup byte = Entry.black := by
  have bound := byte.toNat_lt
  rw [← Option.some_inj, ← getElem?_table, black, Vector.getElem?_replicate, if_pos bound]

/-- Colours laid over a table are seen where they stand, and the table below them elsewhere. -/
theorem lookup_install {n : Nat} (start : Nat) (run : Vector Entry n) (d : Display) (byte : UInt8) :
    (d.install start run).lookup byte =
      if start ≤ byte.toNat then (run[byte.toNat - start]?).getD (d.lookup byte)
      else d.lookup byte := by
  rw [← Option.some_inj, ← getElem?_table, install, Vector.getElem?_mapIdx, getElem?_table,
    Option.map_some]

/-- The table slot by slot: the photo's colours, around them what is left of the object colours, and
otherwise black. -/
theorem lookup_ofPhoto (palette : Palette) (offset byte : UInt8) :
    some ((ofPhoto palette offset).lookup byte) =
      if offset.toNat ≤ byte.toNat ∧ byte.toNat < offset.toNat + 192 then
        palette.get? (byte.toNat - offset.toNat)
      else if byte.toNat < 64 then some (ObjectPixel.mk byte).entry
      else some Entry.black := by
  have objects : (black.install 0 objectColours).lookup byte =
      if byte.toNat < 64 then (ObjectPixel.mk byte).entry else Entry.black := by
    rw [lookup_install, if_pos (Nat.zero_le _), getElem?_objectColours, lookup_black, Nat.sub_zero,
      UInt8.ofNat_toNat]
    split <;> rfl
  rw [ofPhoto, lookup_install, objects, ← apply_ite some]
  by_cases slot : offset.toNat ≤ byte.toNat ∧ byte.toNat < offset.toNat + 192
  · have inside : byte.toNat - offset.toNat < paletteSlots := by simp only [paletteSlots]; omega
    rw [if_pos slot, if_pos slot.1, Palette.get?, Vector.getElem?_eq_getElem inside, Option.getD_some]
  · rw [if_neg slot, Option.some_inj]
    by_cases above : offset.toNat ≤ byte.toNat
    · have past : paletteSlots ≤ byte.toNat - offset.toNat := by simp only [paletteSlots]; omega
      rw [if_pos above, Vector.getElem?_eq_none past, Option.getD_none]
    · rw [if_neg above]

end Display

namespace Room

variable (r : Room) {offset : UInt8} {spot : Int × Int} {slot : UInt8}

/-- A slot of the photo, seen where no sprite shows, is moved up without passing slot 255. -/
theorem toNat_sceneByte_photo (fits : offset.toNat ≤ 64)
    (here : r.photo.indices.at? spot.1 spot.2 = some slot)
    (clear : ∀ p ∈ r.placements, p.shown? spot = none) :
    (r.sceneByte offset spot).toNat = slot.toNat + offset.toNat := by
  rw [r.toNat_sceneByte offset fits, scene, sprite?_eq_none_iff.mpr clear, here]

theorem sceneByte_outside (offset : UInt8) (none : r.photo.indices.at? spot.1 spot.2 = none)
    (clear : ∀ p ∈ r.placements, p.shown? spot = .none) : r.sceneByte offset spot = backdrop := by
  rw [sceneByte, sprite?_eq_none_iff.mpr clear, none]
  rfl

theorem sceneByte_sprite (offset : UInt8) {byte : UInt8} (shown : r.sprite? spot = some byte) :
    r.sceneByte offset spot = byte := by
  rw [sceneByte, shown, Option.getD_some]

end Room

/-- The byte of a map position is shown in the right colour, when the photo's colours stand in the
display's table from `offset` on. At the highest offset the object colours are all left. -/
structure Room.ShownTrue (r : Room) (offset : UInt8) (spot : Int × Int) (byte : UInt8) : Prop where
  photo : ∀ slot, r.photo.indices.at? spot.1 spot.2 = some slot →
    (∀ p ∈ r.placements, p.shown? spot = none) →
    byte.toNat = slot.toNat + offset.toNat ∧
      some ((Display.ofPhoto r.photo.palette offset).lookup byte) = r.photo.palette.get? slot.toNat
  sprite : offset = 64 → ∀ own, r.sprite? spot = some own → own.toNat < 64 →
    byte = own ∧ (Display.ofPhoto r.photo.palette offset).lookup byte = (ObjectPixel.mk own).entry
  outside : offset = 64 → r.photo.indices.at? spot.1 spot.2 = none →
    (∀ p ∈ r.placements, p.shown? spot = none) →
    (Display.ofPhoto r.photo.palette offset).lookup byte = Entry.black

theorem Room.sceneByte_shownTrue (r : Room) {offset : UInt8} (fits : offset.toNat ≤ 64)
    (spot : Int × Int) : r.ShownTrue offset spot (r.sceneByte offset spot) where
  photo := by
    intro slot here clear
    have byte := r.toNat_sceneByte_photo fits here clear
    have below : slot.toNat < 192 := r.photo.indices_lt slot (Grid.mem_pixels_of_at? _ here)
    refine ⟨byte, ?_⟩
    rw [Display.lookup_ofPhoto, byte, if_pos ⟨Nat.le_add_left .., by omega⟩, Nat.add_sub_cancel]
  sprite := by
    rintro rfl own shown low
    refine ⟨r.sceneByte_sprite 64 shown, ?_⟩
    rw [r.sceneByte_sprite 64 shown, ← Option.some_inj, Display.lookup_ofPhoto, if_neg, if_pos low]
    exact fun above => absurd above.1 (Nat.not_le.mpr low)
  outside := by
    rintro rfl none clear
    rw [r.sceneByte_outside 64 none clear, ← Option.some_inj, Display.lookup_ofPhoto,
      if_neg (by decide), if_pos (by decide)]
    decide

/-- A display shows every byte as the table has it, and so every photo pixel in its own colour. -/
theorem display_shows_true_colours :
    (∀ (palette : Palette) (offset byte : UInt8),
      some ((Display.ofPhoto palette offset).lookup byte) =
        if offset.toNat ≤ byte.toNat ∧ byte.toNat < offset.toNat + 192 then
          palette.get? (byte.toNat - offset.toNat)
        else if byte.toNat < 64 then some (ObjectPixel.mk byte).entry
        else some Entry.black) ∧
    (∀ (r : Room) (offset : UInt8), checkPaletteOffset offset = .ok () →
      ∀ (course : Course) (x y : Int32) (buffer : Array UInt8) (i : Nat), i < buffer.size →
        ∃ byte, (r.fill offset course x y buffer)[i]? = some byte ∧
          r.ShownTrue offset (course.point x.toInt y.toInt i) byte) := by
  refine ⟨Display.lookup_ofPhoto, ?_⟩
  intro r offset accepted course x y buffer i inside
  refine ⟨r.sceneByte offset (course.point x.toInt y.toInt i), ?_, ?_⟩
  · rw [r.getElem?_fill, Array.getElem?_eq_getElem inside, Option.map_some]
  · exact r.sceneByte_shownTrue (checkPaletteOffset_eq_ok_iff.mp accepted) _

/-- A photo of two pixels in object colours, with a sprite over the second. -/
def lamp : Room :=
  let photo : Grid UInt8 := ⟨2, 1, #[42, 7], rfl, Grid.area_pair⟩
  have slots : ∀ i ∈ photo.pixels, i.toNat < paletteSlots := by simp [photo, paletteSlots]
  ⟨"lamp", ⟨⟨2, 1⟩, .fixed, photo, photo, ⟨rfl, rfl⟩, ⟨rfl, rfl⟩, slots⟩,
    [⟨1, 0, ⟨⟨1, 1⟩, ⟨1, 1, #[21], rfl, Grid.area_dot⟩, rfl, rfl⟩⟩]⟩

theorem display_shows_lamp :
    checkPaletteOffset 64 = .ok () ∧
    ∃ byte, (lamp.fill 64 .across 0 0 (Array.replicate 3 9))[0]? = some byte ∧
      byte.toNat = 42 + 64 ∧
      some ((Display.ofPhoto lamp.photo.palette 64).lookup byte) = some ⟨42, 42, 42⟩ := by
  obtain ⟨byte, line, shown⟩ :=
    display_shows_true_colours.2 lamp 64 rfl .across 0 0 (Array.replicate 3 9) 0 (by decide)
  obtain ⟨sum, colour⟩ := shown.photo 42 (by decide) (by decide)
  exact ⟨rfl, byte, line, sum, colour.trans (Palette.get?_fixed (by decide))⟩

end Roomscape
