import Roomscape.Proofs.GridPixels
import Roomscape.Palette.Display
import Roomscape.Room

/-! What is seen at a point of the map, said without any line, and the line fills measured against it.
A sprite's part of a line is found by clipping; the clip shows exactly the pixels that stand at the
line's own positions, so each fill is the scene read along its course. -/
namespace Roomscape

/-- The map position `i` steps along a line that starts at `(x, y)`. -/
def Course.point : Course → Int → Int → Nat → Int × Int
  | .across, x, y, i => (x + i, y)
  | .down, x, y, i => (x, y + i)

/-- The sprite's byte at a map position, if it lies there and is not the transparent byte. -/
def Placement.shown? (p : Placement) (spot : Int × Int) : Option UInt8 :=
  (p.image.pixels.at? (spot.1 - p.x.toInt) (spot.2 - p.y.toInt)).filter (· ≠ 0x40)

namespace Room

/-- The front sprite's byte at a map position. -/
def sprite? (r : Room) (spot : Int × Int) : Option UInt8 :=
  r.placements.reverse.findSome? (·.shown? spot)

/-- What is seen at a map position: the last sprite that shows there, or else the photo's slot plus
the offset, or else nothing. -/
def scene (r : Room) (offset : UInt8) (spot : Int × Int) : Nat :=
  match r.sprite? spot, r.photo.indices.at? spot.1 spot.2 with
  | some byte, _ => byte.toNat
  | none, some slot => slot.toNat + offset.toNat
  | none, none => 0

/-- The same in one byte, where a sum past 255 would wrap. -/
def sceneByte (r : Room) (offset : UInt8) (spot : Int × Int) : UInt8 :=
  (r.sprite? spot).getD (shade offset (r.photo.indices.at? spot.1 spot.2))

end Room

namespace Placement

theorem shown?_outside {p : Placement} {spot : Int × Int}
    (outside : ¬ ((p.x.toInt ≤ spot.1 ∧ spot.1 < p.x.toInt + p.image.pixels.width) ∧
      (p.y.toInt ≤ spot.2 ∧ spot.2 < p.y.toInt + p.image.pixels.height))) :
    p.shown? spot = none := by
  rw [shown?, Grid.at?_eq_none _ (by omega)]
  rfl

end Placement

theorem Room.sprite?_eq_none_iff {r : Room} {spot : Int × Int} :
    r.sprite? spot = none ↔ ∀ p ∈ r.placements, p.shown? spot = none := by
  simp [sprite?, List.findSome?_eq_none_iff]

section Clipping

variable {origin place : Int} {length size : Nat}

theorem clip?_eq_none {i : Nat} (apart : clip? origin length place size = none) (hi : i < length) :
    ¬ (place ≤ origin + i ∧ origin + i < place + size) := by
  unfold clip? at apart
  split at apart
  · omega
  · split at apart <;> cases apart

/-- A clip stays inside the line and the stretch. -/
theorem clip?_within {c : Clip} (meets : clip? origin length place size = some c) :
    c.start ≤ length ∧ c.skip ≤ size := by
  unfold clip? at meets
  split at meets
  · cases meets
  · split at meets <;> cases meets <;> constructor <;> simp only <;> omega

/-- What a clip lets through at a position of the line is the pixel that stands there. -/
theorem clip?_shows {c : Clip} (meets : clip? origin length place size = some c) (i : Nat) :
    (c.start ≤ i ∧ i - c.start < size - c.skip ↔
      place ≤ origin + i ∧ origin + i < place + size) ∧
    (c.start ≤ i → ((c.skip + (i - c.start) : Nat) : Int) = origin + i - place) := by
  unfold clip? at meets
  split at meets
  · cases meets
  · split at meets <;> cases meets <;> constructor <;> simp only <;> omega

end Clipping

theorem ObjectPixel.isTransparent_eq (byte : UInt8) :
    (ObjectPixel.mk byte).isTransparent = decide (byte = 0x40) := by
  simp [isTransparent, transparent, BEq.beq]

section Overlay

variable (start : Nat) (pixel : Nat → Option UInt8)

/-- One pixel of an overlay changes one position, and that only if it is not transparent. -/
theorem getElem?_stamp (buffer : Array UInt8) (k : Nat) (new : Option UInt8) (i : Nat) :
    (stamp buffer k new)[i]? =
      buffer[i]?.map fun below => if i = k then (new.filter (· ≠ 0x40)).getD below else below := by
  cases new with
  | none => simp [stamp]
  | some b =>
    simp only [stamp, ObjectPixel.isTransparent_eq]
    by_cases clear : b = 0x40
    · simp [clear, Option.filter_some]
    · by_cases here : i = k
      · subst here
        by_cases bound : i < buffer.size <;> simp [clear, bound, Option.filter_some]
      · simp [clear, here, Ne.symm here]

private theorem getElem?_stamps (buffer : Array UInt8) (n i : Nat) :
    (n.fold (fun k _ buffer => stamp buffer (start + k) (pixel k)) buffer)[i]? =
      buffer[i]?.map fun below =>
        if start ≤ i ∧ i - start < n then ((pixel (i - start)).filter (· ≠ 0x40)).getD below
        else below := by
  induction n with
  | zero => simp
  | succ n ih =>
    rw [Nat.fold_succ, getElem?_stamp, ih, Option.map_map]
    congr 1
    funext below
    by_cases last : i = start + n
    · subst last
      simp
    · simp only [Function.comp, last, if_false]
      congr 1
      apply propext
      omega

/-- An overlay is read position by position. -/
theorem getElem?_overlay (count : Nat) (buffer : Array UInt8) (i : Nat) :
    (overlay start count pixel buffer)[i]? =
      buffer[i]?.map fun below =>
        if start ≤ i ∧ i - start < count then ((pixel (i - start)).filter (· ≠ 0x40)).getD below
        else below := by
  rw [overlay, getElem?_stamps]
  by_cases bound : i < buffer.size
  · congr 1
    funext below
    congr 1
    apply propext
    omega
  · simp [Array.getElem?_eq_none (Nat.le_of_not_lt bound)]

/-- A cut stretch shows at every position of the line the pixel that stands there. -/
theorem getElem?_overlayCut (origin place : Int) (size : Nat) (buffer : Array UInt8) (i : Nat) :
    (overlayCut origin place size pixel buffer)[i]? =
      buffer[i]?.map fun below =>
        if place ≤ origin + i ∧ origin + i < place + size then
          ((pixel (origin + i - place).toNat).filter (· ≠ 0x40)).getD below
        else below := by
  unfold overlayCut
  split
  · rename_i clip meets
    obtain ⟨inside, column⟩ := clip?_shows meets i
    rw [getElem?_overlay]
    congr 1
    funext below
    simp only [inside]
    split
    · rename_i here
      have position : clip.skip + (i - clip.start) = (origin + i - place).toNat := by
        have := column (inside.mpr here).1
        omega
      rw [position]
    · rfl
  · rename_i apart
    by_cases bound : i < buffer.size
    · simp [clip?_eq_none apart bound]
    · simp [Array.getElem?_eq_none (Nat.le_of_not_lt bound)]

end Overlay

namespace Placement

variable (p : Placement) (x y : Int) (buffer : Array UInt8)

theorem shown?_inside {spot : Int × Int} (left : p.x.toInt ≤ spot.1) (top : p.y.toInt ≤ spot.2) :
    p.shown? spot = (p.image.pixels.get? (spot.1 - p.x.toInt).toNat
      (spot.2 - p.y.toInt).toNat).filter (· ≠ 0x40) := by
  rw [shown?, Grid.at?_eq_get? _ (by omega) (by omega)]

theorem getElem?_paintAcross (i : Nat) :
    (p.paintAcross x y buffer)[i]? =
      buffer[i]?.map fun below => (p.shown? (Course.across.point x y i)).getD below := by
  simp only [paintAcross, Course.point]
  split
  case isTrue off =>
    rw [shown?_outside (by simp only; omega)]
    simp
  case isFalse level =>
    obtain ⟨row, found, _, pixels⟩ :=
      p.image.pixels.row?_eq_some (y := (y - p.y.toInt).toNat) (by omega)
    simp only [found, getElem?_overlayCut, pixels]
    congr 1
    funext below
    split
    case isTrue covered => rw [shown?_inside p (by exact covered.1) (by simp only; omega)]
    case isFalse missed =>
      rw [shown?_outside (by simp only; omega)]
      rfl

theorem getElem?_paintDown (i : Nat) :
    (p.paintDown x y buffer)[i]? =
      buffer[i]?.map fun below => (p.shown? (Course.down.point x y i)).getD below := by
  simp only [paintDown, Course.point]
  split
  case isTrue off =>
    rw [shown?_outside (by simp only; omega)]
    simp
  case isFalse level =>
    rw [getElem?_overlayCut]
    congr 1
    funext below
    split
    case isTrue covered => rw [shown?_inside p (by simp only; omega) (by exact covered.1)]
    case isFalse missed =>
      rw [shown?_outside (by simp only; omega)]
      rfl

/-- Painting a sprite over a line changes the positions where it shows, and only those. -/
theorem getElem?_paint (course : Course) (i : Nat) :
    (p.paint course x y buffer)[i]? =
      buffer[i]?.map fun below => (p.shown? (course.point x y i)).getD below := by
  cases course with
  | across => exact p.getElem?_paintAcross x y buffer i
  | down => exact p.getElem?_paintDown x y buffer i

/-- Of several sprites painted in order the last one that shows is left. -/
theorem getElem?_paintAll (placements : List Placement) (course : Course) (i : Nat) :
    (placements.foldl (fun buffer p => p.paint course x y buffer) buffer)[i]? =
      buffer[i]?.map fun below =>
        (placements.reverse.findSome? (·.shown? (course.point x y i))).getD below := by
  induction placements generalizing buffer with
  | nil => simp
  | cons p rest ih =>
    rw [List.foldl_cons, ih, getElem?_paint, Option.map_map]
    congr 1
    funext below
    rw [List.reverse_cons, List.findSome?_append]
    cases rest.reverse.findSome? (·.shown? (course.point x y i)) with
    | none => cases h : p.shown? (course.point x y i) <;> simp [h]
    | some byte => rfl

end Placement

namespace Room

variable (r : Room) (offset : UInt8)

theorem getElem?_photoAlong (course : Course) (x y : Int) (buffer : Array UInt8) (i : Nat) :
    (r.photoAlong offset course x y buffer)[i]? =
      buffer[i]?.map fun _ =>
        shade offset (r.photo.indices.at? (course.point x y i).1 (course.point x y i).2) := by
  cases course with
  | down => simp [photoAlong, photoDown, Course.point, Array.getElem?_mapIdx]
  | across =>
    simp only [photoAlong, photoAcross, Course.point]
    by_cases level : 0 ≤ y ∧ y < r.photo.indices.height
    · obtain ⟨row, found, _, pixels⟩ :=
        r.photo.indices.row?_eq_some (y := y.toNat) (by omega)
      simp [level.1, found, pixels, Grid.at?_eq_ite, Array.getElem?_mapIdx]
    · have absent : (if 0 ≤ y then r.photo.indices.row? y.toNat else none) = none := by
        split
        · exact if_neg (by omega)
        · rfl
      rw [absent, Grid.at?_eq_none _ (by omega)]
      simp [shade]

/-- A fill leaves at every position of the buffer what is seen there, whatever the buffer held. -/
theorem getElem?_fill (course : Course) (x y : Int32) (buffer : Array UInt8) (i : Nat) :
    (r.fill offset course x y buffer)[i]? =
      buffer[i]?.map fun _ => r.sceneByte offset (course.point x.toInt y.toInt i) := by
  rw [fill, Placement.getElem?_paintAll, getElem?_photoAlong, Option.map_map]
  rfl

/-- With an offset of at most 64 no photo colour passes slot 255. -/
theorem toNat_sceneByte (fits : offset.toNat ≤ highestPaletteOffset) (spot : Int × Int) :
    (r.sceneByte offset spot).toNat = r.scene offset spot := by
  unfold sceneByte scene
  cases r.sprite? spot with
  | some byte => rfl
  | none =>
    cases found : r.photo.indices.at? spot.1 spot.2 with
    | none => rfl
    | some slot =>
      have bound := r.photo.indices_lt slot (Grid.mem_pixels_of_at? _ found)
      simp only [highestPaletteOffset, paletteSlots] at fits bound
      simp only [Option.getD_none, shade, UInt8.toNat_add]
      omega

end Room
end Roomscape
