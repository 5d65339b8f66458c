import Mathlib.Algebra.Ring.Nat
import Roomscape.Proofs.FileReading
import Roomscape.Proofs.Scene

/-! Sprite images from rows of pixels, top row first, and from files, bottom row first. A list of rows is
refused with the first thing that is wrong with it; any other makes the image that its own file holds. -/
namespace Roomscape

/-- The rows can stand one below the other. -/
def OneLength (rows : List (Array UInt8)) : Prop := ∀ a ∈ rows, ∀ b ∈ rows, a.size = b.size

instance (rows : List (Array UInt8)) : Decidable (OneLength rows) :=
  inferInstanceAs (Decidable (∀ a ∈ rows, ∀ b ∈ rows, a.size = b.size))

/-- The length of the rows, if they have one. Without rows there is nothing to be wide. -/
def rowLength (rows : List (Array UInt8)) : Nat := (rows.head?.map Array.size).getD 0

section Rows

variable {rows : List (Array UInt8)}

theorem oneLength_iff : OneLength rows ↔ ∀ row ∈ rows, row.size = rowLength rows := by
  constructor
  · intro even row member
    cases rows with
    | nil => cases member
    | cons first rest => exact even row member first List.mem_cons_self
  · intro level a ha b hb
    rw [level a ha, level b hb]

theorem OneLength.length_eq (even : OneLength rows) {row : Array UInt8} (member : row ∈ rows) :
    row.toList.length = rowLength rows := by
  rw [Array.length_toList, oneLength_iff.mp even row member]

theorem ragged_iff : (rows.any fun row => row.size != rowLength rows) ↔ ¬ OneLength rows := by
  simp [oneLength_iff]

theorem toList_concat (rows : List (Array UInt8)) :
    (rows.foldl (· ++ ·) #[]).toList = rows.flatMap Array.toList := by
  suffices all : ∀ front, (rows.foldl (· ++ ·) front).toList = front.toList ++ rows.flatMap Array.toList from
    all #[]
  induction rows with
  | nil => simp
  | cons row rest ih =>
    intro front
    rw [List.foldl_cons, ih, Array.toList_append, List.flatMap_cons, List.append_assoc]

end Rows

namespace Sprite

/-- An image has the pixels of rows, each where it stands in them. -/
structure MadeOf (s : Sprite) (rows : List (Array UInt8)) : Prop where
  width_eq : s.header.width.toNat = rowLength rows
  height_eq : s.header.height.toNat = rows.length
  pixel_eq : ∀ x y, s.pixels.get? x y = rows[y]?.bind fun row => row[x]?
  visibleCount_eq : s.visibleCount = (rows.map fun row => row.countP (· ≠ 0x40)).sum

variable {rows : List (Array UInt8)}

theorem dimension_eq_ok {n : Nat} (small : n ≤ 65535) : dimension n = .ok (UInt16.ofNat n) :=
  if_pos (by omega)

theorem dimension_eq_error {n : Nat} (large : 65535 < n) :
    dimension n = .error (.malformed none (.dimensionRange n)) :=
  if_neg (by omega)

theorem ofRows_ragged (ragged : ¬ OneLength rows) : ofRows rows = .error (.malformed none .raggedRows) := by
  rw [ofRows]
  exact if_pos (ragged_iff.mpr ragged)

theorem ofRows_even (even : OneLength rows) : ofRows rows = (do
    let header : Header := ⟨← dimension (rowLength rows), ← dimension rows.length⟩
    let pixels ← Grid.ofArray (rowLength rows) rows.length (rows.foldl (· ++ ·) #[])
    ofGrid header pixels) := by
  rw [ofRows]
  exact if_neg (fun ragged => ragged_iff.mp ragged even)

theorem ofRows_wide (even : OneLength rows) (large : 65535 < rowLength rows) :
    ofRows rows = .error (.malformed none (.dimensionRange (rowLength rows))) := by
  rw [ofRows_even even, dimension_eq_error large]
  rfl

theorem ofRows_high (even : OneLength rows) (small : rowLength rows ≤ 65535)
    (large : 65535 < rows.length) :
    ofRows rows = .error (.malformed none (.dimensionRange rows.length)) := by
  rw [ofRows_even even, dimension_eq_ok small, dimension_eq_error large]
  rfl

/-- The pixels of a row stand in the buffer where the grid has them. -/
theorem get?_concat (even : OneLength rows) {g : Grid UInt8} (width : g.width = rowLength rows)
    (height : g.height = rows.length) (pixels : g.pixels = rows.foldl (· ++ ·) #[]) (x y : Nat) :
    g.get? x y = rows[y]?.bind fun row => row[x]? := by
  have lengths : ∀ row ∈ rows, row.toList.length = g.width := fun _ member =>
    (even.length_eq member).trans width.symm
  by_cases inside : x < g.width ∧ y < g.height
  · rw [g.get?_inside inside.1 inside.2, pixels, ← Array.getElem?_toList, toList_concat, Nat.mul_comm,
      getElem?_flatMap_of_length lengths y inside.1]
    simp
  · rw [g.get?_outside inside]
    cases found : rows[y]? with
    | none => rfl
    | some row =>
      -- There is a row, so the column is past its end.
      have below : y < rows.length := (List.getElem?_eq_some_iff.mp found).1
      have row_length := lengths row (List.mem_of_getElem? found)
      rw [Array.length_toList] at row_length
      rw [Option.bind_some, Array.getElem?_eq_none (by omega)]

/-- Rows of one length that a header can describe make an image. -/
theorem ofRows_made (even : OneLength rows) (width : rowLength rows ≤ 65535)
    (height : rows.length ≤ 65535) : ∃ s, ofRows rows = .ok s ∧ s.MadeOf rows := by
  have size : (rows.foldl (· ++ ·) #[]).size = rowLength rows * rows.length := by
    rw [← Array.length_toList, toList_concat, length_flatMap_of_length fun _ => even.length_eq, Nat.mul_comm]
  have area : rowLength rows * rows.length < addressSpace := by
    have most := Nat.mul_le_mul width height
    simp only [addressSpace, UInt64.size]
    omega
  let grid : Grid UInt8 := ⟨rowLength rows, rows.length, rows.foldl (· ++ ·) #[], size, area⟩
  have made : Grid.ofArray (rowLength rows) rows.length (rows.foldl (· ++ ·) #[]) = .ok grid := by
    rw [Grid.ofArray, dif_neg (Nat.not_le.mpr area), dif_pos size]
  have fits : grid.header.Fits grid := Grid.fits_header (Nat.lt_succ_of_le width) (Nat.lt_succ_of_le height)
  refine ⟨⟨grid.header, grid, fits⟩, ?_, fits.1.symm, fits.2.symm, ?_, ?_⟩
  · rw [ofRows_even even, dimension_eq_ok width, dimension_eq_ok height, made]
    exact dif_pos fits
  · exact get?_concat even rfl rfl rfl
  · have counted : (grid.pixels.countP fun b => !(ObjectPixel.mk b).isTransparent) =
        (rows.flatMap Array.toList).countP (· ≠ 0x40) := by
      rw [← Array.countP_toList, ← toList_concat]
      exact List.countP_congr fun b _ => by simp [ObjectPixel.isTransparent_eq]
    rw [visibleCount, counted, List.countP_flatMap]
    simp [Function.comp_def]

/-- What is made was not refused for any of the three reasons. -/
theorem ofRows_eq_ok {s : Sprite} (made : ofRows rows = .ok s) :
    OneLength rows ∧ rowLength rows ≤ 65535 ∧ rows.length ≤ 65535 := by
  have even : OneLength rows := Decidable.not_not.mp fun ragged => by
    rw [ofRows_ragged ragged] at made
    cases made
  have width : rowLength rows ≤ 65535 := Nat.le_of_not_lt fun large => by
    rw [ofRows_wide even large] at made
    cases made
  have height : rows.length ≤ 65535 := Nat.le_of_not_lt fun large => by
    rw [ofRows_high even width large] at made
    cases made
  exact ⟨even, width, height⟩

/-- The file of an image has its rows in the opposite order. -/
theorem MadeOf.file_eq {s : Sprite} (made : s.MadeOf rows) (even : OneLength rows) :
    PixelCodec.object.file s.pixels = s.header.toBytes ++ rows.reverse.flatMap Array.toList := by
  have width : s.pixels.width = rowLength rows := s.pixels_fits.1.trans made.width_eq
  have height : s.pixels.height = rows.length := s.pixels_fits.2.trans made.height_eq
  have lengths : ∀ row ∈ rows.reverse, row.toList.length = s.pixels.width := fun _ member =>
    (even.length_eq (List.mem_reverse.mp member)).trans width.symm
  have length : (rows.reverse.flatMap Array.toList).length =
      s.pixels.height * (s.pixels.width * PixelCodec.object.bytes) := by
    rw [length_flatMap_of_length lengths, List.length_reverse, height,
      show PixelCodec.object.bytes = 1 from rfl, Nat.mul_one]
  have pixel (x y : Nat) (hx : x < s.pixels.width) (hy : y < s.pixels.height) : s.pixels.get? x y =
      some (PixelCodec.object.pixelAt (rows.reverse.flatMap Array.toList)
        (PixelCodec.object.position s.pixels.width s.pixels.height x y)) := by
    have row : y < rows.length := height ▸ hy
    have found : (rows.reverse.flatMap Array.toList)[(s.pixels.height - 1 - y) * s.pixels.width + x]? =
        s.pixels.get? x y := by
      rw [Nat.mul_comm, getElem?_flatMap_of_length lengths _ hx, made.pixel_eq, height,
        List.getElem?_reverse (by omega), Nat.sub_sub_self (by omega)]
      simp
    obtain ⟨b, own⟩ := s.pixels.get?_eq_some hx hy
    rw [own] at found ⊢
    simp [PixelCode.pixelAt, PixelCode.position, PixelCodec.object, PixelCode.object, found]
  have bytes : (PixelCodec.object.rows s.pixels).toList = rows.reverse.flatMap Array.toList :=
    (PixelCodec.rows_eq_take (Nat.le_of_eq length.symm) pixel).trans
      (List.take_of_length_le (Nat.le_of_eq length))
  rw [PixelCodec.file, Grid.header_eq s.pixels_fits, bytes]

/-- An image is its pixels, since they have the shape of its header. -/
theorem ext_pixels {s t : Sprite} (same : s.pixels = t.pixels) : s = t := by
  have header : s.header = t.header := by
    rw [← Grid.header_eq s.pixels_fits, ← Grid.header_eq t.pixels_fits, same]
  cases s
  cases t
  cases header
  cases same
  rfl

/-- Rows make an image exactly if they have one length and a header can say how long and how many they
are, and it has their pixels. What is refused is refused for its lengths first, then for its width, and
then for its height. A file with a header for the rows, and the rows in the opposite order, holds the
same image, whatever stands behind it. -/
theorem rows_and_file_make_one_sprite (rows : List (Array UInt8)) :
    ((∃ s, ofRows rows = .ok s) ↔
      OneLength rows ∧ rowLength rows ≤ 65535 ∧ rows.length ≤ 65535) ∧
    (¬ OneLength rows → ofRows rows = .error (.malformed none .raggedRows)) ∧
    (OneLength rows → 65535 < rowLength rows →
      ofRows rows = .error (.malformed none (.dimensionRange (rowLength rows)))) ∧
    (OneLength rows → rowLength rows ≤ 65535 → 65535 < rows.length →
      ofRows rows = .error (.malformed none (.dimensionRange rows.length))) ∧
    ∀ s, ofRows rows = .ok s → s.MadeOf rows ∧
      ∀ (options : LoadOptions) (source : Source) (tail : List UInt8),
        rowLength rows ≤ options.maxImageWidth.toNat → rows.length ≤ options.maxImageHeight.toNat →
        source.unread = s.header.toBytes ++ rows.reverse.flatMap Array.toList ++ tail →
        ∃ t, PixelFile.sprite options source = .ok s t ∧ t.unread = tail := by
  refine ⟨⟨fun ⟨s, made⟩ => ofRows_eq_ok made, ?_⟩, ofRows_ragged, ofRows_wide, ofRows_high, ?_⟩
  · rintro ⟨even, width, height⟩
    obtain ⟨s, made, _⟩ := ofRows_made even width height
    exact ⟨s, made⟩
  · intro s made
    obtain ⟨even, width, height⟩ := ofRows_eq_ok made
    obtain ⟨_, same, shows⟩ := ofRows_made even width height
    cases made.symm.trans same
    refine ⟨shows, fun options source tail limit_width limit_height holds => ?_⟩
    have layout := holds.trans (congrArg (· ++ tail) (shows.file_eq even).symm)
    obtain ⟨value, t, run, pixels, left⟩ := (PixelFile.wrapsSprite options).read_file
      (s.pixels_fits.1 ▸ shows.width_eq ▸ limit_width) (s.pixels_fits.2 ▸ shows.height_eq ▸ limit_height)
      layout
    exact ⟨t, ext_pixels pixels ▸ run, left⟩

end Sprite
end Roomscape
