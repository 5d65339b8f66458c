import Roomscape.Proofs.Scene
import Roomscape.Viewer

/-! Whole windows. Both scan orders overwrite every pixel of the frame once, with what is seen at the
map position the line fill gives it; as long as no line start leaves the coordinate range, that is the
position the pixel has in the window. -/
namespace Roomscape

theorem size_eq_of_none_iff {α β : Type} {xs : Array α} {ys : Array β}
    (same : ∀ i : Nat, xs[i]? = none ↔ ys[i]? = none) : xs.size = ys.size := by
  have left := same xs.size
  have right := same ys.size
  simp only [Array.getElem?_eq_none_iff, Nat.le_refl, true_iff, iff_true] at left right
  exact Nat.le_antisymm right left

/-- What line `n` adds to the lines below `n`. -/
private theorem upto_succ {α : Type} (filled : Nat → α) (rest : α) (j n : Nat) :
    (if j = n then filled n else if j < n then filled j else rest) =
      if j < n + 1 then filled j else rest := by
  by_cases last : j = n
  · subst last
    rw [if_pos rfl, if_pos (Nat.lt_succ_self j)]
  · rw [if_neg last]
    congr 1
    apply propext
    omega

/-- One past the greatest coordinate. -/
def coordinateEnd : Nat := 0x80000000

section Advance

theorem toInt_ofNat {n : Nat} (small : n < coordinateEnd) : (Int32.ofNat n).toInt = n :=
  Int32.toInt_ofNat_of_lt small

/-- Inside the coordinate range the start of a line is plain addition. -/
theorem toInt_advance {start : Int32} {n : Nat} (small : n < coordinateEnd)
    (inRange : start.toInt + n < coordinateEnd) : (advance start n).toInt = start.toInt + n := by
  have low := start.minValue_le_toInt
  simp only [coordinateEnd] at inRange
  rw [advance, toInt_ofNat small]
  have clamp : max Int32.minValue.toInt (min Int32.maxValue.toInt (start.toInt + n)) =
      start.toInt + n := by
    simp only [Int32.toInt_minValue, Int32.toInt_maxValue] at low ⊢
    omega
  rw [clamp]
  apply Int32.toInt_ofInt_of_le
  · simp only [Int32.toInt_minValue] at low
    omega
  · exact inRange

end Advance

/-- The map position that a scan order reads for a pixel of a window at `(x, y)`. -/
def ScanOrder.spot : ScanOrder → Int32 → Int32 → Nat → Nat → Int × Int
  | .rows, x, y, col, row => (x.toInt + col, (advance y row).toInt)
  | .columns, x, y, col, row => ((advance x col).toInt, y.toInt + row)

namespace Viewer

variable (v : Viewer)

/-- What the screen shows of a map position: the active room's scene, or nothing. -/
def scene (spot : Int × Int) : Nat :=
  match v.active with
  | some room => room.scene v.offset spot
  | none => 0

def sceneByte (spot : Int × Int) : UInt8 :=
  match v.active with
  | some room => room.sceneByte v.offset spot
  | none => backdrop

theorem toNat_sceneByte (fits : v.offset.toNat ≤ highestPaletteOffset) (spot : Int × Int) :
    (v.sceneByte spot).toNat = v.scene spot := by
  unfold sceneByte scene
  cases v.active with
  | some room => exact room.toNat_sceneByte v.offset fits spot
  | none => rfl

theorem getElem?_fill (course : Course) (x y : Int32) (buffer : Array UInt8) (i : Nat) :
    (v.fill course x y buffer)[i]? =
      buffer[i]?.map fun _ => v.sceneByte (course.point x.toInt y.toInt i) := by
  unfold fill sceneByte
  cases v.active with
  | some room => exact room.getElem?_fill v.offset course x y buffer i
  | none => simp

@[simp] theorem size_fill (course : Course) (x y : Int32) (buffer : Array UInt8) :
    (v.fill course x y buffer).size = buffer.size :=
  size_eq_of_none_iff fun i => by simp [getElem?_fill]

variable (x y : Int32) (frame : Grid UInt8)

/-- Filling a row overwrites it with what is seen, and leaves the other rows. -/
theorem fillRow_spec {row : Nat} (inside : row < frame.height) :
    (v.fillRow x y row frame).width = frame.width ∧
    (v.fillRow x y row frame).height = frame.height ∧
    ∀ i j, i < frame.width → j < frame.height → (v.fillRow x y row frame).get? i j =
      if j = row then some (v.sceneByte (x.toInt + i, (advance y row).toInt))
      else frame.get? i j := by
  obtain ⟨line, found, size, entries⟩ := frame.row?_eq_some inside
  simp only [fillRow, found, Grid.width_writeRow, Grid.height_writeRow, true_and]
  intro i j hi hj
  rw [frame.get?_writeRow (by simp [size]) hi hj]
  split
  · obtain ⟨old, held⟩ := frame.get?_eq_some hi inside
    rw [getElem?_fill, entries, held]
    rfl
  · rfl

/-- The frame after its first `n` rows were filled. -/
private theorem fillRows_upto (n : Nat) (below : n ≤ frame.height) :
    let filled := n.fold (fun row _ => v.fillRow x y row) frame
    filled.width = frame.width ∧ filled.height = frame.height ∧
      ∀ i j, i < frame.width → j < frame.height → filled.get? i j =
        if j < n then some (v.sceneByte (x.toInt + i, (advance y j).toInt))
        else frame.get? i j := by
  induction n with
  | zero => simp
  | succ n ih =>
    obtain ⟨width, height, pixels⟩ := ih (by omega)
    simp only [Nat.fold_succ]
    generalize n.fold _ frame = filled at width height pixels ⊢
    obtain ⟨width', height', pixels'⟩ := v.fillRow_spec x y filled (show n < filled.height by omega)
    refine ⟨width'.trans width, height'.trans height, ?_⟩
    intro i j hi hj
    rw [pixels' i j (by omega) (by omega), pixels i j hi hj]
    exact upto_succ (fun j => some (v.sceneByte (x.toInt + i, (advance y j).toInt))) _ j n

theorem get?_fillRows {col row : Nat} (hcol : col < frame.width) (hrow : row < frame.height) :
    (v.fillRows x y frame).get? col row =
      some (v.sceneByte (x.toInt + col, (advance y row).toInt)) := by
  rw [fillRows, (v.fillRows_upto x y frame _ (Nat.le_refl _)).2.2 col row hcol hrow, if_pos hrow]

theorem fillRows_shape :
    (v.fillRows x y frame).width = frame.width ∧ (v.fillRows x y frame).height = frame.height :=
  have all := v.fillRows_upto x y frame _ (Nat.le_refl _)
  ⟨all.1, all.2.1⟩

/-- Filling a column overwrites it with what is seen, and leaves the other columns. -/
theorem fillColumn_spec (col : Nat) (buffer : Array UInt8) (size : buffer.size = frame.height) :
    (v.fillColumn x y col (frame, buffer)).1.width = frame.width ∧
    (v.fillColumn x y col (frame, buffer)).1.height = frame.height ∧
    (v.fillColumn x y col (frame, buffer)).2.size = frame.height ∧
    ∀ i j, i < frame.width → j < frame.height → (v.fillColumn x y col (frame, buffer)).1.get? i j =
      if i = col then some (v.sceneByte ((advance x col).toInt, y.toInt + j))
      else frame.get? i j := by
  simp only [fillColumn, Grid.width_writeColumn, Grid.height_writeColumn, size_fill, size, true_and]
  intro i j hi hj
  rw [frame.get?_writeColumn (by simp [size]) hi hj]
  split
  · rw [getElem?_fill, Array.getElem?_eq_getElem (size ▸ hj)]
    rfl
  · rfl

/-- The frame and the buffer after the first `n` columns were filled. -/
private theorem fillColumns_upto (n : Nat) (below : n ≤ frame.width) :
    let filled := n.fold (fun col _ => v.fillColumn x y col)
      (frame, Array.replicate frame.height backdrop)
    filled.1.width = frame.width ∧ filled.1.height = frame.height ∧
      filled.2.size = frame.height ∧
      ∀ i j, i < frame.width → j < frame.height → filled.1.get? i j =
        if i < n then some (v.sceneByte ((advance x i).toInt, y.toInt + j))
        else frame.get? i j := by
  induction n with
  | zero => simp
  | succ n ih =>
    obtain ⟨width, height, size, pixels⟩ := ih (by omega)
    simp only [Nat.fold_succ]
    generalize n.fold _ (frame, _) = filled at width height size pixels ⊢
    obtain ⟨width', height', size', pixels'⟩ :=
      v.fillColumn_spec x y filled.1 n filled.2 (by omega)
    refine ⟨width'.trans width, height'.trans height, size'.trans height, ?_⟩
    intro i j hi hj
    rw [pixels' i j (by omega) (by omega), pixels i j hi hj]
    exact upto_succ (fun i => some (v.sceneByte ((advance x i).toInt, y.toInt + j))) _ i n

theorem get?_fillColumns {col row : Nat} (hcol : col < frame.width) (hrow : row < frame.height) :
    (v.fillColumns x y frame).get? col row =
      some (v.sceneByte ((advance x col).toInt, y.toInt + row)) := by
  have all := (v.fillColumns_upto x y frame _ (Nat.le_refl _)).2.2.2 col row hcol hrow
  rw [if_pos hcol] at all
  exact all

theorem fillColumns_shape :
    (v.fillColumns x y frame).width = frame.width ∧
      (v.fillColumns x y frame).height = frame.height :=
  have all := v.fillColumns_upto x y frame _ (Nat.le_refl _)
  ⟨all.1, all.2.1⟩

theorem blank_eq_ok {width height : Nat} (area : width * height ≤ largestBuffer) :
    ∃ blank, Grid.filled width height backdrop 1 = .ok blank ∧ blank.width = width ∧
      blank.height = height := by
  obtain ⟨blank, made⟩ := Grid.filled_eq_ok backdrop Nat.one_pos
    (show width * height * 1 ≤ largestBuffer by omega)
  obtain ⟨wide, high, _⟩ := Grid.get?_filled made
  exact ⟨blank, made, wide, high⟩

/-- A window that can be allocated is made, and every pixel of it shows its map position. -/
theorem window_eq_ok {width height : Nat} (order : ScanOrder)
    (area : width * height ≤ largestBuffer) (tall : height ≤ largestBuffer) :
    ∃ frame, v.window x y width height order = .ok frame ∧
      frame.width = width ∧ frame.height = height ∧
      ∀ col row, col < width → row < height →
        frame.get? col row = some (v.sceneByte (order.spot x y col row)) := by
  obtain ⟨blank, made, rfl, rfl⟩ := blank_eq_ok area
  simp only [window, made]
  cases order with
  | rows =>
    exact ⟨_, rfl, (v.fillRows_shape x y blank).1, (v.fillRows_shape x y blank).2,
      fun col row hcol hrow => v.get?_fillRows x y blank hcol hrow⟩
  | columns =>
    have fits : ¬ largestBuffer < blank.height := Nat.not_lt.mpr tall
    refine ⟨v.fillColumns x y blank, ?_, (v.fillColumns_shape x y blank).1,
      (v.fillColumns_shape x y blank).2,
      fun col row hcol hrow => v.get?_fillColumns x y blank hcol hrow⟩
    simp [bind, Except.bind, fits, pure, Except.pure]

section Size

variable (width height : Nat)

/-- A frame that no buffer holds is refused before a scan order is looked at. -/
theorem window_exhausted (large : largestBuffer < width * height) :
    ∃ shortage, ∀ order, v.window x y width height order = .error (.exhausted shortage) := by
  obtain ⟨shortage, refused⟩ := Grid.filled_exhausted backdrop large
  exact ⟨shortage, fun order => by simp [window, refused, bind, Except.bind]⟩

theorem window_made {order : ScanOrder} (area : width * height ≤ largestBuffer)
    (bounded : ¬ (order = .columns ∧ largestBuffer < height)) :
    ∃ frame, v.window x y width height order = .ok frame ∧ frame.width = width ∧
      frame.height = height := by
  cases order with
  | rows =>
    obtain ⟨blank, made, rfl, rfl⟩ := blank_eq_ok area
    obtain ⟨wide, high⟩ := v.fillRows_shape x y blank
    refine ⟨v.fillRows x y blank, ?_, wide, high⟩
    simp [window, made, bind, Except.bind, pure, Except.pure]
  | columns =>
    have tall : height ≤ largestBuffer := Nat.le_of_not_lt fun tall => bounded ⟨rfl, tall⟩
    obtain ⟨frame, made, wide, high, _⟩ := v.window_eq_ok x y .columns area tall
    exact ⟨frame, made, wide, high⟩

/-- Only a window without columns is higher than any buffer and small enough to be framed. -/
theorem window_unbounded (area : width * height ≤ largestBuffer) (tall : largestBuffer < height) :
    width = 0 ∧ v.window x y width height .columns = .error (.unboundedBuffer height) := by
  obtain ⟨blank, made, _⟩ := blank_eq_ok area
  refine ⟨?_, by simp [window, made, tall, bind, Except.bind, throw, throwThe, MonadExceptOf.throw]⟩
  rcases Nat.eq_zero_or_pos width with none | wide
  · exact none
  · have rows := Nat.le_mul_of_pos_left height wide
    omega

end Size

/-- A window that ends inside the coordinate range shows the scene, in either scan order. -/
theorem window_shows_scene (width height : Nat)
    (fits : v.offset.toNat ≤ 64) (narrow : width ≤ coordinateEnd) (low : height ≤ coordinateEnd)
    (right : x.toInt + width ≤ coordinateEnd) (bottom : y.toInt + height ≤ coordinateEnd) :
    ∃ frame, (∀ order, v.window x y width height order = .ok frame) ∧
      frame.width = width ∧ frame.height = height ∧
      ∀ col row, col < width → row < height →
        (frame.get? col row).map UInt8.toNat = some (v.scene (x.toInt + col, y.toInt + row)) := by
  have area : width * height ≤ largestBuffer :=
    calc width * height ≤ coordinateEnd * coordinateEnd := Nat.mul_le_mul narrow low
      _ ≤ largestBuffer := by decide
  have tall : height ≤ largestBuffer := Nat.le_trans low (by decide)
  have spot (order : ScanOrder) (col row : Nat) (hcol : col < width) (hrow : row < height) :
      order.spot x y col row = (x.toInt + col, y.toInt + row) := by
    cases order with
    | rows => simp only [ScanOrder.spot]; rw [toInt_advance (by omega) (by omega)]
    | columns => simp only [ScanOrder.spot]; rw [toInt_advance (by omega) (by omega)]
  -- The frame of one order; the other order makes a frame with the same pixels.
  obtain ⟨frame, made, rfl, rfl, pixels⟩ := v.window_eq_ok x y .rows area tall
  refine ⟨frame, ?_, rfl, rfl, ?_⟩
  · intro order
    obtain ⟨other, made', width', height', pixels'⟩ := v.window_eq_ok x y order area tall
    rw [made']
    congr 1
    apply Grid.ext_get? width' height'
    intro col row hcol hrow
    rw [pixels' col row (by omega) (by omega), pixels col row (by omega) (by omega),
      spot order col row (by omega) (by omega), spot .rows col row (by omega) (by omega)]
  · intro col row hcol hrow
    rw [pixels col row hcol hrow, spot .rows col row hcol hrow, Option.map_some,
      v.toNat_sceneByte fits]

/-- A photo of two pixels. Over it lie an image without columns and a sprite that starts left of the
map and is transparent there. -/
def hall : Viewer :=
  let photo : Grid UInt8 := ⟨2, 1, #[7, 191], rfl, Grid.area_pair⟩
  let door : Grid UInt8 := ⟨2, 1, #[0x40, 5], rfl, Grid.area_pair⟩
  let nothing : Grid UInt8 := ⟨0, 1, #[], rfl, by decide⟩
  have slots : ∀ i ∈ photo.pixels, i.toNat < paletteSlots := by simp [photo, paletteSlots]
  ⟨some ⟨"hall", ⟨⟨2, 1⟩, .black, photo, photo, ⟨rfl, rfl⟩, ⟨rfl, rfl⟩, slots⟩,
    [⟨-1, 0, ⟨2, 1⟩, door, rfl, rfl⟩, ⟨0, 0, ⟨0, 1⟩, nothing, rfl, rfl⟩]⟩, 64⟩

theorem window_shows_hall :
    hall.offset.toNat ≤ 64 ∧ (-2 : Int32).toInt + (4 : Nat) ≤ coordinateEnd ∧
    (0 : Int32).toInt + (1 : Nat) ≤ coordinateEnd ∧
    ∃ frame, (∀ order, hall.window (-2) 0 4 1 order = .ok frame) ∧
      frame.width = 4 ∧ frame.height = 1 ∧
      (List.range 4).map (fun col => (frame.get? col 0).map UInt8.toNat) =
        [some 0, some 0, some 5, some 255] := by
  have offset : hall.offset.toNat ≤ 64 := by decide
  have right : (-2 : Int32).toInt + (4 : Nat) ≤ coordinateEnd := by decide
  have bottom : (0 : Int32).toInt + (1 : Nat) ≤ coordinateEnd := by decide
  obtain ⟨frame, made, width, height, pixels⟩ :=
    hall.window_shows_scene (-2) 0 4 1 offset (by decide) (by decide) right bottom
  refine ⟨offset, right, bottom, frame, made, width, height, ?_⟩
  have row (col : Nat) (inside : col < 4) := pixels col 0 inside (by decide)
  simp only [List.range, List.range.loop, List.map, row 0 (by decide), row 1 (by decide),
    row 2 (by decide), row 3 (by decide)]
  decide

end Viewer
end Roomscape
