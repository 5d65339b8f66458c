import Roomscape.Proofs.Window

/-! The two scan orders against each other. Inside the coordinate range both read every pixel of a
window from the same map position. Past the end of the range a line still goes on to the next position,
but the start of the next line stays where it is; so the orders agree on exactly the windows that end
inside the range, and a sprite at its end tells them apart on the others. -/
namespace Roomscape

/-- A line of `count` positions from `start` ends inside the coordinate range, and its positions are
counted without being cut to 32 bits. -/
def InRange (start : Int32) (count : Nat) : Prop :=
  count ≤ coordinateEnd ∧ start.toInt + count ≤ coordinateEnd

section Advance

variable {start : Int32} {n : Nat}

theorem InRange.of_le {count : Nat} (range : InRange start count) (small : n ≤ count) :
    InRange start n := by
  obtain ⟨counted, inside⟩ := range
  constructor <;> omega

/-- The start of a line is the sum of the two numbers, cut to the coordinate range. -/
theorem toInt_advance_eq_clamp (start : Int32) (n : Nat) :
    (advance start n).toInt =
      max (-(coordinateEnd : Int))
        (min ((coordinateEnd : Int) - 1) (start.toInt + (Int32.ofNat n).toInt)) := by
  rw [advance, Int32.toInt_ofInt_of_le]
  · rfl
  · simp only [Int32.toInt_minValue, Int32.toInt_maxValue]
    omega
  · simp only [Int32.toInt_minValue, Int32.toInt_maxValue]
    omega

/-- The start of line `n` is `n` positions on exactly if those positions are inside the range. -/
theorem toInt_advance_iff : (advance start n).toInt = start.toInt + n ↔ InRange start (n + 1) := by
  constructor
  · intro plain
    have low := start.le_toInt
    have clamp := toInt_advance_eq_clamp start n
    rw [Int32.toInt_ofNat', Int.bmod_def] at clamp
    simp only [Int32.size, coordinateEnd] at clamp
    constructor
    · -- From 2^31 to 2^32 the count reads as a negative number, and the sum stops at the low end.
      simp only [coordinateEnd]
      split at clamp <;> omega
    · simp only [coordinateEnd]
      omega
  · rintro ⟨counted, inside⟩
    exact toInt_advance (by omega) (by omega)

end Advance

/-- Both scan orders read a pixel inside the coordinate range from its own map position. -/
theorem ScanOrder.spot_inRange (order : ScanOrder) {x y : Int32} {col row : Nat}
    (hcol : InRange x (col + 1)) (hrow : InRange y (row + 1)) :
    order.spot x y col row = (x.toInt + col, y.toInt + row) := by
  cases order with
  | rows => rw [spot, toInt_advance_iff.mpr hrow]
  | columns => rw [spot, toInt_advance_iff.mpr hcol]

section Dot

/-- A sprite of one pixel. -/
def Placement.dot (x y : Int32) : Placement :=
  ⟨x, y, ⟨⟨1, 1⟩, ⟨1, 1, #[5], rfl, Grid.area_dot⟩, rfl, rfl⟩⟩

def Photo.empty : Photo :=
  let nothing : Grid UInt8 := ⟨0, 0, #[], Array.size_empty, by decide⟩
  ⟨⟨0, 0⟩, .black, nothing, nothing, ⟨rfl, rfl⟩, ⟨rfl, rfl⟩, by simp [nothing]⟩

/-- A map that shows nothing but one pixel. -/
def Viewer.beacon (x y : Int32) : Viewer := ⟨some ⟨"beacon", .empty, [.dot x y]⟩, 0⟩

variable {x y : Int32} {spot : Int × Int}

theorem Placement.shown?_dot :
    (dot x y).shown? spot = if spot = (x.toInt, y.toInt) then some 5 else none := by
  split
  case isTrue here =>
    subst here
    simp [shown?, dot, Grid.at?_eq_ite, Grid.get?, Grid.offset?, Option.filter_some]
  case isFalse elsewhere =>
    apply shown?_outside
    intro inside
    apply elsewhere
    apply Prod.ext <;> simp only [dot] at inside ⊢ <;> omega

theorem Photo.at?_empty (x y : Int) : empty.indices.at? x y = none :=
  Grid.at?_eq_none _ (by simp only [empty]; omega)

/-- The pixel is seen at its own position only. -/
theorem Viewer.sceneByte_beacon_iff :
    (beacon x y).sceneByte spot = 5 ↔ spot = (x.toInt, y.toInt) := by
  simp only [beacon, sceneByte, Room.sceneByte, Room.sprite?, List.reverse_singleton,
    List.findSome?_singleton, Placement.shown?_dot, Photo.at?_empty, Room.shade]
  split <;> simp [*, backdrop]

end Dot

namespace Viewer

section Made

variable {v : Viewer} {x y : Int32} {width height : Nat} {frame : Grid UInt8}

theorem window_area {order : ScanOrder} (made : v.window x y width height order = .ok frame) :
    width * height ≤ largestBuffer := by
  refine Nat.le_of_not_lt fun large => ?_
  obtain ⟨shortage, refused⟩ := v.window_exhausted x y width height large
  cases made.symm.trans (refused order)

/-- Columns need a buffer as high as the window. -/
theorem window_tall (made : v.window x y width height .columns = .ok frame) :
    height ≤ largestBuffer := by
  refine Nat.le_of_not_lt fun large => ?_
  obtain ⟨_, broken⟩ := v.window_unbounded x y width height (window_area made) large
  cases made.symm.trans broken

/-- A window that was made has its size, and shows at every pixel the position its order reads. -/
theorem window_of_ok {order : ScanOrder} (tall : height ≤ largestBuffer)
    (made : v.window x y width height order = .ok frame) :
    frame.width = width ∧ frame.height = height ∧
      ∀ col row, col < width → row < height →
        frame.get? col row = some (v.sceneByte (order.spot x y col row)) := by
  obtain ⟨other, same, shown⟩ := v.window_eq_ok x y order (window_area made) tall
  cases made.symm.trans same
  exact shown

end Made

section Orders

variable {x y : Int32} {width height : Nat}

/-- The two orders make the same window of every map, wherever both make one. -/
def OrdersAgree (x y : Int32) (width height : Nat) : Prop :=
  ∀ v byRows byColumns, window v x y width height .rows = .ok byRows →
    window v x y width height .columns = .ok byColumns → byRows = byColumns

/-- Inside the coordinate range both orders show the pixel's own position. -/
theorem same_pixel_inside {v : Viewer} {byRows byColumns : Grid UInt8}
    (rows : v.window x y width height .rows = .ok byRows)
    (columns : v.window x y width height .columns = .ok byColumns) {col row : Nat}
    (hcol : InRange x (col + 1)) (hrow : InRange y (row + 1)) :
    byRows.get? col row = byColumns.get? col row := by
  have tall := window_tall columns
  obtain ⟨width_rows, height_rows, shown⟩ := window_of_ok tall rows
  obtain ⟨width_columns, height_columns, shown'⟩ := window_of_ok tall columns
  by_cases inside : col < width ∧ row < height
  · rw [shown col row inside.1 inside.2, shown' col row inside.1 inside.2,
      ScanOrder.spot_inRange _ hcol hrow, ScanOrder.spot_inRange _ hcol hrow]
  · rw [byRows.get?_outside (by rwa [width_rows, height_rows]),
      byColumns.get?_outside (by rwa [width_columns, height_columns])]

/-- Orders that read every pixel from one position agree. -/
theorem agree_of_spots (same : ∀ col row, col < width → row < height →
    ScanOrder.rows.spot x y col row = ScanOrder.columns.spot x y col row) :
    OrdersAgree x y width height := by
  intro v byRows byColumns rows columns
  have tall := window_tall columns
  obtain ⟨rfl, rfl, shown⟩ := window_of_ok tall rows
  obtain ⟨width, height, shown'⟩ := window_of_ok tall columns
  apply Grid.ext_get? width.symm height.symm
  intro col row hcol hrow
  rw [shown col row hcol hrow, shown' col row hcol hrow, same col row hcol hrow]

theorem agree_of_inRange (right : InRange x width) (bottom : InRange y height) :
    OrdersAgree x y width height := by
  apply agree_of_spots
  intro col row hcol hrow
  have range : InRange x (col + 1) ∧ InRange y (row + 1) := ⟨right.of_le hcol, bottom.of_le hrow⟩
  rw [ScanOrder.spot_inRange _ range.1 range.2, ScanOrder.spot_inRange _ range.1 range.2]

theorem agree_of_no_pixels (none : width = 0 ∨ height = 0) : OrdersAgree x y width height := by
  apply agree_of_spots
  omega

theorem agree_of_oversize (large : largestBuffer < width * height ∨ largestBuffer < height) :
    OrdersAgree x y width height := by
  intro v byRows byColumns _ columns
  have area := window_area columns
  have tall := window_tall columns
  omega

/-- Orders that agree read a pixel from one position, as far as a beacon can stand there. -/
theorem OrdersAgree.spot_iff (agree : OrdersAgree x y width height)
    (area : width * height ≤ largestBuffer) (tall : height ≤ largestBuffer) {col row : Nat}
    (hcol : col < width) (hrow : row < height) (spotX spotY : Int32) :
    ScanOrder.rows.spot x y col row = (spotX.toInt, spotY.toInt) ↔
      ScanOrder.columns.spot x y col row = (spotX.toInt, spotY.toInt) := by
  obtain ⟨byRows, rows, _, _, shown⟩ := (beacon spotX spotY).window_eq_ok x y .rows area tall
  obtain ⟨byColumns, columns, _, _, shown'⟩ :=
    (beacon spotX spotY).window_eq_ok x y .columns area tall
  have same := agree _ _ _ rows columns
  subst same
  -- The beacon shows in the window at this pixel in both orders or in neither.
  have pixel := (shown col row hcol hrow).symm.trans (shown' col row hcol hrow)
  rw [← sceneByte_beacon_iff, ← sceneByte_beacon_iff, Option.some.inj pixel]

/-- Orders that agree on a window with pixels keep it inside the coordinate range. -/
theorem OrdersAgree.inRange (agree : OrdersAgree x y width height)
    (area : width * height ≤ largestBuffer) (tall : height ≤ largestBuffer) (wide : 0 < width)
    (high : 0 < height) : InRange x width ∧ InRange y height := by
  constructor
  · -- The last pixel of the first row, and a beacon where columns read it.
    have last := (agree.spot_iff area tall (Nat.sub_one_lt_of_lt wide) high
      (advance x (width - 1)) y).mpr (by simp [ScanOrder.spot])
    have range := toInt_advance_iff.mp (congrArg Prod.fst last).symm
    rwa [Nat.sub_add_cancel wide] at range
  · -- The last pixel of the first column, and a beacon where rows read it.
    have last := (agree.spot_iff area tall wide (Nat.sub_one_lt_of_lt high)
      x (advance y (height - 1))).mp (by simp [ScanOrder.spot])
    have range := toInt_advance_iff.mp (congrArg Prod.snd last).symm
    rwa [Nat.sub_add_cancel high] at range

/-- The two orders make windows of one size that agree on every pixel inside the coordinate range. They
make the same window of every map exactly when it ends inside the range, or has no pixels, or is too
large to be made in both orders. -/
theorem scan_orders_agree_iff (x y : Int32) (width height : Nat) :
    (∀ v byRows byColumns, window v x y width height .rows = .ok byRows →
      window v x y width height .columns = .ok byColumns →
      (byRows.width = width ∧ byRows.height = height) ∧
      (byColumns.width = width ∧ byColumns.height = height) ∧
      ∀ col row, InRange x (col + 1) → InRange y (row + 1) →
        byRows.get? col row = byColumns.get? col row) ∧
    (OrdersAgree x y width height ↔
      InRange x width ∧ InRange y height ∨ width = 0 ∨ height = 0 ∨
        largestBuffer < width * height ∨ largestBuffer < height) := by
  constructor
  · intro v byRows byColumns rows columns
    have tall := window_tall columns
    obtain ⟨width_rows, height_rows, _⟩ := window_of_ok tall rows
    obtain ⟨width_columns, height_columns, _⟩ := window_of_ok tall columns
    exact ⟨⟨width_rows, height_rows⟩, ⟨width_columns, height_columns⟩,
      fun _ _ hcol hrow => same_pixel_inside rows columns hcol hrow⟩
  constructor
  · intro agree
    by_cases made : width * height ≤ largestBuffer ∧ height ≤ largestBuffer
    · by_cases pixels : 0 < width ∧ 0 < height
      · exact .inl (agree.inRange made.1 made.2 pixels.1 pixels.2)
      · omega
    · omega
  · rintro (⟨right, bottom⟩ | none | none | large | large)
    · exact agree_of_inRange right bottom
    · exact agree_of_no_pixels (.inl none)
    · exact agree_of_no_pixels (.inr none)
    · exact agree_of_oversize (.inl large)
    · exact agree_of_oversize (.inr large)

/-- A sprite of two pixels, the second of them past the last coordinate. -/
def pier : Viewer :=
  ⟨some ⟨"pier", .empty,
    [⟨0x7fffffff, 0, ⟨⟨2, 1⟩, ⟨2, 1, #[5, 6], rfl, Grid.area_pair⟩, rfl, rfl⟩⟩]⟩, 0⟩

/-- At the end of the coordinate range rows show both pixels of the sprite and columns the first one
twice. -/
theorem scan_orders_part_at_end :
    ∃ byRows byColumns, pier.window 0x7fffffff 0 2 1 .rows = .ok byRows ∧
      pier.window 0x7fffffff 0 2 1 .columns = .ok byColumns ∧
      (byRows.get? 0 0 = some 5 ∧ byRows.get? 1 0 = some 6) ∧
      (byColumns.get? 0 0 = some 5 ∧ byColumns.get? 1 0 = some 5) ∧ byRows ≠ byColumns := by
  obtain ⟨byRows, rows, _, _, shown⟩ :=
    pier.window_eq_ok 0x7fffffff 0 .rows (show 2 * 1 ≤ largestBuffer by decide) (by decide)
  obtain ⟨byColumns, columns, _, _, shown'⟩ :=
    pier.window_eq_ok 0x7fffffff 0 .columns (show 2 * 1 ≤ largestBuffer by decide) (by decide)
  have second : byRows.get? 1 0 = some 6 := (shown 1 0 (by decide) (by decide)).trans (by decide)
  have second' : byColumns.get? 1 0 = some 5 :=
    (shown' 1 0 (by decide) (by decide)).trans (by decide)
  refine ⟨byRows, byColumns, rows, columns, ⟨?_, second⟩, ⟨?_, second'⟩, ?_⟩
  · exact (shown 0 0 (by decide) (by decide)).trans (by decide)
  · exact (shown' 0 0 (by decide) (by decide)).trans (by decide)
  · intro same
    rw [same, second'] at second
    exact absurd second (by decide)

end Orders

end Viewer
end Roomscape
