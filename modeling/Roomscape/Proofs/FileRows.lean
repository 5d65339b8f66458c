import Roomscape.PixelFile
import Roomscape.Proofs.GridPixels
import Roomscape.Proofs.Stream

/-! The rows of a photo or image file, read one after the other into the grid. The first row in the file
is the lowest one, so what is read first ends up furthest down. -/
namespace Roomscape

namespace PixelCode

variable {α : Type} (code : PixelCode α)

/-- The pixel whose bytes start at a position. -/
def pixelAt (bytes : List UInt8) (start : Nat) : α :=
  code.decode (Vector.ofFn fun k => bytes.getD (start + k.val) 0)

theorem pixelAt_drop (bytes : List UInt8) (skip start : Nat) :
    code.pixelAt (bytes.drop skip) start = code.pixelAt bytes (skip + start) := by
  simp only [pixelAt, List.getD_eq_getElem?_getD, List.getElem?_drop, Nat.add_assoc]

theorem pixelAt_take (bytes : List UInt8) {start size : Nat} (inside : start + code.bytes ≤ size) :
    code.pixelAt (bytes.take size) start = code.pixelAt bytes start := by
  unfold pixelAt
  congr 2
  funext k
  have bound := k.isLt
  rw [List.getD_eq_getElem?_getD, List.getElem?_take_of_lt (by omega), ← List.getD_eq_getElem?_getD]

/-- Where the bytes of pixel `(x, y)` start among the rows `0` to `height - 1`, the last one first. -/
def position (width height x y : Nat) : Nat := code.bytes * ((height - 1 - y) * width + x)

theorem position_first (width x y : Nat) : code.position width (y + 1) x y = code.bytes * x := by
  rw [position, Nat.add_sub_cancel, Nat.sub_self, Nat.zero_mul, Nat.zero_add]

theorem position_later {width x y height : Nat} (below : y < height) :
    code.position width (height + 1) x y = width * code.bytes + code.position width height x y := by
  have rows : height + 1 - 1 - y = height - 1 - y + 1 := by omega
  rw [position, position, rows, Nat.add_one_mul, Nat.mul_comm width, ← Nat.mul_add]
  congr 1
  omega

end PixelCode

namespace PixelFile

variable {α : Type} (code : PixelCode α)

theorem size_decodeRow (width : Nat) (bytes : Array UInt8) :
    (decodeRow code width bytes).size = width :=
  Array.size_ofFn

theorem getElem?_decodeRow {width x : Nat} (inside : x < width) (bytes : List UInt8) :
    (decodeRow code width bytes.toArray)[x]? = some (code.pixelAt bytes (code.bytes * x)) := by
  simp [decodeRow, inside, PixelCode.pixelAt, Nat.mul_comm]

variable {code} {h : Header}

theorem get?_writeRow_decodeRow {grid : Grid α} {y : Nat} (bytes : List UInt8) {i j : Nat}
    (hi : i < grid.width) (hj : j < grid.height) :
    (grid.writeRow y (decodeRow code grid.width bytes.toArray)).get? i j =
      if j = y then some (code.pixelAt bytes (code.bytes * i)) else grid.get? i j := by
  rw [grid.get?_writeRow (size_decodeRow code grid.width _) hi hj, getElem?_decodeRow code hi]

/-- With enough bytes left, every row above is read from its own bytes and the others stay. -/
theorem rowsAbove_met {y : Nat} {grid : Grid α} {s : Source} (width : grid.width = h.width.toNat)
    (height : y ≤ grid.height) (enough : y * (h.width.toNat * code.bytes) ≤ s.unread.length) :
    ∃ g t, rowsAbove code h y grid s = .ok g t ∧
      s.Advanced (y * (h.width.toNat * code.bytes)) t ∧
      g.width = grid.width ∧ g.height = grid.height ∧
      ∀ i j, i < grid.width → j < grid.height → g.get? i j =
        if j < y then
          some (code.pixelAt s.unread (code.position grid.width y i j))
        else grid.get? i j := by
  induction y generalizing grid s with
  | zero =>
    refine ⟨grid, s, rfl, ?_, rfl, rfl, ?_⟩
    · rw [Nat.zero_mul]
      exact .zero s
    · intro i j _ _
      rw [if_neg (Nat.not_lt_zero j)]
  | succ y ih =>
    rw [Nat.add_one_mul] at enough
    obtain ⟨t, row, first⟩ := Decoder.exactly_met
      (.malformed none (.shortRow y h.width.toNat h.height.toNat))
      (show h.width.toNat * code.bytes ≤ s.unread.length by omega)
    have left : y * (h.width.toNat * code.bytes) ≤ t.unread.length := by
      rw [first.unread, List.length_drop]
      omega
    let next := grid.writeRow y
      (decodeRow code h.width.toNat (s.unread.take (h.width.toNat * code.bytes)).toArray)
    have next_width : next.width = grid.width := Grid.width_writeRow ..
    have next_height : next.height = grid.height := Grid.height_writeRow ..
    obtain ⟨g, u, run, rest, g_width, g_height, pixels⟩ := ih (next_width.trans width)
      (by omega) left
    refine ⟨g, u, ?_, ?_, g_width.trans next_width, g_height.trans next_height, ?_⟩
    · exact (Decoder.bind_ok row).trans run
    · rw [Nat.add_one_mul, Nat.add_comm]
      exact first.add rest
    · intro i j hi hj
      have row_i : next.get? i j = if j = y then
          some (code.pixelAt (s.unread.take (h.width.toNat * code.bytes)) (code.bytes * i))
          else grid.get? i j := by
        rw [← get?_writeRow_decodeRow _ hi hj, width]
      rw [pixels i j (next_width ▸ hi) (next_height ▸ hj), row_i, next_width]
      -- The rows above were read later, row `y` just now, and those below it were there before.
      rcases Nat.lt_trichotomy j y with above | rfl | below
      · rw [if_pos above, if_pos (by omega), first.unread, code.pixelAt_drop,
          code.position_later above, width]
      · have inside : code.bytes * i + code.bytes ≤ h.width.toNat * code.bytes := by
          rw [← width, Nat.mul_comm grid.width, ← Nat.mul_add_one]
          exact Nat.mul_le_mul_left _ hi
        rw [if_neg (Nat.lt_irrefl j), if_pos rfl, if_pos (Nat.lt_succ_self j),
          code.pixelAt_take _ inside, code.position_first]
      · rw [if_neg (by omega), if_neg (by omega), if_neg (by omega)]

/-- Where the bytes run out, the fault names the row they ran out in. -/
theorem rowsAbove_short {y : Nat} (grid : Grid α) {s : Source}
    (few : s.unread.length < y * (h.width.toNat * code.bytes)) :
    ∃ t, rowsAbove code h y grid s = .error (s.shortfall (.malformed none (.shortRow
        (y - 1 - s.unread.length / (h.width.toNat * code.bytes)) h.width.toNat h.height.toNat))) t ∧
      t.taken = s.taken + s.unread.length := by
  induction y generalizing grid s with
  | zero => simp at few
  | succ y ih =>
    rw [Nat.add_one_mul] at few
    -- Either this row is the one cut off, or the bytes behind it run out further up.
    rcases Nat.lt_or_ge s.unread.length (h.width.toNat * code.bytes) with here | later
    · obtain ⟨t, run, taken⟩ := Decoder.exactly_short
        (.malformed none (.shortRow y h.width.toNat h.height.toNat)) here
      refine ⟨t, ?_, taken⟩
      rw [Nat.div_eq_of_lt here]
      exact Decoder.bind_error run
    · obtain ⟨t, row, first⟩ := Decoder.exactly_met
        (.malformed none (.shortRow y h.width.toNat h.height.toNat)) later
      have left : t.unread.length = s.unread.length - h.width.toNat * code.bytes := by
        rw [first.unread, List.length_drop]
      let next := grid.writeRow y
        (decodeRow code h.width.toNat (s.unread.take (h.width.toNat * code.bytes)).toArray)
      obtain ⟨u, run, taken⟩ := ih next (s := t) (by omega)
      refine ⟨u, ?_, ?_⟩
      · rw [first.shortfall, left] at run
        have positive : 0 < h.width.toNat * code.bytes := by
          rcases Nat.eq_zero_or_pos (h.width.toNat * code.bytes) with zero | positive
          · simp [zero] at few later
          · exact positive
        have number : y + 1 - 1 - s.unread.length / (h.width.toNat * code.bytes) =
            y - 1 - (s.unread.length - h.width.toNat * code.bytes) / (h.width.toNat * code.bytes) := by
          rw [Nat.div_eq_sub_div positive later]
          omega
        rw [number]
        exact (Decoder.bind_ok row).trans run
      · rw [taken, first.taken]
        omega

end PixelFile
end Roomscape
