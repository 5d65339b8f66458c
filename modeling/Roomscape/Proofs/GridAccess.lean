import Mathlib.Logic.ExistsUnique
import Roomscape.Proofs.GridPixels

/-! How the ways into a grid agree. Its positions are numbered without a gap, a pixel that is read in one way
is the same in every other, and a write changes what it is a write of and nothing else. -/
namespace Roomscape.Grid

variable {α : Type} (g : Grid α)

section Numbers

theorem offset?_eq_some_iff {x y i : Nat} :
    g.offset? x y = some i ↔ (x < g.width ∧ y < g.height) ∧ y * g.width + x = i := by
  unfold offset?
  split <;> simp [*]

/-- The positions of a grid are numbered from 0, each with a number of its own. -/
structure Numbered : Prop where
  inside : ∀ x y, (g.offset? x y).isSome ↔ x < g.width ∧ y < g.height
  within : ∀ x y i, g.offset? x y = some i → i < g.len
  once : ∀ i < g.len, ∃! p : Nat × Nat, g.offset? p.1 p.2 = some i

theorem numbered : g.Numbered where
  inside := by
    intro x y
    simp [offset?]
  within := by
    intro x y i found
    obtain ⟨⟨hx, hy⟩, rfl⟩ := g.offset?_eq_some_iff.mp found
    exact g.position_bound hx hy
  once := by
    intro i bound
    rw [len, g.size_pixels] at bound
    have some : 0 < g.width := Nat.pos_of_lt_mul_right bound
    have hx : i % g.width < g.width := Nat.mod_lt i some
    have hy : i / g.width < g.height := Nat.div_lt_of_lt_mul bound
    have place : i / g.width * g.width + i % g.width = i := Nat.div_add_mod' ..
    refine ⟨(i % g.width, i / g.width), g.offset?_eq_some_iff.mpr ⟨⟨hx, hy⟩, place⟩, ?_⟩
    rintro ⟨x, y⟩ found
    obtain ⟨⟨hx', _⟩, same⟩ := g.offset?_eq_some_iff.mp found
    obtain ⟨rfl, rfl⟩ := position_injective hx hx' (same.trans place.symm)
    rfl

end Numbers

section Rows

theorem toList_row? {y : Nat} (hy : y < g.height) :
    ((g.row? y).getD #[]).toList = (g.pixels.toList.drop (y * g.width)).take g.width := by
  simp [row?, hy, List.take_drop]

/-- The first rows end to end are the front of the buffer. -/
theorem rows_upto {n : Nat} (high : n ≤ g.height) :
    ((List.range n).flatMap fun y => ((g.row? y).getD #[]).toList) =
      g.pixels.toList.take (n * g.width) := by
  induction n with
  | zero => simp
  | succ n ih =>
    rw [List.range_succ, List.flatMap_append, ih (by omega), Nat.succ_mul, List.take_add]
    simp [g.toList_row? high]

/-- A pixel is read in three ways: at its position, in its row, and in the buffer. -/
structure ReadsAlike : Prop where
  inside : ∀ x y, x < g.width → y < g.height → ∃ row value,
    g.get? x y = some value ∧ g.row? y = some row ∧ row[x]? = some value ∧
      g.pixels[y * g.width + x]? = some value
  outside : ∀ x y, ¬ (x < g.width ∧ y < g.height) → g.get? x y = none
  row : ∀ y, y < g.height → ∃ row, g.row? y = some row ∧ row.size = g.width
  no_row : ∀ y, g.height ≤ y → g.row? y = none
  signed : ∀ x y : Nat, g.at? x y = g.get? x y
  negative : ∀ x y : Int, x < 0 ∨ y < 0 → g.at? x y = none
  rows : ((List.range g.height).flatMap fun y => ((g.row? y).getD #[]).toList) = g.pixels.toList

theorem readsAlike : g.ReadsAlike where
  inside := by
    intro x y hx hy
    obtain ⟨value, read⟩ := g.get?_eq_some hx hy
    obtain ⟨row, found, _, pixels⟩ := g.row?_eq_some hy
    exact ⟨row, value, read, found, (pixels x).trans read, (g.get?_inside hx hy).symm.trans read⟩
  outside := fun _ _ => g.get?_outside
  row := by
    intro y hy
    obtain ⟨row, found, size, _⟩ := g.row?_eq_some hy
    exact ⟨row, found, size⟩
  no_row := by
    intro y past
    simp [row?, past]
  signed := fun _ _ => rfl
  negative := by
    intro x y negative
    exact g.at?_eq_none (by omega)
  rows := by
    have whole : g.pixels.toList.length ≤ g.height * g.width := by
      simp [g.size_pixels, Nat.mul_comm]
    rw [g.rows_upto (Nat.le_refl _), List.take_of_length_le whole]

end Rows

section Writes

theorem set?_eq_ite (x y : Nat) (value : α) :
    g.set? x y value = if x < g.width ∧ y < g.height then some (g.put x y value) else none := by
  unfold set? offset? put
  split <;> simp [*]

/-- Whose row a place in the buffer is in. -/
theorem in_row_iff {width x y j : Nat} (hx : x < width) :
    (y * width ≤ j * width + x ∧ j * width + x < y * width + width) ↔ j = y := by
  constructor
  · rintro ⟨low, high⟩
    rcases Nat.lt_trichotomy j y with above | same | below
    · have rows := Nat.mul_le_mul_right width (Nat.succ_le_of_lt above)
      rw [Nat.succ_mul] at rows
      omega
    · exact same
    · have rows := Nat.mul_le_mul_right width (Nat.succ_le_of_lt below)
      rw [Nat.succ_mul] at rows
      omega
  · rintro rfl
    omega

theorem get?_updateRow {y : Nat} {f : Nat → α → α} {t : Grid α} (done : g.updateRow? y f = some t) :
    t.width = g.width ∧ t.height = g.height ∧
      ∀ i j, t.get? i j = if j = y then (g.get? i j).map (f i) else g.get? i j := by
  unfold updateRow? at done
  split at done
  · cases done
    refine ⟨rfl, rfl, fun i j => ?_⟩
    simp only [get?_eq_ite, Array.getElem?_mapIdx]
    by_cases inside : i < g.width ∧ j < g.height
    · simp only [inside, and_self, if_true, in_row_iff inside.1]
      by_cases same : j = y
      · simp [same]
      · simp [same]
    · simp [inside]
  · cases done

/-- A write changes what it is a write of, and nothing else. -/
structure WritesApart : Prop where
  set_inside : ∀ x y value, (g.set? x y value).isSome ↔ x < g.width ∧ y < g.height
  set_only : ∀ x y value t, g.set? x y value = some t → t.width = g.width ∧ t.height = g.height ∧
    ∀ i j, t.get? i j = if (i, j) = (x, y) then some value else g.get? i j
  row_inside : ∀ y f, (g.updateRow? y f).isSome ↔ y < g.height
  row_only : ∀ y f t, g.updateRow? y f = some t → t.width = g.width ∧ t.height = g.height ∧
    ∀ i j, t.get? i j = if j = y then (g.get? i j).map (f i) else g.get? i j

theorem writesApart : g.WritesApart where
  set_inside := by simp [set?_eq_ite]
  set_only := by
    intro x y value t done
    rw [set?_eq_ite] at done
    split at done
    · rename_i inside
      cases done
      refine ⟨rfl, rfl, fun i j => ?_⟩
      rw [get?_put]
      by_cases same : (i, j) = (x, y)
      · cases same
        simp [inside]
      · simp [same, Ne.symm same]
    · cases done
  row_inside := by simp [updateRow?]
  row_only := fun _ _ _ => g.get?_updateRow

end Writes

end Roomscape.Grid
