import Roomscape.Grid

/-! Pixels of a grid by their coordinates. Every operation is described by what `get?` answers after
it, so that positions in the buffer appear in this module only. -/
namespace Roomscape

section Stretches

variable {α β : Type} {stretch : α → List β} {size : Nat} {items : List α}

/-- Stretches of one length stand end to end at the multiples of it. -/
theorem getElem?_flatMap_of_length (even : ∀ a ∈ items, (stretch a).length = size) (i : Nat) {k : Nat}
    (inside : k < size) : (items.flatMap stretch)[size * i + k]? = items[i]?.bind fun a => (stretch a)[k]? := by
  induction items generalizing i with
  | nil => simp
  | cons a rest ih =>
    have first := even a List.mem_cons_self
    rw [List.flatMap_cons]
    cases i with
    | zero =>
      rw [List.getElem?_append_left (by rw [first]; omega)]
      simp
    | succ i =>
      have past : size * (i + 1) + k = size + (size * i + k) := by rw [Nat.mul_add_one]; omega
      rw [past, ← first, List.getElem?_append_right (Nat.le_add_right ..), Nat.add_sub_cancel_left, first,
        ih fun b member => even b (List.mem_cons_of_mem _ member), List.getElem?_cons_succ]

theorem length_flatMap_of_length (even : ∀ a ∈ items, (stretch a).length = size) :
    (items.flatMap stretch).length = items.length * size := by
  rw [List.length_flatMap, List.map_congr_left even, List.map_const', List.sum_replicate_nat]

end Stretches

namespace Grid

variable {α β : Type} (g : Grid α)

/-- A position in the buffer determines the coordinates. -/
theorem position_injective {width x y i j : Nat} (hx : x < width) (hi : i < width)
    (same : j * width + i = y * width + x) : i = x ∧ j = y := by
  have rows : j = y := by
    have quotients := congrArg (· / width) same
    simpa [Nat.mul_comm _ width, Nat.mul_add_div (Nat.zero_lt_of_lt hx), Nat.div_eq_of_lt hx,
      Nat.div_eq_of_lt hi] using quotients
  subst rows
  exact ⟨by omega, rfl⟩

theorem position_bound {x y : Nat} (hx : x < g.width) (hy : y < g.height) :
    y * g.width + x < g.pixels.size :=
  g.position_lt ⟨x, hx⟩ ⟨y, hy⟩

theorem get?_eq_ite (x y : Nat) :
    g.get? x y = if x < g.width ∧ y < g.height then g.pixels[y * g.width + x]? else none := by
  unfold get? offset?
  split <;> rfl

theorem get?_inside {x y : Nat} (hx : x < g.width) (hy : y < g.height) :
    g.get? x y = g.pixels[y * g.width + x]? := by
  rw [get?_eq_ite, if_pos ⟨hx, hy⟩]

theorem get?_outside {x y : Nat} (h : ¬ (x < g.width ∧ y < g.height)) : g.get? x y = none := by
  rw [get?_eq_ite, if_neg h]

theorem get?_isSome_iff {x y : Nat} : (g.get? x y).isSome ↔ x < g.width ∧ y < g.height := by
  by_cases inside : x < g.width ∧ y < g.height
  · rw [g.get?_inside inside.1 inside.2]
    simpa [inside] using g.position_bound inside.1 inside.2
  · simp [g.get?_outside inside, inside]

theorem get?_eq_some {x y : Nat} (hx : x < g.width) (hy : y < g.height) :
    ∃ value, g.get? x y = some value :=
  Option.isSome_iff_exists.mp (g.get?_isSome_iff.mpr ⟨hx, hy⟩)

/-- A grid is its shape and the answers of `get?`. -/
theorem ext_get? {g h : Grid α} (width : g.width = h.width) (height : g.height = h.height)
    (same : ∀ x y, x < g.width → y < g.height → g.get? x y = h.get? x y) : g = h := by
  have pixels : g.pixels = h.pixels := by
    apply Array.ext_getElem?
    intro i
    by_cases hi : i < g.width * g.height
    · have positive : 0 < g.width := by
        rcases Nat.eq_zero_or_pos g.width with zero | positive
        · simp [zero] at hi
        · exact positive
      have hx : i % g.width < g.width := Nat.mod_lt _ positive
      have hy : i / g.width < g.height := Nat.div_lt_of_lt_mul hi
      have at_i := same _ _ hx hy
      rw [g.get?_inside hx hy, h.get?_inside (width ▸ hx) (height ▸ hy), ← width] at at_i
      simpa only [Nat.div_add_mod'] using at_i
    · have left : g.pixels.size ≤ i := by rw [g.size_pixels]; omega
      have right : h.pixels.size ≤ i := by rw [h.size_pixels, ← width, ← height]; omega
      simp [left, right]
  cases g
  cases h
  simp_all

theorem map_map {γ : Type} (f : α → β) (h : β → γ) : (g.map f).map h = g.map fun a => h (f a) := by
  simp [map, Function.comp_def]

theorem map_congr {g : Grid α} {f h : α → β} (same : ∀ a ∈ g.pixels, f a = h a) :
    g.map f = g.map h := by
  simp [map, Array.map_congr_left same]

theorem get?_map (f : α → β) (x y : Nat) : (g.map f).get? x y = (g.get? x y).map f := by
  simp only [get?_eq_ite, map]
  split <;> simp

theorem get?_ofFn {width height : Nat} (area : width * height < addressSpace) (f : Nat → Nat → α)
    (x y : Nat) :
    (ofFn width height area f).get? x y = if x < width ∧ y < height then some (f x y) else none := by
  by_cases inside : x < width ∧ y < height
  · have bound := (ofFn width height area f).position_bound inside.1 inside.2
    have column : (y * width + x) % width = x := by
      rw [Nat.mul_add_mod_self_right, Nat.mod_eq_of_lt inside.1]
    have row : (y * width + x) / width = y := by
      rw [Nat.mul_comm, Nat.mul_add_div (Nat.zero_lt_of_lt inside.1), Nat.div_eq_of_lt inside.1,
        Nat.add_zero]
    rw [if_pos inside, (ofFn width height area f).get?_inside inside.1 inside.2,
      Array.getElem?_eq_getElem bound]
    simp only [ofFn, Array.getElem_ofFn, column, row]
  · rw [if_neg inside]
    exact get?_outside _ inside

theorem filled_eq_ok (value : α) {width height pixelBytes : Nat} (some : 0 < pixelBytes)
    (room : width * height * pixelBytes ≤ largestBuffer) :
    ∃ g, filled width height value pixelBytes = .ok g := by
  have area : width * height ≤ width * height * pixelBytes := Nat.le_mul_of_pos_right _ some
  have counted : ¬ addressSpace ≤ width * height := by
    simp only [addressSpace, largestBuffer, UInt64.size] at room ⊢
    omega
  exact ⟨_, by rw [filled, dif_neg counted, if_neg (Nat.not_lt.mpr room)]⟩

theorem filled_exhausted (value : α) {width height : Nat} (large : largestBuffer < width * height) :
    ∃ shortage, filled width height value 1 = .error (.exhausted shortage) := by
  unfold filled
  split
  · exact ⟨_, rfl⟩
  · exact ⟨_, if_pos (by omega)⟩

theorem get?_filled {width height : Nat} {value : α} {pixelBytes : Nat} {g : Grid α}
    (made : filled width height value pixelBytes = .ok g) :
    g.width = width ∧ g.height = height ∧
      ∀ x y, x < width → y < height → g.get? x y = some value := by
  have parts : g.width = width ∧ g.height = height ∧
      g.pixels = Array.replicate (width * height) value := by
    unfold filled at made
    split at made
    · cases made
    split at made
    · cases made
    cases made
    exact ⟨rfl, rfl, rfl⟩
  obtain ⟨rfl, rfl, pixels⟩ := parts
  refine ⟨rfl, rfl, ?_⟩
  intro x y hx hy
  have bound := g.position_bound hx hy
  rw [g.size_pixels] at bound
  rw [g.get?_inside hx hy, pixels, Array.getElem?_replicate, if_pos bound]

section Writing

@[simp] theorem width_put (x y : Nat) (value : α) : (g.put x y value).width = g.width := rfl
@[simp] theorem height_put (x y : Nat) (value : α) : (g.put x y value).height = g.height := rfl

theorem get?_put (x y : Nat) (value : α) (i j : Nat) :
    (g.put x y value).get? i j =
      if (x, y) = (i, j) ∧ i < g.width ∧ j < g.height then some value else g.get? i j := by
  by_cases inside : i < g.width ∧ j < g.height
  · rw [get?_inside (g.put x y value) inside.1 inside.2, g.get?_inside inside.1 inside.2]
    by_cases target : x < g.width ∧ y < g.height
    · by_cases same : (x, y) = (i, j)
      · cases same
        simp [put, inside, g.position_bound inside.1 inside.2]
      · have apart : y * g.width + x ≠ j * g.width + i := by
          intro h
          obtain ⟨rfl, rfl⟩ := position_injective inside.1 target.1 h
          exact same rfl
        rw [if_neg (by simp [same])]
        simp [put, target, apart]
    · have apart : (x, y) ≠ (i, j) := by
        rintro h
        cases h
        exact target inside
      rw [if_neg (by simp [apart])]
      simp [put, target]
  · rw [if_neg (by simp [inside]), g.get?_outside inside]
    exact get?_outside _ inside

variable (spot : Nat → Nat × Nat)

/-- The first `n` pixels of a line laid over a grid. -/
private def laid (n : Nat) (pixel : (k : Nat) → k < n → α) : Grid α :=
  n.fold (fun k h g => g.put (spot k).1 (spot k).2 (pixel k h)) g

private theorem laid_shape (n : Nat) (pixel : (k : Nat) → k < n → α) :
    (g.laid spot n pixel).width = g.width ∧ (g.laid spot n pixel).height = g.height := by
  induction n with
  | zero => exact ⟨rfl, rfl⟩
  | succ n ih => simpa [laid] using ih fun k h => pixel k (by omega)

private theorem get?_laid (n : Nat) (pixel : (k : Nat) → k < n → α)
    (apart : ∀ a b, spot a = spot b → a = b) (i j : Nat) (inside : i < g.width ∧ j < g.height) :
    (∀ k (h : k < n), spot k = (i, j) → (g.laid spot n pixel).get? i j = some (pixel k h)) ∧
    ((∀ k < n, spot k ≠ (i, j)) → (g.laid spot n pixel).get? i j = g.get? i j) := by
  induction n with
  | zero => exact ⟨fun k h => absurd h (Nat.not_lt_zero k), fun _ => rfl⟩
  | succ n ih =>
    obtain ⟨hit, miss⟩ := ih fun k h => pixel k (by omega)
    have shape := g.laid_shape spot n fun k h => pixel k (by omega)
    have step : (g.laid spot (n + 1) pixel).get? i j =
        if spot n = (i, j) then some (pixel n (Nat.lt_succ_self n))
        else (g.laid spot n fun k h => pixel k (by omega)).get? i j := by
      simp only [laid, Nat.fold_succ] at shape ⊢
      rw [get?_put, shape.1, shape.2]
      simp only [Prod.eta, inside, and_self, and_true]
    rw [step]
    constructor
    · intro k h found
      by_cases last : k = n
      · subst last
        rw [if_pos found]
      · rw [if_neg fun other => last (apart _ _ (found.trans other.symm))]
        exact hit k (by omega) found
    · intro none
      rw [if_neg (none n (Nat.lt_succ_self n))]
      exact miss fun k h => none k (by omega)

@[simp] theorem width_writeAlong (run : Array α) : (g.writeAlong spot run).width = g.width :=
  (g.laid_shape spot run.size fun k _ => run[k]).1

@[simp] theorem height_writeAlong (run : Array α) : (g.writeAlong spot run).height = g.height :=
  (g.laid_shape spot run.size fun k _ => run[k]).2

@[simp] theorem width_writeRow (y : Nat) (run : Array α) : (g.writeRow y run).width = g.width :=
  g.width_writeAlong _ run

@[simp] theorem height_writeRow (y : Nat) (run : Array α) :
    (g.writeRow y run).height = g.height :=
  g.height_writeAlong _ run

@[simp] theorem width_writeColumn (x : Nat) (run : Array α) :
    (g.writeColumn x run).width = g.width :=
  g.width_writeAlong _ run

@[simp] theorem height_writeColumn (x : Nat) (run : Array α) :
    (g.writeColumn x run).height = g.height :=
  g.height_writeAlong _ run

/-- A line as wide as the grid replaces the row, and only the row. -/
theorem get?_writeRow {y : Nat} {run : Array α} (full : run.size = g.width) {i j : Nat}
    (hi : i < g.width) (hj : j < g.height) :
    (g.writeRow y run).get? i j = if j = y then run[i]? else g.get? i j := by
  have written := g.get?_laid (fun x => (x, y)) run.size (fun k _ => run[k])
    (fun a b h => congrArg Prod.fst h) i j ⟨hi, hj⟩
  have bound : i < run.size := full ▸ hi
  by_cases same : j = y
  · subst same
    rw [if_pos rfl, Array.getElem?_eq_getElem bound]
    exact written.1 i bound rfl
  · rw [if_neg same]
    exact written.2 fun k _ h => same (congrArg Prod.snd h).symm

/-- A line as high as the grid replaces the column, and only the column. -/
theorem get?_writeColumn {x : Nat} {run : Array α} (full : run.size = g.height) {i j : Nat}
    (hi : i < g.width) (hj : j < g.height) :
    (g.writeColumn x run).get? i j = if i = x then run[j]? else g.get? i j := by
  have written := g.get?_laid (fun y => (x, y)) run.size (fun k _ => run[k])
    (fun a b h => congrArg Prod.snd h) i j ⟨hi, hj⟩
  have bound : j < run.size := full ▸ hj
  by_cases same : i = x
  · subst same
    rw [if_pos rfl, Array.getElem?_eq_getElem bound]
    exact written.1 j bound rfl
  · rw [if_neg same]
    exact written.2 fun k _ h => same (congrArg Prod.fst h).symm

end Writing

section Reading

theorem row?_eq_some {y : Nat} (hy : y < g.height) :
    ∃ row, g.row? y = some row ∧ row.size = g.width ∧ ∀ x, row[x]? = g.get? x y := by
  refine ⟨_, if_pos hy, ?_, ?_⟩
  · have extent : y * g.width + g.width ≤ g.pixels.size := by
      rw [g.size_pixels, Nat.mul_comm g.width, ← Nat.succ_mul]
      exact Nat.mul_le_mul_right _ hy
    simp; omega
  · intro x
    by_cases hx : x < g.width
    · have bound := g.position_bound hx hy
      rw [g.get?_inside hx hy, Array.getElem?_extract, if_pos (by omega)]
    · rw [g.get?_outside (by omega), Array.getElem?_extract, if_neg (by omega)]

theorem at?_eq_ite (x y : Int) :
    g.at? x y = if 0 ≤ x ∧ 0 ≤ y then g.get? x.toNat y.toNat else none := by
  rcases x with x | x <;> rcases y with y | y <;> simp [at?, Int.negSucc_not_nonneg]

theorem at?_eq_get? {x y : Int} (hx : 0 ≤ x) (hy : 0 ≤ y) :
    g.at? x y = g.get? x.toNat y.toNat := by
  rw [at?_eq_ite, if_pos ⟨hx, hy⟩]

theorem at?_isSome_iff {x y : Int} :
    (g.at? x y).isSome ↔ (0 ≤ x ∧ x < g.width) ∧ (0 ≤ y ∧ y < g.height) := by
  rw [at?_eq_ite]
  split
  · rw [get?_isSome_iff]; omega
  · simp; omega

theorem at?_eq_none {x y : Int} (outside : ¬ ((0 ≤ x ∧ x < g.width) ∧ (0 ≤ y ∧ y < g.height))) :
    g.at? x y = none := by
  rw [← Option.not_isSome_iff_eq_none, at?_isSome_iff]
  exact outside

theorem mem_pixels_of_get? {x y : Nat} {value : α} (found : g.get? x y = some value) :
    value ∈ g.pixels := by
  rw [get?_eq_ite] at found
  split at found
  · exact Array.mem_of_getElem? found
  · cases found

theorem mem_pixels_of_at? {x y : Int} {value : α} (found : g.at? x y = some value) :
    value ∈ g.pixels := by
  rw [at?_eq_ite] at found
  split at found
  · exact g.mem_pixels_of_get? found
  · cases found

end Reading

theorem area_dot : 1 * 1 < addressSpace := by decide

theorem area_pair : 2 * 1 < addressSpace := by decide

end Grid
end Roomscape
