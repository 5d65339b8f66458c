import Roomscape.Proofs.Window

/-! Line fills in which nothing is taken for granted. Every sum must fit a signed word, every position
an address, and every slice and index the array it is taken from; what does not ends the fill. On a
line of at most 0x4000000000000000 pixels no fill is ever ended: each is the fill without guards, and
leaves the scene along its course. -/
namespace Roomscape

/-- What would end a fill at once. -/
inductive Breach where
  /-- A number that a signed word of 64 bits does not hold. -/
  | word (n : Int)
  /-- A position that no address reaches. -/
  | address (n : Nat)
  | slice (start stop size : Nat)
  | index (i size : Nat)
  | offset (slot : UInt8)

abbrev Guarded := Except Breach

/-- A line of `length` pixels from `origin` on whose length and end fit a signed word. -/
structure LineFits (origin : Int32) (length : Nat) : Prop where
  counted : length < 0x8000000000000000
  stop : origin.toInt + length < 0x8000000000000000

theorem LineFits.of_short {origin : Int32} {length : Nat} (short : length ≤ 0x4000000000000000) :
    LineFits origin length := by
  have high := origin.toInt_lt
  constructor <;> omega

/-- The coordinate in which a line runs. -/
def Course.origin : Course → Int32 → Int32 → Int32
  | .across, x, _ => x
  | .down, _, y => y

section Meeting

variable {origin place : Int} {length size : Nat}

theorem clip?_eq_none_iff :
    clip? origin length place size = none ↔ origin + length ≤ place ∨ place + size ≤ origin := by
  unfold clip?
  split
  · simp [*]
  · split <;> simp [*]

theorem clip?_meets {c : Clip} (meets : clip? origin length place size = some c) :
    place < origin + length ∧ origin < place + size := by
  have apart : ¬ (origin + length ≤ place ∨ place + size ≤ origin) := fun apart => by
    rw [clip?_eq_none_iff.mpr apart] at meets
    cases meets
  omega

end Meeting

namespace Guarded

variable {α : Type}

def word (n : Int) : Guarded Int :=
  if -0x8000000000000000 ≤ n ∧ n < 0x8000000000000000 then .ok n else .error (.word n)

def address (n : Nat) : Guarded Nat := if n < addressSpace then .ok n else .error (.address n)

def slice (xs : Array α) (start stop : Nat) : Guarded (Array α) :=
  if start ≤ stop ∧ stop ≤ xs.size then .ok (xs.extract start stop)
  else .error (.slice start stop xs.size)

def element (xs : Array α) (i : Nat) : Guarded α :=
  match xs[i]? with
  | some x => .ok x
  | none => .error (.index i xs.size)

theorem word_eq {n : Int} (low : -0x8000000000000000 ≤ n) (high : n < 0x8000000000000000) :
    word n = pure n :=
  if_pos ⟨low, high⟩

theorem address_eq {n : Nat} (low : n < addressSpace) : address n = pure n := if_pos low

theorem slice_eq {xs : Array α} {start stop : Nat} (order : start ≤ stop) (inside : stop ≤ xs.size) :
    slice xs start stop = pure (xs.extract start stop) :=
  if_pos ⟨order, inside⟩

theorem element_eq {xs : Array α} {i : Nat} {x : α} (found : xs[i]? = some x) :
    element xs i = pure x := by
  rw [element, found]
  rfl

/-- Lay up to `count` pixels over a line from `start` on, each looked up in turn. -/
def overlay (start count : Nat) (pixel : Nat → Guarded (Option UInt8)) (buffer : Array UInt8) :
    Guarded (Array UInt8) :=
  (List.finRange (min (buffer.size - start) count)).foldlM
    (fun buffer (k : Fin _) => return stamp buffer (start + k) (← pixel k)) buffer

theorem overlay_eq {start count : Nat} {pixel : Nat → Guarded (Option UInt8)}
    {shown : Nat → Option UInt8} (found : ∀ k, pixel k = pure (shown k)) (buffer : Array UInt8) :
    overlay start count pixel buffer = pure (Roomscape.overlay start count shown buffer) := by
  simp only [overlay, found, pure_bind, List.foldlM_pure, Roomscape.overlay,
    Nat.fold_eq_finRange_foldl]

/-- Where a stretch from `place` and a line from `origin` that meet do so first. -/
def meeting (origin place : Int) : Guarded Clip := do
  if origin ≤ place then return ⟨(← word (place - origin)).toNat, 0⟩
  else return ⟨0, (← word (origin - place)).toNat⟩

/-- A buffer is overwritten position by position. -/
theorem ofFnM_eq {β : Type} {buffer : Array α} {f : Fin buffer.size → Guarded β} {g : Nat → β}
    (each : ∀ i, f i = pure (g i)) : Array.ofFnM f = pure (buffer.mapIdx fun i _ => g i) := by
  rw [funext each, Array.ofFnM_pure]
  congr 1
  apply Array.ext <;> simp

theorem word_sum (n : Int32) {k : Nat} (below : n.toInt + k < 0x8000000000000000) :
    word (n.toInt + k) = pure (n.toInt + k) := by
  have low := n.le_toInt
  exact word_eq (by omega) below

theorem word_difference (n m : Int32) : word (n.toInt - m.toInt) = pure (n.toInt - m.toInt) := by
  have low := n.le_toInt
  have high := n.toInt_lt
  have low' := m.le_toInt
  have high' := m.toInt_lt
  exact word_eq (by omega) (by omega)

theorem meeting_eq {origin place : Int32} {length size : Nat} {c : Clip}
    (meets : clip? origin.toInt length place.toInt size = some c) :
    meeting origin.toInt place.toInt = pure c := by
  unfold clip? at meets
  unfold meeting
  split at meets
  · cases meets
  · split at meets <;> cases meets
    · rename_i before
      rw [if_pos before, word_difference]
      rfl
    · rename_i after
      rw [if_neg after, word_difference]
      rfl

end Guarded

namespace Grid

variable {α : Type} (g : Grid α)

open Guarded (word address slice element)

def guardedRow (y : Nat) : Guarded (Option (Array α)) := do
  if y < g.height then
    let start ← address (y * g.width)
    let stop ← address (start + g.width)
    return some (← slice g.pixels start stop)
  else return none

def guardedGet (x y : Nat) : Guarded (Option α) := do
  if x < g.width ∧ y < g.height then
    let start ← address (y * g.width)
    return some (← element g.pixels (← address (start + x)))
  else return none

def guardedAt (x y : Int) : Guarded (Option α) :=
  if 0 ≤ x ∧ 0 ≤ y then g.guardedGet x.toNat y.toNat else return none

def guardedRowAt (y : Int) : Guarded (Option (Array α)) :=
  if 0 ≤ y then g.guardedRow y.toNat else return none

theorem row_end_le {y : Nat} (hy : y < g.height) : y * g.width + g.width ≤ g.pixels.size := by
  rw [g.size_pixels, Nat.mul_comm g.width, ← Nat.succ_mul]
  exact Nat.mul_le_mul_right _ hy

theorem size_lt : g.pixels.size < addressSpace := g.size_pixels ▸ g.area_lt

theorem guardedRow_eq (y : Nat) : g.guardedRow y = pure (g.row? y) := by
  unfold guardedRow row?
  by_cases hy : y < g.height
  · have fits := g.row_end_le hy
    have counted := g.size_lt
    rw [if_pos hy, if_pos hy, Guarded.address_eq (by omega), pure_bind,
      Guarded.address_eq (by omega), pure_bind, Guarded.slice_eq (by omega) fits]
    rfl
  · rw [if_neg hy, if_neg hy]

theorem guardedGet_eq (x y : Nat) : g.guardedGet x y = pure (g.get? x y) := by
  unfold guardedGet
  by_cases inside : x < g.width ∧ y < g.height
  · have bound := g.position_bound inside.1 inside.2
    have counted := g.size_lt
    obtain ⟨value, found⟩ := g.get?_eq_some inside.1 inside.2
    rw [if_pos inside, Guarded.address_eq (by omega), pure_bind, Guarded.address_eq (by omega),
      pure_bind, found]
    rw [g.get?_inside inside.1 inside.2] at found
    rw [Guarded.element_eq found]
    rfl
  · rw [if_neg inside, g.get?_outside inside]

theorem guardedAt_eq (x y : Int) : g.guardedAt x y = pure (g.at? x y) := by
  rw [guardedAt, at?_eq_ite]
  split
  · exact g.guardedGet_eq _ _
  · rfl

theorem guardedRowAt_eq (y : Int) :
    g.guardedRowAt y = pure (if 0 ≤ y then g.row? y.toNat else none) := by
  unfold guardedRowAt
  split
  · exact g.guardedRow_eq _
  · rfl

end Grid

open Guarded (word slice element meeting)

theorem Sprite.sides_lt (s : Sprite) : s.pixels.width < 65536 ∧ s.pixels.height < 65536 := by
  rw [s.pixels_fits.1, s.pixels_fits.2]
  exact ⟨s.header.width.toNat_lt, s.header.height.toNat_lt⟩

namespace Placement

variable (p : Placement) (x y : Int32) (buffer : Array UInt8)

def guardedAcross : Guarded (Array UInt8) := do
  let image := p.image.pixels
  let stop ← word (x.toInt + (← word buffer.size))
  let right ← word (p.x.toInt + image.width)
  let bottom ← word (p.y.toInt + image.height)
  if y.toInt < p.y.toInt ∨ bottom ≤ y.toInt ∨ stop ≤ p.x.toInt ∨ right ≤ x.toInt then
    return buffer
  match ← image.guardedRow (← word (y.toInt - p.y.toInt)).toNat with
  | none => return buffer
  | some row =>
    let clip ← meeting x.toInt p.x.toInt
    discard (slice buffer clip.start buffer.size)
    let shown ← slice row clip.skip row.size
    return overlay clip.start shown.size (fun k => shown[k]?) buffer

def guardedDown : Guarded (Array UInt8) := do
  let image := p.image.pixels
  let stop ← word (y.toInt + (← word buffer.size))
  let right ← word (p.x.toInt + image.width)
  let bottom ← word (p.y.toInt + image.height)
  if x.toInt < p.x.toInt ∨ right ≤ x.toInt ∨ stop ≤ p.y.toInt ∨ bottom ≤ y.toInt then
    return buffer
  let column ← word (x.toInt - p.x.toInt)
  let clip ← meeting y.toInt p.y.toInt
  discard (slice buffer clip.start buffer.size)
  Guarded.overlay clip.start (image.height - clip.skip)
    (fun k => image.guardedGet column.toNat (clip.skip + k)) buffer

section Equal

variable {p x y buffer}

/-- The ends of a line and of a sprite fit a word. -/
theorem guarded_ends (p : Placement) {origin : Int32} (fits : LineFits origin buffer.size) {β : Type}
    (next : Int → Int → Int → Guarded β) :
    (do
      let stop ← word (origin.toInt + (← word buffer.size))
      let right ← word (p.x.toInt + p.image.pixels.width)
      let bottom ← word (p.y.toInt + p.image.pixels.height)
      next stop right bottom) =
      next (origin.toInt + buffer.size) (p.x.toInt + p.image.pixels.width)
        (p.y.toInt + p.image.pixels.height) := by
  obtain ⟨wide, high⟩ := p.image.sides_lt
  have right := p.x.toInt_lt
  have bottom := p.y.toInt_lt
  have counted := fits.counted
  rw [Guarded.word_eq (n := buffer.size) (by omega) (by omega), pure_bind,
    Guarded.word_sum origin fits.stop, pure_bind, Guarded.word_sum p.x (by omega), pure_bind,
    Guarded.word_sum p.y (by omega), pure_bind]

theorem guardedAcross_eq (fits : LineFits x buffer.size) :
    p.guardedAcross x y buffer = pure (p.paintAcross x.toInt y.toInt buffer) := by
  unfold guardedAcross paintAcross
  dsimp only
  rw [guarded_ends p fits]
  by_cases level : y.toInt < p.y.toInt ∨ p.y.toInt + p.image.pixels.height ≤ y.toInt
  · rw [if_pos level, if_pos (by omega)]
  · rw [if_neg level]
    obtain ⟨row, found, size, _⟩ :=
      p.image.pixels.row?_eq_some (y := (y.toInt - p.y.toInt).toNat) (by omega)
    rw [found]
    dsimp only
    rw [overlayCut]
    cases meets : clip? x.toInt buffer.size p.x.toInt p.image.pixels.width with
    | none =>
      have apart := clip?_eq_none_iff.mp meets
      rw [if_pos (by omega)]
    | some clip =>
      have near := clip?_meets meets
      obtain ⟨start, skip⟩ := clip?_within meets
      rw [if_neg (by omega), Guarded.word_difference, pure_bind, Grid.guardedRow_eq, pure_bind, found]
      dsimp only
      rw [Guarded.meeting_eq meets, pure_bind, Guarded.slice_eq start (Nat.le_refl _),
        Guarded.slice_eq (size ▸ skip) (Nat.le_refl _)]
      have shown : (fun k => (row.extract clip.skip row.size)[k]?) = fun k => row[clip.skip + k]? := by
        funext k
        rw [Array.getElem?_extract]
        split
        · rfl
        · rw [Array.getElem?_eq_none (by omega)]
      change (pure (overlay clip.start (row.extract clip.skip row.size).size _ buffer) :
        Guarded (Array UInt8)) = _
      rw [shown, Array.size_extract, Nat.min_self, size]

theorem guardedDown_eq (fits : LineFits y buffer.size) :
    p.guardedDown x y buffer = pure (p.paintDown x.toInt y.toInt buffer) := by
  unfold guardedDown paintDown
  dsimp only
  rw [guarded_ends p fits]
  by_cases level : x.toInt < p.x.toInt ∨ p.x.toInt + p.image.pixels.width ≤ x.toInt
  · rw [if_pos level, if_pos (by omega)]
  · rw [if_neg level, overlayCut]
    cases meets : clip? y.toInt buffer.size p.y.toInt p.image.pixels.height with
    | none =>
      have apart := clip?_eq_none_iff.mp meets
      rw [if_pos (by omega)]
    | some clip =>
      have near := clip?_meets meets
      obtain ⟨start, _⟩ := clip?_within meets
      rw [if_neg (by omega), Guarded.word_difference, pure_bind, Guarded.meeting_eq meets, pure_bind,
        Guarded.slice_eq start (Nat.le_refl _)]
      exact Guarded.overlay_eq (fun k => Grid.guardedGet_eq ..) buffer

end Equal

def guardedPaint : Course → Int32 → Int32 → Array UInt8 → Guarded (Array UInt8)
  | .across => p.guardedAcross
  | .down => p.guardedDown

theorem guardedPaint_eq {buffer : Array UInt8} (course : Course)
    (fits : LineFits (course.origin x y) buffer.size) :
    p.guardedPaint course x y buffer = pure (p.paint course x.toInt y.toInt buffer) := by
  cases course with
  | across => exact guardedAcross_eq fits
  | down => exact guardedDown_eq fits

theorem size_paint (course : Course) (x y : Int) (buffer : Array UInt8) :
    (p.paint course x y buffer).size = buffer.size :=
  size_eq_of_none_iff fun i => by simp [getElem?_paint]

theorem guardedPaint_foldlM {buffer : Array UInt8} (placements : List Placement) (course : Course)
    (fits : LineFits (course.origin x y) buffer.size) :
    placements.foldlM (fun buffer p => p.guardedPaint course x y buffer) buffer =
      pure (placements.foldl (fun buffer p => p.paint course x.toInt y.toInt buffer) buffer) := by
  induction placements generalizing buffer with
  | nil => rfl
  | cons p rest ih =>
    rw [List.foldlM_cons, guardedPaint_eq p x y course fits, pure_bind, List.foldl_cons]
    exact ih (by rwa [p.size_paint])

end Placement

namespace Room

variable (r : Room) (offset : UInt8) (x y : Int32) (buffer : Array UInt8)

def guardedPhotoAcross : Guarded (Array UInt8) := do
  match ← r.photo.indices.guardedRowAt y.toInt with
  | some row =>
    Array.ofFnM fun i : Fin buffer.size => do
      let column ← word (x.toInt + i)
      if 0 ≤ column ∧ column < row.size then return (← element row column.toNat) + offset
      else return backdrop
  | none => return buffer.map fun _ => backdrop

def guardedPhotoDown : Guarded (Array UInt8) :=
  Array.ofFnM fun i : Fin buffer.size =>
    return shade offset (← r.photo.indices.guardedAt x.toInt (← word (y.toInt + i)))

def guardedPhoto : Course → Int32 → Int32 → Array UInt8 → Guarded (Array UInt8)
  | .across => r.guardedPhotoAcross offset
  | .down => r.guardedPhotoDown offset

section Equal

variable {r offset x y buffer}

theorem guardedPhotoAcross_eq (fits : LineFits x buffer.size) :
    r.guardedPhotoAcross offset x y buffer = pure (r.photoAcross offset x.toInt y.toInt buffer) := by
  unfold guardedPhotoAcross photoAcross
  rw [Grid.guardedRowAt_eq, pure_bind]
  cases (if 0 ≤ y.toInt then r.photo.indices.row? y.toInt.toNat else none) with
  | none => rfl
  | some row =>
    refine Guarded.ofFnM_eq fun i => ?_
    have stop := fits.stop
    rw [Guarded.word_sum x (by omega), pure_bind]
    dsimp only
    by_cases left : 0 ≤ x.toInt + i
    · by_cases right : x.toInt + i < row.size
      · obtain ⟨pixel, found⟩ : ∃ pixel, row[(x.toInt + i).toNat]? = some pixel :=
          ⟨_, Array.getElem?_eq_getElem (by omega)⟩
        rw [if_pos ⟨left, right⟩, Guarded.element_eq found, if_pos left, found]
        rfl
      · rw [if_neg (by omega), if_pos left, Array.getElem?_eq_none (by omega)]
        rfl
    · rw [if_neg (by omega), if_neg left]
      rfl

theorem guardedPhotoDown_eq (fits : LineFits y buffer.size) :
    r.guardedPhotoDown offset x y buffer = pure (r.photoDown offset x.toInt y.toInt buffer) := by
  refine Guarded.ofFnM_eq fun i => ?_
  have stop := fits.stop
  rw [Guarded.word_sum y (by omega), pure_bind, Grid.guardedAt_eq, pure_bind]

theorem guardedPhoto_eq (course : Course) (fits : LineFits (course.origin x y) buffer.size) :
    r.guardedPhoto offset course x y buffer =
      pure (r.photoAlong offset course x.toInt y.toInt buffer) := by
  cases course with
  | across => exact guardedPhotoAcross_eq fits
  | down => exact guardedPhotoDown_eq fits

end Equal

/-- A line fill with every step guarded. An offset that is not allowed ends it as well. -/
def guardedFill (course : Course) : Guarded (Array UInt8) := do
  if highestPaletteOffset < offset.toNat then throw (.offset offset)
  let behind ← r.guardedPhoto offset course x y buffer
  r.placements.foldlM (fun buffer p => p.guardedPaint course x y buffer) behind

section Result

variable {offset buffer} (fits : offset.toNat ≤ 64)

include fits

/-- A fill leaves as many pixels as there were, and each is what is seen at its place. -/
theorem fill_shows_scene (buffer : Array UInt8) (course : Course) :
    (r.fill offset course x y buffer).size = buffer.size ∧
    ∀ i < buffer.size, (r.fill offset course x y buffer)[i]?.map UInt8.toNat =
      some (r.scene offset (course.point x.toInt y.toInt i)) := by
  refine ⟨size_eq_of_none_iff fun i => by simp [getElem?_fill], fun i inside => ?_⟩
  rw [getElem?_fill, Array.getElem?_eq_getElem inside, Option.map_some, Option.map_some,
    r.toNat_sceneByte offset fits]

theorem guardedFill_of_lineFits (course : Course)
    (line : LineFits (course.origin x y) buffer.size) :
    r.guardedFill offset x y buffer course = pure (r.fill offset course x y buffer) := by
  have allowed : ¬ highestPaletteOffset < offset.toNat := Nat.not_lt.mpr fits
  have size : (r.photoAlong offset course x.toInt y.toInt buffer).size = buffer.size :=
    size_eq_of_none_iff fun i => by simp [getElem?_photoAlong]
  rw [guardedFill, if_neg allowed, guardedPhoto_eq course line, pure_bind]
  exact Placement.guardedPaint_foldlM x y r.placements course (size ▸ line)

theorem guardedFill_eq (short : buffer.size ≤ 0x4000000000000000) (course : Course) :
    r.guardedFill offset x y buffer course = pure (r.fill offset course x y buffer) :=
  r.guardedFill_of_lineFits x y fits course (.of_short short)

end Result

/-- Filling a line that runs right is never ended, whatever the room and wherever the line, and leaves
the scene along the line. -/
theorem line_across_shows_scene (r : Room) (x y : Int32) {offset : UInt8} (fits : offset.toNat ≤ 64)
    {buffer : Array UInt8} (short : buffer.size ≤ 0x4000000000000000) :
    let filled := r.fill offset .across x y buffer
    r.guardedFill offset x y buffer .across = .ok filled ∧ filled.size = buffer.size ∧
    ∀ i < buffer.size, filled[i]?.map UInt8.toNat = some (r.scene offset (x.toInt + i, y.toInt)) := by
  obtain ⟨size, pixels⟩ := r.fill_shows_scene x y fits buffer .across
  exact ⟨r.guardedFill_eq x y fits short .across, size, pixels⟩

/-- A sprite of which one pixel stands at the last coordinates, and the others past them. -/
def corner : Room :=
  let photo : Grid UInt8 := ⟨1, 1, #[7], rfl, Grid.area_dot⟩
  let pillar : Grid UInt8 := ⟨2, 2, #[5, 0x40, 6, 7], rfl, by decide⟩
  have slots : ∀ i ∈ photo.pixels, i.toNat < paletteSlots := by simp [photo, paletteSlots]
  ⟨"corner", ⟨⟨1, 1⟩, .black, photo, photo, ⟨rfl, rfl⟩, ⟨rfl, rfl⟩, slots⟩,
    [⟨0x7fffffff, 0x7fffffff, ⟨2, 2⟩, pillar, rfl, rfl⟩]⟩

theorem line_across_shows_corner :
    (64 : UInt8).toNat ≤ 64 ∧ (#[9, 9, 9] : Array UInt8).size ≤ 0x4000000000000000 ∧
    ∃ filled, corner.guardedFill 64 0x7ffffffe 0x7fffffff #[9, 9, 9] .across = .ok filled ∧
      (List.range 3).map (fun i => filled[i]?.map UInt8.toNat) = [some 0, some 5, some 0] := by
  have fits : (64 : UInt8).toNat ≤ 64 := by decide
  have short : (#[9, 9, 9] : Array UInt8).size ≤ 0x4000000000000000 := by decide
  obtain ⟨made, _, pixels⟩ := line_across_shows_scene corner 0x7ffffffe 0x7fffffff fits short
  refine ⟨fits, short, _, made, ?_⟩
  simp only [List.range, List.range.loop, List.map, pixels 0 (by decide), pixels 1 (by decide),
    pixels 2 (by decide)]
  decide

/-- Filling a line that runs down is never ended either, and leaves the same scene: where it crosses a
line that runs right, both hold one byte. -/
theorem line_down_shows_scene (r : Room) (x y : Int32) {offset : UInt8} (fits : offset.toNat ≤ 64)
    {buffer : Array UInt8} (short : buffer.size ≤ 0x4000000000000000) :
    let filled := r.fill offset .down x y buffer
    r.guardedFill offset x y buffer .down = .ok filled ∧ filled.size = buffer.size ∧
    (∀ i < buffer.size, filled[i]?.map UInt8.toNat = some (r.scene offset (x.toInt, y.toInt + i))) ∧
    ∀ (x' y' : Int32) (other : Array UInt8) (i j : Nat), i < buffer.size → j < other.size →
      (x.toInt, y.toInt + i) = (x'.toInt + j, y'.toInt) →
        filled[i]? = (r.fill offset .across x' y' other)[j]? := by
  obtain ⟨size, pixels⟩ := r.fill_shows_scene x y fits buffer .down
  refine ⟨r.guardedFill_eq x y fits short .down, size, pixels, ?_⟩
  intro x' y' other i j hi hj crossing
  rw [getElem?_fill, getElem?_fill, Array.getElem?_eq_getElem hi, Array.getElem?_eq_getElem hj,
    Option.map_some, Option.map_some]
  exact congrArg (fun spot => some (r.sceneByte offset spot)) crossing

theorem line_down_shows_corner :
    (64 : UInt8).toNat ≤ 64 ∧ (#[9, 9, 9] : Array UInt8).size ≤ 0x4000000000000000 ∧
    ∃ filled, corner.guardedFill 64 0x7fffffff 0x7ffffffe #[9, 9, 9] .down = .ok filled ∧
      (List.range 3).map (fun i => filled[i]?.map UInt8.toNat) = [some 0, some 5, some 6] ∧
      filled[1]? = (corner.fill 64 .across 0x7ffffffe 0x7fffffff #[9, 9, 9])[1]? := by
  have fits : (64 : UInt8).toNat ≤ 64 := by decide
  have short : (#[9, 9, 9] : Array UInt8).size ≤ 0x4000000000000000 := by decide
  obtain ⟨made, _, pixels, crossing⟩ :=
    line_down_shows_scene corner 0x7fffffff 0x7ffffffe fits short
  refine ⟨fits, short, _, made, ?_, ?_⟩
  · simp only [List.range, List.range.loop, List.map, pixels 0 (by decide), pixels 1 (by decide),
      pixels 2 (by decide)]
    decide
  · exact crossing 0x7ffffffe 0x7fffffff #[9, 9, 9] 1 1 (by decide) (by decide) (by decide)

end Room
end Roomscape
