import Mathlib.Algebra.Group.Nat.Defs
import Roomscape.Picture
import Roomscape.Proofs.GridPixels

/-! Frames drawn as pictures, pixel by pixel. The drawing ends at once where a number outgrows its word,
a pixel is not in the picture, or one is drawn a second time. None of this happens to a picture that can
be allocated: the squares of the frame's pixels tile it, and the drawing leaves no pixel out. -/
namespace Roomscape

/-- What would end a drawing at once. -/
inductive Slip where
  /-- A side or a coordinate that 32 bits do not hold. -/
  | coordinate (n : Nat)
  | buffer (width height : Nat)
  | outside (x y : Nat)
  /-- A pixel that was drawn before. -/
  | again (x y : Nat)

abbrev Drawing := Except Slip

/-- A picture that is being drawn. Where nothing is drawn yet there is no colour. -/
abbrev Canvas := Grid (Option Rgba)

namespace Canvas

def coordinate (n : Nat) : Drawing Nat := if n < Picture.sideSpace then .ok n else .error (.coordinate n)

def blank (width height : Nat) : Drawing Canvas :=
  (Grid.filled width height none 4).mapError fun _ => .buffer width height

def draw (c : Rgba) (x y : Nat) (canvas : Canvas) : Drawing Canvas :=
  match canvas.get? x y with
  | none => .error (.outside x y)
  | some (some _) => .error (.again x y)
  | some none => .ok (canvas.put x y (some c))

/-- The rounds of a loop, one after the other. -/
def rounds (round : Nat → Canvas → Drawing Canvas) : Nat → Canvas → Drawing Canvas
  | 0, canvas => .ok canvas
  | n + 1, canvas => rounds round n canvas >>= round n

/-- Where a step inside a frame's pixel falls, when each of them is made `factor` pixels long. -/
def spot (pixel factor step : Nat) : Drawing Nat := do
  let start ← coordinate ((← coordinate pixel) * factor)
  coordinate (start + step)

/-- Draw the square that one pixel of a frame becomes. -/
def drawSquare (factor x y : Nat) (c : Rgba) : Canvas → Drawing Canvas :=
  rounds (fun down => rounds (fun right canvas => do
    draw c (← spot x factor right) (← spot y factor down) canvas) factor) factor

def drawRow (display : Display) (factor y : Nat) (row : Array UInt8) : Canvas → Drawing Canvas :=
  rounds (fun x canvas =>
    match row[x]? with
    | some byte => drawSquare factor x y (display.lookup byte).rgba canvas
    | none => .ok canvas) row.size

def drawFrame (frame : Grid UInt8) (display : Display) (factor : Nat) : Canvas → Drawing Canvas :=
  rounds (fun y canvas =>
    match frame.row? y with
    | some row => drawRow display factor y row canvas
    | none => .ok canvas) frame.height

/-- The whole drawing; the scale 0 counts as 1. -/
def ofFrame (frame : Grid UInt8) (display : Display) (scale : Nat) : Drawing Canvas := do
  let factor := max scale 1
  let width ← coordinate ((← coordinate frame.width) * factor)
  let height ← coordinate ((← coordinate frame.height) * factor)
  drawFrame frame display factor (← blank width height)

section Steps

variable {width height factor : Nat} {target : Nat → Nat → Rgba} {region other : Nat → Nat → Prop}

/-- On every canvas of a shape on which a region is blank, a step draws the pixels of the region, each
in its target colour, and no others. -/
def Draws (width height : Nat) (target : Nat → Nat → Rgba) (region : Nat → Nat → Prop)
    (step : Canvas → Drawing Canvas) : Prop :=
  ∀ canvas : Canvas, canvas.width = width → canvas.height = height →
    (∀ x y, region x y → canvas.get? x y = some none) →
    ∃ after, step canvas = .ok after ∧ after.width = width ∧ after.height = height ∧
      ∀ x y, (region x y → after.get? x y = some (some (target x y))) ∧
        (¬ region x y → after.get? x y = canvas.get? x y)

theorem Draws.congr {step : Canvas → Drawing Canvas} (draws : Draws width height target region step)
    (same : ∀ x y, region x y ↔ other x y) : Draws width height target other step := by
  obtain rfl : region = other := funext fun x => funext fun y => propext (same x y)
  exact draws

theorem draws_draw {x y : Nat} :
    Draws width height target (fun i j => i = x ∧ j = y) (draw (target x y) x y) := by
  intro canvas wide high clear
  have here := clear x y ⟨rfl, rfl⟩
  have inside := canvas.get?_isSome_iff.mp (by rw [here]; rfl)
  refine ⟨canvas.put x y (some (target x y)), by rw [draw, here], wide, high, fun i j => ⟨?_, ?_⟩⟩
  · rintro ⟨rfl, rfl⟩
    rw [canvas.get?_put, if_pos ⟨rfl, inside⟩]
  · intro elsewhere
    rw [canvas.get?_put, if_neg]
    rintro ⟨same, _⟩
    cases same
    exact elsewhere ⟨rfl, rfl⟩

/-- A loop draws what its rounds draw, if each round has the pixels of one index. -/
theorem draws_rounds {round : Nat → Canvas → Drawing Canvas} (index : Nat → Nat → Nat) {n : Nat}
    (each : ∀ k < n, Draws width height target (fun x y => index x y = k ∧ region x y) (round k)) :
    Draws width height target (fun x y => index x y < n ∧ region x y) (rounds round n) := by
  induction n with
  | zero =>
    intro canvas wide high _
    exact ⟨canvas, rfl, wide, high, fun x y => ⟨fun own => absurd own.1 (Nat.not_lt_zero _), fun _ => rfl⟩⟩
  | succ n ih =>
    intro canvas wide high clear
    obtain ⟨middle, earlier, wide', high', drawn⟩ := ih (fun k less => each k (by omega)) canvas wide high
      fun x y own => clear x y ⟨by omega, own.2⟩
    -- What the last round draws is still blank, since no earlier round had its index.
    have untouched (x y : Nat) (last : index x y = n ∧ region x y) : middle.get? x y = some none := by
      rw [(drawn x y).2 (by omega), clear x y ⟨by omega, last.2⟩]
    obtain ⟨after, later, wide'', high'', finished⟩ :=
      each n (Nat.lt_succ_self n) middle wide' high' untouched
    refine ⟨after, ?_, wide'', high'', fun x y => ⟨?_, ?_⟩⟩
    · rw [rounds, earlier]
      exact later
    · rintro ⟨less, own⟩
      rcases Nat.lt_succ_iff_lt_or_eq.mp less with before | last
      · rw [(finished x y).2 (by omega), (drawn x y).1 ⟨before, own⟩]
      · exact (finished x y).1 ⟨last, own⟩
    · intro none
      have last : ¬ (index x y = n ∧ region x y) := fun own => none ⟨by omega, own.2⟩
      have before : ¬ (index x y < n ∧ region x y) := fun own => none ⟨by omega, own.2⟩
      rw [(finished x y).2 last, (drawn x y).2 before]

end Steps

section Frames

variable {frame : Grid UInt8} {factor width height : Nat}

/-- The colour that a pixel of the picture should have: that of the pixel of the frame it falls in. -/
def shownAt (frame : Grid UInt8) (display : Display) (factor x y : Nat) : Rgba :=
  ((frame.map fun byte => (display.lookup byte).rgba).get? (x / factor) (y / factor)).getD .clear

/-- A step inside a pixel leads to the one position that falls there. -/
theorem eq_step_iff {pixel step x : Nat} (less : step < factor) :
    x = pixel * factor + step ↔ x % factor = step ∧ x / factor = pixel := by
  rw [and_comm, Nat.div_mod_unique (Nat.zero_lt_of_lt less), and_iff_left less, eq_comm, Nat.add_comm,
    Nat.mul_comm]

theorem coordinate_eq {n : Nat} (fits : n < Picture.sideSpace) : coordinate n = pure n := if_pos fits

theorem spot_eq {size pixel step : Nat} (inside : pixel < size) (less : step < factor)
    (fits : size * factor < Picture.sideSpace) :
    spot pixel factor step = pure (pixel * factor + step) := by
  have next := Nat.mul_le_mul_right factor inside
  rw [Nat.succ_mul] at next
  have start : pixel ≤ pixel * factor := Nat.le_mul_of_pos_right _ (by omega)
  rw [spot, coordinate_eq (by omega), pure_bind, coordinate_eq (by omega), pure_bind,
    coordinate_eq (by omega)]

section Squares

variable (display : Display) (positive : 0 < factor) (wide : frame.width * factor < Picture.sideSpace)
  (high : frame.height * factor < Picture.sideSpace)

include positive wide high

/-- A pixel of the frame becomes the square of the positions that fall in it. -/
theorem draws_square {x y : Nat} {byte : UInt8} (found : frame.get? x y = some byte) :
    Draws width height (shownAt frame display factor)
      (fun i j => i / factor = x ∧ j / factor = y)
      (drawSquare factor x y (display.lookup byte).rgba) := by
  obtain ⟨hx, hy⟩ := frame.get?_isSome_iff.mp (by rw [found]; rfl)
  have pixel {right down : Nat} (r : right < factor) (d : down < factor) :
      (fun canvas => do
        draw (display.lookup byte).rgba (← spot x factor right) (← spot y factor down) canvas) =
      draw (shownAt frame display factor (x * factor + right) (y * factor + down))
        (x * factor + right) (y * factor + down) := by
    funext canvas
    rw [shownAt, ((eq_step_iff r).mp rfl).2, ((eq_step_iff d).mp rfl).2, Grid.get?_map, found,
      spot_eq hx r wide, pure_bind, spot_eq hy d high, pure_bind]
    rfl
  have line {down : Nat} (d : down < factor) :
      Draws width height (shownAt frame display factor)
        (fun i j => i % factor < factor ∧ i / factor = x ∧ j = y * factor + down)
        (rounds (fun right canvas => do
          draw (display.lookup byte).rgba (← spot x factor right) (← spot y factor down) canvas)
          factor) :=
    draws_rounds (fun i _ => i % factor) fun right r =>
      pixel r d ▸ draws_draw.congr fun i j => by rw [eq_step_iff r, and_assoc]
  have square : Draws width height (shownAt frame display factor)
      (fun i j => j % factor < factor ∧ i / factor = x ∧ j / factor = y)
      (drawSquare factor x y (display.lookup byte).rgba) :=
    draws_rounds (fun _ j => j % factor) fun down d => (line d).congr fun i j => by
      rw [eq_step_iff d, and_iff_right (Nat.mod_lt i positive), and_left_comm]
  exact square.congr fun i j => and_iff_right (Nat.mod_lt j positive)

theorem draws_row {y : Nat} {row : Array UInt8} (hy : y < frame.height)
    (found : frame.row? y = some row) :
    Draws width height (shownAt frame display factor)
      (fun i j => j / factor = y ∧ i / factor < frame.width) (drawRow display factor y row) := by
  obtain ⟨_, same, size, pixels⟩ := frame.row?_eq_some hy
  cases found.symm.trans same
  refine (draws_rounds (fun i _ => i / factor) fun x hx => ?_).congr fun i j => by rw [size, and_comm]
  obtain ⟨byte, pixel⟩ := frame.get?_eq_some (size ▸ hx) hy
  rw [pixels, pixel]
  exact draws_square display positive wide high pixel

theorem draws_frame :
    Draws width height (shownAt frame display factor)
      (fun i j => i / factor < frame.width ∧ j / factor < frame.height)
      (drawFrame frame display factor) := by
  refine (draws_rounds (fun _ j => j / factor) fun y hy => ?_).congr fun i j => and_comm
  obtain ⟨row, found, _⟩ := frame.row?_eq_some hy
  rw [found]
  exact draws_row display positive wide high hy found

end Squares

/-- A canvas that can be allocated begins without a colour anywhere. -/
theorem blank_eq_ok (room : width * height * 4 ≤ largestBuffer) :
    ∃ canvas, blank width height = .ok canvas ∧ canvas.width = width ∧ canvas.height = height ∧
      ∀ x y, x < width → y < height → canvas.get? x y = some none := by
  obtain ⟨canvas, made⟩ := Grid.filled_eq_ok (none : Option Rgba) (by decide : 0 < 4) room
  obtain ⟨wide, high, clear⟩ := Grid.get?_filled made
  exact ⟨canvas, by rw [blank, made]; rfl, wide, high, clear⟩

/-- A drawing begins once its sides are known to have 32 bits. -/
theorem ofFrame_eq {display : Display} {scale : Nat}
    (wide : frame.width * max scale 1 < Picture.sideSpace)
    (high : frame.height * max scale 1 < Picture.sideSpace) :
    ofFrame frame display scale =
      blank (frame.width * max scale 1) (frame.height * max scale 1) >>=
        drawFrame frame display (max scale 1) := by
  have unit {n : Nat} : n ≤ n * max scale 1 := Nat.le_mul_of_pos_right n (Nat.le_max_right ..)
  rw [ofFrame, coordinate_eq (Nat.lt_of_le_of_lt unit wide), pure_bind, coordinate_eq wide, pure_bind,
    coordinate_eq (Nat.lt_of_le_of_lt unit high), pure_bind, coordinate_eq high, pure_bind]

end Frames

end Canvas

namespace Picture

theorem enlargedSide_eq {n factor : Nat} (fits : n * factor < sideSpace) :
    enlargedSide n factor = n * factor :=
  Nat.mod_eq_of_lt fits

/-- The positions that fall in a frame's pixels are those of the enlarged frame. -/
theorem falls_inside_iff (frame : Grid UInt8) {factor : Nat} (positive : 0 < factor) (x y : Nat) :
    x / factor < frame.width ∧ y / factor < frame.height ↔
      x < frame.width * factor ∧ y < frame.height * factor := by
  rw [Nat.div_lt_iff_lt_mul positive, Nat.div_lt_iff_lt_mul positive]

/-- A picture has the pixels of its frame, enlarged, and no others. -/
theorem get?_ofFrame {frame : Grid UInt8} (display : Display) {scale : Nat}
    (wide : frame.width * max scale 1 < sideSpace) (high : frame.height * max scale 1 < sideSpace)
    (x y : Nat) : (ofFrame frame display scale).get? x y =
      (frame.get? (x / max scale 1) (y / max scale 1)).map fun byte => (display.lookup byte).rgba := by
  have within := falls_inside_iff frame (Nat.le_max_right scale 1) x y
  have made := Grid.get?_ofFn (enlargedArea_lt frame.width frame.height (max scale 1))
    (Canvas.shownAt frame display (max scale 1)) x y
  refine made.trans ?_
  rw [enlargedSide_eq wide, enlargedSide_eq high, Canvas.shownAt, Grid.get?_map]
  by_cases inside : x / max scale 1 < frame.width ∧ y / max scale 1 < frame.height
  · obtain ⟨byte, found⟩ := frame.get?_eq_some inside.1 inside.2
    rw [if_pos (within.mp inside), found]
    rfl
  · rw [if_neg (inside ∘ within.mpr), frame.get?_outside inside]
    rfl

/-- A frame whose enlarged sides have 32 bits and whose picture can be allocated is drawn whole. -/
theorem drawn_whole {frame : Grid UInt8} (display : Display) {scale : Nat}
    (wide : frame.width * max scale 1 < sideSpace) (high : frame.height * max scale 1 < sideSpace)
    (room : frame.width * max scale 1 * (frame.height * max scale 1) * 4 ≤ largestBuffer) :
    Canvas.ofFrame frame display scale = .ok ((ofFrame frame display scale).map some) := by
  have positive : 0 < max scale 1 := Nat.le_max_right ..
  obtain ⟨canvas, made, canvas_width, canvas_height, clear⟩ := Canvas.blank_eq_ok room
  obtain ⟨after, run, after_width, after_height, drawn⟩ :=
    Canvas.draws_frame display positive wide high canvas canvas_width canvas_height fun x y own =>
      have within := (falls_inside_iff frame positive x y).mp own
      clear x y within.1 within.2
  have whole : after = (ofFrame frame display scale).map some := by
    apply Grid.ext_get? (after_width.trans (enlargedSide_eq wide).symm)
      (after_height.trans (enlargedSide_eq high).symm)
    intro x y hx hy
    have inside := (falls_inside_iff frame positive x y).mpr ⟨after_width ▸ hx, after_height ▸ hy⟩
    obtain ⟨byte, found⟩ := frame.get?_eq_some inside.1 inside.2
    rw [(drawn x y).1 inside, Grid.get?_map, get?_ofFrame display wide high, found, Canvas.shownAt,
      Grid.get?_map, found]
    rfl
  rw [Canvas.ofFrame_eq wide high, made]
  exact whole ▸ run

theorem draw_eq_ok {frame : Grid UInt8} (display : Display) {scale : Nat}
    (wide : frame.width * max scale 1 < sideSpace) (high : frame.height * max scale 1 < sideSpace)
    (room : frame.width * max scale 1 * (frame.height * max scale 1) * 4 ≤ largestBuffer) :
    draw frame display scale = .ok (ofFrame frame display scale) :=
  if_pos ⟨wide, high, room⟩

theorem draw_refused (frame : Grid UInt8) (display : Display) {scale : Nat}
    (large : largestBuffer < frame.width * max scale 1 * (frame.height * max scale 1) * 4) :
    draw frame display scale =
      .error (.undrawable (frame.width * max scale 1) (frame.height * max scale 1)) :=
  if_neg fun fits => Nat.not_lt.mpr fits.2.2 large

theorem draw_fails {frame : Grid UInt8} {display : Display} {scale : Nat} {fault : Fault}
    (failed : draw frame display scale = .error fault) :
    fault = .undrawable (frame.width * max scale 1) (frame.height * max scale 1) := by
  unfold draw at failed
  dsimp only at failed
  split at failed
  · cases failed
  · exact (Except.error.inj failed).symm

/-- A frame whose enlarged sides have 32 bits and whose picture can be allocated is drawn without a
slip: no pixel is drawn outside the picture or a second time, and in the end none is left blank. Each
has the colour of the frame's pixel that it falls in. -/
theorem frame_drawn_exactly {frame : Grid UInt8} (display : Display) {scale : Nat}
    (wide : frame.width * max scale 1 < 2 ^ 32) (high : frame.height * max scale 1 < 2 ^ 32)
    (fits : 4 * frame.width * frame.height * max scale 1 * max scale 1 < 2 ^ 63) :
    let factor := max scale 1
    let picture := ofFrame frame display scale
    Canvas.ofFrame frame display scale = .ok (picture.map some) ∧
    picture.width = frame.width * factor ∧ picture.height = frame.height * factor ∧
    ∀ x y, picture.get? x y =
      (frame.get? (x / factor) (y / factor)).map fun byte => (display.lookup byte).rgba := by
  intro factor picture
  have room : frame.width * factor * (frame.height * factor) * 4 ≤ largestBuffer := by
    have sides : frame.width * factor * (frame.height * factor) * 4 =
        4 * frame.width * frame.height * factor * factor := by
      ac_rfl
    rw [sides]
    exact Nat.le_pred_of_lt fits
  exact ⟨drawn_whole display wide high room, enlargedSide_eq wide, enlargedSide_eq high,
    get?_ofFrame display wide high⟩

theorem frame_drawn_exactly_pair :
    let frame : Grid UInt8 := ⟨2, 1, #[64, 65], rfl, Grid.area_pair⟩
    let display := Display.ofPhoto Palette.fixed 64
    let picture := ofFrame frame display 2
    frame.width * max 2 1 < 2 ^ 32 ∧ frame.height * max 2 1 < 2 ^ 32 ∧
      4 * frame.width * frame.height * max 2 1 * max 2 1 < 2 ^ 63 ∧
      Canvas.ofFrame frame display 2 = .ok (picture.map some) ∧ picture.width = 4 ∧ picture.height = 2 ∧
      picture.get? 3 1 = some (display.lookup 65).rgba ∧ picture.get? 4 1 = none := by
  intro frame display picture
  have wide : frame.width * max 2 1 < 2 ^ 32 := by decide
  have high : frame.height * max 2 1 < 2 ^ 32 := by decide
  have fits : 4 * frame.width * frame.height * max 2 1 * max 2 1 < 2 ^ 63 := by decide
  obtain ⟨drawn, width, height, pixels⟩ := frame_drawn_exactly display wide high fits
  exact ⟨wide, high, fits, drawn, width, height, pixels 3 1, pixels 4 1⟩

end Picture
end Roomscape
