import Roomscape.Proofs.GuardedFills
import Roomscape.Proofs.ScanOrders

/-! Whether a window is made at all. A frame larger than any buffer is refused, the same way in both
scan orders; and nothing else can go wrong but one thing: the buffer that all columns share is as high
as the window even if there are no columns, and it is not asked for as the frame is. -/
namespace Roomscape

/-- A line without pixels ends where it starts. -/
theorem LineFits.of_pixels {origin : Int32} {length : Nat}
    (some : 0 < length → LineFits origin length) : LineFits origin length := by
  rcases Nat.eq_zero_or_pos length with none | pixels
  · exact .of_short (by omega)
  · exact some pixels

namespace Guarded

/-- A loop whose passes are never ended, as long as it keeps what they rely on. -/
theorem foldlM_range_eq {σ : Type} {pass : σ → Nat → Guarded σ} {plain : Nat → σ → σ} {n : Nat}
    (Kept : σ → Prop) (each : ∀ k < n, ∀ s, Kept s → pass s k = pure (plain k s) ∧ Kept (plain k s))
    {s : σ} (start : Kept s) :
    (List.range n).foldlM pass s = pure (n.fold (fun k _ => plain k) s) ∧
      Kept (n.fold (fun k _ => plain k) s) := by
  induction n with
  | zero => exact ⟨rfl, start⟩
  | succ n ih =>
    obtain ⟨passed, kept⟩ := ih fun k below => each k (by omega)
    obtain ⟨last, kept'⟩ := each n (Nat.lt_succ_self n) _ kept
    rw [List.range_succ, List.foldlM_append, passed, pure_bind, List.foldlM_cons, last, pure_bind,
      Nat.fold_succ]
    exact ⟨rfl, kept'⟩

end Guarded

namespace Grid

variable {α : Type} (g : Grid α)

/-- A pixel is written where it could be read. -/
def guardedPut (x y : Nat) (value : α) : Guarded (Grid α) := do
  discard (g.guardedGet x y)
  return g.put x y value

def guardedWriteColumn (x : Nat) (run : Array α) : Guarded (Grid α) :=
  (List.finRange run.size).foldlM (fun g (k : Fin _) => g.guardedPut x k run[k]) g

theorem guardedPut_eq (x y : Nat) (value : α) : g.guardedPut x y value = pure (g.put x y value) := by
  simp only [guardedPut, guardedGet_eq]
  rfl

theorem guardedWriteColumn_eq (x : Nat) (run : Array α) :
    g.guardedWriteColumn x run = pure (g.writeColumn x run) := by
  simp only [guardedWriteColumn, guardedPut_eq, List.foldlM_pure, writeColumn, writeAlong,
    Nat.fold_eq_finRange_foldl]
  rfl

end Grid

/-- The course of a scan order's lines. -/
def ScanOrder.course : ScanOrder → Course
  | .rows => .across
  | .columns => .down

/-- How long a scan order's lines are. -/
def ScanOrder.length : ScanOrder → Nat → Nat → Nat
  | .rows, width, _ => width
  | .columns, _, height => height

namespace Viewer

variable (v : Viewer) (x y : Int32) (width height : Nat)

def guardedFill (course : Course) (x y : Int32) (buffer : Array UInt8) : Guarded (Array UInt8) :=
  match v.active with
  | some room => room.guardedFill v.offset x y buffer course
  | none => return buffer.map fun _ => backdrop

/-- A row is a slice of the frame, and filled where it stands. -/
def guardedFillRow (frame : Grid UInt8) (row : Nat) : Guarded (Grid UInt8) := do
  match ← frame.guardedRow row with
  | some line => return frame.writeRow row (← v.guardedFill .across x (advance y row) line)
  | none => return frame

def guardedFillColumn (state : Grid UInt8 × Array UInt8) (col : Nat) :
    Guarded (Grid UInt8 × Array UInt8) := do
  let (frame, buffer) := state
  let buffer ← v.guardedFill .down (advance x col) y buffer
  return (← frame.guardedWriteColumn col buffer, buffer)

/-- A window in which every step is guarded but those that ask for memory. -/
def guardedWindow (order : ScanOrder) : Guarded (Except Fault (Grid UInt8)) := do
  match Grid.filled width height backdrop 1 with
  | .error fault => return .error fault
  | .ok blank =>
    match order with
    | .rows => return .ok (← (List.range height).foldlM (v.guardedFillRow x y) blank)
    | .columns =>
      if largestBuffer < height then return .error (.unboundedBuffer height)
      let filled ← (List.range width).foldlM (v.guardedFillColumn x y)
        (blank, Array.replicate height backdrop)
      return .ok filled.1

theorem width_fillRow (row : Nat) (frame : Grid UInt8) :
    (v.fillRow x y row frame).width = frame.width := by
  unfold fillRow
  split <;> simp

section Fits

variable {v x y width height} (fits : v.offset.toNat ≤ 64)

include fits

theorem guardedFill_eq (course : Course) {buffer : Array UInt8}
    (line : v.active.isSome → LineFits (course.origin x y) buffer.size) :
    v.guardedFill course x y buffer = pure (v.fill course x y buffer) := by
  unfold guardedFill fill
  cases active : v.active with
  | none => rfl
  | some room => exact room.guardedFill_of_lineFits x y fits course (line (by simp [active]))

theorem guardedFillRow_eq {frame : Grid UInt8} (row : Nat)
    (line : v.active.isSome → LineFits x frame.width) :
    v.guardedFillRow x y frame row = pure (v.fillRow x y row frame) := by
  unfold guardedFillRow fillRow
  rw [Grid.guardedRow_eq, pure_bind]
  by_cases inside : row < frame.height
  · obtain ⟨pixels, found, size, _⟩ := frame.row?_eq_some inside
    simp only [found]
    have line : v.active.isSome → LineFits x pixels.size := by rwa [size]
    rw [guardedFill_eq fits .across line, pure_bind]
  · simp [Grid.row?, inside]

theorem guardedFillColumn_eq {frame : Grid UInt8} {buffer : Array UInt8} (col : Nat)
    (line : v.active.isSome → LineFits y buffer.size) :
    v.guardedFillColumn x y (frame, buffer) col = pure (v.fillColumn x y col (frame, buffer)) := by
  simp only [guardedFillColumn, fillColumn]
  rw [guardedFill_eq fits .down line, pure_bind, Grid.guardedWriteColumn_eq, pure_bind]

theorem guardedFillRows_eq {frame : Grid UInt8}
    (line : 0 < frame.height → v.active.isSome → LineFits x frame.width) :
    (List.range frame.height).foldlM (v.guardedFillRow x y) frame = pure (v.fillRows x y frame) := by
  refine (Guarded.foldlM_range_eq (fun filled => filled.width = frame.width) ?_ rfl).1
  intro row inside filled kept
  have high := Nat.zero_lt_of_lt inside
  constructor
  · exact guardedFillRow_eq fits row (by simpa only [kept] using line high)
  · simp only [width_fillRow, kept]

theorem guardedFillColumns_eq {frame : Grid UInt8} {buffer : Array UInt8}
    (size : buffer.size = frame.height)
    (line : 0 < frame.width → v.active.isSome → LineFits y frame.height) :
    (List.range frame.width).foldlM (v.guardedFillColumn x y) (frame, buffer) =
      pure (frame.width.fold (fun col _ => v.fillColumn x y col) (frame, buffer)) := by
  refine (Guarded.foldlM_range_eq (fun filled => filled.2.size = frame.height) ?_ size).1
  intro col inside filled kept
  have wide := Nat.zero_lt_of_lt inside
  constructor
  · exact guardedFillColumn_eq fits col (by simpa only [kept] using line wide)
  · simp only [fillColumn, size_fill, kept]

/-- A window is never ended by a number, a slice or an index, if its lines can be counted. -/
theorem guardedWindow_eq (order : ScanOrder) (line : 0 < width * height → v.active.isSome →
      LineFits (order.course.origin x y) (order.length width height)) :
    v.guardedWindow x y width height order = pure (v.window x y width height order) := by
  unfold guardedWindow window
  cases made : Grid.filled width height backdrop 1 with
  | error fault => rfl
  | ok blank =>
    obtain ⟨rfl, rfl, _⟩ := Grid.get?_filled made
    cases order with
    | rows =>
      have across (high : 0 < blank.height) (active : v.active.isSome) : LineFits x blank.width :=
        .of_pixels fun wide => line (Nat.mul_pos wide high) active
      simp only [guardedFillRows_eq fits across, pure_bind]
      rfl
    | columns =>
      have down (wide : 0 < blank.width) (active : v.active.isSome) : LineFits y blank.height :=
        .of_pixels fun high => line (Nat.mul_pos wide high) active
      by_cases tall : largestBuffer < blank.height
      · simp only [if_pos tall]
        rfl
      · have shared : (Array.replicate blank.height backdrop).size = blank.height := by simp
        simp only [if_neg tall, guardedFillColumns_eq fits shared down, pure_bind]
        rfl

end Fits

/-- A window whose frame is larger than any buffer is refused for its size, in both scan orders. Every
other window is made at its size, unless it has no columns and is higher than any buffer: scanned by
columns it then breaks off, as it asks for a line without a bound. No number, slice or index ends a
window, as long as its lines can be counted. -/
theorem windows_fail_for_size (v : Viewer) (x y : Int32) (width height : Nat) :
    (largestBuffer < width * height →
      ∃ shortage, ∀ order, v.window x y width height order = .error (.exhausted shortage)) ∧
    (width * height ≤ largestBuffer → ∀ order,
      if order = .columns ∧ largestBuffer < height then
        width = 0 ∧ v.window x y width height order = .error (.unboundedBuffer height)
      else
        ∃ frame, v.window x y width height order = .ok frame ∧ frame.width = width ∧
          frame.height = height) ∧
    (v.offset.toNat ≤ 64 → ∀ order, (0 < width * height → v.active.isSome →
        LineFits (order.course.origin x y) (order.length width height)) →
      v.guardedWindow x y width height order = pure (v.window x y width height order)) := by
  refine ⟨v.window_exhausted x y width height, ?_, fun fits => guardedWindow_eq fits⟩
  intro area order
  split
  case isTrue unbounded =>
    obtain ⟨rfl, tall⟩ := unbounded
    exact v.window_unbounded x y width height area tall
  case isFalse bounded => exact v.window_made x y width height area bounded

theorem windows_fail_for_size_hall :
    4 * 1 ≤ largestBuffer ∧ hall.offset.toNat ≤ 64 ∧ LineFits 0 1 ∧
    ∃ frame, hall.guardedWindow (-2) 0 4 1 .columns = pure (.ok frame) ∧ frame.width = 4 ∧
      frame.height = 1 := by
  have area : 4 * 1 ≤ largestBuffer := by decide
  have offset : hall.offset.toNat ≤ 64 := by decide
  have line : LineFits 0 1 := .of_short (by decide)
  obtain ⟨_, made, guarded⟩ := windows_fail_for_size hall (-2) 0 4 1
  have bounded : ¬ (ScanOrder.columns = .columns ∧ largestBuffer < 1) := by decide
  have window := made area .columns
  rw [if_neg bounded] at window
  obtain ⟨frame, same, wide, high⟩ := window
  refine ⟨area, offset, line, frame, ?_, wide, high⟩
  rw [guarded offset .columns fun _ _ => line, same]

/-- A window without columns, and without pixels. Rows make it. -/
theorem tall_columns_break_off :
    0 * 0x8000000000000000 ≤ largestBuffer ∧
    (∃ frame, initial.window 0 0 0 0x8000000000000000 .rows = .ok frame ∧ frame.width = 0 ∧
      frame.height = 0x8000000000000000) ∧
    initial.window 0 0 0 0x8000000000000000 .columns =
      .error (.unboundedBuffer 0x8000000000000000) := by
  have area : 0 * 0x8000000000000000 ≤ largestBuffer := by decide
  have tall : largestBuffer < 0x8000000000000000 := by decide
  refine ⟨area, initial.window_made 0 0 _ _ area (by simp), ?_⟩
  exact (initial.window_unbounded 0 0 _ _ area tall).2

end Viewer
end Roomscape
