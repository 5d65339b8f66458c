import Roomscape.Notice
import Roomscape.Palette.Display
import Roomscape.Room

/-!
What is on screen: the active room and the slot from which its photo's colours stand in the display
table. Activating a room sends its palette to the display. A window is built line by line, in rows or
in columns.
-/
namespace Roomscape

/-- The display's palette register: the last palette it was sent, and how many it was sent. -/
structure Register where
  last : Option (List UInt8)
  writes : Nat

def Register.untouched : Register := ⟨none, 0⟩

def Register.send (r : Register) (bytes : List UInt8) : Register := ⟨some bytes, r.writes + 1⟩

structure Viewer where
  active : Option Room
  offset : UInt8

inductive ScanOrder where
  | rows
  | columns
deriving DecidableEq

/-- The coordinate `n` further on, where `n` is cut to 32 bits and the sum stops at either end of
the range. -/
def advance (start : Int32) (n : Nat) : Int32 :=
  Int32.ofInt (max Int32.minValue.toInt (min Int32.maxValue.toInt
    (start.toInt + (Int32.ofNat n).toInt)))

namespace Viewer

def initial : Viewer := ⟨none, 0⟩

def withOffset (v : Viewer) (offset : UInt8) : Except Fault Viewer := do
  checkPaletteOffset offset
  pure { v with offset := offset }

/-- Put a room on screen and send its palette. -/
def activate (v : Viewer) (room : Room) (register : Register) : Viewer × Register × Notice :=
  ({ v with active := some room }, register.send room.photo.palette.toBytes,
    .activated room.name room.placements.length)

/-- Overwrite a buffer with a line of the active room; with no room it shows the backdrop. -/
def fill (v : Viewer) (course : Course) (x y : Int32) (buffer : Array UInt8) : Array UInt8 :=
  match v.active with
  | some room => room.fill v.offset course x y buffer
  | none => buffer.map fun _ => backdrop

def line (v : Viewer) (course : Course) (x y : Int32) (length : Nat) : Array UInt8 :=
  v.fill course x y (Array.replicate length backdrop)

/-- Fill one row of a frame in place. -/
def fillRow (v : Viewer) (x y : Int32) (row : Nat) (frame : Grid UInt8) : Grid UInt8 :=
  match frame.row? row with
  | some line => frame.writeRow row (v.fill .across x (advance y row) line)
  | none => frame

def fillRows (v : Viewer) (x y : Int32) (frame : Grid UInt8) : Grid UInt8 :=
  frame.height.fold (fun row _ => v.fillRow x y row) frame

/-- Fill a buffer and copy it into one column of a frame. -/
def fillColumn (v : Viewer) (x y : Int32) (col : Nat) (state : Grid UInt8 × Array UInt8) :
    Grid UInt8 × Array UInt8 :=
  let (frame, buffer) := state
  let buffer := v.fill .down (advance x col) y buffer
  (frame.writeColumn col buffer, buffer)

/-- All columns take the same buffer in turn. -/
def fillColumns (v : Viewer) (x y : Int32) (frame : Grid UInt8) : Grid UInt8 :=
  (frame.width.fold (fun col _ => v.fillColumn x y col)
    (frame, Array.replicate frame.height backdrop)).1

/-- A window with its top left corner at `(x, y)`. A line does not stop at the end of the coordinate
range, but the start of the next line does. -/
def window (v : Viewer) (x y : Int32) (width height : Nat) (order : ScanOrder) :
    Except Fault (Grid UInt8) := do
  let blank ← Grid.filled width height backdrop 1
  match order with
  | .rows => pure (v.fillRows x y blank)
  | .columns =>
    if largestBuffer < height then throw (.unboundedBuffer height)
    pure (v.fillColumns x y blank)

end Viewer
end Roomscape
