import Roomscape.CommandLine
import Roomscape.Host.Rooms
import Roomscape.Host.Settings
import Roomscape.Palette.Listing
import Roomscape.StatusLine
import Roomscape.Viewer

/-!
The commands: what each of them loads, writes and says.
-/
namespace Roomscape.Program

variable {m : Type → Type} [Monad m] (host : Host m) (printer : Printer)

def versionText : String := "roomview 0.1.0"

def say (tone : Tone) (verb message : String) : Task m Unit :=
  host.report (printer.line tone verb message)

def write (lines : List String) : Task m Unit := lines.forM fun line => (host.output line : Task m Unit)

def display (path : UnixPath) : Task m String := host.displayPath path

/-- The settings that a command works with; a file that they come from is named. -/
def settings (named : Option UnixPath) : Task m ViewConfig := do
  let (config, source) ← host.discoverConfig named ⟨"."⟩
  if let some path := source then
    say host printer .info "Config" (← display host path)
  return config

def quantize (raw : Grid Raw) : Task m Quantized := do
  let q := Quantized.ofRaw raw
  host.note (.quantized raw.width raw.height q.figures)
  return q

def spriteLines (image : Sprite) : List String :=
  [s!"width: {image.width}", s!"height: {image.height}", s!"opaque: {image.visibleCount}",
   s!"transparent: {image.pixels.len - image.visibleCount}"]

def photoLines (raw : Grid Raw) (f : Figures) : List String :=
  [s!"width: {raw.width}", s!"height: {raw.height}", s!"pixels: {f.pixels}",
   s!"fine buckets: {f.fineUsed}/{fineKeys}", s!"coarse buckets: {f.coarseUsed}/{coarseKeys}",
   s!"fine coverage: {oneDecimal (f.fineRatio * 100.0)}%"]

def info (config : ViewConfig) (file : UnixPath) (sprite : Bool) : Task m Unit := do
  let header ← host.readHeader file
  let shown ← display host file
  say host printer .info "Header"
    s!"{shown} is {dimensions header.width.toNat header.height.toNat}"
  if sprite then
    write host (spriteLines (← host.loadImage file config.load))
  else
    let raw ← host.loadRaw file config.load
    let q ← quantize host raw
    write host (photoLines raw q.figures)
    if fineSlots < q.figures.fineUsed then
      let missed := plural (q.figures.pixels - q.figures.fineCoverage) "pixel" "pixels"
      say host printer .warning "Reduced" s!"{missed} fell back to coarse colours"

/-- The lines of the listing that are printed. -/
def listed (q : Quantized) (most : Option Nat) : List SlotLine :=
  let lines := q.palette.listing q.figures.fineUsed
  match most with
  | some n => lines.take n
  | none => lines

def palette (config : ViewConfig) (file : UnixPath) (most : Option Nat) (json : Bool) :
    Task m Unit := do
  let raw ← host.loadRaw file config.load
  let lines := listed (← quantize host raw) most
  let count := plural lines.length "colour" "colours"
  let shown ← display host file
  say host printer .status "Quantized" s!"{count} from {shown}"
  write host (if json then [SlotLine.jsonArray lines] else lines.map SlotLine.plain)

def saveFrame (frame : Grid UInt8) (table : Display) (target : UnixPath) (scale : Nat) :
    Task m Unit := do
  if frame.isEmpty then throw .emptyFrame
  let picture ← ofExcept (Picture.draw frame table scale)
  if !(← host.savePicture target picture) then
    throw (.file target .savePicture)

def prepareFolder (target : UnixPath) : Task m Unit := do
  match target.parent? with
  | none => pure ()
  | some folder =>
    if !folder.text.isEmpty then
      if !(← host.makeFolders folder) then throw (.file folder .makeFolder)

/-- The frame that a viewer shows of a room, and the colour table that its display was sent. -/
def compose (config : ViewConfig) (room : Room) (x y : Int32) (order : ScanOrder) :
    Task m (Grid UInt8 × Display) := do
  let viewer ← ofExcept (Viewer.initial.withOffset config.paletteOffset)
  let (viewer, register, notice) := viewer.activate room .untouched
  host.note notice
  let some sent := register.last | throw (.nothingSent room.name)
  let received ← ofExcept (Palette.ofBytes sent.toArray)
  let frame ← ofExcept (viewer.window x y config.scrollWidth config.scrollHeight order)
  return (frame, Display.ofPhoto received viewer.offset)

def render (config : ViewConfig) (manifestPath : UnixPath) (x y : Int32)
    (target : Option UnixPath) (scale : Nat) (vertical : Bool) : Task m Unit := do
  let manifest ← host.loadManifest manifestPath
  let count := plural manifest.sprites.length "sprite" "sprites"
  say host printer .status "Loading" s!"{manifest.name} ({count})"
  let room ← host.buildRoom manifest config.load
  let (frame, table) ← compose host config room x y (if vertical then .columns else .rows)
  let target := target.getD ⟨room.name ++ ".png"⟩
  prepareFolder host target
  saveFrame host frame table target scale
  let shown ← display host target
  say host printer .status "Rendered"
    s!"{dimensions frame.width frame.height} at ({x.toInt}, {y.toInt}) -> {printer.cyan shown}"

/-- Run a command. Completions are the business of the shell that asks for them. -/
def run (line : CommandLine) : Task m Unit := do
  match line.command with
  | .info file sprite => info host printer (← settings host printer line.config) file sprite
  | .palette file most json =>
    palette host printer (← settings host printer line.config) file most json
  | .render room x y target scale vertical =>
    render host printer (← settings host printer line.config) room x y target scale vertical
  | .completions _ => pure ()

end Roomscape.Program
