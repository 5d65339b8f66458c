import Roomscape.UnixPath

/-!
Everything that can go wrong, as causes. Each cause has one text, one code and at most one piece of
advice, and they are all written here.
-/
namespace Roomscape

/-- The two kinds of pixel file, which have limits of their own. -/
inductive PixelKind where
  | photo
  | image
deriving DecidableEq

def PixelKind.text : PixelKind → String
  | .photo => "photo"
  | .image => "image"

def dimensions (width height : Nat) : String := s!"{width}x{height}"

/-- What is wrong with a piece of data. -/
inductive Flaw where
  | areaOverflow (width height : Nat)
  | pixelCount (width height needed got : Nat)
  | gridShape (kind : PixelKind) (gridWidth gridHeight width height : Nat)
  | indexRange (index : Nat)
  | raggedRows
  | dimensionRange (size : Nat)
  | paletteLength (got : Nat)
  | shortHeader
  | shortRow (row width height : Nat)
  | oversize (kind : PixelKind) (width height maxWidth maxHeight : Nat)
deriving DecidableEq

def Flaw.text : Flaw → String
  | .areaOverflow w h => s!"grid dimensions {dimensions w h} overflow"
  | .pixelCount w h needed got => s!"grid {dimensions w h} needs {needed} pixels, got {got}"
  | .gridShape kind gw gh w h =>
    s!"{kind.text} grid is {dimensions gw gh} but header declares {dimensions w h}"
  | .indexRange index => s!"palette index {index} out of range (palette has 192 entries)"
  | .raggedRows => "image rows have different lengths"
  | .dimensionRange size => s!"dimension {size} exceeds 65535"
  | .paletteLength got => s!"palette needs 576 bytes, got {got}"
  | .shortHeader => "truncated header"
  | .shortRow row w h => s!"truncated pixel data in row {row} of {dimensions w h}"
  | .oversize kind w h mw mh =>
    s!"{kind.text} is {dimensions w h}, larger than the {dimensions mw mh} maximum"

def Flaw.help : Flaw → Option String
  | .oversize .. => some "Check the file header or raise the limits in roomview.yaml"
  | _ => none

inductive Shortage where
  | area (width height : Nat)
  | grid
  | histogram
deriving DecidableEq

def Shortage.text : Shortage → String
  | .area w h => s!"grid dimensions {dimensions w h} overflow"
  | .grid => "could not allocate pixel grid"
  | .histogram => "could not allocate histogram"

inductive FileAction where
  | openFile
  /-- With what the system said of the read that failed. -/
  | readPixels (why : String)
  | readConfig
  | readManifest
  | makeFolder
  | savePicture
deriving DecidableEq

def FileAction.text : FileAction → String
  | .openFile => "Failed to open"
  | .readPixels _ => "Failed to read"
  | .readConfig => "Failed to read config"
  | .readManifest => "Failed to read room manifest"
  | .makeFolder => "Failed to create output directory"
  | .savePicture => "Failed to write PNG"

inductive Fault where
  | notFound (path : UnixPath)
  | malformed (file : Option UnixPath) (flaw : Flaw)
  | readFailed (text : String)
  | file (path : UnixPath) (action : FileAction)
  | exhausted (shortage : Shortage)
  | badConfig
  | badManifest
  | emptyWindow (width height : Nat)
  | paletteOffset (offset : Nat)
  | nothingSent (room : String)
  | emptyFrame
  /-- A buffer longer than any allocation stops the run without a report. -/
  | unboundedBuffer (length : Nat)
  /-- So does a picture with sides of more than 32 bits, or larger than any allocation. -/
  | undrawable (width height : Nat)
deriving DecidableEq

namespace Fault

inductive Category where
  | notFound
  | malformed
  | stream
  | file
  | exhausted
  | parse
  | render
  | abort
deriving DecidableEq

def category : Fault → Category
  | .notFound _ => .notFound
  | .malformed .. => .malformed
  | .readFailed _ => .stream
  | .file .. => .file
  | .exhausted _ => .exhausted
  | .badConfig => .parse
  | .badManifest => .parse
  | .emptyWindow .. => .parse
  | .paletteOffset _ => .render
  | .nothingSent _ => .render
  | .emptyFrame => .render
  | .unboundedBuffer _ => .abort
  | .undrawable .. => .abort

def Category.code : Category → String
  | .notFound => "roomview::not_found"
  | .malformed => "roomview::malformed"
  | .stream => "roomview::io"
  | .file => "roomview::io"
  | .exhausted => "roomview::resource_exhausted"
  | .parse => "roomview::parse"
  | .render => "roomview::render"
  | .abort => "roomview::abort"

def message : Fault → String
  | .notFound path => s!"Not found: {path.text}"
  | .malformed none flaw => s!"Malformed data: {flaw.text}"
  | .malformed (some path) flaw => s!"Malformed data: {path.text}: {flaw.text}"
  | .readFailed text => s!"IO error: {text}"
  | .file path action => s!"IO error with {path.text}: {action.text}"
  | .exhausted shortage => s!"Resource exhausted: {shortage.text}"
  | .badConfig => "Parse error: Invalid config"
  | .badManifest => "Parse error: Invalid room manifest"
  | .emptyWindow w h => s!"Parse error: scroll window must be non-empty, got {dimensions w h}"
  | .paletteOffset n =>
    s!"Render error: palette_offset {n} would push photo colours past slot 255"
  | .nothingSent room => s!"Render error: activating '{room}' sent no palette"
  | .emptyFrame => "Render error: Cannot write an empty frame"
  | .unboundedBuffer n => s!"capacity overflow: a line of {n} bytes"
  | .undrawable w h => s!"capacity overflow: a picture of {dimensions w h} pixels"

/-- The message, with what the system said behind it. -/
def report (fault : Fault) : String :=
  match fault with
  | .file _ (.readPixels why) => s!"{fault.message}: {why}"
  | _ => fault.message

def help : Fault → Option String
  | .malformed _ flaw => flaw.help
  | .badConfig => some "Check roomview.yaml syntax"
  | .badManifest => some "A room needs at least a `photo:` entry"
  | .paletteOffset _ => some "Use a value between 0 and 64"
  | .emptyFrame => some "Check the scroll window dimensions in roomview.yaml"
  | _ => none

/-- Name the file a fault was met in. Faults that already name one are left alone. -/
def inFile (path : UnixPath) : Fault → Fault
  | .readFailed why => .file path (.readPixels why)
  | .malformed none flaw => .malformed (some path) flaw
  | fault => fault

end Fault
end Roomscape
