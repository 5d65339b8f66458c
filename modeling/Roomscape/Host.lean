import Roomscape.Picture
import Roomscape.PixelFile

/-!
What the program asks of the system that it runs on: files, a working folder, and places to write
lines to. Everything the program does is written against this record, in whatever monad the system
works.
-/
namespace Roomscape

inductive OpenFailure where
  | absent
  | refused
deriving DecidableEq

structure Host (m : Type → Type) where
  openFile : UnixPath → m (Except OpenFailure Source)
  isFile : UnixPath → m Bool
  /-- Make a folder and those it stands in. False if one of them could not be made. -/
  makeFolders : UnixPath → m Bool
  /-- Save a picture in the format that the file name asks for. False if it could not be saved. -/
  savePicture : UnixPath → Picture → m Bool
  workingFolder : m (Option UnixPath)
  output : String → m Unit
  report : String → m Unit
  note : Notice → m Unit

/-- What the program does on a system: it may end in a fault. -/
abbrev Task (m : Type → Type) := ExceptT Fault m

namespace Host

variable {m : Type → Type} [Monad m] (host : Host m)

/-- Run a decoder on a file; a fault names the file. -/
def decode {α : Type} (path : UnixPath) (decoder : Decoder α) : Task m α := do
  match ← host.openFile path with
  | .error .absent => throw (.notFound path)
  | .error .refused => throw (.file path .openFile)
  | .ok source =>
    match decoder.run source with
    | .ok a _ => pure a
    | .error fault _ => throw (fault.inFile path)

/-- The whole text of a file. Bytes that are no UTF-8 count as a refusal. -/
def readText (path : UnixPath) : m (Except OpenFailure String) := do
  match ← host.openFile path with
  | .error why => pure (.error why)
  | .ok source =>
    match Source.drain #[] source.deliveries with
    | .error _ => pure (.error .refused)
    | .ok bytes =>
      match String.fromUTF8? ⟨bytes⟩ with
      | some text => pure (.ok text)
      | none => pure (.error .refused)

/-- A path as shown to people: from the working folder, if it lies there. -/
def displayPath (path : UnixPath) : m String := do
  match (← host.workingFolder).bind path.relativeTo? with
  | some below => pure (if below.text.isEmpty then "." else below.text)
  | none => pure path.text

def loadPhoto (path : UnixPath) (options : LoadOptions) : Task m Photo := do
  let (photo, notices) ← host.decode path (PixelFile.photo options)
  notices.forM fun notice => (host.note notice : Task m Unit)
  host.note (.loaded .photo path photo.width photo.height)
  pure photo

def loadImage (path : UnixPath) (options : LoadOptions) : Task m Sprite := do
  let image ← host.decode path (PixelFile.sprite options)
  host.note (.loaded .image path image.width image.height)
  pure image

def loadRaw (path : UnixPath) (options : LoadOptions) : Task m (Grid Raw) :=
  host.decode path (PixelFile.rawPhoto options)

def readHeader (path : UnixPath) : Task m Header :=
  host.decode path PixelFile.header

end Host
end Roomscape
