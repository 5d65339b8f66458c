import Roomscape.Host
import Roomscape.Manifest
import Roomscape.Room

/-!
Rooms from manifests. An image that several sprites name is loaded once, and two spellings of one path
name one image.
-/
namespace Roomscape.Host

variable {m : Type → Type} [Monad m] (host : Host m)

def loadManifest (path : UnixPath) : Task m Manifest := do
  match ← host.readText path with
  | .error .absent => throw (.notFound path)
  | .error .refused => throw (.file path .readManifest)
  | .ok text => return (← ofExcept (Manifest.parse text)).locate path

abbrev Shelf := List (UnixPath × Sprite)

def Shelf.find? (shelf : Shelf) (path : UnixPath) : Option Sprite :=
  (List.find? (fun (known, _) => known.same path) shelf).map Prod.snd

/-- The image at a path, from the shelf if it stands there. -/
def takeImage (options : LoadOptions) (shelf : Shelf) (path : UnixPath) :
    Task m (Sprite × Shelf) := do
  match Shelf.find? shelf path with
  | some image => pure (image, shelf)
  | none =>
    let image ← host.loadImage path options
    pure (image, shelf ++ [(path, image)])

def placeSprites (options : LoadOptions) : List SpriteEntry → Shelf → Room → Task m (Room × Shelf)
  | [], shelf, room => pure (room, shelf)
  | s :: rest, shelf, room => do
    let (image, shelf) ← host.takeImage options shelf s.image
    placeSprites options rest shelf (room.place ⟨s.x, s.y, image⟩)

def buildRoom (manifest : Manifest) (options : LoadOptions) : Task m Room := do
  let photo ← host.loadPhoto manifest.photo options
  let (room, shelf) ← host.placeSprites options manifest.sprites [] ⟨manifest.name, photo, []⟩
  host.note (.builtRoom room.name room.placements.length shelf.length)
  pure room

end Roomscape.Host
