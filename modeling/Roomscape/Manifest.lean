import Roomscape.Fault
import Roomscape.Yaml.Repetition

/-!
Room manifests: the name of a room, its photo file, and for every sprite its image file and position.
-/
namespace Roomscape

structure SpriteEntry where
  image : UnixPath
  x : Int32
  y : Int32
deriving DecidableEq

structure Manifest where
  name : String
  photo : UnixPath
  sprites : List SpriteEntry
deriving DecidableEq

namespace Manifest

def coordinate? (d : Yaml.Document) (node : Yaml.Node) : Option Int32 :=
  (d.signed? Int32.minValue.toInt Int32.maxValue.toInt node).map Int32.ofInt

def path? (d : Yaml.Document) (node : Yaml.Node) : Option UnixPath :=
  (d.text? node).map UnixPath.mk

def placed? (d : Yaml.Document) (node : Yaml.Node) : Option SpriteEntry := do
  let fields ← d.fields? node
  some
    { image := ← fields.get? "image" (path? d)
      x := ← fields.get? "x" (coordinate? d)
      y := ← fields.get? "y" (coordinate? d) }

def ofDocument? (d : Yaml.Document) : Option Manifest := do
  let fields ← d.rootFields?
  some
    { name := ← fields.getD? "name" "" d.text?
      photo := ← fields.get? "photo" (path? d)
      sprites := ← fields.getD? "sprites" [] fun node => do (← d.items? node).mapM (placed? d) }

def placedHops (name : String) (value : Yaml.Node) : Nat :=
  if name ∈ ["image", "x", "y"] then value.hops else 0

/-- The aliases followed to read the value of a field. -/
def fieldHops (d : Yaml.Document) (name : String) (value : Yaml.Node) : Nat :=
  match name with
  | "name" | "photo" => value.hops
  | "sprites" => d.listHops (d.recordHops placedHops) value
  | _ => 0

def repeatsTooOften (d : Yaml.Document) : Bool :=
  d.root.any fun node => d.hopLimit < d.recordHops (fieldHops d) node

def parse (text : String) : Except Fault Manifest :=
  match Yaml.Document.ofText? text with
  | none => .error .badManifest
  | some d =>
    if repeatsTooOften d then .error .badManifest
    else
      match ofDocument? d with
      | none => .error .badManifest
      | some m => .ok m

def resolvePaths (m : Manifest) (base : UnixPath) : Manifest :=
  { m with
    photo := base.join m.photo
    sprites := m.sprites.map fun s => { s with image := base.join s.image } }

/-- The name of a room whose manifest gives none: the file name up to its first dot. -/
def nameFromPath (path : UnixPath) : String :=
  match path.fileName? with
  | some name => String.ofList (name.toList.takeWhile (· != '.'))
  | none => "room"

/-- The manifest as read from the file at `path`: with a name, and with paths from its folder. -/
def locate (m : Manifest) (path : UnixPath) : Manifest :=
  let named := if m.name.isEmpty then { m with name := nameFromPath path } else m
  match path.parent? with
  | some base => named.resolvePaths base
  | none => named

end Manifest
end Roomscape
