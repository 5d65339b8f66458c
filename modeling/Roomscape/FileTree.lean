import Roomscape.Host
import Roomscape.Picture.Format

/-!
A system in memory: a tree of folders and files, a working folder, and the lines written so far. A
path is followed segment by segment from the working folder, and what it passes must be folders.
-/
namespace Roomscape

abbrev Location := List String

inductive Item where
  | folder
  | file (bytes : List UInt8)
  | picture (format : PictureFormat) (content : Picture)

namespace Item

def isFolder : Item → Bool
  | .folder => true
  | _ => false

def bytes? : Item → Option (List UInt8)
  | .folder => none
  | .file bytes => some bytes
  | .picture format content => some (format.bytes content)

end Item

structure FileTree where
  item? : Location → Option Item

namespace FileTree

def bare : FileTree := ⟨fun location => if location == [] then some .folder else none⟩

def put (t : FileTree) (location : Location) (item : Item) : FileTree :=
  ⟨fun other => if other == location then some item else t.item? other⟩

inductive Outcome where
  | found (location : Location) (item : Item)
  | absent
  | refused

def longestName : Nat := 255
def longestPath : Nat := 4095

def follow (t : FileTree) : Location → List String → Outcome
  | location, [] =>
    match t.item? location with
    | some item => .found location item
    | none => .absent
  | location, segment :: rest =>
    match t.item? location with
    | none => .absent
    | some .folder =>
      if segment == "" || segment == "." then follow t location rest
      else if segment == ".." then follow t location.dropLast rest
      else if longestName < segment.utf8ByteSize then .refused
      else follow t (location ++ [segment]) rest
    | some _ => .refused

/-- A path that no system call accepts. -/
def isUnusable (path : UnixPath) : Bool :=
  longestPath < path.text.utf8ByteSize || path.text.contains (Char.ofNat 0)

def origin (here : Location) (path : UnixPath) : Location := if path.isAbsolute then [] else here

def lookup (t : FileTree) (here : Location) (path : UnixPath) : Outcome :=
  if path.text.isEmpty then .absent
  else if isUnusable path then .refused
  else t.follow (origin here path) path.segments

inductive Made where
  | made (t : FileTree)
  | taken
  | absent
  | refused

/-- Put an item under a new name in the folder where the segments lead. -/
def create (t : FileTree) (start : Location) (folder : List String) (name : String) (item : Item) :
    Made :=
  match t.follow start folder with
  | .absent => .absent
  | .refused => .refused
  | .found location .folder =>
    if name == "" || name == "." || name == ".." then .taken
    else if longestName < name.utf8ByteSize then .refused
    else if (t.item? (location ++ [name])).isSome then .taken
    else .made (t.put (location ++ [name]) item)
  | .found .. => .refused

/-- Make one folder. Slashes at the end of its path do not count. -/
def makeFolder (t : FileTree) (here : Location) (path : UnixPath) : Made :=
  if path.text.isEmpty then .absent
  else if isUnusable path then .refused
  else
    match (path.segments.reverse.dropWhile (· == "")) with
    | [] => .taken
    | name :: before => t.create (origin here path) before.reverse name .folder

def isFolder (t : FileTree) (here : Location) (path : UnixPath) : Bool :=
  match t.lookup here path with
  | .found _ item => item.isFolder
  | _ => false

/-- Make a folder and those it stands in, outermost first. What was made stays, even if a folder
further in cannot be made. `depth` bounds the folders around it. -/
def makeFolders (here : Location) : Nat → UnixPath → FileTree → Bool × FileTree
  | depth, path, t =>
    if path.text.isEmpty then (true, t)
    else
      match t.makeFolder here path, depth, path.parent? with
      | .made t, _, _ => (true, t)
      | .absent, depth + 1, some outer =>
        match makeFolders here depth outer t with
        | (true, t) =>
          match t.makeFolder here path with
          | .made t => (true, t)
          | _ => (t.isFolder here path, t)
        | stopped => stopped
      | .absent, _, _ => (false, t)
      | _, _, _ => (t.isFolder here path, t)

def write (t : FileTree) (here : Location) (path : UnixPath) (item : Item) : Option FileTree :=
  if path.text.isEmpty || isUnusable path then none
  else
    match path.segments.reverse with
    | [] => none
    | name :: before =>
      match t.create (origin here path) before.reverse name item with
      | .made t => some t
      | .taken =>
        match t.lookup here path with
        | .found location found => if found.isFolder then none else some (t.put location item)
        | _ => none
      | _ => none

end FileTree

/-- A tree with a working folder, and what was written and noted, the latest last. -/
structure World where
  tree : FileTree
  here : Location
  output : Array String
  reports : Array String
  notices : Array Notice

namespace World

def openFile (w : World) (path : UnixPath) : Except OpenFailure Source :=
  match w.tree.lookup w.here path with
  | .absent => .error .absent
  | .refused => .error .refused
  | .found _ item =>
    match item.bytes? with
    | some bytes => .ok (Source.ofBytes bytes)
    | none => .ok (Source.broken "Is a directory")

def isFile (w : World) (path : UnixPath) : Bool :=
  match w.tree.lookup w.here path with
  | .found _ item => !item.isFolder
  | _ => false

/-- A file is made, or emptied, for every form that is known, and stays empty if the picture cannot
be written in it. -/
def savePicture (w : World) (path : UnixPath) (content : Picture) : Bool × World :=
  match PictureFormat.ofName? path with
  | none => (false, w)
  | some format =>
    let fits := format.holds content
    match w.tree.write w.here path (if fits then .picture format content else .file []) with
    | some tree => (fits, { w with tree })
    | none => (false, w)

def makeFolders (w : World) (path : UnixPath) : Bool × World :=
  let (made, tree) := FileTree.makeFolders w.here path.segments.length path w.tree
  (made, { w with tree })

def host : Host (StateM World) where
  openFile path := do return (← get).openFile path
  isFile path := do return (← get).isFile path
  makeFolders path := modifyGet fun w => w.makeFolders path
  savePicture path content := modifyGet fun w => w.savePicture path content
  workingFolder := do return some ⟨"/" ++ "/".intercalate (← get).here⟩
  output line := modify fun w => { w with output := w.output.push line }
  report line := modify fun w => { w with reports := w.reports.push line }
  note notice := modify fun w => { w with notices := w.notices.push notice }

end World
end Roomscape
