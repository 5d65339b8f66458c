/-!
Unix paths. The text is kept as written; `parts` is the view in which two spellings of one path
agree: a repeated slash, a trailing slash and a `.` that is not first leave no part.
-/
namespace Roomscape

structure UnixPath where
  text : String
deriving DecidableEq, Inhabited

namespace UnixPath

inductive Part where
  | root
  | here
  | up
  | name (text : String)
deriving DecidableEq

/-- What stands between slashes: always one segment more than there are slashes. -/
def splitAtSlashes : List Char → List (List Char)
  | [] => [[]]
  | '/' :: cs => [] :: splitAtSlashes cs
  | c :: cs =>
    match splitAtSlashes cs with
    | [] => [[c]]
    | segment :: rest => (c :: segment) :: rest

def segments (p : UnixPath) : List String :=
  (splitAtSlashes p.text.toList).map String.ofList

/-- The part a segment stands for at the head of a path. -/
def leadingPart : String → Part
  | "" => .root
  | "." => .here
  | ".." => .up
  | s => .name s

/-- The part a later segment stands for, if any. -/
def laterPart? : String → Option Part
  | "" => none
  | "." => none
  | ".." => some .up
  | s => some (.name s)

def parts (p : UnixPath) : List Part :=
  match p.segments with
  | [] => []
  | [""] => []
  | first :: rest => leadingPart first :: rest.filterMap laterPart?

def same (p q : UnixPath) : Bool := p.parts == q.parts

def isAbsolute (p : UnixPath) : Bool := p.text.toList.head? == some '/'

def endsInSlash (p : UnixPath) : Bool := p.text.toList.getLast? == some '/'

/-- `p` read from the folder `base`. A slash is put between unless `base` is empty or ends in one. -/
def join (base p : UnixPath) : UnixPath :=
  if p.isAbsolute then p
  else if base.text == "" || base.endsInSlash then ⟨base.text ++ p.text⟩
  else ⟨base.text ++ "/" ++ p.text⟩

def fileName? (p : UnixPath) : Option String :=
  match p.parts.getLast? with
  | some (.name s) => some s
  | _ => none

/-- Later segments without those at the end that leave no part. -/
def trimEnd (segments : List String) : List String :=
  (segments.reverse.dropWhile fun s => (laterPart? s).isNone).reverse

/-- The path without its last part. The root and the empty path have no parent. -/
def parent? (p : UnixPath) : Option UnixPath :=
  match p.parts, p.segments with
  | [], _ => none
  | [.root], _ => none
  | _, [] => none
  | _, first :: rest =>
    match trimEnd rest with
    | [] => some ⟨""⟩
    | later =>
      match trimEnd later.dropLast with
      | [] => some ⟨if first == "" then "/" else first⟩
      | kept => some ⟨"/".intercalate (first :: kept)⟩

/-- What stands after the last dot of the file name, if something stands before that dot. -/
def extension? (p : UnixPath) : Option String :=
  p.fileName?.bind fun name =>
    match name.toList.reverse.span (· != '.') with
    | (after, '.' :: _ :: _) => some (String.ofList after.reverse)
    | _ => none

/-- Later segments after the first `n` that have a part. -/
def dropParts : Nat → List String → List String
  | 0, segments => segments
  | _ + 1, [] => []
  | n + 1, s :: rest => if (laterPart? s).isNone then dropParts (n + 1) rest else dropParts n rest

/-- The path seen from the absolute folder `folder` that contains it. -/
def relativeTo? (p folder : UnixPath) : Option UnixPath :=
  if folder.isAbsolute && folder.parts.isPrefixOf p.parts then
    let below := dropParts (folder.parts.length - 1) (p.segments.drop 1)
    some ⟨"/".intercalate (trimEnd (below.dropWhile fun s => (laterPart? s).isNone))⟩
  else none

end UnixPath
end Roomscape
