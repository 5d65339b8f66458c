import Roomscape.Octets
import Roomscape.Proofs.PathFolders

/-! Paths as a system has them: octets, which need not be those of any text. The path of a text is cut at
the same slashes as the text, and its file name is that of the text. -/
namespace Roomscape

namespace Octets

/-- The octets of a text, in UTF-8. -/
def ofText (s : String) : List UInt8 := s.toList.flatMap String.utf8EncodeChar

/-- The text that octets are, if they are that of one. -/
def text? (octets : List UInt8) : Option String := String.fromUTF8? ⟨octets.toArray⟩

theorem toByteArray_text (s : String) : s.toByteArray = ⟨(ofText s).toArray⟩ := by
  rw [← String.ofList_toList (s := s), String.toByteArray_ofList, ofText, String.toList_ofList]
  exact ByteArray.ext List.data_toByteArray

theorem text?_eq_some_iff {octets : List UInt8} {s : String} :
    text? octets = some s ↔ octets = ofText s := by
  constructor
  · intro read
    unfold text? String.fromUTF8? at read
    split at read
    · rename_i valid
      cases read
      exact congrArg (·.data.toList) (toByteArray_text (String.fromUTF8 ⟨octets.toArray⟩ valid))
    · cases read
  · rintro rfl
    unfold text? String.fromUTF8?
    rw [← toByteArray_text, dif_pos s.isValidUTF8]
    rfl

@[simp] theorem text?_ofText (s : String) : text? (ofText s) = some s := text?_eq_some_iff.mpr rfl

theorem ofText_inj {s t : String} : ofText s = ofText t ↔ s = t := by
  constructor
  · intro same
    have read := congrArg text? same
    simpa using read
  · rintro rfl
    rfl

/-- A slash is in the octets of no other character. -/
theorem slash_mem_utf8EncodeChar (c : Char) : 0x2f ∈ String.utf8EncodeChar c ↔ c = '/' := by
  have code : c = '/' ↔ c.val.toNat = 0x2f := by
    rw [← Char.val_inj, ← UInt32.toNat_inj]
    rfl
  rw [code, String.utf8EncodeChar]
  generalize c.val.toNat = v
  -- One octet is the character's number; where there are more, all of them have their highest bit.
  split
  · simp [← UInt8.toNat_inj]
    omega
  · split
    · simp [← UInt8.toNat_inj]
      omega
    · split
      · simp [← UInt8.toNat_inj]
        omega
      · simp [← UInt8.toNat_inj]
        omega

theorem flatMap_intercalate {α β : Type} (f : α → List β) (a : α) (words : List (List α)) :
    ([a].intercalate words).flatMap f = (f a).intercalate (words.map (List.flatMap f)) := by
  induction words with
  | nil => rfl
  | cons w rest ih =>
    cases rest with
    | nil => simp
    | cons v rest => simp_all

/-- The octets of a text are cut at slashes where the text is. -/
theorem splitOn_slash (cs : List Char) :
    (cs.flatMap String.utf8EncodeChar).splitOn 0x2f =
      (cs.splitOn '/').map (List.flatMap String.utf8EncodeChar) := by
  have joined : cs.flatMap String.utf8EncodeChar =
      [0x2f].intercalate ((cs.splitOn '/').map (List.flatMap String.utf8EncodeChar)) := by
    conv => lhs; rw [← @List.intercalate_splitOn _ cs _ _ '/', flatMap_intercalate]
    rfl
  rw [joined]
  apply List.splitOn_intercalate
  · intro word member slash
    obtain ⟨plain, split, rfl⟩ := List.mem_map.mp member
    obtain ⟨c, inside, octet⟩ := List.mem_flatMap.mp slash
    rw [slash_mem_utf8EncodeChar] at octet
    exact UnixPath.not_mem_of_mem_splitOn split (octet ▸ inside)
  · simp

end Octets

namespace UnixPath

/-- A segment that says where to go: an empty one and a dot do not. -/
def moves (s : String) : Bool := s != "" && s != "."

/-- The part of a segment that says where to go. -/
def stepOf (s : String) : Part := if s = ".." then .up else .name s

theorem laterPart?_eq (s : String) : laterPart? s = if moves s then some (stepOf s) else none := by
  unfold laterPart?
  split <;> simp_all [moves, stepOf]

theorem leadingPart_eq (s : String) :
    leadingPart s = if moves s then stepOf s else if s = "" then .root else .here := by
  unfold leadingPart
  split <;> simp_all [moves, stepOf]

theorem findSome?_laterPart? (segments : List String) :
    segments.findSome? laterPart? = (segments.find? moves).map stepOf := by
  induction segments with
  | nil => rfl
  | cons s rest ih => by_cases goes : moves s <;> simp [laterPart?_eq, goes, ih]

/-- The last part of a path is that of the last segment that says where to go. If none does, it is no
name. -/
theorem getLast?_parts (p : UnixPath) :
    ∃ still, (∀ s, still ≠ some (Part.name s)) ∧
      p.parts.getLast? = ((p.segments.reverse.find? moves).map stepOf).or still := by
  obtain ⟨first, rest, split⟩ := List.exists_cons_of_ne_nil p.segments_ne_nil
  unfold parts
  simp only [split, List.reverse_cons, List.find?_append]
  split
  · contradiction
  · rename_i alone
    cases alone
    exact ⟨none, by simp, rfl⟩
  · rename_i same
    cases same
    refine ⟨some (if first = "" then .root else .here), ?_, ?_⟩
    · intro s
      split <;> simp
    · rw [List.getLast?_cons, List.getLast?_filterMap, findSome?_laterPart?]
      cases rest.reverse.find? moves with
      | some s => simp
      | none => by_cases goes : moves first <;> simp [leadingPart_eq, goes]

/-- The file name is the last segment that says where to go, unless it goes up. -/
theorem fileName?_eq (p : UnixPath) :
    p.fileName? = (p.segments.reverse.find? moves).filter (· ≠ "..") := by
  obtain ⟨still, nameless, last⟩ := p.getLast?_parts
  unfold fileName?
  rw [last]
  cases p.segments.reverse.find? moves with
  | some s => by_cases up : s = ".." <;> simp [stepOf, up, Option.filter]
  | none =>
    cases still with
    | none => rfl
    | some part => cases part <;> simp_all

end UnixPath

/-- A path as a system has it. -/
structure OctetPath where
  octets : List UInt8

namespace OctetPath

def ofText (p : UnixPath) : OctetPath := ⟨Octets.ofText p.text⟩

def segments (p : OctetPath) : List (List UInt8) := p.octets.splitOn 0x2f

/-- The last segment that is neither empty nor a dot, unless it is two dots. -/
def fileName? (p : OctetPath) : Option (List UInt8) :=
  (p.segments.reverse.find? fun s => s != [] && s != [0x2e]).filter (· ≠ [0x2e, 0x2e])

theorem segments_ofText (p : UnixPath) : (ofText p).segments = p.segments.map Octets.ofText := by
  rw [segments, ofText, Octets.ofText, Octets.splitOn_slash, UnixPath.segments,
    UnixPath.splitAtSlashes_eq_splitOn, List.map_map]
  congr 1
  funext cs
  rw [Function.comp_apply, Octets.ofText, String.toList_ofList]

theorem fileName?_ofText (p : UnixPath) :
    (ofText p).fileName? = p.fileName?.map Octets.ofText := by
  have empty (s : String) : Octets.ofText s = [] ↔ s = "" := Octets.ofText_inj (t := "")
  have dot (s : String) : Octets.ofText s = [0x2e] ↔ s = "." := Octets.ofText_inj (t := ".")
  have dots (s : String) : Octets.ofText s = [0x2e, 0x2e] ↔ s = ".." := Octets.ofText_inj (t := "..")
  have moves : (fun s => s != [] && s != [0x2e]) ∘ Octets.ofText = UnixPath.moves := by
    funext s
    simp [UnixPath.moves, bne, Bool.beq_eq_decide_eq, empty, dot]
  rw [fileName?, segments_ofText, ← List.map_reverse, List.find?_map, moves, UnixPath.fileName?_eq]
  cases p.segments.reverse.find? UnixPath.moves with
  | none => rfl
  | some s => by_cases up : s = ".." <;> simp [Option.filter, dots, up]

/-- A file name is never empty. -/
theorem fileName?_ne_nil (p : OctetPath) : p.fileName? ≠ some [] := by
  intro named
  obtain ⟨found, _⟩ := Option.filter_eq_some_iff.mp named
  simpa using List.find?_some found

end OctetPath
end Roomscape
