import Roomscape.Palette.Listing

/-! What is read back from a listing as it is printed. A colour text gives its three bytes, a line gives
its name and its colour, and the JSON array gives its texts and numbers in the order they stand in. -/
namespace Roomscape

namespace Entry

/-- The number that a digit in base 16 stands for. -/
def hexValue? (c : Char) : Option Nat := "0123456789ABCDEF".toList.idxOf? c

def readByte? (high low : Char) : Option UInt8 := do
  some (UInt8.ofNat (16 * (← hexValue? high) + (← hexValue? low)))

/-- The bytes of a `#RRGGBB` text. -/
def readText? (text : String) : Option Rgb :=
  match text.toList with
  | ['#', a, b, c, d, e, f] => do some ⟨← readByte? a b, ← readByte? c d, ← readByte? e f⟩
  | _ => none

theorem hexValue?_hexDigit : ∀ n < 16, hexValue? (hexDigit n) = some n := by decide

theorem readByte?_hexDigits (b : UInt8) :
    readByte? (hexDigit (b.toNat / 16)) (hexDigit (b.toNat % 16)) = some b := by
  have size := b.toNat_lt
  rw [readByte?, hexValue?_hexDigit _ (by omega), hexValue?_hexDigit _ (by omega)]
  refine congrArg some ?_
  rw [Nat.div_add_mod, UInt8.ofNat_toNat]

theorem readText?_text (e : Entry) : readText? e.text = some e.wide := by
  have chars : e.text.toList = ['#',
      hexDigit (e.wide.red.toNat / 16), hexDigit (e.wide.red.toNat % 16),
      hexDigit (e.wide.green.toNat / 16), hexDigit (e.wide.green.toNat % 16),
      hexDigit (e.wide.blue.toNat / 16), hexDigit (e.wide.blue.toNat % 16)] := by
    simp [text, hexByte]
  simp only [readText?, chars, readByte?_hexDigits]
  rfl

/-- A wide channel keeps the six bits at its top. -/
theorem widen_shiftRight (channel : Fin 64) : (widen channel >>> 2).toNat = channel.val := by
  revert channel
  decide

/-- The colour whose wide form has these bytes. -/
def narrow (c : Rgb) : Entry := ofRgb ⟨c.red >>> 2, c.green >>> 2, c.blue >>> 2⟩

theorem narrow_wide (e : Entry) : narrow e.wide = e := by
  have back (channel : Fin 64) : Fin.ofNat 64 (widen channel >>> 2).toNat = channel := by
    rw [widen_shiftRight]
    exact Fin.ext (Nat.mod_eq_of_lt channel.isLt)
  simp only [narrow, ofRgb, wide, back]

end Entry

/-- A text in quotes or a number, as JSON has them. -/
inductive Word where
  | text (text : String)
  | number (number : Nat)
deriving DecidableEq

namespace Word

/-- Where a reader of JSON stands: within a text, within a number, or between them. -/
inductive Place where
  | between
  | inText (read : List Char)
  | inNumber (read : List Char)

def Place.enter (c : Char) : Place :=
  if c = '"' then .inText [] else if c.isDigit then .inNumber [c] else .between

def numberOf (digits : List Char) : Word := .number (Nat.ofDigitChars 10 digits 0)

/-- The texts and numbers of a JSON text whose texts escape nothing. -/
def read : Place → List Char → List Word
  | .between, [] => []
  | .between, c :: rest => read (.enter c) rest
  | .inText _, [] => []
  | .inText t, c :: rest =>
    if c = '"' then .text (String.ofList t) :: read .between rest else read (.inText (t ++ [c])) rest
  | .inNumber ds, [] => [numberOf ds]
  | .inNumber ds, c :: rest =>
    if c.isDigit then read (.inNumber (ds ++ [c])) rest else numberOf ds :: read (.enter c) rest

theorem read_inText {chars : List Char} (plain : '"' ∉ chars) (t rest : List Char) :
    read (.inText t) (chars ++ '"' :: rest) =
      .text (String.ofList (t ++ chars)) :: read .between rest := by
  induction chars generalizing t with
  | nil => simp [read]
  | cons c chars ih =>
    obtain ⟨other, plain⟩ := not_or.mp (mt List.mem_cons.mpr plain)
    rw [List.cons_append, read, if_neg (Ne.symm other), ih plain, List.append_assoc]
    rfl

theorem read_inNumber {chars : List Char} (digits : ∀ c ∈ chars, c.isDigit) {stop : Char}
    (ends : stop.isDigit = false) (ds rest : List Char) :
    read (.inNumber ds) (chars ++ stop :: rest) =
      numberOf (ds ++ chars) :: read (.enter stop) rest := by
  induction chars generalizing ds with
  | nil => simp [read, ends]
  | cons c chars ih =>
    have digit : c.isDigit := digits c List.mem_cons_self
    rw [List.cons_append, read, if_pos digit,
      ih (fun other member => digits other (List.mem_cons_of_mem _ member)), List.append_assoc]
    rfl

/-- A number in base 10 is read up to what follows it. -/
theorem read_toString (n : Nat) (stop : Char) (ends : stop.isDigit = false) (rest : List Char) :
    read .between ((toString n).toList ++ stop :: rest) = .number n :: read (.enter stop) rest := by
  rw [Nat.toString_eq_ofList_toDigits, String.toList_ofList]
  have digits : ∀ c ∈ Nat.toDigits 10 n, c.isDigit := fun c member =>
    Nat.isDigit_of_mem_toDigits (by decide) (by decide) member
  have value : numberOf (Nat.toDigits 10 n) = .number n :=
    congrArg Word.number Nat.ofDigitChars_ten_toDigits
  match chars : Nat.toDigits 10 n with
  | [] => exact absurd chars Nat.toDigits_ne_nil
  | c :: more =>
    rw [chars] at digits value
    have digit : c.isDigit := digits c List.mem_cons_self
    have quote : c ≠ '"' := by
      rintro rfl
      exact absurd digit (by decide)
    rw [List.cons_append, read, Place.enter, if_neg quote, if_pos digit,
      read_inNumber (fun other member => digits other (List.mem_cons_of_mem _ member)) ends,
      List.singleton_append, value]

end Word

namespace SlotLine

variable (l : SlotLine)

/-- The name and the colour in a printed line. -/
def readPlain? (text : String) : Option (String × String) :=
  match text.toList with
  | '$' :: rest =>
    some (String.ofList (rest.takeWhile (· != ':')),
      String.ofList ((rest.dropWhile (· != ':')).drop 2))
  | _ => none

/-- The words in the JSON form of a line. -/
def words : List Word :=
  [.text "name", .text l.name, .text "slot", .number l.slot, .text "colour", .text l.colour,
    .text "rgb6"] ++ l.entry.toBytes.map fun b => .number b.toNat

/-- The name holds neither the quote that ends a text of JSON nor the colon that ends a name. -/
structure Printable : Prop where
  unquoted : '"' ∉ l.name.toList
  uncut : ':' ∉ l.name.toList

variable {l}

theorem readPlain?_plain (printable : l.Printable) : readPlain? l.plain = some (l.name, l.colour) := by
  have chars : l.plain.toList = '$' :: (l.name.toList ++ (':' :: ' ' :: l.colour.toList)) := by
    simp [plain]
  have before : ∀ c ∈ l.name.toList, (c != ':') = true := by
    intro c member
    rw [bne_iff_ne]
    rintro rfl
    exact printable.uncut member
  simp only [readPlain?, chars]
  rw [List.takeWhile_append_of_pos before, List.dropWhile_append_of_pos before]
  simp

theorem hexDigit_ne_quote (n : Nat) : '"' ≠ Entry.hexDigit n := by
  rcases Nat.lt_or_ge n 16 with small | large
  · revert n
    decide
  · have other : Entry.hexDigit n = '0' := by
      rw [Entry.hexDigit, List.getD_eq_getElem?_getD, List.getElem?_eq_none large]
      rfl
    rw [other]
    decide

theorem colour_unquoted (l : SlotLine) : '"' ∉ l.colour.toList := by
  simp [colour, Entry.text, Entry.hexByte, hexDigit_ne_quote]

/-- A number on a line of its own, before the end of the line or a comma. -/
theorem read_item (n : Nat) (stop : Char) (ends : stop.isDigit = false) (rest : List Char) :
    Word.read .between (("      " ++ toString n).toList ++ stop :: rest) =
      .number n :: Word.read (.enter stop) rest := by
  have indent (rest : List Char) :
      Word.read .between ("      ".toList ++ rest) = Word.read .between rest := rfl
  rw [String.toList_append, List.append_assoc, indent, Word.read_toString n stop ends]

/-- Numbers on lines of their own are read in their order. -/
theorem read_items {numbers : List Nat} (nonempty : numbers ≠ []) (rest : List Char) :
    Word.read .between ((",\n".intercalate (numbers.map fun n => "      " ++ toString n)).toList ++
        '\n' :: rest) =
      numbers.map Word.number ++ Word.read .between rest := by
  induction numbers with
  | nil => exact absurd rfl nonempty
  | cons n more ih =>
    match more with
    | [] => exact read_item n '\n' rfl rest
    | m :: more =>
      rw [List.map_cons, List.map_cons, String.intercalate_cons_cons, String.toList_append,
        String.toList_append, List.append_assoc, List.append_assoc]
      refine (read_item n ',' rfl _).trans ?_
      rw [List.map_cons, List.cons_append]
      refine congrArg (Word.number n :: ·) ?_
      exact ih (by simp)

/-- The words of a line are read from its JSON form, whatever follows. -/
theorem read_json (printable : l.Printable) (rest : List Char) :
    Word.read .between (l.json.toList ++ rest) = l.words ++ Word.read .between rest := by
  have opening (rest : List Char) :
      Word.read .between ("  \x7b\n    \"name\": \"".toList ++ rest) =
        .text "name" :: Word.read (.inText []) rest := rfl
  have name (rest : List Char) :
      Word.read (.inText []) (l.name.toList ++ ("\",\n    \"slot\": ".toList ++ rest)) =
        .text l.name :: .text "slot" :: Word.read .between rest := by
    rw [show "\",\n    \"slot\": ".toList = '"' :: ",\n    \"slot\": ".toList from rfl,
      List.cons_append, Word.read_inText printable.unquoted, List.nil_append, String.ofList_toList]
    rfl
  have slot (rest : List Char) :
      Word.read .between ((toString l.slot).toList ++ (",\n    \"colour\": \"".toList ++ rest)) =
        .number l.slot :: .text "colour" :: Word.read (.inText []) rest := by
    rw [show ",\n    \"colour\": \"".toList = ',' :: "\n    \"colour\": \"".toList from rfl,
      List.cons_append, Word.read_toString l.slot ',' rfl]
    rfl
  have colour (rest : List Char) :
      Word.read (.inText []) (l.colour.toList ++ ("\",\n    \"rgb6\": [\n".toList ++ rest)) =
        .text l.colour :: .text "rgb6" :: Word.read .between rest := by
    rw [show "\",\n    \"rgb6\": [\n".toList = '"' :: ",\n    \"rgb6\": [\n".toList from rfl,
      List.cons_append, Word.read_inText l.colour_unquoted, List.nil_append, String.ofList_toList]
    rfl
  have channels : (l.entry.toBytes.map fun b => "      " ++ toString b.toNat) =
      (l.entry.toBytes.map UInt8.toNat).map fun n => "      " ++ toString n :=
    (List.map_map ..).symm
  have nonempty : l.entry.toBytes.map UInt8.toNat ≠ [] := by simp [Entry.toBytes]
  unfold json
  simp only [channels, String.toList_append, List.append_assoc, -String.reduceToList]
  rw [opening, name, slot, colour,
    show "\n    ]\n  \x7d".toList = '\n' :: "    ]\n  \x7d".toList from rfl,
    List.cons_append, read_items nonempty, List.map_map]
  rfl

/-- Lines with commas between them are read in their order. -/
theorem read_jsons {lines : List SlotLine} (printable : ∀ l ∈ lines, l.Printable)
    (rest : List Char) :
    Word.read .between ((",\n".intercalate (lines.map json)).toList ++ rest) =
      lines.flatMap words ++ Word.read .between rest := by
  induction lines with
  | nil => rfl
  | cons l more ih =>
    have own := printable l List.mem_cons_self
    match more with
    | [] => simpa using read_json own rest
    | m :: more =>
      have comma (rest : List Char) :
          Word.read .between (",\n".toList ++ rest) = Word.read .between rest := rfl
      rw [List.map_cons, List.map_cons, String.intercalate_cons_cons, String.toList_append,
        String.toList_append, List.append_assoc, List.append_assoc, read_json own, comma,
        List.flatMap_cons, List.append_assoc]
      exact congrArg _ (ih fun other member => printable other (List.mem_cons_of_mem _ member))

/-- The JSON form of a listing is read as the words of its lines, in their order. -/
theorem read_jsonArray {lines : List SlotLine} (printable : ∀ l ∈ lines, l.Printable) :
    Word.read .between (jsonArray lines).toList = lines.flatMap words := by
  cases lines with
  | nil => rfl
  | cons l more =>
    have opening (rest : List Char) :
        Word.read .between ("[\n".toList ++ rest) = Word.read .between rest := rfl
    rw [jsonArray, String.toList_append, String.toList_append, List.append_assoc, opening,
      read_jsons printable]
    · exact List.append_nil _
    · simp

end SlotLine
end Roomscape
