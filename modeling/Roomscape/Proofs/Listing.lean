import Roomscape.Proofs.ListingText
import Roomscape.Proofs.OccupiedRanks
import Roomscape.Proofs.PaletteBytes
import Roomscape.Proofs.ShownColours

/-! The listing of a photo's palette. It has a line for every fine slot that a bucket with pixels won
and for every coarse slot; the slots it leaves out are black, so the palette can be rebuilt from it. -/
namespace Roomscape

namespace Palette

variable (p : Palette)

/-- The colour in a slot; there is black behind the last one. -/
def colourAt (slot : Nat) : Entry := (p.get? slot).getD Entry.black

def fineLine (i : Nat) : SlotLine := ⟨s!"fine-{i + 1}", i, p.colourAt i⟩

def coarseLine (k : Nat) : SlotLine := ⟨s!"coarse-{k}", 128 + k, p.colourAt (128 + k)⟩

theorem get?_eq_colourAt {slot : Nat} (inside : slot < 192) : p.get? slot = some (p.colourAt slot) := by
  rw [colourAt, get?, Vector.getElem?_eq_getElem inside, Option.getD_some]

theorem entries_eq_map : p.entries.toList = (List.range 192).map p.colourAt := by
  apply List.ext_getElem?
  intro slot
  rcases Nat.lt_or_ge slot 192 with inside | outside
  · rw [List.getElem?_map, List.getElem?_range inside, Option.map_some, ← p.get?_eq_colourAt inside,
      get?, Vector.getElem?_toList]
  · rw [List.getElem?_eq_none (by simpa using outside), List.getElem?_eq_none (by simpa using outside)]

theorem fine_eq_map : p.fine = (List.range 128).map p.colourAt := by
  rw [fine, entries_eq_map, ← List.map_take, List.take_range]
  rfl

theorem coarse_eq_map : p.coarse = (List.range 64).map fun k => p.colourAt (128 + k) := by
  rw [coarse, entries_eq_map, show 192 = 128 + 64 from rfl, List.range_add, ← List.map_drop,
    List.drop_left' List.length_range, List.map_map]
  rfl

/-- What is made of every place and its value, when the values are read off a range. -/
private theorem mapIdx_map_range {α β : Type} (f : Nat → α) (g : Nat → α → β) (n : Nat) :
    ((List.range n).map f).mapIdx g = (List.range n).map fun i => g i (f i) := by
  apply List.ext_getElem
  · simp
  · simp

/-- The lines in closed form: as many fine ones as are used, and all coarse ones. -/
theorem listing_eq (fineUsed : Nat) : p.listing fineUsed =
    (List.range (min fineUsed 128)).map p.fineLine ++ (List.range 64).map p.coarseLine := by
  rw [listing, fine_eq_map, coarse_eq_map, ← List.map_take, List.take_range, mapIdx_map_range,
    mapIdx_map_range]
  rfl

variable {fineUsed : Nat} {l : SlotLine}

theorem mem_listing : l ∈ p.listing fineUsed ↔
    (∃ i < min fineUsed 128, p.fineLine i = l) ∨ ∃ k < 64, p.coarseLine k = l := by
  simp only [listing_eq, List.mem_append, List.mem_map, List.mem_range]

/-- A line holds the colour of its slot. -/
theorem get?_of_mem_listing (member : l ∈ p.listing fineUsed) : p.get? l.slot = some l.entry := by
  rcases p.mem_listing.mp member with ⟨i, used, rfl⟩ | ⟨k, key, rfl⟩
  · exact p.get?_eq_colourAt (show i < 192 by omega)
  · exact p.get?_eq_colourAt (show 128 + k < 192 by omega)

/-- The slots that are listed. -/
theorem exists_line_iff {slot : Nat} : (∃ l ∈ p.listing fineUsed, l.slot = slot) ↔
    slot < min fineUsed 128 ∨ (128 ≤ slot ∧ slot < 192) := by
  simp only [mem_listing]
  constructor
  · rintro ⟨_, ⟨i, used, rfl⟩ | ⟨k, key, rfl⟩, rfl⟩
    · exact .inl used
    · exact .inr ⟨Nat.le_add_right 128 k, Nat.add_lt_add_left key 128⟩
  · rintro (used | ⟨coarse, inside⟩)
    · exact ⟨_, .inl ⟨slot, used, rfl⟩, rfl⟩
    · exact ⟨_, .inr ⟨slot - 128, by omega, rfl⟩, Nat.add_sub_cancel' coarse⟩

section Names

/-- What is neither in the letters of a numbered name nor a digit is not in the name. -/
theorem not_mem_numbered {base : String} {c : Char} (letters : c ∉ base.toList)
    (other : c.isDigit = false) (n : Nat) : c ∉ (base ++ toString n).toList := by
  rw [String.toList_append, List.mem_append, not_or, Nat.toString_eq_ofList_toDigits,
    String.toList_ofList]
  refine ⟨letters, fun digit => ?_⟩
  rw [Nat.isDigit_of_mem_toDigits (by decide) (by decide) digit] at other
  cases other

theorem printable_of_mem_listing (member : l ∈ p.listing fineUsed) : l.Printable := by
  rcases p.mem_listing.mp member with ⟨i, _, rfl⟩ | ⟨k, _, rfl⟩
  · exact ⟨not_mem_numbered (by decide) rfl (i + 1), not_mem_numbered (by decide) rfl (i + 1)⟩
  · exact ⟨not_mem_numbered (by decide) rfl k, not_mem_numbered (by decide) rfl k⟩

theorem numbered_injective (base : String) {m n : Nat}
    (same : base ++ toString m = base ++ toString n) : m = n := by
  have digits := congrArg String.toList ((String.append_right_inj base).mp same)
  rw [Nat.toString_eq_ofList_toDigits, Nat.toString_eq_ofList_toDigits, String.toList_ofList,
    String.toList_ofList] at digits
  have value := congrArg (Nat.ofDigitChars 10 · 0) digits
  rwa [Nat.ofDigitChars_ten_toDigits, Nat.ofDigitChars_ten_toDigits] at value

theorem names_nodup : ((p.listing fineUsed).map SlotLine.name).Nodup := by
  rw [listing_eq, List.map_append, List.map_map, List.map_map]
  refine List.nodup_append.mpr ⟨?_, ?_, ?_⟩
  · refine List.pairwise_map.mpr (List.pairwise_lt_range.imp fun less same => ?_)
    have := numbered_injective "fine-" same
    omega
  · refine List.pairwise_map.mpr (List.pairwise_lt_range.imp fun less same => ?_)
    have := numbered_injective "coarse-" same
    omega
  · intro name fine name' coarse same
    obtain ⟨i, _, rfl⟩ := List.mem_map.mp fine
    obtain ⟨k, _, rfl⟩ := List.mem_map.mp coarse
    have letters : ("fine-" ++ toString (i + 1)).toList.head? =
        ("coarse-" ++ toString k).toList.head? := congrArg (fun name => name.toList.head?) same
    rw [String.toList_append, String.toList_append] at letters
    simp at letters

end Names

/-- Slots grow from line to line. -/
theorem slots_pairwise : ((p.listing fineUsed).map SlotLine.slot).Pairwise (· < ·) := by
  have fine : ((List.range (min fineUsed 128)).map p.fineLine).map SlotLine.slot =
      List.range (min fineUsed 128) := by
    rw [List.map_map]
    exact List.map_id _
  have coarse : ((List.range 64).map p.coarseLine).map SlotLine.slot =
      (List.range 64).map (128 + ·) := by
    rw [List.map_map]
    rfl
  rw [listing_eq, List.map_append, fine, coarse, List.pairwise_append]
  refine ⟨List.pairwise_lt_range, ?_, ?_⟩
  · exact List.pairwise_map.mpr (List.pairwise_lt_range.imp fun less => Nat.add_lt_add_left less 128)
  · intro i used slot member
    obtain ⟨k, _, rfl⟩ := List.mem_map.mp member
    have := List.mem_range.mp used
    omega

/-- The palette that slots and colour texts stand for: black wherever no slot is named. -/
def ofShown (shown : List (Nat × String)) : Palette :=
  ⟨Vector.ofFn fun slot =>
    let line := shown.find? fun (known, _) => known == slot.val
    ((line.bind fun (_, colour) => Entry.readText? colour).map Entry.narrow).getD Entry.black⟩

/-- A palette is rebuilt from lines that hold its colours, if it is black where they leave it out. -/
theorem ofShown_eq {lines : List SlotLine} (holds : ∀ l ∈ lines, p.get? l.slot = some l.entry)
    (black : ∀ slot < 192, (∀ l ∈ lines, l.slot ≠ slot) → p.get? slot = some Entry.black) :
    ofShown (lines.map fun l => (l.slot, l.colour)) = p := by
  refine congrArg Palette.mk (Vector.ext fun slot inside => ?_)
  have own : p.get? slot = some p.entries[slot] := Vector.getElem?_eq_getElem inside
  rw [Vector.getElem_ofFn]
  dsimp only
  cases found : (lines.map fun l => (l.slot, l.colour)).find? fun (known, _) => known == slot with
  | none =>
    have missing : ∀ l ∈ lines, l.slot ≠ slot := by
      intro l member same
      have other := List.find?_eq_none.mp found _ (List.mem_map_of_mem member)
      simp [same] at other
    rw [black slot inside missing] at own
    exact Option.some.inj own
  | some line =>
    obtain ⟨l, member, rfl⟩ := List.mem_map.mp (List.mem_of_find?_eq_some found)
    have same : l.slot = slot := by simpa using List.find?_some found
    rw [Option.bind_some, SlotLine.colour, Entry.readText?_text, Option.map_some, Option.getD_some,
      Entry.narrow_wide]
    have held := holds l member
    rw [same] at held
    exact Option.some.inj (held.symm.trans own)

end Palette

namespace Quantized

variable (raw : Grid Raw)

/-- A fine slot past the occupied buckets is black. -/
theorem get?_unlisted {slot : Nat} (fine : slot < 128)
    (past : (fineHistogram raw).occupied ≤ slot) :
    (ofRaw raw).palette.get? slot = some Entry.black := by
  change (paletteOf ((fineHistogram raw).ranked.take fineSlots) (coarseHistogram raw)).get? _ = _
  rw [get?_paletteOf _ _ (Nat.lt_trans fine (by decide)), if_pos fine, List.getElem?_take_of_lt fine]
  cases found : (fineHistogram raw).ranked[slot]? with
  | none => rfl
  | some b => exact congrArg some (raw.entry_of_unoccupied Raw.fineKey (by decide) past found)

/-- The slot of a pixel is listed: a key with pixels has a rank among the occupied ones. -/
theorem slot_listed {p : Raw} (pixel : p ∈ raw.pixels) :
    raw.slot p < min (fineHistogram raw).occupied 128 ∨ 128 ≤ raw.slot p := by
  have early := (raw.rank_lt_occupied_iff Raw.fineKey p.fineKey_lt).mpr (Grid.count_pos pixel)
  change _ < (fineHistogram raw).occupied at early
  simp only [Grid.slot]
  split <;> omega

/-- What a listing says of a reduced photo, and that it loses nothing of its palette: two photos with
the same slots and colour texts have the same one. -/
structure ListedIn (q : Quantized) (lines : List SlotLine) : Prop where
  length : lines.length = min q.figures.fineUsed 128 + 64
  fine : ∀ i < min q.figures.fineUsed 128,
    ∃ l, lines[i]? = some l ∧ l.name = s!"fine-{i + 1}" ∧ l.slot = i
  coarse : ∀ k < 64, ∃ l, lines[min q.figures.fineUsed 128 + k]? = some l ∧
    l.name = s!"coarse-{k}" ∧ l.slot = 128 + k
  names : (lines.map SlotLine.name).Nodup
  slots : (lines.map SlotLine.slot).Pairwise (· < ·)
  indexed : ∀ i ∈ q.indices.pixels, ∃ l ∈ lines, l.slot = i.toNat
  channels : ∀ l ∈ lines, ∃ e, q.palette.get? l.slot = some e ∧
    l.entry.toBytes.map UInt8.toNat = [e.red.val, e.green.val, e.blue.val] ∧
    ∃ wide, Entry.readText? l.colour = some wide ∧
      ∀ ch, (wide.channel ch >>> 2).toNat = (e.channel ch).val
  black : ∀ slot < 192, (∀ l ∈ lines, l.slot ≠ slot) → q.palette.get? slot = some Entry.black
  rebuilt : Palette.ofShown (lines.map fun l => (l.slot, l.colour)) = q.palette

theorem black_of_unlisted {slot : Nat} (inside : slot < 192)
    (unlisted : ∀ l ∈ (ofRaw raw).palette.listing (ofRaw raw).figures.fineUsed, l.slot ≠ slot) :
    (ofRaw raw).palette.get? slot = some Entry.black := by
  have outside := mt (Palette.exists_line_iff _).mpr fun ⟨l, member, same⟩ => unlisted l member same
  rw [not_or, Nat.lt_min] at outside
  have fine : slot < 128 := by omega
  exact get?_unlisted raw fine (Nat.le_of_not_lt fun used => outside.1 ⟨used, fine⟩)

theorem listedIn_listing :
    (ofRaw raw).ListedIn ((ofRaw raw).palette.listing (ofRaw raw).figures.fineUsed) where
  length := by simp [Palette.listing_eq]
  fine := by
    intro i used
    refine ⟨(ofRaw raw).palette.fineLine i, ?_, rfl, rfl⟩
    rw [Palette.listing_eq, List.getElem?_append_left (by simpa using used), List.getElem?_map,
      List.getElem?_range used]
    rfl
  coarse := by
    intro k key
    refine ⟨(ofRaw raw).palette.coarseLine k, ?_, rfl, rfl⟩
    rw [Palette.listing_eq, List.getElem?_append_right (by simp), List.length_map, List.length_range,
      Nat.add_sub_cancel_left, List.getElem?_map, List.getElem?_range key]
    rfl
  names := Palette.names_nodup _
  slots := Palette.slots_pairwise _
  indexed := by
    intro i member
    rw [indices_eq_map] at member
    obtain ⟨p, pixel, rfl⟩ := Array.mem_map.mp member
    rw [toNat_index, Palette.exists_line_iff]
    exact (slot_listed raw pixel).imp_right fun coarse => ⟨coarse, raw.slot_lt p⟩
  channels := by
    intro l member
    refine ⟨l.entry, Palette.get?_of_mem_listing _ member, l.entry.toNat_toBytes, l.entry.wide,
      Entry.readText?_text l.entry, ?_⟩
    intro ch
    cases ch <;> exact Entry.widen_shiftRight _
  black := fun _ inside unlisted => black_of_unlisted raw inside unlisted
  rebuilt := Palette.ofShown_eq _ (fun _ member => Palette.get?_of_mem_listing _ member)
    fun _ inside unlisted => black_of_unlisted raw inside unlisted

end Quantized
end Roomscape
