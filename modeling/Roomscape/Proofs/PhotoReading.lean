import Roomscape.Proofs.DisplayColours
import Roomscape.Proofs.FileReading
import Roomscape.Proofs.ShownColours

/-! Photos made of the raw pixels that were read. In both palette modes the pieces fit together whatever
the pixels are, so a photo is read exactly when its pixels are; and in both modes a pixel is shown in a
colour with the top two bits of its own. -/
namespace Roomscape

/-- The top two bits of every channel. -/
def Entry.topBits (e : Entry) (ch : Channel) : Nat := (e.channel ch).val / 16

def Raw.topBits (p : Raw) (ch : Channel) : Nat := (p.rgb6.channel ch).toNat / 16

/-- The colour that a photo's own palette has for a pixel. -/
def Photo.shown? (photo : Photo) (x y : Nat) : Option Entry :=
  (photo.indices.get? x y).bind fun slot => photo.palette.get? slot.toNat

/-- A photo stands for raw pixels: its grids have their shape, and every pixel's reduction, slot and
colour are the pixel's own. -/
structure Photo.Depicts (photo : Photo) (mode : PaletteMode) (raw : Grid Raw) : Prop where
  header : photo.header.Fits raw
  indices_shape : photo.indices.width = raw.width ∧ photo.indices.height = raw.height
  fallback_shape : photo.fallback.width = raw.width ∧ photo.fallback.height = raw.height
  coarse : ∀ x y, (photo.fallback.get? x y).map UInt8.toNat = (raw.get? x y).map Raw.coarseKey
  coarse_lt : ∀ x y f, photo.fallback.get? x y = some f → f.toNat < 64
  slot_lt : ∀ x y i, photo.indices.get? x y = some i → i.toNat < 192
  adaptive : mode = .adaptive → ∀ x y i f, photo.indices.get? x y = some i →
    photo.fallback.get? x y = some f → i.toNat < 128 ∨ i.toNat = 128 + f.toNat
  fixed : mode = .fixed → photo.indices = photo.fallback ∧
    ∀ x y, photo.shown? x y = (photo.fallback.get? x y).map fun f => (ObjectPixel.mk f).entry
  topBits : ∀ x y, (photo.shown? x y).map Entry.topBits = (raw.get? x y).map Raw.topBits

theorem Photo.assemble_eq_ok {header : Header} (palette : Palette) {indices fallback : Grid UInt8}
    (hi : header.Fits indices) (hf : header.Fits fallback)
    (slots : ∀ i ∈ indices.pixels, i.toNat < paletteSlots) :
    assemble header palette indices fallback =
      .ok ⟨header, palette, indices, fallback, hi, hf, slots⟩ := by
  rw [assemble, dif_pos hi, dif_pos hf]
  split
  case h_1 bad found =>
    have past : paletteSlots ≤ bad.toNat := by simpa using Array.find?_some found
    exact absurd (slots bad (Array.mem_of_find?_eq_some found)) (Nat.not_lt.mpr past)
  case h_2 => rfl

section Colours

variable (p : Raw) (ch : Channel)

theorem Raw.toNat_toObject : p.toObject.bits.toNat = p.coarseKey := by
  have small : p.coarseKey < 64 := p.coarseKey_lt
  rw [toObject, UInt8.toNat_ofNat', Nat.mod_eq_of_lt (by omega)]

/-- A two-bit channel repeated three times keeps its two bits on top. -/
theorem ObjectPixel.widen_div (c : Nat) : (widen c).val / 16 = c % 4 := by
  have small : c % 4 < 4 := Nat.mod_lt c (by decide)
  rw [widen]
  generalize c % 4 = channel at small ⊢
  revert channel
  decide

theorem ObjectPixel.topBits_entry {k : Nat} (object : k < 64) :
    (ObjectPixel.mk (UInt8.ofNat k)).entry.topBits ch = ch.digit 4 k := by
  have byte : (UInt8.ofNat k).toNat = k := by
    rw [UInt8.toNat_ofNat', Nat.mod_eq_of_lt (by omega)]
  simp only [Entry.topBits, entry, byte]
  cases ch with
  | red => exact (widen_div (k / 16)).trans (Nat.mod_eq_of_lt (by omega))
  | green => exact widen_div (k / 4)
  | blue => exact widen_div k

/-- The object colour of a pixel has the pixel's top bits. -/
theorem Raw.topBits_object : p.toObject.entry.topBits = p.topBits := by
  funext ch
  rw [toObject, ObjectPixel.topBits_entry ch p.coarseKey_lt, digit_coarseKey, topBits, channel_rgb6]

/-- The colour in a pixel's slot has the pixel's top bits. -/
theorem Grid.topBits_shownBucket {raw : Grid Raw} (countable : 63 * raw.len < UInt64.size)
    {p : Raw} (pixel : p ∈ raw.pixels) : (raw.shownBucket p).entry.topBits = p.topBits := by
  funext ch
  rw [Entry.topBits, Raw.topBits, shownBucket]
  split
  case isTrue fine =>
    have near := (mean_near (by decide) Raw.digit_fineKey countable pixel ch).1
    -- Equal quarters have equal quarters.
    rw [show 16 = 4 * 4 from rfl, ← Nat.div_div_eq_div_mul, near, Nat.div_div_eq_div_mul]
  case isFalse coarse =>
    exact (mean_near (by decide) Raw.digit_coarseKey countable pixel ch).1

end Colours

theorem Photo.shown?_of_map {photo : Photo} {raw : Grid Raw} {slot : Raw → UInt8}
    {colour : Raw → Entry} (slots : photo.indices = raw.map slot)
    (colours : ∀ p, photo.palette.get? (slot p).toNat = some (colour p)) (x y : Nat) :
    photo.shown? x y = (raw.get? x y).map colour := by
  rw [shown?, slots, Grid.get?_map]
  cases raw.get? x y with
  | none => rfl
  | some p => exact colours p

namespace PaletteMode

variable (mode : PaletteMode) (raw : Grid Raw)

/-- The palette that a mode gives a photo. -/
def palette : Palette :=
  match mode with
  | .adaptive => (Quantized.ofRaw raw).palette
  | .fixed => Palette.fixed

/-- The slot of a pixel. In fixed mode it is the pixel's reduction. -/
def slot (p : Raw) : UInt8 :=
  match mode with
  | .adaptive =>
    (Quantized.slotOf (Quantized.slotTable
      ((Quantized.fineHistogram raw).ranked.take fineSlots)) p).getD (Quantized.coarseSlot p)
  | .fixed => p.toObject.bits

/-- The colour that a pixel is shown in. -/
def colour (p : Raw) : Entry :=
  match mode with
  | .adaptive => (raw.shownBucket p).entry
  | .fixed => p.toObject.entry

theorem toNat_slot (p : Raw) : (mode.slot raw p).toNat =
    match mode with
    | .adaptive => raw.slot p
    | .fixed => p.coarseKey := by
  cases mode with
  | adaptive => exact Quantized.toNat_index raw p
  | fixed => exact p.toNat_toObject

theorem slot_lt (p : Raw) : (mode.slot raw p).toNat < paletteSlots := by
  rw [toNat_slot]
  cases mode with
  | adaptive => exact raw.slot_lt p
  | fixed => exact Nat.lt_trans p.coarseKey_lt (by decide)

theorem palette_slot (p : Raw) :
    (mode.palette raw).get? (mode.slot raw p).toNat = some (mode.colour raw p) := by
  rw [toNat_slot]
  cases mode with
  | adaptive => exact Quantized.palette_slot raw p
  | fixed => exact Palette.get?_fixed p.coarseKey_lt

theorem topBits_colour {raw : Grid Raw} (countable : 63 * raw.len < UInt64.size) {p : Raw}
    (pixel : p ∈ raw.pixels) : (mode.colour raw p).topBits = p.topBits := by
  cases mode with
  | adaptive => exact Grid.topBits_shownBucket countable pixel
  | fixed => exact p.topBits_object

end PaletteMode

namespace PixelFile

variable (mode : PaletteMode) {raw : Grid Raw} (fits : raw.header.Fits raw)

/-- The photo that raw pixels make in a mode. -/
def depiction : Photo where
  header := raw.header
  palette := mode.palette raw
  indices := raw.map (mode.slot raw)
  fallback := raw.map fun p => p.toObject.bits
  indices_fits := fits
  fallback_fits := fits
  indices_lt := by
    intro i member
    obtain ⟨p, _, rfl⟩ := Array.mem_map.mp member
    exact mode.slot_lt raw p

/-- No check refuses the photo that raw pixels make. -/
theorem develop_eq : ∃ notices, develop mode raw = .ok (depiction mode fits, notices) := by
  have made := Photo.assemble_eq_ok (mode.palette raw) (depiction mode fits).indices_fits
    (depiction mode fits).fallback_fits (depiction mode fits).indices_lt
  cases mode with
  | adaptive =>
    refine ⟨[.quantized raw.width raw.height (Quantized.ofRaw raw).figures], ?_⟩
    exact congrArg (Except.map fun photo => (photo, _)) made
  | fixed => exact ⟨[], congrArg (Except.map fun photo => (photo, _)) made⟩

theorem shown?_depiction (x y : Nat) :
    (depiction mode fits).shown? x y = (raw.get? x y).map (mode.colour raw) :=
  Photo.shown?_of_map rfl (mode.palette_slot raw) x y

theorem get?_indices_depiction (x y : Nat) :
    (depiction mode fits).indices.get? x y = (raw.get? x y).map (mode.slot raw) :=
  Grid.get?_map ..

theorem get?_fallback_depiction (x y : Nat) :
    (depiction mode fits).fallback.get? x y = (raw.get? x y).map fun p => p.toObject.bits :=
  Grid.get?_map ..

theorem depicts_depiction (countable : 63 * raw.len < UInt64.size) :
    (depiction mode fits).Depicts mode raw where
  header := fits
  indices_shape := ⟨rfl, rfl⟩
  fallback_shape := ⟨rfl, rfl⟩
  coarse := by
    intro x y
    rw [get?_fallback_depiction, Option.map_map]
    exact congrArg (Option.map · (raw.get? x y)) (funext Raw.toNat_toObject)
  coarse_lt := by
    intro x y f found
    rw [get?_fallback_depiction] at found
    obtain ⟨p, _, rfl⟩ := Option.map_eq_some_iff.mp found
    rw [Raw.toNat_toObject]
    exact p.coarseKey_lt
  slot_lt := by
    intro x y i found
    rw [get?_indices_depiction] at found
    obtain ⟨p, _, rfl⟩ := Option.map_eq_some_iff.mp found
    exact mode.slot_lt raw p
  adaptive := by
    rintro rfl x y i f found reduced
    rw [get?_indices_depiction] at found
    obtain ⟨p, pixel, rfl⟩ := Option.map_eq_some_iff.mp found
    rw [get?_fallback_depiction, pixel, Option.map_some, Option.some_inj] at reduced
    rw [← reduced, Raw.toNat_toObject, PaletteMode.toNat_slot]
    simp only [Grid.slot]
    split
    case isTrue won => exact .inl won
    case isFalse lost => exact .inr rfl
  fixed := by
    rintro rfl
    refine ⟨rfl, fun x y => ?_⟩
    rw [shown?_depiction, get?_fallback_depiction, Option.map_map]
    rfl
  topBits := by
    intro x y
    rw [shown?_depiction, Option.map_map]
    apply Option.map_congr
    intro p pixel
    exact mode.topBits_colour countable (raw.mem_pixels_of_get? pixel)

section Stream

variable {options : LoadOptions} {s t : Source} {fault : Fault}

theorem photo_of_ok (run : rawPhoto options s = .ok raw t) :
    ∃ notices, photo options s =
      .ok (depiction options.paletteMode (rawPhoto_fits run), notices) t := by
  obtain ⟨notices, made⟩ := develop_eq options.paletteMode (rawPhoto_fits run)
  refine ⟨notices, (Decoder.bind_ok run).trans ?_⟩
  rw [made]
  exact Decoder.ofExcept_ok _ t

theorem photo_of_error (run : rawPhoto options s = .error fault t) :
    photo options s = .error fault t :=
  Decoder.bind_error run

/-- Behind a photo that was read are raw pixels that were read. -/
theorem rawPhoto_of_photo {photo' : Photo} {notices : List Notice}
    (run : photo options s = .ok (photo', notices) t) :
    ∃ raw, rawPhoto options s = .ok raw t ∧ photo'.Depicts options.paletteMode raw := by
  cases first : rawPhoto options s with
  | error fault u =>
    rw [photo_of_error first] at run
    cases run
  | ok raw u =>
    obtain ⟨notices', made⟩ := photo_of_ok first
    cases run.symm.trans made
    exact ⟨raw, rfl, depicts_depiction _ _ (rawPhoto_countable first)⟩

/-- Raw pixels are read without regard to the palette mode. -/
theorem rawPhoto_mode (mode : PaletteMode) :
    rawPhoto { options with paletteMode := mode } = rawPhoto options :=
  rfl

/-- A fault of a photo is one of its raw pixels. -/
theorem photo_error_iff : photo options s = .error fault t ↔ rawPhoto options s = .error fault t := by
  constructor
  · intro run
    cases first : rawPhoto options s with
    | error fault' u =>
      cases run.symm.trans (photo_of_error first)
      rfl
    | ok raw u =>
      obtain ⟨notices, made⟩ := photo_of_ok first
      cases run.symm.trans made
  · exact photo_of_error

end Stream

/-- A photo is read exactly when its raw pixels are, from the same bytes, and stands for them; where
they are not, the fault is theirs. The two palette modes read the same streams, and show every pixel in
colours with the same top bits. -/
theorem photo_follows_raw_pixels (options : LoadOptions) (s : Source) :
    (∀ fault t, photo options s = .error fault t ↔ rawPhoto options s = .error fault t) ∧
    (∀ t, (∃ shown notices, photo options s = .ok (shown, notices) t) ↔
      ∃ raw, rawPhoto options s = .ok raw t) ∧
    (∀ shown notices t, photo options s = .ok (shown, notices) t →
      ∀ raw u, rawPhoto options s = .ok raw u → shown.Depicts options.paletteMode raw) ∧
    (∀ fault t, photo { options with paletteMode := .adaptive } s = .error fault t ↔
      photo { options with paletteMode := .fixed } s = .error fault t) ∧
    (∀ adaptive fixed notices notices' t u,
      photo { options with paletteMode := .adaptive } s = .ok (adaptive, notices) t →
      photo { options with paletteMode := .fixed } s = .ok (fixed, notices') u → t = u ∧
        ∀ x y, (adaptive.shown? x y).map Entry.topBits = (fixed.shown? x y).map Entry.topBits) := by
  refine ⟨fun fault t => photo_error_iff, ?_, ?_, ?_, ?_⟩
  · intro t
    constructor
    · rintro ⟨shown, notices, run⟩
      obtain ⟨raw, first, _⟩ := rawPhoto_of_photo run
      exact ⟨raw, first⟩
    · rintro ⟨raw, first⟩
      obtain ⟨notices, made⟩ := photo_of_ok first
      exact ⟨_, notices, made⟩
  · intro shown notices t run raw u first
    obtain ⟨raw', first', depicts⟩ := rawPhoto_of_photo run
    cases first.symm.trans first'
    exact depicts
  · intro fault t
    rw [photo_error_iff, photo_error_iff, rawPhoto_mode .adaptive, rawPhoto_mode .fixed]
  · intro adaptive fixed notices notices' t u first second
    obtain ⟨raw, read, depicts⟩ := rawPhoto_of_photo first
    obtain ⟨raw', read', depicts'⟩ := rawPhoto_of_photo second
    rw [rawPhoto_mode .adaptive] at read
    rw [rawPhoto_mode .fixed] at read'
    cases read.symm.trans read'
    exact ⟨rfl, fun x y => (depicts.topBits x y).trans (depicts'.topBits x y).symm⟩

end PixelFile
end Roomscape
