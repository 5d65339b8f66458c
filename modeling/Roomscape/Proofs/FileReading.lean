import Roomscape.Proofs.FileLayout

/-! Photo and image files byte by byte: which files are refused, with which fault, and which pixel each
byte of the others belongs to. -/
namespace Roomscape

namespace Header

/-- The header that the first four bytes of a file make. -/
def front (bytes : List UInt8) : Header :=
  ofBytes (bytes.getD 0 0) (bytes.getD 1 0) (bytes.getD 2 0) (bytes.getD 3 0)

theorem front_toBytes (h : Header) (tail : List UInt8) : front (h.toBytes ++ tail) = h :=
  congr (congrArg Header.mk (word_wordBytes h.width)) (word_wordBytes h.height)

theorem toBytes_front {bytes : List UInt8} (enough : 4 ≤ bytes.length) :
    (front bytes).toBytes = bytes.take 4 := by
  match bytes, enough with
  | a :: b :: c :: d :: rest, _ =>
    change wordBytes (word a b) ++ wordBytes (word c d) = _
    rw [wordBytes_word, wordBytes_word]
    rfl

end Header

namespace PixelFile

variable {s : Source}

theorem header_met (enough : 4 ≤ s.unread.length) :
    ∃ t, header s = .ok (Header.front s.unread) t ∧ s.Advanced 4 t := by
  obtain ⟨t, run, advanced⟩ := Decoder.exactly_met (.malformed none .shortHeader) enough
  refine ⟨t, (Decoder.bind_ok run).trans ?_, advanced⟩
  generalize s.unread = bytes at enough
  match bytes, enough with
  | a :: b :: c :: d :: rest, _ => rfl

theorem header_short (few : s.unread.length < 4) :
    ∃ t, header s = .error (s.shortfall (.malformed none .shortHeader)) t ∧
      t.taken = s.taken + s.unread.length := by
  obtain ⟨t, run, taken⟩ := Decoder.exactly_short (.malformed none .shortHeader) few
  exact ⟨t, Decoder.bind_error run, taken⟩

section Grids

variable {α : Type} [Inhabited α] {code : PixelCodec α} {h : Header}

/-- Every header describes a grid that can be allocated. -/
theorem blank_eq_ok (code : PixelCodec α) (h : Header) :
    ∃ blank : Grid α, Grid.filled h.width.toNat h.height.toNat default code.bytes = .ok blank := by
  have width := h.width.toNat_lt
  have height := h.height.toNat_lt
  have area : h.width.toNat * h.height.toNat ≤ 65535 * 65535 :=
    Nat.mul_le_mul (by omega) (by omega)
  apply Grid.filled_eq_ok
  · rcases code.size with one | two <;> omega
  · rcases code.size with one | two
    · simp only [one, largestBuffer, UInt64.size]
      omega
    · simp only [two, largestBuffer, UInt64.size]
      omega

theorem pixels_met (enough : h.height.toNat * (h.width.toNat * code.bytes) ≤ s.unread.length) :
    ∃ g t, pixels code.toPixelCode h s = .ok g t ∧
      s.Advanced (h.height.toNat * (h.width.toNat * code.bytes)) t ∧ h.Fits g ∧
      ∀ x y, x < h.width.toNat → y < h.height.toNat → g.get? x y =
        some (code.pixelAt s.unread (code.position h.width.toNat h.height.toNat x y)) := by
  obtain ⟨blank, made⟩ := blank_eq_ok code h
  obtain ⟨width, height, _⟩ := Grid.get?_filled made
  obtain ⟨g, t, run, advanced, g_width, g_height, pixel⟩ :=
    rowsAbove_met width (Nat.le_of_eq height.symm) enough
  refine ⟨g, t, ?_, advanced, ⟨g_width.trans width, g_height.trans height⟩, ?_⟩
  · rw [pixels, made]
    exact (Decoder.bind_ok (Decoder.ofExcept_ok blank s)).trans run
  · intro x y hx hy
    rw [pixel x y (width ▸ hx) (height ▸ hy), if_pos hy, width]

theorem pixels_short (few : s.unread.length < h.height.toNat * (h.width.toNat * code.bytes)) :
    ∃ t, pixels code.toPixelCode h s = .error (s.shortfall (.malformed none (.shortRow
        (h.height.toNat - 1 - s.unread.length / (h.width.toNat * code.bytes))
        h.width.toNat h.height.toNat))) t ∧
      t.taken = s.taken + s.unread.length := by
  obtain ⟨blank, made⟩ := blank_eq_ok code h
  obtain ⟨t, run, taken⟩ := rowsAbove_short blank few
  refine ⟨t, ?_, taken⟩
  rw [pixels, made]
  exact (Decoder.bind_ok (Decoder.ofExcept_ok blank s)).trans run

variable (code) (kind : PixelKind) {maxWidth maxHeight : UInt16} {bytes : List UInt8}

theorem file_shortHeader (maxWidth maxHeight : UInt16) (all : s.unread = bytes)
    (few : bytes.length < 4) :
    ∃ t, file kind code.toPixelCode maxWidth maxHeight s =
      .error (s.shortfall (.malformed none .shortHeader)) t := by
  obtain ⟨t, run, _⟩ := header_short (all ▸ few)
  exact ⟨t, Decoder.bind_error run⟩

theorem file_oversize (all : s.unread = bytes) (enough : 4 ≤ bytes.length)
    (found : Header.front bytes = h) (large : maxWidth < h.width ∨ maxHeight < h.height) :
    ∃ t, file kind code.toPixelCode maxWidth maxHeight s =
      .error (.malformed none (.oversize kind h.width.toNat h.height.toNat
        maxWidth.toNat maxHeight.toNat)) t ∧ s.Advanced 4 t := by
  subst all
  obtain ⟨t, run, four⟩ := header_met enough
  rw [found] at run
  have checked : checkLimits kind h maxWidth maxHeight = .error (.malformed none
      (.oversize kind h.width.toNat h.height.toNat maxWidth.toNat maxHeight.toNat)) := if_pos large
  refine ⟨t, (Decoder.bind_ok run).trans ?_, four⟩
  rw [checked]
  exact Decoder.bind_error (Decoder.ofExcept_error _ t)

/-- Behind a header within the limits the file is what its pixels make of it. -/
theorem file_within (all : s.unread = bytes) (enough : 4 ≤ bytes.length)
    (found : Header.front bytes = h) (width : h.width ≤ maxWidth) (height : h.height ≤ maxHeight) :
    ∃ t, s.Advanced 4 t ∧ file kind code.toPixelCode maxWidth maxHeight s =
      (pixels code.toPixelCode h >>= fun g => pure (h, g)) t := by
  subst all
  obtain ⟨t, run, four⟩ := header_met enough
  rw [found] at run
  have within : ¬ (maxWidth < h.width ∨ maxHeight < h.height) :=
    not_or.mpr ⟨UInt16.not_lt.mpr width, UInt16.not_lt.mpr height⟩
  have checked : checkLimits kind h maxWidth maxHeight = .ok () := if_neg within
  refine ⟨t, four, (Decoder.bind_ok run).trans ?_⟩
  rw [checked]
  exact Decoder.bind_ok (Decoder.ofExcept_ok () t)

theorem file_shortRow (all : s.unread = bytes) (enough : 4 ≤ bytes.length)
    (found : Header.front bytes = h) (width : h.width ≤ maxWidth) (height : h.height ≤ maxHeight)
    (few : bytes.length < 4 + h.height.toNat * (h.width.toNat * code.bytes)) :
    ∃ t, file kind code.toPixelCode maxWidth maxHeight s =
      .error (s.shortfall (.malformed none (.shortRow
        (h.height.toNat - 1 - (bytes.length - 4) / (h.width.toNat * code.bytes))
        h.width.toNat h.height.toNat))) t := by
  obtain ⟨t, four, behind⟩ := file_within code kind all enough found width height
  have left : t.unread.length = bytes.length - 4 := by
    rw [four.unread, all, List.length_drop]
  obtain ⟨u, run, _⟩ := pixels_short
    (show t.unread.length < h.height.toNat * (h.width.toNat * code.bytes) by omega)
  rw [four.shortfall, left] at run
  exact ⟨u, behind.trans (Decoder.bind_error run)⟩

theorem file_met (all : s.unread = bytes) (found : Header.front bytes = h)
    (width : h.width ≤ maxWidth) (height : h.height ≤ maxHeight)
    (enough : 4 + h.height.toNat * (h.width.toNat * code.bytes) ≤ bytes.length) :
    ∃ g t, file kind code.toPixelCode maxWidth maxHeight s = .ok (h, g) t ∧
      s.Advanced (4 + h.height.toNat * (h.width.toNat * code.bytes)) t ∧ h.Fits g ∧
      ∀ x y, x < h.width.toNat → y < h.height.toNat → g.get? x y = some
        (code.pixelAt bytes (4 + code.position h.width.toNat h.height.toNat x y)) := by
  obtain ⟨t, four, behind⟩ := file_within code kind all (by omega) found width height
  have left : h.height.toNat * (h.width.toNat * code.bytes) ≤ t.unread.length := by
    rw [four.unread, all, List.length_drop]
    omega
  obtain ⟨g, u, run, rest, fits, pixel⟩ := pixels_met left
  refine ⟨g, u, behind.trans (Decoder.bind_ok run), four.add rest, fits, ?_⟩
  intro x y hx hy
  rw [pixel x y hx hy, four.unread, all, code.pixelAt_drop]

end Grids

/-- A reader of one kind of file answers every string of bytes as the layout has it. -/
structure DecodesExactly {α β : Type} (read : Decoder β) (grid : β → Grid α) (kind : PixelKind)
    (code : PixelCodec α) (maxWidth maxHeight : UInt16) : Prop where
  shortHeader : ∀ bytes : List UInt8, bytes.length < 4 →
    ∃ t, read (.ofBytes bytes) = .error (.malformed none .shortHeader) t
  oversize : ∀ bytes : List UInt8, 4 ≤ bytes.length →
    let h := Header.front bytes
    maxWidth < h.width ∨ maxHeight < h.height →
    ∃ t, read (.ofBytes bytes) = .error (.malformed none
      (.oversize kind h.width.toNat h.height.toNat maxWidth.toNat maxHeight.toNat)) t ∧
      t.taken = 4 ∧ t.unread = bytes.drop 4
  shortRow : ∀ bytes : List UInt8, 4 ≤ bytes.length →
    let h := Header.front bytes
    h.width ≤ maxWidth → h.height ≤ maxHeight →
    bytes.length < 4 + code.bytes * h.width.toNat * h.height.toNat →
    ∃ t, read (.ofBytes bytes) = .error (.malformed none (.shortRow
      (h.height.toNat - 1 - (bytes.length - 4) / (code.bytes * h.width.toNat))
      h.width.toNat h.height.toNat)) t
  whole : ∀ bytes : List UInt8, 4 ≤ bytes.length →
    let h := Header.front bytes
    let size := 4 + code.bytes * h.width.toNat * h.height.toNat
    h.width ≤ maxWidth → h.height ≤ maxHeight → size ≤ bytes.length →
    ∃ value t, read (.ofBytes bytes) = .ok value t ∧ t.taken = size ∧ t.unread = bytes.drop size ∧
      (grid value).width = h.width.toNat ∧ (grid value).height = h.height.toNat ∧
      ∀ x y, x < h.width.toNat → y < h.height.toNat → (grid value).get? x y = some
        (code.pixelAt bytes (4 + code.bytes * ((h.height.toNat - 1 - y) * h.width.toNat + x)))
  readBack : ∀ (g : Grid α) (tail : List UInt8),
    g.width ≤ maxWidth.toNat → g.height ≤ maxHeight.toNat →
    ∃ value t, read (.ofBytes (code.file g ++ tail)) = .ok value t ∧ grid value = g ∧ t.unread = tail
  writtenBack : ∀ bytes value t, read (.ofBytes bytes) = .ok value t →
    code.file (grid value) = bytes.take t.taken ∧ t.unread = bytes.drop t.taken

/-- A reader that takes a file of one kind and only wraps up its grid. -/
structure Wraps {α β : Type} [Inhabited α] (read : Decoder β) (grid : β → Grid α) (kind : PixelKind)
    (code : PixelCodec α) (maxWidth maxHeight : UInt16) where
  finish : Header × Grid α → Decoder β
  isFile : read = file kind code.toPixelCode maxWidth maxHeight >>= finish
  finishes : ∀ (h : Header) (g : Grid α) (t : Source), h.Fits g →
    ∃ value, finish (h, g) t = .ok value t ∧ grid value = g

namespace Wraps

variable {α β : Type} [Inhabited α] {read : Decoder β} {grid : β → Grid α} {kind : PixelKind}
  {code : PixelCodec α} {maxWidth maxHeight : UInt16} {s t : Source} {bytes : List UInt8}

/-- A file with all its pixels is read to the last of them. -/
theorem read_whole (wraps : Wraps read grid kind code maxWidth maxHeight) {h : Header}
    (all : s.unread = bytes) (found : Header.front bytes = h) (width : h.width ≤ maxWidth)
    (height : h.height ≤ maxHeight)
    (enough : 4 + h.height.toNat * (h.width.toNat * code.bytes) ≤ bytes.length) :
    ∃ value t, read s = .ok value t ∧
      s.Advanced (4 + h.height.toNat * (h.width.toNat * code.bytes)) t ∧ h.Fits (grid value) ∧
      ∀ x y, x < h.width.toNat → y < h.height.toNat → (grid value).get? x y = some
        (code.pixelAt bytes (4 + code.position h.width.toNat h.height.toNat x y)) := by
  obtain ⟨g, t, run, advanced, fits, pixel⟩ := file_met code kind all found width height enough
  obtain ⟨value, finished, rfl⟩ := wraps.finishes h g t fits
  refine ⟨value, t, ?_, advanced, fits, pixel⟩
  rw [wraps.isFile, Decoder.bind_ok run]
  exact finished

theorem fails (wraps : Wraps read grid kind code maxWidth maxHeight) {fault : Fault}
    (failed : file kind code.toPixelCode maxWidth maxHeight s = .error fault t) :
    read s = .error fault t := by
  rw [wraps.isFile]
  exact Decoder.bind_error failed

/-- Only a file with all its pixels is read. -/
theorem whole_of_ok (wraps : Wraps read grid kind code maxWidth maxHeight) {value : β}
    (all : s.unread = bytes) (run : read s = .ok value t) :
    4 ≤ bytes.length ∧ ∃ h, Header.front bytes = h ∧ h.width ≤ maxWidth ∧ h.height ≤ maxHeight ∧
      4 + h.height.toNat * (h.width.toNat * code.bytes) ≤ bytes.length := by
  -- Each way a file can fall short is a fault, and a fault is no result.
  have no_fault {fault : Fault} {u : Source} :
      file kind code.toPixelCode maxWidth maxHeight s ≠ .error fault u := by
    intro failed
    rw [wraps.fails failed] at run
    cases run
  have front : 4 ≤ bytes.length := by
    refine Nat.le_of_not_lt fun few => ?_
    obtain ⟨u, failed⟩ := file_shortHeader code kind maxWidth maxHeight all few
    exact no_fault failed
  have within : ¬ (maxWidth < (Header.front bytes).width ∨ maxHeight < (Header.front bytes).height) := by
    intro large
    obtain ⟨u, failed, _⟩ := file_oversize code kind all front rfl large
    exact no_fault failed
  obtain ⟨width, height⟩ := not_or.mp within
  refine ⟨front, _, rfl, UInt16.not_lt.mp width, UInt16.not_lt.mp height, ?_⟩
  refine Nat.le_of_not_lt fun few => ?_
  obtain ⟨u, failed⟩ := file_shortRow code kind all front rfl (UInt16.not_lt.mp width)
    (UInt16.not_lt.mp height) few
  exact no_fault failed

/-- A file that can be read has a header that can be read, however it is delivered again. -/
theorem header_of_ok (wraps : Wraps read grid kind code maxWidth maxHeight) {value : β} {again : Source}
    (same : again.unread = s.unread) (run : read s = .ok value t) :
    ∃ h u, header again = .ok h u ∧ h.Fits (grid value) := by
  obtain ⟨front, h, found, width, height, enough⟩ := wraps.whole_of_ok rfl run
  obtain ⟨_, _, whole, _, fits, _⟩ := wraps.read_whole rfl found width height enough
  obtain ⟨u, headed, _⟩ := header_met (same ▸ front)
  cases run.symm.trans whole
  rw [same, found] at headed
  exact ⟨h, u, headed, fits⟩

/-- What was read is written back as it stood in the file. -/
theorem file_eq_take (wraps : Wraps read grid kind code maxWidth maxHeight) {value : β}
    (all : s.unread = bytes) (run : read s = .ok value t) :
    ∃ n, s.Advanced n t ∧ code.file (grid value) = bytes.take n := by
  obtain ⟨front, h, found, width, height, enough⟩ := wraps.whole_of_ok all run
  obtain ⟨_, _, same, advanced, fits, pixel⟩ := wraps.read_whole all found width height enough
  cases run.symm.trans same
  refine ⟨_, advanced, ?_⟩
  rw [List.take_add, PixelCodec.file, Grid.header_eq fits, ← Header.toBytes_front front, found]
  congr 1
  rw [← fits.1, ← fits.2] at enough pixel ⊢
  apply PixelCodec.rows_eq_take
  · rw [List.length_drop]
    omega
  · intro x y hx hy
    rw [pixel x y hx hy, code.pixelAt_drop]

/-- A grid's own file is read back, whatever stands behind it. -/
theorem read_file (wraps : Wraps read grid kind code maxWidth maxHeight) {g : Grid α}
    (width : g.width ≤ maxWidth.toNat) (height : g.height ≤ maxHeight.toNat) {tail : List UInt8}
    (all : s.unread = code.file g ++ tail) :
    ∃ value t, read s = .ok value t ∧ grid value = g ∧ t.unread = tail := by
  have width_lt := maxWidth.toNat_lt
  have height_lt := maxHeight.toNat_lt
  have fits : g.header.Fits g := Grid.fits_header (by omega) (by omega)
  have layout : code.file g ++ tail = g.header.toBytes ++ ((code.rows g).toList ++ tail) :=
    List.append_assoc ..
  have found : Header.front (code.file g ++ tail) = g.header := by
    rw [layout, Header.front_toBytes]
  have behind : (code.file g ++ tail).drop 4 = (code.rows g).toList ++ tail := by
    rw [layout]
    rfl
  have length : (code.file g ++ tail).length =
      4 + g.height * (g.width * code.bytes) + tail.length := by
    rw [layout, List.length_append, List.length_append, Vector.length_toList, Nat.add_assoc]
    rfl
  obtain ⟨value, t, run, advanced, fits', pixel⟩ := wraps.read_whole all found
    (UInt16.le_iff_toNat_le.mpr (fits.1 ▸ width)) (UInt16.le_iff_toNat_le.mpr (fits.2 ▸ height))
    (by rw [← fits.1, ← fits.2, length]; exact Nat.le_add_right ..)
  rw [← fits.1, ← fits.2] at advanced pixel
  refine ⟨value, t, run, ?_, ?_⟩
  -- The grid that was read and the one written have the same bytes at every pixel's position.
  · apply Grid.ext_get? (fits'.1.trans fits.1.symm) (fits'.2.trans fits.2.symm)
    intro x y hx hy
    rw [fits'.1, ← fits.1] at hx
    rw [fits'.2, ← fits.2] at hy
    rw [pixel x y hx hy, ← code.pixelAt_drop, behind, PixelCodec.pixelAt_rows tail hx hy]
  · rw [advanced.unread, all, ← List.drop_drop, behind, List.drop_left' Vector.length_toList]

theorem decodesExactly (wraps : Wraps read grid kind code maxWidth maxHeight) :
    DecodesExactly read grid kind code maxWidth maxHeight where
  shortHeader := by
    intro bytes few
    obtain ⟨t, failed⟩ := file_shortHeader code kind maxWidth maxHeight (Source.unread_ofBytes bytes) few
    rw [Source.shortfall_ofBytes] at failed
    exact ⟨t, wraps.fails failed⟩
  oversize := by
    intro bytes enough h large
    obtain ⟨t, failed, four⟩ := file_oversize code kind (Source.unread_ofBytes bytes) enough rfl large
    exact ⟨t, wraps.fails failed, four.taken_ofBytes, four.unread_ofBytes⟩
  shortRow := by
    intro bytes enough h width height few
    rw [Nat.mul_comm code.bytes, Nat.mul_comm _ h.height.toNat] at few
    obtain ⟨t, failed⟩ :=
      file_shortRow code kind (Source.unread_ofBytes bytes) enough rfl width height few
    rw [Source.shortfall_ofBytes, Nat.mul_comm _ code.bytes] at failed
    exact ⟨t, wraps.fails failed⟩
  whole := by
    intro bytes enough h size width height rest
    have layout : size = 4 + h.height.toNat * (h.width.toNat * code.bytes) := by
      rw [Nat.mul_comm h.width.toNat, Nat.mul_comm h.height.toNat]
    rw [layout] at rest ⊢
    obtain ⟨value, t, run, advanced, fits, pixel⟩ :=
      wraps.read_whole (Source.unread_ofBytes bytes) rfl width height rest
    exact ⟨value, t, run, advanced.taken_ofBytes, advanced.unread_ofBytes, fits.1, fits.2, pixel⟩
  readBack := by
    intro g tail width height
    exact wraps.read_file width height (Source.unread_ofBytes _)
  writtenBack := by
    intro bytes value t run
    obtain ⟨n, advanced, same⟩ := wraps.file_eq_take (Source.unread_ofBytes bytes) run
    rw [advanced.taken_ofBytes]
    exact ⟨same, advanced.unread_ofBytes⟩

end Wraps

def wrapsRawPhoto (options : LoadOptions) : Wraps (rawPhoto options) id .photo .raw
    options.maxPhotoWidth options.maxPhotoHeight where
  finish := fun (_, grid) => pure grid
  isFile := rfl
  finishes := fun _ g _ _ => ⟨g, rfl, rfl⟩

/-- A sprite is its grid under the header that was read, which always fits. -/
def wrapsSprite (options : LoadOptions) : Wraps (sprite options) Sprite.pixels .image .object
    options.maxImageWidth options.maxImageHeight where
  finish := fun (h, grid) => ofExcept (Sprite.ofGrid h grid)
  isFile := rfl
  finishes := by
    intro h g t fits
    refine ⟨⟨h, g, fits⟩, ?_, rfl⟩
    have made : Sprite.ofGrid h g = .ok ⟨h, g, fits⟩ := dif_pos fits
    simp only [made]
    exact Decoder.ofExcept_ok _ t

section Read

variable {options : LoadOptions} {s t : Source} {raw : Grid Raw}

/-- A photo that was read is no larger than its header can say. -/
theorem rawPhoto_fits (run : rawPhoto options s = .ok raw t) : raw.header.Fits raw := by
  obtain ⟨_, h, found, width, height, enough⟩ := (wrapsRawPhoto options).whole_of_ok rfl run
  obtain ⟨_, _, same, _, fits, _⟩ := (wrapsRawPhoto options).read_whole rfl found width height enough
  cases run.symm.trans same
  exact (Grid.header_eq fits).symm ▸ fits

/-- A photo that was read is small enough for its colours to be counted and summed in 64 bits. -/
theorem rawPhoto_countable (run : rawPhoto options s = .ok raw t) :
    63 * raw.len < UInt64.size := by
  have fits := rawPhoto_fits run
  have width_lt := raw.header.width.toNat_lt
  have height_lt := raw.header.height.toNat_lt
  have area : raw.len ≤ 65535 * 65535 := by
    rw [Grid.len, raw.size_pixels]
    exact Nat.mul_le_mul (fits.1 ▸ by omega) (fits.2 ▸ by omega)
  simp only [UInt64.size]
  omega

end Read

/-- Both kinds of pixel file are decoded exactly, under every limit. -/
theorem pixel_files_decode_exactly (options : LoadOptions) :
    DecodesExactly (rawPhoto options) id .photo .raw options.maxPhotoWidth options.maxPhotoHeight ∧
    DecodesExactly (sprite options) Sprite.pixels .image .object
      options.maxImageWidth options.maxImageHeight :=
  ⟨(wrapsRawPhoto options).decodesExactly, (wrapsSprite options).decodesExactly⟩

end PixelFile
end Roomscape
