import Roomscape.Proofs.FileRows

/-! The bytes of a whole file, written out from the grid it holds. -/
namespace Roomscape

namespace Grid

theorem get?_eq_rows {α : Type} (g : Grid α) {x y : Nat} (hx : x < g.width) (hy : y < g.height) :
    g.get? x y = some g.rows[y][x] := by
  rw [g.get?_inside hx hy, Array.getElem?_eq_getElem (g.position_bound hx hy)]
  simp only [rows, Vector.getElem_ofFn]

/-- The header of a grid that is no larger than a header can say. -/
def header {α : Type} (g : Grid α) : Header := ⟨UInt16.ofNat g.width, UInt16.ofNat g.height⟩

theorem fits_header {α : Type} {g : Grid α} (width : g.width < 65536) (height : g.height < 65536) :
    g.header.Fits g :=
  ⟨(UInt16.toNat_ofNat_of_lt' width).symm, (UInt16.toNat_ofNat_of_lt' height).symm⟩

theorem header_eq {α : Type} {g : Grid α} {h : Header} (fits : h.Fits g) : g.header = h := by
  rw [header, fits.1, fits.2, UInt16.ofNat_toNat, UInt16.ofNat_toNat]

end Grid

namespace PixelCode

variable {α : Type} {code : PixelCode α} {width height x y k : Nat}

/-- A position in rows of equal length, row by row. -/
theorem position_add (code : PixelCode α) (width height x y k : Nat) :
    code.position width height x y + k =
      width * code.bytes * (height - 1 - y) + (code.bytes * x + k) := by
  rw [position, Nat.mul_add, ← Nat.mul_assoc, Nat.mul_right_comm, Nat.mul_comm code.bytes,
    Nat.add_assoc]

theorem in_row (hx : x < width) (hk : k < code.bytes) :
    code.bytes * x + k < width * code.bytes := by
  have next := Nat.mul_le_mul_left code.bytes hx
  rw [Nat.mul_succ, Nat.mul_comm _ width] at next
  omega

theorem position_lt (hx : x < width) (hy : y < height) (hk : k < code.bytes) :
    code.position width height x y + k < height * (width * code.bytes) := by
  have row := in_row hx hk
  have rows := Nat.mul_le_mul_left (width * code.bytes) (show height - 1 - y + 1 ≤ height by omega)
  rw [Nat.mul_add_one, Nat.mul_comm _ height] at rows
  rw [position_add]
  omega

/-- Every byte of the rows belongs to a pixel. -/
theorem exists_position {i : Nat} (inside : i < height * (width * code.bytes)) :
    ∃ x y k, x < width ∧ y < height ∧ k < code.bytes ∧
      i = code.position width height x y + k := by
  have row : 0 < width * code.bytes := Nat.pos_of_lt_mul_left inside
  have pixel : 0 < code.bytes := Nat.pos_of_mul_pos_left row
  have number : i / (width * code.bytes) < height := Nat.div_lt_of_lt_mul (Nat.mul_comm height _ ▸ inside)
  refine ⟨i % (width * code.bytes) / code.bytes, height - 1 - i / (width * code.bytes),
    i % (width * code.bytes) % code.bytes, ?_, ?_, Nat.mod_lt _ pixel, ?_⟩
  · exact Nat.div_lt_of_lt_mul (Nat.mul_comm width _ ▸ Nat.mod_lt _ row)
  · exact Nat.lt_of_le_of_lt (Nat.sub_le _ _) (Nat.sub_one_lt_of_lt number)
  · rw [position_add, Nat.div_add_mod, Nat.sub_sub_self (by omega), Nat.div_add_mod]

end PixelCode

namespace Header

theorem word_wordBytes (w : UInt16) :
    word (UInt8.ofNat (w.toNat % 256)) (UInt8.ofNat (w.toNat / 256)) = w := by
  have bound := w.toNat_lt
  apply UInt16.toNat_inj.mp
  simp only [word, UInt16.toNat_ofNat', UInt8.toNat_ofNat']
  omega

theorem wordBytes_word (low high : UInt8) : wordBytes (word low high) = [low, high] := by
  have hl := low.toNat_lt
  have hh := high.toNat_lt
  simp only [wordBytes, word, List.cons.injEq, ← UInt8.toNat_inj, UInt16.toNat_ofNat',
    UInt8.toNat_ofNat', and_true]
  omega

end Header

namespace Raw

theorem ofBytes_toBytes (p : Raw) :
    ofBytes (UInt8.ofNat (p.bits.toNat % 256)) (UInt8.ofNat (p.bits.toNat / 256)) = p :=
  congrArg Raw.mk (Header.word_wordBytes p.bits)

theorem toBytes_ofBytes (low high : UInt8) : (ofBytes low high).toBytes = [low, high] :=
  Header.wordBytes_word low high

end Raw

/-- A pixel code with its inverse. -/
structure PixelCodec (α : Type) extends PixelCode α where
  encode : α → Vector UInt8 bytes
  decode_encode : ∀ pixel, decode (encode pixel) = pixel
  encode_decode : ∀ written, encode (decode written) = written
  size : bytes = 1 ∨ bytes = 2

namespace PixelCodec

def raw : PixelCodec Raw where
  toPixelCode := .raw
  encode := fun pixel => ⟨pixel.toBytes.toArray, rfl⟩
  decode_encode := fun pixel => Raw.ofBytes_toBytes pixel
  encode_decode := fun written => by
    have bytes := Raw.toBytes_ofBytes written[0] written[1]
    apply Vector.ext
    intro k hk
    change (Raw.ofBytes written[0] written[1]).toBytes[k] = written[k]
    obtain rfl | rfl : k = 0 ∨ k = 1 := by
      change k < 2 at hk
      omega
    · simp only [bytes, List.getElem_cons_zero]
    · simp only [bytes, List.getElem_cons_succ, List.getElem_cons_zero]
  size := .inr rfl

def object : PixelCodec UInt8 where
  toPixelCode := .object
  encode := fun pixel => #v[pixel]
  decode_encode := fun _ => rfl
  encode_decode := fun written => by
    apply Vector.ext
    intro k hk
    obtain rfl : k = 0 := Nat.lt_one_iff.mp hk
    rfl
  size := .inl rfl

variable {α : Type} (code : PixelCodec α) (g : Grid α)

/-- The bytes of the rows, the bottom row first. -/
def rows : Vector UInt8 (g.height * (g.width * code.bytes)) :=
  g.rows.reverse.flatMap fun row => row.flatMap code.encode

/-- The file of a grid: its header, and then its rows. -/
def file : List UInt8 := g.header.toBytes ++ (code.rows g).toList

variable {code g}

/-- Each byte of the rows belongs to one pixel. -/
theorem getElem_rows {i : Nat} (hi : i < g.height * (g.width * code.bytes)) {x y k : Nat}
    (hx : x < g.width) (hy : y < g.height) (hk : k < code.bytes)
    (place : i = code.position g.width g.height x y + k) :
    (code.rows g)[i] = (code.encode g.rows[y][x])[k] := by
  have in_row := PixelCode.in_row hx hk
  have row := place.trans (code.position_add g.width g.height x y k)
  have row_number : i / (g.width * code.bytes) = g.height - 1 - y := by
    rw [row, Nat.mul_add_div (by omega), Nat.div_eq_of_lt in_row, Nat.add_zero]
  have in_rest : i % (g.width * code.bytes) = code.bytes * x + k := by
    rw [row, Nat.mul_add_mod, Nat.mod_eq_of_lt in_row]
  have pixel_number : (code.bytes * x + k) / code.bytes = x := by
    rw [Nat.mul_add_div (by omega), Nat.div_eq_of_lt hk, Nat.add_zero]
  have byte_number : (code.bytes * x + k) % code.bytes = k := by
    rw [Nat.mul_add_mod, Nat.mod_eq_of_lt hk]
  have row_index : g.height - 1 - (g.height - 1 - y) = y := by omega
  simp only [rows, Vector.getElem_flatMap, Vector.getElem_reverse, row_number, in_rest,
    pixel_number, byte_number, row_index]

/-- The pixels of a grid stand in its rows at their positions, whatever follows. -/
theorem pixelAt_rows (tail : List UInt8) {x y : Nat} (hx : x < g.width) (hy : y < g.height) :
    g.get? x y = some
      (code.pixelAt ((code.rows g).toList ++ tail) (code.position g.width g.height x y)) := by
  rw [g.get?_eq_rows hx hy, Option.some_inj, PixelCode.pixelAt, ← code.decode_encode g.rows[y][x]]
  congr 1
  apply Vector.ext
  intro k hk
  have inside := PixelCode.position_lt hx hy hk
  have listed : code.position g.width g.height x y + k < (code.rows g).toList.length := by
    rwa [Vector.length_toList]
  rw [Vector.getElem_ofFn, List.getD_eq_getElem?_getD, List.getElem?_append_left listed,
    List.getElem?_eq_getElem listed, Option.getD_some, Vector.getElem_toList,
    getElem_rows inside hx hy hk rfl]

/-- Bytes that hold a grid's pixels at their positions are the grid's rows. -/
theorem rows_eq_take {bytes : List UInt8}
    (enough : g.height * (g.width * code.bytes) ≤ bytes.length)
    (pixels : ∀ x y, x < g.width → y < g.height → g.get? x y =
      some (code.pixelAt bytes (code.position g.width g.height x y))) :
    (code.rows g).toList = bytes.take (g.height * (g.width * code.bytes)) := by
  apply List.ext_getElem
  · rw [Vector.length_toList, List.length_take_of_le enough]
  · intro i hi _
    rw [Vector.length_toList] at hi
    obtain ⟨x, y, k, hx, hy, hk, place⟩ := PixelCode.exists_position hi
    have pixel := pixels x y hx hy
    rw [g.get?_eq_rows hx hy, Option.some_inj, PixelCode.pixelAt] at pixel
    rw [Vector.getElem_toList, getElem_rows hi hx hy hk place, pixel, code.encode_decode,
      Vector.getElem_ofFn, ← place, List.getD_eq_getElem?_getD, List.getElem?_eq_getElem (by omega),
      Option.getD_some, List.getElem_take]

end PixelCodec
end Roomscape
