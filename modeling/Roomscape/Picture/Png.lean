import Roomscape.Octets
import Roomscape.Picture

/-!
The PNG form of a picture: eight bits a channel with alpha, every row unfiltered, the data stored in
uncompressed blocks.
-/
namespace Roomscape.Png

def crcBit (crc : UInt32) : UInt32 :=
  if crc &&& 1 = 1 then (crc >>> 1) ^^^ 0xEDB88320 else crc >>> 1

def crcByte (crc : UInt32) (b : UInt8) : UInt32 :=
  Nat.repeat crcBit 8 (crc ^^^ b.toUInt32)

def crc32 (bytes : List UInt8) : UInt32 := bytes.foldl crcByte 0xFFFFFFFF ^^^ 0xFFFFFFFF

def adlerByte (sums : UInt32 × UInt32) (b : UInt8) : UInt32 × UInt32 :=
  let low := (sums.1 + b.toUInt32) % 65521
  (low, (sums.2 + low) % 65521)

def adler32 (bytes : List UInt8) : UInt32 :=
  let sums := bytes.foldl adlerByte (1, 0)
  sums.2 <<< 16 ||| sums.1

/-- Length, kind, data, and the check sum of the last two. -/
def chunk (kind : String) (data : List UInt8) : List UInt8 :=
  let body := Octets.ascii kind ++ data
  Octets.high 4 data.length ++ body ++ Octets.high 4 (crc32 body).toNat

/-- A block of at most 65535 bytes that are stored as they are. -/
def storedBlock (last : Bool) (data : List UInt8) : List UInt8 :=
  Octets.fields [(1, last.toNat), (2, data.length), (2, 65535 - data.length)] ++ data

/-- Data in stored blocks, the last one marked. -/
def zlib (data : List UInt8) : List UInt8 :=
  let blocks := Octets.pieces 65535 data
  [0x78, 0x01] ++ blocks.dropLast.flatMap (storedBlock false) ++
    storedBlock true (blocks.getLast?.getD []) ++ Octets.high 4 (adler32 data).toNat

/-- Every row of the picture behind its filter byte, which is 0. -/
def scanlines (p : Picture) : List UInt8 :=
  p.rows.toList.flatMap fun row => 0 :: row.toList.flatMap Rgba.octets

def encode (p : Picture) : List UInt8 :=
  [0x89, 0x50, 0x4E, 0x47, 0x0D, 0x0A, 0x1A, 0x0A] ++
    chunk "IHDR" (Octets.high 4 p.width ++ Octets.high 4 p.height ++ [8, 6, 0, 0, 0]) ++
    chunk "IDAT" (zlib (scanlines p)) ++
    chunk "IEND" []

end Roomscape.Png
