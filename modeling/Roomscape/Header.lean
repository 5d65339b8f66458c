/-!
The four bytes that open a photo or image file: width, then height, low byte first.
-/
namespace Roomscape

structure Header where
  width : UInt16
  height : UInt16
deriving DecidableEq, Inhabited

namespace Header

def word (low high : UInt8) : UInt16 := UInt16.ofNat (high.toNat * 256 + low.toNat)

def wordBytes (w : UInt16) : List UInt8 :=
  [UInt8.ofNat (w.toNat % 256), UInt8.ofNat (w.toNat / 256)]

def ofBytes (a b c d : UInt8) : Header := ⟨word a b, word c d⟩

def toBytes (h : Header) : List UInt8 := wordBytes h.width ++ wordBytes h.height

def pixelCount (h : Header) : Nat := h.width.toNat * h.height.toNat

end Header
end Roomscape
