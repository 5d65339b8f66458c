/-!
Colours at three depths: 5:6:5 photo pixels, 6-bit display colours, and 2:2:2 sprite pixels with one
byte kept for "transparent". Channels are read off by division, so a key is a positional number
whose digits are the top bits of the channels.
-/
namespace Roomscape

structure Rgb where
  red : UInt8
  green : UInt8
  blue : UInt8
deriving DecidableEq, Inhabited

/-- A photo pixel: five bits of red, six of green, five of blue, red highest. -/
structure Raw where
  bits : UInt16
deriving DecidableEq, Inhabited

namespace Raw

/-- Bits above a channel's width are dropped. -/
def ofChannels (red green blue : Nat) : Raw :=
  ⟨UInt16.ofNat (red % 32 * 2048 + green % 64 * 32 + blue % 32)⟩

/-- The pixel whose low byte comes first in a file. -/
def ofBytes (low high : UInt8) : Raw := ⟨UInt16.ofNat (high.toNat * 256 + low.toNat)⟩

def toBytes (c : Raw) : List UInt8 :=
  [UInt8.ofNat (c.bits.toNat % 256), UInt8.ofNat (c.bits.toNat / 256)]

def red (c : Raw) : Nat := c.bits.toNat / 2048
def green (c : Raw) : Nat := c.bits.toNat / 32 % 64
def blue (c : Raw) : Nat := c.bits.toNat % 32

/-- Every channel at six bits; red and blue gain a zero at the bottom. -/
def rgb6 (c : Raw) : Rgb :=
  ⟨UInt8.ofNat (2 * c.red), UInt8.ofNat c.green, UInt8.ofNat (2 * c.blue)⟩

/-- The top four bits of each channel, red first. -/
def fineKey (c : Raw) : Nat := c.red / 2 * 256 + c.green / 4 * 16 + c.blue / 2

/-- The top two bits of each channel, red first. -/
def coarseKey (c : Raw) : Nat := c.red / 8 * 16 + c.green / 16 * 4 + c.blue / 8

end Raw

/-- A display colour: three channels of six bits. -/
structure Entry where
  red : Fin 64
  green : Fin 64
  blue : Fin 64
deriving DecidableEq, Inhabited

namespace Entry

def black : Entry := ⟨0, 0, 0⟩

/-- Bits above the sixth are dropped. -/
def ofRgb (c : Rgb) : Entry :=
  ⟨Fin.ofNat 64 c.red.toNat, Fin.ofNat 64 c.green.toNat, Fin.ofNat 64 c.blue.toNat⟩

def toRgb (e : Entry) : Rgb :=
  ⟨UInt8.ofNat e.red.val, UInt8.ofNat e.green.val, UInt8.ofNat e.blue.val⟩

def toBytes (e : Entry) : List UInt8 := [e.toRgb.red, e.toRgb.green, e.toRgb.blue]

/-- Six bits to eight: the top two bits are repeated at the bottom. -/
def widen (channel : Fin 64) : UInt8 := UInt8.ofNat (channel.val * 4 + channel.val / 16)

def wide (e : Entry) : Rgb := ⟨widen e.red, widen e.green, widen e.blue⟩

def hexDigit (n : Nat) : Char := "0123456789ABCDEF".toList.getD n '0'

def hexByte (b : UInt8) : String :=
  String.ofList [hexDigit (b.toNat / 16), hexDigit (b.toNat % 16)]

def text (e : Entry) : String :=
  "#" ++ hexByte e.wide.red ++ hexByte e.wide.green ++ hexByte e.wide.blue

end Entry

/-- A sprite pixel: a 2:2:2 colour in its low six bits, or the transparent byte. -/
structure ObjectPixel where
  bits : UInt8
deriving DecidableEq, Inhabited

namespace ObjectPixel

def transparent : ObjectPixel := ⟨0x40⟩

def isTransparent (p : ObjectPixel) : Bool := p == transparent

/-- Bits above a channel's two are dropped. -/
def ofChannels (red green blue : Nat) : ObjectPixel :=
  ⟨UInt8.ofNat (red % 4 * 16 + green % 4 * 4 + blue % 4)⟩

/-- A 2-bit channel at six bits: the pair of bits three times over. -/
def widen (channel : Nat) : Fin 64 := Fin.ofNat 64 (channel % 4 * 21)

/-- The colour of the low six bits; the transparent byte is black. -/
def entry (p : ObjectPixel) : Entry :=
  ⟨widen (p.bits.toNat / 16), widen (p.bits.toNat / 4), widen p.bits.toNat⟩

end ObjectPixel

/-- The 2:2:2 reduction of a photo pixel is its coarse key. -/
def Raw.toObject (c : Raw) : ObjectPixel := ⟨UInt8.ofNat c.coarseKey⟩

end Roomscape
