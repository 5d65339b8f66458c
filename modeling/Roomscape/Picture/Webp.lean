import Roomscape.Octets
import Roomscape.Picture

/-!
The WebP form of a picture without loss. Every channel of every pixel is a code of eight bits.
-/
namespace Roomscape.Webp

open Octets (BitWriter)

def pushAll (w : BitWriter) (fields : List (Nat × Nat)) : BitWriter :=
  fields.foldl (fun w (width, n) => w.push width n) w

/-- The size, alpha in use, and neither a transformation nor other extras. -/
def head (p : Picture) : List (Nat × Nat) :=
  [(8, 0x2F), (14, p.width - 1), (14, p.height - 1), (1, 1), (3, 0), (1, 0), (1, 0), (1, 0)]

/-- A code in which each of the first 256 symbols has eight bits. It tells of lengths only the eight,
which then takes no bits, and for how many symbols it is meant. -/
def channelCode : List (Nat × Nat) :=
  [(1, 0), (4, 8)] ++ List.replicate 11 (3, 0) ++ [(3, 1), (1, 1), (3, 3), (8, 254)]

/-- A code of one symbol, for distances, which do not occur. -/
def distanceCode : List (Nat × Nat) := [(1, 1), (1, 0), (1, 0), (1, 0)]

def pixel (c : Rgba) : List (Nat × Nat) :=
  [c.green, c.red, c.blue, c.alpha].map fun b => (8, Octets.mirror b)

def stream (p : Picture) : List UInt8 :=
  let codes := (List.replicate 4 channelCode).flatten ++ distanceCode
  let w := pushAll .empty (head p ++ codes)
  (p.pixels.foldl (fun w c => pushAll w (pixel c)) w).finish

def encode (p : Picture) : List UInt8 :=
  let data := stream p
  let padding := data.length % 2
  Octets.ascii "RIFF" ++ Octets.low 4 (12 + data.length + padding) ++ Octets.ascii "WEBPVP8L" ++
    Octets.low 4 data.length ++ data ++ List.replicate padding 0

end Roomscape.Webp
