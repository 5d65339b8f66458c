import Roomscape.Octets
import Roomscape.Picture

/-!
The TIFF form of a picture: eight bits a channel with alpha, no compression, all rows in one strip
between the head and the list of what they are.
-/
namespace Roomscape.Tiff

def widthsAt : Nat := 8

def stripAt : Nat := widthsAt + 8

inductive Kind where
  | short
  | long

def Kind.code : Kind → Nat
  | .short => 3
  | .long => 4

structure Entry where
  tag : Nat
  kind : Kind
  count : Nat
  value : Nat

def Entry.fields (e : Entry) : List (Nat × Nat) :=
  [(2, e.tag), (2, e.kind.code), (4, e.count), (4, e.value)]

/-- What the strip holds: three colours and an alpha channel, as they are. -/
def entries (p : Picture) : List Entry :=
  [⟨256, .long, 1, p.width⟩, ⟨257, .long, 1, p.height⟩, ⟨258, .short, 4, widthsAt⟩,
   ⟨259, .short, 1, 1⟩, ⟨262, .short, 1, 2⟩, ⟨273, .long, 1, stripAt⟩, ⟨277, .short, 1, 4⟩,
   ⟨278, .long, 1, p.height⟩, ⟨279, .long, 1, 4 * p.len⟩, ⟨338, .short, 1, 2⟩]

def encode (p : Picture) : List UInt8 :=
  let entries := entries p
  Octets.ascii "II" ++
    Octets.fields ([(2, 42), (4, stripAt + 4 * p.len)] ++ List.replicate 4 (2, 8)) ++
    p.pixels.toList.flatMap Rgba.octets ++
    Octets.fields ((2, entries.length) :: entries.flatMap Entry.fields ++ [(4, 0)])

end Roomscape.Tiff
