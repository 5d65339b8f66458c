/-!
What files are made of: numbers written in a given count of octets, and bits packed into octets.
-/
namespace Roomscape.Octets

/-- The lowest `width` octets of a number, the lowest first. -/
def low : Nat → Nat → List UInt8
  | 0, _ => []
  | width + 1, n => UInt8.ofNat n :: low width (n / 256)

def high (width n : Nat) : List UInt8 := (low width n).reverse

/-- Numbers one after the other, each behind its width, and each with the lowest octet first. -/
def fields (numbers : List (Nat × Nat)) : List UInt8 :=
  numbers.flatMap fun (width, n) => low width n

def ascii (text : String) : List UInt8 := text.toList.map fun c => UInt8.ofNat c.toNat

/-- The list cut into pieces of `size` items, the last one perhaps shorter. -/
def pieces {α : Type} (size : Nat) : List α → List (List α)
  | [] => []
  | x :: xs => (x :: xs.take (size - 1)) :: pieces size (xs.drop (size - 1))
termination_by xs => xs.length
decreasing_by simp only [List.length_drop, List.length_cons]; omega

/-- The eight bits of an octet in opposite order. -/
def mirror (b : UInt8) : Nat :=
  (List.range 8).foldl (fun n i => 2 * n + b.toNat >>> i % 2) 0

/-- Bits on their way into octets, the first bit lowest. Fewer than eight wait in `part`. -/
structure BitWriter where
  done : Array UInt8
  part : Nat
  count : Nat

namespace BitWriter

def empty : BitWriter := ⟨#[], 0, 0⟩

def push (w : BitWriter) (width n : Nat) : BitWriter :=
  let waiting := w.part + (n % 1 <<< width) <<< w.count
  let count := w.count + width
  ⟨w.done ++ low (count / 8) waiting, waiting >>> (count / 8 * 8), count % 8⟩

/-- The octets, the last one filled up with zero bits. -/
def finish (w : BitWriter) : List UInt8 :=
  w.done.toList ++ if w.count = 0 then [] else [UInt8.ofNat w.part]

end BitWriter
end Roomscape.Octets
