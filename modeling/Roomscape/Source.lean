import Roomscape.Fault

/-!
Streams of bytes, as the read calls that will answer. A reader that wants `n` bytes goes on until it
has them: interruptions are passed over, the end of the stream and a failure stop it.
-/
namespace Roomscape

structure ReadFailure where
  /-- The failure says that the stream ended. -/
  atEnd : Bool
  text : String

/-- What one read call meets. A call that hands out nothing has met the end of the stream. -/
inductive Delivery where
  | bytes (chunk : List UInt8)
  | interruption
  | failure (why : ReadFailure)

structure Source where
  deliveries : List Delivery
  taken : Nat

namespace Source

/-- A stream that hands out all of its bytes at once. -/
def ofBytes (bytes : List UInt8) : Source := ⟨[.bytes bytes], 0⟩

def broken (text : String) : Source := ⟨[.failure ⟨false, text⟩], 0⟩

/-- How a demand for a number of bytes ends: with them, or after fewer. -/
inductive Outcome where
  | met (got : Array UInt8) (rest : List Delivery)
  | ended (got : Nat)
  | failed (why : ReadFailure) (got : Nat) (rest : List Delivery)

/-- Add `need` more bytes to those already got. When none are needed no call is made. -/
def collect (got : Array UInt8) : Nat → List Delivery → Outcome
  | 0, rest => .met got rest
  | _ + 1, [] => .ended got.size
  | need + 1, .interruption :: rest => collect got (need + 1) rest
  | _ + 1, .failure why :: rest => .failed why got.size rest
  | _ + 1, .bytes [] :: _ => .ended got.size
  | need + 1, .bytes chunk :: rest =>
    let front := chunk.take (need + 1)
    match chunk.drop (need + 1) with
    | [] => collect (got ++ front) (need + 1 - front.length) rest
    | back => .met (got ++ front) (.bytes back :: rest)

/-- All bytes up to the end of the stream, or the failure that was met before it. -/
def drain (got : Array UInt8) : List Delivery → Except ReadFailure (Array UInt8)
  | [] => .ok got
  | .interruption :: rest => drain got rest
  | .failure why :: _ => .error why
  | .bytes [] :: _ => .ok got
  | .bytes chunk :: rest => drain (got ++ chunk) rest

end Source

/-- A computation that takes bytes from a stream and may fail; what it took stays taken. -/
abbrev Decoder := EStateM Fault Source

/-- Exactly `n` bytes; `short` is the fault of a stream that ends before them. -/
def Decoder.exactly (n : Nat) (short : Fault) : Decoder (Array UInt8) := fun s =>
  match Source.collect #[] n s.deliveries with
  | .met got rest => .ok got ⟨rest, s.taken + got.size⟩
  | .ended got => .error short ⟨[], s.taken + got⟩
  | .failed why got rest =>
    .error (if why.atEnd then short else .readFailed why.text) ⟨rest, s.taken + got⟩

end Roomscape
