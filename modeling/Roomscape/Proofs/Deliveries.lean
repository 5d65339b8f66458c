import Roomscape.PixelFile
import Roomscape.Proofs.Stream

/-! Decoders that only ask for exact numbers of bytes. What such a decoder makes of a stream is settled
by the bytes it takes: read calls may cut them up in any way, and a failure behind them is never met.
Where the bytes run out, it depends on how the stream breaks off whether that counts as its end. -/
namespace Roomscape

/-- The stream ended too early, as against data that is wrong. -/
def Fault.truncation : Fault → Bool
  | .malformed none .shortHeader => true
  | .malformed none (.shortRow ..) => true
  | _ => false

def truncated {α : Type} : Except Fault α → Bool
  | .ok _ => false
  | .error fault => fault.truncation

/-- Read calls that hand out a string of bytes in pieces, with interruptions anywhere between them. -/
inductive HandsOut : List Delivery → List UInt8 → Prop
  | done : HandsOut [] []
  | interruption {rest : List Delivery} {bytes : List UInt8} :
    HandsOut rest bytes → HandsOut (.interruption :: rest) bytes
  | chunk {chunk : List UInt8} {rest : List Delivery} {bytes : List UInt8} :
    chunk ≠ [] → HandsOut rest bytes → HandsOut (.bytes chunk :: rest) (chunk ++ bytes)

namespace HandsOut

open Delivery

variable {deliveries : List Delivery} {bytes : List UInt8}

/-- The string comes first, whatever the stream goes on with. -/
theorem bytesOf_append (hands : HandsOut deliveries bytes) (rest : List Delivery) :
    bytesOf (deliveries ++ rest) = bytes ++ bytesOf rest := by
  induction hands with
  | done => rfl
  | interruption _ ih => exact ih
  | chunk some _ ih => rw [List.cons_append, bytesOf_chunk some, ih, List.append_assoc]

theorem stopOf_append (hands : HandsOut deliveries bytes) (rest : List Delivery) :
    stopOf (deliveries ++ rest) = stopOf rest := by
  induction hands with
  | done => rfl
  | interruption _ ih => exact ih
  | chunk some _ ih => rw [List.cons_append, stopOf_chunk some, ih]

theorem unread (hands : HandsOut deliveries bytes) : (Source.mk deliveries 0).unread = bytes := by
  have all := hands.bytesOf_append []
  rwa [List.append_nil, bytesOf, List.append_nil] at all

theorem shortfall (hands : HandsOut deliveries bytes) (short : Fault) :
    (Source.mk deliveries 0).shortfall short = short := by
  have stop := hands.stopOf_append []
  rw [List.append_nil] at stop
  rw [Source.shortfall, Source.stop, stop]
  rfl

variable (why : ReadFailure) (rest : List Delivery)

theorem unread_failure (hands : HandsOut deliveries bytes) :
    (Source.mk (deliveries ++ .failure why :: rest) 0).unread = bytes := by
  have all := hands.bytesOf_append (.failure why :: rest)
  rwa [bytesOf, List.append_nil] at all

theorem shortfall_failure (hands : HandsOut deliveries bytes) (short : Fault) :
    (Source.mk (deliveries ++ .failure why :: rest) 0).shortfall short =
      if why.atEnd then short else .readFailed why.text := by
  rw [Source.shortfall, Source.stop, hands.stopOf_append]
  rfl

end HandsOut

namespace Decoder

open Source

variable {α β : Type}

/-- What a run comes to: its result, and how many bytes it has taken. -/
def outcome (d : Decoder α) (s : Source) : Except Fault α × Nat :=
  match d s with
  | .ok value t => (.ok value, t.taken)
  | .error fault t => (.error fault, t.taken)

/-- A run that ends with a result and leaves the stream `t`. -/
def ends (result : Except Fault α) (t : Source) : EStateM.Result Fault Source α :=
  match result with
  | .ok value => .ok value t
  | .error fault => .error fault t

/-- Once the bytes in front are taken the result is there, whatever comes behind them. -/
def Settles (d : Decoder α) (front : List UInt8) (result : Except Fault α) : Prop :=
  ∀ s : Source, front <+: s.unread → ∃ t, d s = ends result t ∧ s.Advanced front.length t

/-- These bytes are all taken, and then there are too few of them. -/
def RunsOut (d : Decoder α) (bytes : List UInt8) (short : Fault) : Prop :=
  ∀ s : Source, s.unread = bytes → ∃ t, d s = .error (s.shortfall short) t ∧
    t.taken = s.taken + bytes.length

/-- What a decoder makes of a string of bytes without regard to their delivery. -/
inductive Verdict (d : Decoder α) (bytes : List UInt8) : Prop
  | settled {front : List UInt8} {result : Except Fault α} : front <+: bytes →
    truncated result = false → d.Settles front result → d.Verdict bytes
  | ranOut {short : Fault} : short.truncation → d.RunsOut bytes short → d.Verdict bytes

/-- A decoder that comes to a verdict on every string of bytes. -/
def Steady (d : Decoder α) : Prop := ∀ bytes, d.Verdict bytes

section Steps

variable {first : Decoder α} {next : α → Decoder β} {front front' bytes : List UInt8} {value : α}
  {fault : Fault}

theorem Settles.bind {result : Except Fault β} (settles : first.Settles front (.ok value))
    (settles' : (next value).Settles front' result) :
    (first >>= next).Settles (front ++ front') result := by
  rintro s ⟨tail, all⟩
  obtain ⟨t, run, advanced⟩ := settles s ⟨front' ++ tail, by rw [← all, List.append_assoc]⟩
  have left : t.unread = front' ++ tail := by
    rw [advanced.unread, ← all, List.append_assoc, List.drop_left]
  obtain ⟨u, run', advanced'⟩ := settles' t ⟨tail, left.symm⟩
  refine ⟨u, (bind_ok run).trans run', ?_⟩
  rw [List.length_append]
  exact advanced.add advanced'

theorem Settles.bind_error (settles : first.Settles front (.error fault)) :
    (first >>= next).Settles front (.error fault) := by
  intro s some
  obtain ⟨t, run, advanced⟩ := settles s some
  exact ⟨t, Decoder.bind_error run, advanced⟩

theorem Settles.bind_runsOut (settles : first.Settles front (.ok value))
    (runsOut : (next value).RunsOut front' fault) :
    (first >>= next).RunsOut (front ++ front') fault := by
  intro s all
  obtain ⟨t, run, advanced⟩ := settles s ⟨front', all.symm⟩
  have left : t.unread = front' := by rw [advanced.unread, all, List.drop_left]
  obtain ⟨u, run', taken⟩ := runsOut t left
  rw [advanced.shortfall] at run'
  refine ⟨u, (bind_ok run).trans run', ?_⟩
  rw [taken, advanced.taken, List.length_append, Nat.add_assoc]

theorem RunsOut.bind (runsOut : first.RunsOut bytes fault) :
    (first >>= next).RunsOut bytes fault := by
  intro s all
  obtain ⟨t, run, taken⟩ := runsOut s all
  exact ⟨t, Decoder.bind_error run, taken⟩

end Steps

namespace Steady

theorem pure (value : α) : Steady (Pure.pure value : Decoder α) := by
  intro bytes
  have settles : (Pure.pure value : Decoder α).Settles [] (.ok value) := fun s _ => ⟨s, rfl, .zero s⟩
  exact .settled List.nil_prefix rfl settles

theorem ofExcept {result : Except Fault α} (whole : truncated result = false) :
    Steady (MonadExcept.ofExcept result : Decoder α) := by
  intro bytes
  refine .settled List.nil_prefix whole fun s _ => ⟨s, ?_, .zero s⟩
  cases result with
  | ok value => exact ofExcept_ok value s
  | error fault => exact ofExcept_error fault s

theorem bind {first : Decoder α} {next : α → Decoder β} (steady : first.Steady)
    (steady' : ∀ value, (next value).Steady) : (first >>= next).Steady := by
  intro bytes
  cases steady bytes with
  | ranOut short runsOut => exact .ranOut short runsOut.bind
  | @settled front result some whole settles =>
    cases result with
    | error fault => exact .settled some whole settles.bind_error
    | ok value =>
      obtain ⟨rest, rfl⟩ := some
      cases steady' value rest with
      | ranOut short runsOut => exact .ranOut short (settles.bind_runsOut runsOut)
      | settled some' whole' settles' =>
        exact .settled ((List.prefix_append_right_inj front).mpr some') whole' (settles.bind settles')

theorem exactly (n : Nat) {fault : Fault} (short : fault.truncation) :
    (Decoder.exactly n fault).Steady := by
  intro bytes
  rcases Nat.lt_or_ge bytes.length n with few | enough
  · refine .ranOut short ?_
    rintro s rfl
    exact exactly_short fault few
  · have settles : (Decoder.exactly n fault).Settles (bytes.take n) (.ok (bytes.take n).toArray) := by
      intro s some
      have length : (bytes.take n).length = n := List.length_take_of_le enough
      have met : n ≤ s.unread.length := length ▸ some.length_le
      have front : s.unread.take n = bytes.take n := by
        rw [List.prefix_iff_eq_take.mp some, length]
      obtain ⟨t, run, advanced⟩ := exactly_met fault met
      rw [front] at run
      exact ⟨t, run, length.symm ▸ advanced⟩
    exact .settled (List.take_prefix n bytes) rfl settles

end Steady

section Outcome

variable {d : Decoder α} {s : Source} {bytes front : List UInt8} {result : Except Fault α}
  {short : Fault}

theorem Settles.outcome (settles : d.Settles front result) (fresh : s.taken = 0)
    (all : s.unread = bytes) (some : front <+: bytes) : d.outcome s = (result, front.length) := by
  obtain ⟨t, run, advanced⟩ := settles s (all.symm ▸ some)
  have taken : t.taken = front.length := by rw [advanced.taken, fresh, Nat.zero_add]
  rw [Decoder.outcome, run, ← taken]
  cases result <;> rfl

theorem RunsOut.outcome (runsOut : d.RunsOut bytes short) (fresh : s.taken = 0)
    (all : s.unread = bytes) : d.outcome s = (.error (s.shortfall short), bytes.length) := by
  obtain ⟨t, run, taken⟩ := runsOut s all
  rw [fresh, Nat.zero_add] at taken
  rw [Decoder.outcome, run, ← taken]

end Outcome

/-- What is said of a decoder whose result does not depend on the delivery of its bytes. -/
structure BlindToDelivery (d : Decoder α) : Prop where
  pieces : ∀ bytes deliveries, HandsOut deliveries bytes →
    d.outcome ⟨deliveries, 0⟩ = d.outcome (.ofBytes bytes)
  /-- A failure behind the bytes that are needed is not met. -/
  late : ∀ bytes k deliveries why rest, HandsOut deliveries (bytes.take k) →
    truncated (d.outcome (.ofBytes bytes)).1 = false → (d.outcome (.ofBytes bytes)).2 ≤ k →
    d.outcome ⟨deliveries ++ .failure why :: rest, 0⟩ = d.outcome (.ofBytes bytes)
  /-- A failure before that counts as the end of the stream if it says so. -/
  early : ∀ bytes k deliveries why rest, HandsOut deliveries (bytes.take k) →
    truncated (d.outcome (.ofBytes bytes)).1 ∨ k < (d.outcome (.ofBytes bytes)).2 →
    ∃ short : Fault, short.truncation ∧
      d.outcome (.ofBytes (bytes.take k)) = (.error short, (bytes.take k).length) ∧
      d.outcome ⟨deliveries ++ .failure why :: rest, 0⟩ =
        (.error (if why.atEnd then short else .readFailed why.text), (bytes.take k).length)

theorem Steady.blindToDelivery {d : Decoder α} (steady : d.Steady) : d.BlindToDelivery where
  pieces := by
    intro bytes deliveries hands
    have whole := unread_ofBytes bytes
    cases steady bytes with
    | settled some _ settles =>
      rw [settles.outcome rfl whole some]
      exact settles.outcome rfl hands.unread some
    | ranOut _ runsOut =>
      rw [runsOut.outcome rfl whole, shortfall_ofBytes, runsOut.outcome rfl hands.unread,
        hands.shortfall]
  late := by
    intro bytes k deliveries why rest hands complete needed
    have whole := unread_ofBytes bytes
    cases steady bytes with
    | @settled front result some _ settles =>
      rw [settles.outcome rfl whole some] at needed ⊢
      have inside : front <+: bytes.take k := List.prefix_take_iff.mpr ⟨some, needed⟩
      exact settles.outcome rfl (hands.unread_failure why rest) inside
    | ranOut short runsOut =>
      rw [runsOut.outcome rfl whole, shortfall_ofBytes] at complete
      exact absurd short (Bool.eq_false_iff.mp complete)
  early := by
    intro bytes k deliveries why rest hands missing
    cases steady (bytes.take k) with
    | @settled front result inside complete settles =>
      -- What the bytes in front settle, the whole string settles too.
      have some := inside.trans (List.take_prefix k bytes)
      rw [settles.outcome rfl (unread_ofBytes bytes) some] at missing
      have met : front.length ≤ k := (List.prefix_take_iff.mp inside).2
      exact absurd missing (not_or.mpr ⟨Bool.eq_false_iff.mp complete, Nat.not_lt.mpr met⟩)
    | @ranOut short truncation runsOut =>
      refine ⟨short, truncation, ?_, ?_⟩
      · rw [runsOut.outcome rfl (unread_ofBytes _), shortfall_ofBytes]
      · rw [runsOut.outcome rfl (hands.unread_failure why rest), hands.shortfall_failure]

end Decoder

namespace PixelFile

open Decoder

theorem header_steady : header.Steady :=
  Steady.bind (Steady.exactly 4 rfl) fun _ => Steady.pure _

section Files

variable {α : Type} (code : PixelCode α) (kind : PixelKind) (h : Header)
  (maxWidth maxHeight : UInt16)

theorem truncated_filled (width height : Nat) (value : α) (pixelBytes : Nat) :
    truncated (Grid.filled width height value pixelBytes) = false := by
  unfold Grid.filled
  split
  · rfl
  · split <;> rfl

theorem truncated_checkLimits : truncated (checkLimits kind h maxWidth maxHeight) = false := by
  unfold checkLimits
  split <;> rfl

/-- Row by row, from the bottom up. -/
theorem rowsAbove_steady (y : Nat) (g : Grid α) : (rowsAbove code h y g).Steady := by
  induction y generalizing g with
  | zero => exact Steady.pure g
  | succ y ih => exact Steady.bind (Steady.exactly _ rfl) fun _ => ih _

variable [Inhabited α]

theorem pixels_steady : (pixels code h).Steady :=
  Steady.bind (Steady.ofExcept (truncated_filled ..)) fun blank => rowsAbove_steady code h _ blank

theorem file_steady : (file kind code maxWidth maxHeight).Steady :=
  Steady.bind header_steady fun h =>
    Steady.bind (Steady.ofExcept (truncated_checkLimits kind h maxWidth maxHeight)) fun _ =>
      Steady.bind (pixels_steady code h) fun g => Steady.pure (h, g)

end Files

theorem truncated_ofGrid (h : Header) (g : Grid UInt8) : truncated (Sprite.ofGrid h g) = false := by
  unfold Sprite.ofGrid
  split <;> rfl

theorem truncated_assemble (h : Header) (palette : Palette) (indices fallback : Grid UInt8) :
    truncated (Photo.assemble h palette indices fallback) = false := by
  unfold Photo.assemble
  split
  · split
    · split <;> rfl
    · rfl
  · rfl

theorem truncated_map {α β : Type} (f : α → β) (result : Except Fault α) :
    truncated (result.map f) = truncated result := by
  cases result <;> rfl

theorem truncated_develop (mode : PaletteMode) (raw : Grid Raw) :
    truncated (develop mode raw) = false := by
  cases mode <;> exact (truncated_map _ _).trans (truncated_assemble ..)

variable (options : LoadOptions)

theorem rawPhoto_steady : (rawPhoto options).Steady :=
  Steady.bind (file_steady .raw .photo _ _) fun (_, raw) => Steady.pure raw

theorem photo_steady : (photo options).Steady :=
  Steady.bind (rawPhoto_steady options) fun raw => Steady.ofExcept (truncated_develop _ raw)

theorem sprite_steady : (sprite options).Steady :=
  Steady.bind (file_steady .object .image _ _) fun (h, g) => Steady.ofExcept (truncated_ofGrid h g)

/-- Neither the read calls nor a failure behind the file change what is read from it; a failure within
it is reported as the end of the stream or under its own text. -/
theorem pixel_files_blind_to_delivery : (rawPhoto options).BlindToDelivery ∧
    (photo options).BlindToDelivery ∧ (sprite options).BlindToDelivery :=
  ⟨(rawPhoto_steady options).blindToDelivery, (photo_steady options).blindToDelivery,
    (sprite_steady options).blindToDelivery⟩

/-- A header that is cut short takes every byte there is, and the failure behind them is met all the
same: the reader asks for one more. -/
theorem failure_behind_short_header :
    HandsOut [.bytes [1, 0, 0]] ([1, 0, 0].take 3) ∧
    (rawPhoto .standard).outcome (.ofBytes [1, 0, 0]) =
      (.error (.malformed none .shortHeader), 3) ∧
    (rawPhoto .standard).outcome ⟨[.bytes [1, 0, 0]] ++ [.failure ⟨false, "denied"⟩], 0⟩ =
      (.error (.readFailed "denied"), 3) :=
  ⟨.chunk (List.cons_ne_nil _ _) .done, rfl, rfl⟩

end PixelFile
end Roomscape
