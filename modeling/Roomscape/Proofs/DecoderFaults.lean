import Roomscape.Proofs.PhotoReading

/-! What can be met in reading a pixel file from a stream. The stream may break or hold no pixel file,
and memory may run out; no decoder meets anything else, and none names a file. -/
namespace Roomscape

/-- A fault that lies in a stream of pixels or in their number. The file is not named yet. -/
inductive Fault.OfStream : Fault → Prop where
  | malformed {flaw : Flaw} (other : ∀ got, flaw ≠ .paletteLength got) : OfStream (.malformed none flaw)
  | readFailed (text : String) : OfStream (.readFailed text)
  | exhausted (shortage : Shortage) : OfStream (.exhausted shortage)

namespace Decoder

variable {α β : Type}

/-- Whatever stream is read, the faults that can be met are all of one kind. -/
def FailsOnly (kind : Fault → Prop) (d : Decoder α) : Prop :=
  ∀ s fault t, d s = .error fault t → kind fault

namespace FailsOnly

variable {kind : Fault → Prop} {first : Decoder α} {next : α → Decoder β}

theorem pure (value : α) : FailsOnly kind (Pure.pure value : Decoder α) := by
  intro s fault t run
  cases run

theorem ofExcept {result : Except Fault α} (allowed : ∀ fault, result = .error fault → kind fault) :
    FailsOnly kind (MonadExcept.ofExcept result : Decoder α) := by
  intro s fault t run
  cases result with
  | ok value => cases (ofExcept_ok value s).symm.trans run
  | error own =>
    cases (ofExcept_error own s).symm.trans run
    exact allowed fault rfl

theorem bind (fails : first.FailsOnly kind) (fails' : ∀ value, (next value).FailsOnly kind) :
    (first >>= next).FailsOnly kind := by
  intro s fault t run
  cases done : first s with
  | ok value u =>
    rw [bind_ok done] at run
    exact fails' value u fault t run
  | error own u =>
    cases (bind_error done).symm.trans run
    exact fails s fault t done

theorem exactly (n : Nat) {short : Fault} (allowed : kind short)
    (broken : ∀ text, kind (.readFailed text)) : (Decoder.exactly n short).FailsOnly kind := by
  intro s fault t run
  rcases Nat.lt_or_ge s.unread.length n with few | enough
  · obtain ⟨u, shortfall, _⟩ := exactly_short short few
    cases shortfall.symm.trans run
    unfold Source.shortfall
    split
    · exact allowed
    · split
      · exact allowed
      · exact broken _
  · obtain ⟨u, met, _⟩ := exactly_met short enough
    cases met.symm.trans run

end FailsOnly
end Decoder

open Fault (OfStream)

theorem Grid.ofStream_filled {α : Type} {width height pixelBytes : Nat} {value : α} {fault : Fault}
    (failed : Grid.filled width height value pixelBytes = .error fault) : fault.OfStream := by
  unfold Grid.filled at failed
  split at failed
  · cases failed
    exact .exhausted _
  · split at failed
    · cases failed
      exact .exhausted _
    · cases failed

theorem Sprite.ofStream_ofGrid {header : Header} {grid : Grid UInt8} {fault : Fault}
    (failed : Sprite.ofGrid header grid = .error fault) : fault.OfStream := by
  unfold Sprite.ofGrid at failed
  split at failed
  · cases failed
  · cases failed
    exact .malformed (by simp)

namespace PixelFile

variable {α : Type} (code : PixelCode α) (kind : PixelKind) (h : Header)
  (maxWidth maxHeight : UInt16) (options : LoadOptions)

theorem exactly_failsOnly (n : Nat) {flaw : Flaw} (other : ∀ got, flaw ≠ .paletteLength got) :
    (Decoder.exactly n (.malformed none flaw)).FailsOnly OfStream :=
  .exactly n (.malformed other) .readFailed

theorem header_failsOnly : header.FailsOnly OfStream :=
  .bind (exactly_failsOnly 4 (by simp)) fun _ => .pure _

theorem ofStream_checkLimits {fault : Fault}
    (failed : checkLimits kind h maxWidth maxHeight = .error fault) : fault.OfStream := by
  unfold checkLimits at failed
  split at failed
  · cases failed
    exact .malformed (by simp)
  · cases failed

theorem rowsAbove_failsOnly (y : Nat) (g : Grid α) : (rowsAbove code h y g).FailsOnly OfStream := by
  induction y generalizing g with
  | zero => exact .pure g
  | succ y ih => exact .bind (exactly_failsOnly _ (by simp)) fun _ => ih _

variable [Inhabited α]

theorem pixels_failsOnly : (pixels code h).FailsOnly OfStream :=
  .bind (.ofExcept fun _ => Grid.ofStream_filled) fun blank => rowsAbove_failsOnly code h _ blank

theorem file_failsOnly : (file kind code maxWidth maxHeight).FailsOnly OfStream :=
  .bind header_failsOnly fun h =>
    .bind (.ofExcept fun _ => ofStream_checkLimits kind h maxWidth maxHeight) fun _ =>
      .bind (pixels_failsOnly code h) fun g => .pure (h, g)

theorem rawPhoto_failsOnly : (rawPhoto options).FailsOnly OfStream :=
  .bind (file_failsOnly .raw .photo _ _) fun (_, grid) => .pure grid

theorem photo_failsOnly : (photo options).FailsOnly OfStream :=
  fun s fault t run => rawPhoto_failsOnly options s fault t (photo_error_iff.mp run)

theorem sprite_failsOnly : (sprite options).FailsOnly OfStream :=
  .bind (file_failsOnly .object .image _ _) fun (_, _) =>
    .ofExcept fun _ => Sprite.ofStream_ofGrid

end PixelFile
end Roomscape
