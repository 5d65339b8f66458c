import Roomscape.Source

/-! What a demand for bytes makes of a stream. However its read calls are cut up, a stream comes to the
bytes that it hands out and, where it breaks off, to the failure it breaks off with. -/
namespace Roomscape

namespace Delivery

/-- The bytes handed out before the end of the stream or the first failure. -/
def bytesOf : List Delivery → List UInt8
  | [] => []
  | .interruption :: rest => bytesOf rest
  | .failure _ :: _ => []
  | .bytes [] :: _ => []
  | .bytes chunk :: rest => chunk ++ bytesOf rest

/-- The failure that cuts a stream off, if it does not come to its end. -/
def stopOf : List Delivery → Option ReadFailure
  | [] => none
  | .interruption :: rest => stopOf rest
  | .failure why :: _ => some why
  | .bytes [] :: _ => none
  | .bytes _ :: rest => stopOf rest

theorem bytesOf_chunk {chunk : List UInt8} (some : chunk ≠ []) (rest : List Delivery) :
    bytesOf (.bytes chunk :: rest) = chunk ++ bytesOf rest := by
  cases chunk with
  | nil => exact absurd rfl some
  | cons => rfl

theorem stopOf_chunk {chunk : List UInt8} (some : chunk ≠ []) (rest : List Delivery) :
    stopOf (.bytes chunk :: rest) = stopOf rest := by
  cases chunk with
  | nil => exact absurd rfl some
  | cons => rfl

end Delivery

namespace Source

open Delivery

/-- A demand that the stream can meet takes the bytes asked for and leaves the others. -/
theorem collect_met {need : Nat} {deliveries : List Delivery} (got : Array UInt8)
    (enough : need ≤ (bytesOf deliveries).length) :
    ∃ rest, collect got need deliveries = .met (got ++ (bytesOf deliveries).take need) rest ∧
      bytesOf rest = (bytesOf deliveries).drop need ∧ stopOf rest = stopOf deliveries := by
  fun_induction collect got need deliveries with
  | case1 got rest => exact ⟨rest, by simp, rfl, rfl⟩
  | case2 => simp [bytesOf] at enough
  | case3 got need rest ih => exact ih enough
  | case4 => simp [bytesOf] at enough
  | case5 => simp [bytesOf] at enough
  | case6 got need chunk rest some front whole ih =>
    rw [bytesOf_chunk some] at enough ⊢
    rw [stopOf_chunk some]
    have fits : chunk.length ≤ need + 1 := List.drop_eq_nil_iff.mp whole
    have all : front = chunk := List.take_of_length_le fits
    rw [all] at ih ⊢
    rw [List.length_append] at enough
    obtain ⟨left, met, bytes, stop⟩ := ih (by omega)
    refine ⟨left, ?_, ?_, stop⟩
    · rw [met, List.take_append, List.take_of_length_le fits]
      congr 1
      apply Array.ext'
      simp only [Array.toList_appendList, List.append_assoc]
    · rw [bytes, List.drop_append, whole, List.nil_append]
  | case7 got need chunk rest some front beyond =>
    have inside : need + 1 < chunk.length := by
      rw [← Nat.not_le, ← List.drop_eq_nil_iff]
      exact beyond
    rw [bytesOf_chunk some, stopOf_chunk some]
    -- The chunk holds more than was asked for; the remainder goes back in front of the stream.
    refine ⟨.bytes (chunk.drop (need + 1)) :: rest, ?_, ?_, ?_⟩
    · rw [List.take_append_of_le_length (Nat.le_of_lt inside)]
    · rw [bytesOf_chunk beyond, List.drop_append_of_le_length (Nat.le_of_lt inside)]
    · rw [stopOf_chunk beyond]

/-- A demand for more than there is takes it all and reports the end, or the failure met there. -/
theorem collect_short {need : Nat} {deliveries : List Delivery} (got : Array UInt8)
    (short : (bytesOf deliveries).length < need) :
    match stopOf deliveries with
    | none => collect got need deliveries = .ended (got.size + (bytesOf deliveries).length)
    | some why => ∃ rest,
      collect got need deliveries = .failed why (got.size + (bytesOf deliveries).length) rest := by
  fun_induction collect got need deliveries with
  | case1 => simp at short
  | case2 => rfl
  | case3 got need rest ih => exact ih short
  | case4 got need why rest => exact ⟨rest, rfl⟩
  | case5 => rfl
  | case6 got need chunk rest some front whole ih =>
    rw [bytesOf_chunk some] at short ⊢
    rw [stopOf_chunk some]
    have fits : chunk.length ≤ need + 1 := List.drop_eq_nil_iff.mp whole
    have all : front = chunk := List.take_of_length_le fits
    rw [all] at ih ⊢
    rw [List.length_append] at short ⊢
    have taken : (got ++ chunk).size = got.size + chunk.length := by
      rw [← Array.length_toList, Array.toList_appendList, List.length_append, Array.length_toList]
    rw [← Nat.add_assoc, ← taken]
    exact ih (by omega)
  | case7 got need chunk rest some front beyond =>
    have inside : need + 1 < chunk.length := by
      rw [← Nat.not_le, ← List.drop_eq_nil_iff]
      exact beyond
    rw [bytesOf_chunk some, List.length_append] at short
    omega

/-- The bytes that a stream has left. -/
def unread (s : Source) : List UInt8 := bytesOf s.deliveries

/-- The failure that a stream is cut off with. -/
def stop (s : Source) : Option ReadFailure := stopOf s.deliveries

/-- The fault of a demand that the stream cannot meet; `short` is the one of a stream that ended. -/
def shortfall (s : Source) (short : Fault) : Fault :=
  match s.stop with
  | none => short
  | some why => if why.atEnd then short else .readFailed why.text

/-- `t` is what the stream `s` becomes when `n` of its bytes are taken. -/
structure Advanced (s : Source) (n : Nat) (t : Source) : Prop where
  unread : t.unread = s.unread.drop n
  stop : t.stop = s.stop
  taken : t.taken = s.taken + n

namespace Advanced

variable {s t u : Source} {m n : Nat}

theorem zero (s : Source) : s.Advanced 0 s := ⟨rfl, rfl, rfl⟩

theorem add (first : s.Advanced m t) (second : t.Advanced n u) : s.Advanced (m + n) u where
  unread := by rw [second.unread, first.unread, List.drop_drop]
  stop := second.stop.trans first.stop
  taken := by rw [second.taken, first.taken, Nat.add_assoc]

theorem shortfall (advanced : s.Advanced n t) (short : Fault) :
    t.shortfall short = s.shortfall short := by
  rw [Source.shortfall, Source.shortfall, advanced.stop]

end Advanced

theorem unread_ofBytes (bytes : List UInt8) : (ofBytes bytes).unread = bytes := by
  cases bytes with
  | nil => rfl
  | cons b rest => exact List.append_nil _

theorem Advanced.unread_ofBytes {bytes : List UInt8} {n : Nat} {t : Source}
    (advanced : (ofBytes bytes).Advanced n t) : t.unread = bytes.drop n := by
  rw [advanced.unread, Source.unread_ofBytes]

theorem Advanced.taken_ofBytes {bytes : List UInt8} {n : Nat} {t : Source}
    (advanced : (ofBytes bytes).Advanced n t) : t.taken = n := by
  rw [advanced.taken]
  exact Nat.zero_add n

theorem shortfall_ofBytes (bytes : List UInt8) (short : Fault) :
    (ofBytes bytes).shortfall short = short := by
  cases bytes <;> rfl

end Source

namespace Decoder

open Source Delivery

section Steps

variable {α β : Type} {first : Decoder α} {next : α → Decoder β} {s t : Source}

theorem bind_ok {value : α} (run : first s = .ok value t) : (first >>= next) s = next value t := by
  change EStateM.bind first next s = _
  rw [EStateM.bind, run]

theorem bind_error {fault : Fault} (run : first s = .error fault t) :
    (first >>= next) s = .error fault t := by
  change EStateM.bind first next s = _
  rw [EStateM.bind, run]

theorem ofExcept_ok (value : α) (s : Source) :
    (ofExcept (.ok value : Except Fault α) : Decoder α) s = .ok value s :=
  rfl

theorem ofExcept_error (fault : Fault) (s : Source) :
    (ofExcept (.error fault : Except Fault α) : Decoder α) s = .error fault s :=
  rfl

end Steps

variable {s : Source} {n : Nat} (short : Fault)

theorem exactly_met (enough : n ≤ s.unread.length) :
    ∃ t, exactly n short s = .ok (s.unread.take n).toArray t ∧ s.Advanced n t := by
  obtain ⟨rest, met, bytes, stop⟩ := collect_met #[] enough
  have got : (#[] : Array UInt8) ++ s.unread.take n = (s.unread.take n).toArray := by
    apply Array.ext'
    rw [Array.toList_appendList, List.nil_append]
  change collect #[] n s.deliveries = .met (#[] ++ s.unread.take n) rest at met
  refine ⟨⟨rest, s.taken + n⟩, ?_, bytes, stop, rfl⟩
  simp only [exactly, met, got, List.size_toArray, List.length_take_of_le enough]

theorem exactly_short (few : s.unread.length < n) :
    ∃ t, exactly n short s = .error (s.shortfall short) t ∧
      t.taken = s.taken + s.unread.length := by
  have all := collect_short #[] few
  have nothing : (#[] : Array UInt8).size + s.unread.length = s.unread.length := Nat.zero_add _
  unfold exactly shortfall
  cases stops : s.stop with
  | none =>
    rw [show stopOf s.deliveries = none from stops] at all
    exact ⟨_, by rw [all], congrArg (s.taken + ·) nothing⟩
  | some why =>
    rw [show stopOf s.deliveries = some why from stops] at all
    obtain ⟨rest, failed⟩ := all
    exact ⟨_, by rw [failed], congrArg (s.taken + ·) nothing⟩

end Decoder
end Roomscape
