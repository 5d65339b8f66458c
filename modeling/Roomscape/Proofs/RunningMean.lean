import Roomscape.Proofs.Tally

/-! The running mean of a bucket. Rounding down at every step makes it depend on the order of the
colours, but no order takes a channel out of the range of that channel in the colours themselves. -/
namespace Roomscape

inductive Channel where
  | red
  | green
  | blue
deriving DecidableEq

def Rgb.channel (c : Rgb) : Channel → UInt8
  | .red => c.red
  | .green => c.green
  | .blue => c.blue

def Entry.channel (e : Entry) : Channel → Fin 64
  | .red => e.red
  | .green => e.green
  | .blue => e.blue

theorem Entry.channel_ofRgb (c : Rgb) (ch : Channel) :
    ((ofRgb c).channel ch).val = (c.channel ch).toNat % 64 := by
  cases ch <;> rfl

namespace Bucket

theorem channel_add (b : Bucket) (c : Rgb) (ch : Channel) :
    (b.add c).average.channel ch = blend b.count (b.average.channel ch) (c.channel ch) := by
  cases ch <;> rfl

/-- `blend` is the quotient it stands for as long as its sum is counted in 64 bits. Values of at most
`peak` keep within that up to `peak * (n + 1)`. -/
theorem toNat_blend {n : UInt64} {a v : UInt8} {peak : Nat} (some : 0 < peak) (byte : peak < 256)
    (mean : a.toNat ≤ peak) (next : v.toNat ≤ peak) (room : peak * (n.toNat + 1) < UInt64.size) :
    (blend n a v).toNat = (a.toNat * n.toNat + v.toNat) / (n.toNat + 1) := by
  have product : a.toNat * n.toNat ≤ peak * n.toNat := Nat.mul_le_mul_right _ mean
  have counted : n.toNat + 1 ≤ peak * (n.toNat + 1) := Nat.le_mul_of_pos_left _ some
  have sum : a.toNat * n.toNat + v.toNat ≤ (n.toNat + 1) * peak := by
    rw [Nat.mul_comm _ peak, Nat.mul_add_one]
    omega
  have quotient := Nat.div_le_of_le_mul sum
  simp only [UInt64.size, Nat.mul_comm peak] at room counted
  have wide : (a.toUInt64 * n + v.toUInt64).toNat = a.toNat * n.toNat + v.toNat := by
    rw [UInt64.toNat_add, UInt64.toNat_mul, UInt8.toNat_toUInt64, UInt8.toNat_toUInt64]
    rw [Nat.mod_eq_of_lt (a := a.toNat * n.toNat) (by omega), Nat.mod_eq_of_lt (by omega)]
  have divisor : (n + 1).toNat = n.toNat + 1 := by
    rw [UInt64.toNat_add, UInt64.toNat_one, Nat.mod_eq_of_lt (by omega)]
  rw [blend, UInt64.toNat_toUInt8, UInt64.toNat_div, wide, divisor, Nat.mod_eq_of_lt (by omega)]

/-- One more value does not take the mean out of the range of the values. Before the first value there
is no mean to speak of. -/
theorem blend_within {n : UInt64} {a v : UInt8} {lo hi peak : Nat} (some : 0 < peak)
    (byte : peak < 256) (top : hi ≤ peak) (high : a.toNat ≤ hi) (low : 0 < n.toNat → lo ≤ a.toNat)
    (next : lo ≤ v.toNat ∧ v.toNat ≤ hi) (room : peak * (n.toNat + 1) < UInt64.size) :
    lo ≤ (blend n a v).toNat ∧ (blend n a v).toNat ≤ hi := by
  -- Both bounds are taken times the count, as the mean enters the sum.
  have least : lo * n.toNat ≤ a.toNat * n.toNat := by
    rcases Nat.eq_zero_or_pos n.toNat with first | later
    · rw [first]
      omega
    · exact Nat.mul_le_mul_right _ (low later)
  have most : a.toNat * n.toNat ≤ hi * n.toNat := Nat.mul_le_mul_right _ high
  rw [toNat_blend some byte (Nat.le_trans high top) (Nat.le_trans next.2 top) room]
  constructor
  · rw [Nat.le_div_iff_mul_le (Nat.succ_pos _), Nat.mul_add_one]
    omega
  · apply Nat.div_le_of_le_mul
    rw [Nat.mul_comm _ hi, Nat.mul_add_one]
    omega

/-- Once a bucket has colours, every channel of its mean is in the channel's range. -/
structure Within (lo hi : Channel → Nat) (b : Bucket) : Prop where
  low : 0 < b.count.toNat → ∀ ch, lo ch ≤ (b.average.channel ch).toNat
  high : ∀ ch, (b.average.channel ch).toNat ≤ hi ch

variable {lo hi : Channel → Nat} {peak : Nat}

theorem within_empty (key : UInt16) : (empty key).Within lo hi := by
  constructor
  · intro some
    simp [empty] at some
  · intro ch
    cases ch <;> exact Nat.zero_le _

theorem Within.add {b : Bucket} (within : b.Within lo hi) (some : 0 < peak) (byte : peak < 256)
    (top : ∀ ch, hi ch ≤ peak) {c : Rgb}
    (range : ∀ ch, lo ch ≤ (c.channel ch).toNat ∧ (c.channel ch).toNat ≤ hi ch)
    (room : peak * (b.count.toNat + 1) < UInt64.size) : (b.add c).Within lo hi := by
  have blended (ch : Channel) := by
    have step := blend_within some byte (top ch) (within.high ch)
      (fun later => within.low later ch) (range ch) room
    rwa [← channel_add] at step
  exact ⟨fun _ ch => (blended ch).1, fun ch => (blended ch).2⟩

/-- The mean of any run of colours stays in their range, whatever their order. -/
theorem Within.foldl_add {b : Bucket} (within : b.Within lo hi) (some : 0 < peak) (byte : peak < 256)
    (top : ∀ ch, hi ch ≤ peak) {colours : List Rgb}
    (range : ∀ c ∈ colours, ∀ ch, lo ch ≤ (c.channel ch).toNat ∧ (c.channel ch).toNat ≤ hi ch)
    (room : peak * (b.count.toNat + colours.length) < UInt64.size) :
    (colours.foldl Bucket.add b).Within lo hi := by
  induction colours generalizing b with
  | nil => exact within
  | cons c rest ih =>
    rw [List.length_cons, ← Nat.add_assoc, Nat.add_right_comm] at room
    have first : peak * (b.count.toNat + 1) < UInt64.size :=
      Nat.lt_of_le_of_lt (Nat.mul_le_mul_left _ (Nat.le_add_right ..)) room
    have counted : (b.add c).count.toNat = b.count.toNat + 1 := by
      rw [Bucket.add, UInt64.toNat_add, UInt64.toNat_one]
      exact Nat.mod_eq_of_lt (Nat.lt_of_le_of_lt (Nat.le_mul_of_pos_left _ some) first)
    refine ih (within.add some byte top (range c List.mem_cons_self) first) ?_ (counted ▸ room)
    exact fun d member => range d (List.mem_cons_of_mem _ member)

end Bucket

namespace Grid

variable (key : Raw → Nat) (raw : Grid Raw)

/-- A bucket's mean lies in the range of the colours under its key. -/
theorem within_ownBucket {k : Nat} {lo hi : Channel → Nat} (top : ∀ ch, hi ch ≤ 63)
    (range : ∀ p ∈ raw.pixels, key p = k →
      ∀ ch, lo ch ≤ (p.rgb6.channel ch).toNat ∧ (p.rgb6.channel ch).toNat ≤ hi ch)
    (countable : 63 * raw.len < UInt64.size) : (raw.ownBucket key k).Within lo hi := by
  apply (Bucket.within_empty _).foldl_add (by decide : 0 < 63) (by decide) top
  · intro c member
    obtain ⟨p, under, rfl⟩ := List.mem_map.mp member
    obtain ⟨pixel, same⟩ := List.mem_filter.mp under
    exact range p (Array.mem_toList_iff.mp pixel) (of_decide_eq_true same)
  · have all : raw.count key k ≤ raw.len := Array.countP_le_size
    rw [length_coloursUnder]
    simp only [Bucket.empty, UInt64.toNat_zero]
    omega

end Grid
end Roomscape
