import Mathlib.Algebra.Order.BigOperators.Group.List
import Mathlib.Algebra.Order.Field.Rat
import Mathlib.Data.List.Induction
import Mathlib.Data.Nat.Choose.Basic
import Mathlib.Tactic.Linarith
import Roomscape.Proofs.RunningMean

/-! The running mean against the exact one. Every step leaves a remainder behind, and what the running
mean falls short of the exact mean by is the sum of the remainders over the number of values. The words
of a bucket hold every number on the way for as long as they hold the largest sum there can be. -/
namespace Roomscape

/-- The mean of `n` values was `a`; the next value is `v`. -/
def blended (a n v : Nat) : Nat := (a * n + v) / (n + 1)

/-- The mean of values taken one after the other, rounded down at every step. -/
def runningMean (values : List Nat) : Nat :=
  (values.foldl (fun (a, n) v => (blended a n v, n + 1)) (0, 0)).1

section Step

variable {a n v : Nat}

theorem blended_mul_le : blended a n v * (n + 1) ≤ a * n + v := Nat.div_mul_le_self ..

/-- A step leaves a remainder of at most `n`. -/
theorem le_blended_mul : a * n + v ≤ blended a n v * (n + 1) + n :=
  Nat.le_of_lt_add_one (Nat.lt_div_mul_add (Nat.succ_pos n))

theorem blended_sum_le {peak : Nat} (mean : a ≤ peak) (next : v ≤ peak) :
    a * n + v ≤ peak * (n + 1) :=
  Nat.add_le_add (Nat.mul_le_mul_right n mean) next

theorem blended_le {peak : Nat} (mean : a ≤ peak) (next : v ≤ peak) : blended a n v ≤ peak := by
  apply Nat.div_le_of_le_mul
  rw [Nat.mul_comm (n + 1)]
  exact blended_sum_le mean next

theorem le_blended {least : Nat} (mean : 0 < n → least ≤ a) (next : least ≤ v) :
    least ≤ blended a n v := by
  have before : least * n ≤ a * n := by
    rcases Nat.eq_zero_or_pos n with rfl | later
    · exact Nat.le_refl 0
    · exact Nat.mul_le_mul_right n (mean later)
  rw [blended, Nat.le_div_iff_mul_le (Nat.succ_pos n), Nat.mul_add_one]
  omega

/-- A value that is at most `n` above the mean does not move it. -/
theorem blended_same (above : a ≤ v) (near : v ≤ a + n) : blended a n v = a := by
  apply Nat.div_eq_of_lt_le
  · rw [Nat.mul_add_one]
    omega
  · rw [Nat.add_one_mul, Nat.mul_add_one]
    omega

/-- A value that is below the mean, by at most `n + 1`, lowers it by one. -/
theorem blended_drop (below : v < a) (near : a ≤ v + n + 1) : blended a n v = a - 1 := by
  obtain ⟨less, rfl⟩ := Nat.exists_eq_add_one_of_ne_zero (Nat.ne_zero_of_lt below)
  rw [Nat.add_sub_cancel]
  apply Nat.div_eq_of_lt_le
  · rw [Nat.mul_add_one, Nat.add_one_mul]
    omega
  · rw [Nat.mul_add_one, Nat.add_one_mul]
    omega

/-- No value that is at most `n` above the mean raises it. -/
theorem blended_le_self (near : v ≤ a + n) : blended a n v ≤ a := by
  apply Nat.le_of_lt_add_one
  apply Nat.div_lt_of_lt_mul
  rw [Nat.add_one_mul, Nat.mul_add_one, Nat.mul_comm n]
  omega

end Step

section Run

@[simp] theorem runningMean_nil : runningMean [] = 0 := rfl

private theorem runningMean_state (values : List Nat) :
    values.foldl (fun (a, n) v => (blended a n v, n + 1)) (0, 0) =
      (runningMean values, values.length) := by
  induction values using List.reverseRecOn with
  | nil => rfl
  | append_singleton values v ih =>
    rw [runningMean, List.foldl_append, ih, List.length_append]
    rfl

theorem runningMean_concat (values : List Nat) (v : Nat) :
    runningMean (values ++ [v]) = blended (runningMean values) values.length v := by
  rw [runningMean, List.foldl_append, runningMean_state]
  rfl

variable (values : List Nat)

theorem runningMean_le {peak : Nat} (range : ∀ v ∈ values, v ≤ peak) : runningMean values ≤ peak := by
  induction values using List.reverseRecOn with
  | nil => exact Nat.zero_le peak
  | append_singleton values v ih =>
    rw [runningMean_concat]
    refine blended_le (ih fun w member => range w (List.mem_append_left _ member)) (range v ?_)
    exact List.mem_append_right _ List.mem_cons_self

theorem le_runningMean {least : Nat} (some : values ≠ []) (range : ∀ v ∈ values, least ≤ v) :
    least ≤ runningMean values := by
  induction values using List.reverseRecOn with
  | nil => exact absurd rfl some
  | append_singleton values v ih =>
    rw [runningMean_concat]
    refine le_blended (fun later => ?_) (range v (List.mem_append_right _ List.mem_cons_self))
    exact ih (List.length_pos_iff.mp later) fun w member => range w (List.mem_append_left _ member)

theorem runningMean_mul_le : runningMean values * values.length ≤ values.sum := by
  induction values using List.reverseRecOn with
  | nil => exact Nat.le_refl 0
  | append_singleton values v ih =>
    rw [runningMean_concat, List.length_append, List.sum_append, List.length_singleton,
      List.sum_singleton]
    exact blended_mul_le.trans (Nat.add_le_add_right ih v)

/-- The remainders of `n` steps come to at most `0 + 1 + … + (n - 1)`. -/
theorem sum_le_runningMean : values.sum ≤
    runningMean values * values.length + values.length * (values.length - 1) / 2 := by
  induction values using List.reverseRecOn with
  | nil => exact Nat.le_refl 0
  | append_singleton values v ih =>
    have step := le_blended_mul (a := runningMean values) (n := values.length) (v := v)
    rw [runningMean_concat, List.length_append, List.sum_append, List.length_singleton,
      List.sum_singleton, Nat.triangle_succ]
    omega

end Run

/-- How near a mean that was rounded down at every step is to the exact mean of the values. -/
structure NearExactMean (values : List Nat) (some : values ≠ []) (a : Nat) : Prop where
  least_le : values.min some ≤ a
  mul_le : a * values.length ≤ values.sum
  shortfall : values.sum - a * values.length ≤ values.length * (values.length - 1) / 2
  le_exact : (a : ℚ) ≤ values.sum / values.length
  exact_le : (values.sum / values.length - a : ℚ) ≤
    min ((values.length - 1 : ℚ) / 2) (values.max some - values.min some : ℚ)

theorem nearExactMean_runningMean (values : List Nat) (some : values ≠ []) :
    NearExactMean values some (runningMean values) := by
  have least : values.min some ≤ runningMean values :=
    le_runningMean values some fun v member => List.min_le_of_mem member
  have most : values.sum ≤ values.length * values.max some := by
    simpa using values.sum_le_card_nsmul _ fun v member => List.le_max_of_mem member
  have below := runningMean_mul_le values
  have above := sum_le_runningMean values
  have length := List.length_pos_iff.mpr some
  have doubled : 2 * values.sum ≤
      2 * (runningMean values * values.length) + values.length * (values.length - 1) := by
    have half := Nat.div_mul_le_self (values.length * (values.length - 1)) 2
    omega
  -- From here on in fractions, with both sides multiplied by the number of values.
  have counted : (0 : ℚ) < values.length := by exact_mod_cast length
  have least_cast : (values.min some : ℚ) ≤ runningMean values := by exact_mod_cast least
  have most_cast : (values.sum : ℚ) ≤ values.length * values.max some := by exact_mod_cast most
  have doubled_cast : 2 * (values.sum : ℚ) ≤
      2 * (runningMean values * values.length) + values.length * (values.length - 1) := by
    rw [← Nat.cast_pred length]
    exact_mod_cast doubled
  refine ⟨least, below, by omega, ?_, le_min ?_ ?_⟩
  · rw [le_div_iff₀ counted]
    exact_mod_cast below
  · rw [sub_le_iff_le_add, div_le_iff₀ counted]
    linarith
  · rw [sub_le_iff_le_add, div_le_iff₀ counted]
    have apart := mul_le_mul_of_nonneg_right least_cast counted.le
    linarith

/-- A number, if a word of 64 bits holds it. -/
def word? (n : Nat) : Option Nat := if n < UInt64.size then some n else none

/-- A number as a byte, if it is one. -/
def byte? (n : Nat) : Option UInt8 := if n < UInt8.size then some (UInt8.ofNat n) else none

theorem word?_eq {n : Nat} (fits : n < UInt64.size) : word? n = some n := if_pos fits

theorem byte?_toNat (b : UInt8) : byte? b.toNat = some b := by
  rw [byte?, if_pos b.toNat_lt, UInt8.ofNat_toNat]

namespace Bucket

/-- `blend` in which every number on the way must fit the word that it is put in. The divisor is not
zero, being one more than a number that fits. -/
def guardedBlend (n : UInt64) (a v : UInt8) : Option UInt8 := do
  let product ← word? (a.toNat * n.toNat)
  let sum ← word? (product + v.toNat)
  let count ← word? (n.toNat + 1)
  byte? (sum / count)

def guardedAdd (b : Bucket) (c : Rgb) : Option Bucket := do
  let red ← guardedBlend b.count b.average.red c.red
  let green ← guardedBlend b.count b.average.green c.green
  let blue ← guardedBlend b.count b.average.blue c.blue
  let count ← word? (b.count.toNat + 1)
  return { b with count := UInt64.ofNat count, average := ⟨red, green, blue⟩ }

section Words

variable {n : UInt64} {a v : UInt8} {peak : Nat}

/-- A sum that does not fit its word can only make the mean lower. -/
theorem toNat_blend_le (n : UInt64) (a v : UInt8) :
    (blend n a v).toNat ≤ blended a.toNat n.toNat v.toNat := by
  have sum : (a.toUInt64 * n + v.toUInt64).toNat ≤ a.toNat * n.toNat + v.toNat := by
    rw [UInt64.toNat_add, UInt64.toNat_mul, UInt8.toNat_toUInt64, UInt8.toNat_toUInt64]
    exact (Nat.mod_le ..).trans (Nat.add_le_add_right (Nat.mod_le ..) _)
  rw [blend, UInt64.toNat_toUInt8, UInt64.toNat_div]
  refine (Nat.mod_le ..).trans ?_
  rcases Nat.lt_or_ge (n.toNat + 1) UInt64.size with fits | past
  · have divisor : (n + 1).toNat = n.toNat + 1 := by
      rw [UInt64.toNat_add, UInt64.toNat_one, Nat.mod_eq_of_lt fits]
    rw [divisor]
    exact Nat.div_le_div_right sum
  · have divisor : (n + 1).toNat = 0 := by
      have bound := n.toNat_lt
      rw [UInt64.toNat_add, UInt64.toNat_one]
      simp only [UInt64.size] at past
      omega
    rw [divisor, Nat.div_zero]
    exact Nat.zero_le _

theorem guardedBlend_eq (some : 0 < peak) (byte : peak < 256) (mean : a.toNat ≤ peak)
    (next : v.toNat ≤ peak) (room : peak * (n.toNat + 1) < UInt64.size) :
    guardedBlend n a v = Option.some (blend n a v) := by
  have sum := (blended_sum_le (n := n.toNat) mean next).trans_lt room
  have count := (Nat.le_mul_of_pos_left (n.toNat + 1) some).trans_lt room
  rw [guardedBlend, word?_eq (Nat.lt_of_add_right_lt sum), Option.bind_eq_bind, Option.bind_some,
    word?_eq sum, Option.bind_some, word?_eq count, Option.bind_some,
    ← toNat_blend some byte mean next room, byte?_toNat]

theorem guardedAdd_eq {b : Bucket} {c : Rgb} (some : 0 < peak) (byte : peak < 256)
    (mean : ∀ ch, (b.average.channel ch).toNat ≤ peak) (next : ∀ ch, (c.channel ch).toNat ≤ peak)
    (room : peak * (b.count.toNat + 1) < UInt64.size) : b.guardedAdd c = Option.some (b.add c) := by
  have each (ch : Channel) := guardedBlend_eq some byte (mean ch) (next ch) room
  have red : guardedBlend b.count b.average.red c.red = _ := each .red
  have green : guardedBlend b.count b.average.green c.green = _ := each .green
  have blue : guardedBlend b.count b.average.blue c.blue = _ := each .blue
  have count := (Nat.le_mul_of_pos_left (b.count.toNat + 1) some).trans_lt room
  simp only [guardedAdd, red, green, blue, word?_eq count]
  rfl

end Words

section Colours

variable {colours : List Rgb} {peak : Nat}

/-- What the colours of a bucket have in one channel, in the order in which they were added. -/
def channelValues (colours : List Rgb) (ch : Channel) : List Nat :=
  colours.map fun c => (c.channel ch).toNat

theorem length_channelValues (ch : Channel) : (channelValues colours ch).length = colours.length :=
  List.length_map _

theorem channelValues_concat (c : Rgb) (ch : Channel) :
    channelValues (colours ++ [c]) ch = channelValues colours ch ++ [(c.channel ch).toNat] :=
  List.map_append

theorem channelValues_ne_nil (some : colours ≠ []) (ch : Channel) : channelValues colours ch ≠ [] :=
  List.map_eq_nil_iff.not.mpr some

/-- A bucket as it is after its first colours: their number, and their running mean in each channel. -/
structure Averages (colours : List Rgb) (b : Bucket) : Prop where
  count : b.count.toNat = colours.length
  average : ∀ ch, (b.average.channel ch).toNat = runningMean (channelValues colours ch)

theorem averages_empty (key : UInt16) : (empty key).Averages [] := by
  refine ⟨rfl, fun ch => ?_⟩
  cases ch <;> rfl

theorem Averages.le {b : Bucket} (averages : b.Averages colours)
    (range : ∀ c ∈ colours, ∀ ch, (c.channel ch).toNat ≤ peak) (ch : Channel) :
    (b.average.channel ch).toNat ≤ peak := by
  rw [averages.average]
  apply runningMean_le
  intro v member
  obtain ⟨c, own, rfl⟩ := List.mem_map.mp member
  exact range c own ch

/-- The next colour is averaged in, and nothing on the way outgrows its word, as long as there is room
in 64 bits for the largest sum of as many colours. -/
theorem Averages.add {b : Bucket} (averages : b.Averages colours) (some : 0 < peak)
    (byte : peak < 256) (range : ∀ c ∈ colours, ∀ ch, (c.channel ch).toNat ≤ peak) {c : Rgb}
    (next : ∀ ch, (c.channel ch).toNat ≤ peak)
    (room : peak * (colours.length + 1) < UInt64.size) :
    b.guardedAdd c = Option.some (b.add c) ∧ (b.add c).Averages (colours ++ [c]) := by
  rw [← averages.count] at room
  have mean := averages.le range
  refine ⟨guardedAdd_eq some byte mean next room, ?_, fun ch => ?_⟩
  · have count := (Nat.le_mul_of_pos_left (b.count.toNat + 1) some).trans_lt room
    rw [Bucket.add, UInt64.toNat_add, UInt64.toNat_one, Nat.mod_eq_of_lt count, averages.count,
      List.length_append, List.length_singleton]
  · rw [channel_add, toNat_blend some byte (mean ch) (next ch) room, averages.average, averages.count,
      channelValues_concat, runningMean_concat, length_channelValues]
    rfl

/-- A whole run of colours. -/
theorem averages_foldl (some : 0 < peak) (byte : peak < 256)
    (range : ∀ c ∈ colours, ∀ ch, (c.channel ch).toNat ≤ peak)
    (room : peak * colours.length < UInt64.size) (key : UInt16) :
    colours.foldlM guardedAdd (empty key) = Option.some (colours.foldl add (empty key)) ∧
      (colours.foldl add (empty key)).Averages colours := by
  induction colours using List.reverseRecOn with
  | nil => exact ⟨rfl, averages_empty key⟩
  | append_singleton colours c ih =>
    have earlier : ∀ d ∈ colours, ∀ ch, (d.channel ch).toNat ≤ peak := fun d member =>
      range d (List.mem_append_left _ member)
    have last : ∀ ch, (c.channel ch).toNat ≤ peak :=
      range c (List.mem_append_right _ List.mem_cons_self)
    rw [List.length_append, List.length_singleton] at room
    have fewer := (Nat.mul_le_mul_left peak (Nat.le_succ colours.length)).trans_lt room
    obtain ⟨run, averages⟩ := ih earlier fewer
    obtain ⟨step, added⟩ := averages.add some byte earlier last room
    rw [List.foldlM_append, run, List.foldl_append]
    exact ⟨by simpa using step, added⟩

/-- Once a bucket has 63 colours, no colour of six bits raises its mean again. -/
theorem average_foldl_le {b : Bucket} (full : 63 ≤ b.count.toNat)
    (range : ∀ c ∈ colours, ∀ ch, (c.channel ch).toNat < 64)
    (room : b.count.toNat + colours.length < UInt64.size) (ch : Channel) :
    ((colours.foldl add b).average.channel ch).toNat ≤ (b.average.channel ch).toNat := by
  induction colours generalizing b with
  | nil => exact Nat.le_refl _
  | cons c rest ih =>
    have six := range c List.mem_cons_self ch
    rw [List.length_cons] at room
    have count : (b.add c).count.toNat = b.count.toNat + 1 := by
      rw [add, UInt64.toNat_add, UInt64.toNat_one]
      exact Nat.mod_eq_of_lt (Nat.lt_of_le_of_lt (by omega) room)
    have first : ((b.add c).average.channel ch).toNat ≤ (b.average.channel ch).toNat := by
      rw [channel_add]
      exact (toNat_blend_le ..).trans (blended_le_self (by omega))
    have later := ih (b := b.add c) (by omega) (fun d member => range d (List.mem_cons_of_mem _ member))
      (by omega)
    exact later.trans first

/-- What a bucket comes to with its first colours, and with the colours behind them. -/
structure HoldsMeanOf (b : Bucket) (colours : List Rgb) (some : colours ≠ []) : Prop where
  count : b.count.toNat = colours.length
  near : ∀ ch, NearExactMean (channelValues colours ch) (channelValues_ne_nil some ch)
    (b.average.channel ch).toNat
  further : ∀ c, b.guardedAdd c = Option.some (b.add c)
  same : ∀ c ch, (b.average.channel ch).toNat ≤ (c.channel ch).toNat →
    (c.channel ch).toNat ≤ (b.average.channel ch).toNat + colours.length →
      ((b.add c).average.channel ch).toNat = (b.average.channel ch).toNat
  drop : ∀ c ch, (c.channel ch).toNat < (b.average.channel ch).toNat →
    (b.average.channel ch).toNat ≤ (c.channel ch).toNat + colours.length + 1 →
      ((b.add c).average.channel ch).toNat = (b.average.channel ch).toNat - 1
  settled : 63 ≤ colours.length → ∀ more later : List Rgb,
    (∀ c ∈ more ++ later, ∀ ch, (c.channel ch).toNat < 64) →
      colours.length + (more ++ later).length < UInt64.size →
        ∀ ch, (((more ++ later).foldl add b).average.channel ch).toNat ≤
          ((more.foldl add b).average.channel ch).toNat

/-- Fewer than 2^56 colours, and one more, go into a fresh bucket without a number that outgrows its
word, and it keeps their running mean near the exact one. -/
theorem bucket_keeps_mean (key : UInt16) (some : colours ≠ []) (few : colours.length < 2 ^ 56) :
    colours.foldlM guardedAdd (empty key) = Option.some (colours.foldl add (empty key)) ∧
      (colours.foldl add (empty key)).HoldsMeanOf colours some := by
  have byte (c : Rgb) (ch : Channel) : (c.channel ch).toNat ≤ 255 :=
    Nat.le_of_lt_add_one (c.channel ch).toNat_lt
  have range : ∀ c ∈ colours, ∀ ch, (c.channel ch).toNat ≤ 255 := fun c _ => byte c
  have room : 255 * (colours.length + 1) < UInt64.size := by
    simp only [UInt64.size]
    omega
  obtain ⟨run, averages⟩ := averages_foldl (by decide) (by decide) range (by omega) key
  generalize colours.foldl add (empty key) = b at run averages
  have next (c : Rgb) := averages.add (by decide) (by decide) range (byte c) room
  have blend (c : Rgb) (ch : Channel) : ((b.add c).average.channel ch).toNat =
      blended (b.average.channel ch).toNat colours.length (c.channel ch).toNat := by
    rw [(next c).2.average, channelValues_concat, runningMean_concat, ← averages.average,
      length_channelValues]
  refine ⟨run, averages.count, fun ch => ?_, fun c => (next c).1, ?_, ?_, ?_⟩
  · rw [averages.average]
    exact nearExactMean_runningMean _ _
  · intro c ch above near
    rw [blend, blended_same above near]
  · intro c ch below near
    rw [blend, blended_drop below near]
  · intro full more later range counted ch
    rw [← averages.count, List.length_append, ← Nat.add_assoc] at counted
    rw [← averages.count] at full
    have count : (more.foldl add b).count.toNat = b.count.toNat + more.length := by
      rw [count_foldl_add]
      exact Nat.mod_eq_of_lt (Nat.lt_of_add_right_lt counted)
    rw [List.foldl_append]
    refine average_foldl_le ?_ (fun c member => range c (List.mem_append_right _ member)) ?_ ch
    · rw [count]
      exact Nat.le_add_right_of_le full
    · rwa [count]

theorem bucket_keeps_mean_three :
    let colours : List Rgb := [⟨63, 63, 63⟩, ⟨0, 0, 0⟩, ⟨0, 0, 0⟩]
    ∃ some : colours ≠ [], colours.length < 2 ^ 56 ∧
      colours.foldlM guardedAdd (empty 0) = Option.some (colours.foldl add (empty 0)) ∧
      (colours.foldl add (empty 0)).HoldsMeanOf colours some := by
  intro colours
  have some : colours ≠ [] := List.cons_ne_nil _ _
  have few : colours.length < 2 ^ 56 := by decide
  exact ⟨some, few, bucket_keeps_mean 0 some few⟩

end Colours
end Bucket
end Roomscape
