import Mathlib.Algebra.BigOperators.Ring.Finset
import Roomscape.Proofs.Ranking

/-! Histograms filled one colour after the other. Whatever is offered, and in whatever order, every
bucket holds what was taken under its own key, and the ranking follows from counts and keys. -/
namespace Roomscape

/-- A colour that is offered to a histogram, and the key it is to be counted under. -/
structure Sample where
  key : Nat
  colour : Rgb

namespace Sample

variable (samples : List Sample) (k : Nat)

def keys : List Nat := samples.map key

/-- The colours of the samples under a key, in order. -/
def coloursUnder : List Rgb := (samples.filter fun s => s.key = k).map colour

/-- What a bucket comes to when it is given nothing but the colours under its key. -/
def ownBucket : Bucket := (coloursUnder samples k).foldl Bucket.add (Bucket.empty (UInt16.ofNat k))

theorem length_coloursUnder : (coloursUnder samples k).length = (keys samples).count k := by
  rw [coloursUnder, List.length_map, ← List.countP_eq_length_filter, keys, List.count, List.countP_map]
  rfl

/-- Only the bucket of a sample's own key takes its colour. -/
theorem ownBucket_concat (s : Sample) : ownBucket (samples ++ [s]) k =
    if s.key = k then (ownBucket samples k).add s.colour else ownBucket samples k := by
  by_cases own : s.key = k <;> simp [ownBucket, coloursUnder, own]

theorem count_keys_concat (s : Sample) : (keys (samples ++ [s])).count k =
    (keys samples).count k + if s.key = k then 1 else 0 := by
  simp [keys, List.count_singleton]

theorem key_ownBucket : (ownBucket samples k).key = UInt16.ofNat k := Bucket.key_foldl_add _ _

end Sample

open Sample (keys coloursUnder ownBucket)

namespace Histogram

/-- A histogram after a sample was offered to it. A sample that is refused changes nothing. -/
def offer (h : Histogram) (s : Sample) : Histogram := (h.record? s.key s.colour).getD h

def run (h : Histogram) (samples : List Sample) : Histogram := samples.foldl offer h

/-- The samples of a run that are not refused. -/
def taken : Histogram → List Sample → List Sample
  | _, [] => []
  | h, s :: rest =>
    match h.record? s.key s.colour with
    | some next => s :: next.taken rest
    | none => h.taken rest

/-- Each bucket was given the colours under its own key, and could count them. -/
structure Holds (size : Nat) (samples : List Sample) (h : Histogram) : Prop where
  inside : ∀ s ∈ samples, s.key < size
  countable : ∀ k, (keys samples).count k < UInt64.size
  bucket?_eq : ∀ k, h.bucket? k = if k < size then some (ownBucket samples k) else none

theorem isFull_iff {b : Bucket} : b.isFull ↔ b.count.toNat + 1 = UInt64.size := by
  have bound := b.count.toNat_lt
  simp only [Bucket.isFull, beq_iff_eq, ← UInt64.toNat_inj, UInt64.toNat_add, UInt64.toNat_one,
    UInt64.toNat_zero, UInt64.size]
  omega

theorem record?_eq_some_iff {h next : Histogram} {key : Nat} {c : Rgb} :
    h.record? key c = some next ↔
      (∃ b, h.bucket? key = some b ∧ ¬ b.isFull) ∧ h.record key c = next := by
  rw [record?]
  cases h.bucket? key with
  | none => simp
  | some b => by_cases full : b.isFull <;> simp [full]

section Steps

variable {size : Nat} {samples earlier : List Sample} {h next : Histogram} {s : Sample}

theorem holds_empty (size : Nat) : (empty size).Holds size [] where
  inside := by simp
  countable := fun k => by simp [keys, UInt64.size]
  bucket?_eq := bucket?_empty size

theorem Holds.count_eq (holds : h.Holds size samples) (k : Nat) :
    (ownBucket samples k).count.toNat = (keys samples).count k := by
  rw [ownBucket, Bucket.count_foldl_add, Sample.length_coloursUnder]
  simp only [Bucket.empty, UInt64.toNat_zero, Nat.zero_add]
  exact Nat.mod_eq_of_lt (holds.countable k)

/-- A sample is refused if there is no bucket for it, or one that cannot count it. -/
theorem Holds.record?_isSome_iff (holds : h.Holds size samples) (key : Nat) (c : Rgb) :
    (h.record? key c).isSome ↔ key < size ∧ (keys samples).count key + 1 < UInt64.size := by
  simp only [Option.isSome_iff_exists, record?_eq_some_iff, holds.bucket?_eq]
  have countable := holds.countable key
  by_cases inside : key < size
  · simp only [inside, if_true, Option.some.injEq, exists_eq_left', isFull_iff, holds.count_eq,
      exists_and_left, exists_eq', true_and, and_true]
    omega
  · simp [inside]

theorem Holds.record (holds : h.Holds size samples)
    (taken : h.record? s.key s.colour = some next) : next.Holds size (samples ++ [s]) := by
  have accepted : (h.record? s.key s.colour).isSome := taken ▸ rfl
  obtain ⟨inside, room⟩ := (holds.record?_isSome_iff s.key s.colour).mp accepted
  refine ⟨?_, fun k => ?_, fun k => ?_⟩
  · simpa [or_imp, forall_and, inside] using holds.inside
  · rw [Sample.count_keys_concat]
    split
    case isTrue own => exact own ▸ room
    case isFalse other => exact holds.countable k
  · rw [← (record?_eq_some_iff.mp taken).2, bucket?_record, holds.bucket?_eq,
      Sample.ownBucket_concat]
    by_cases known : k < size <;> simp [known]

theorem Holds.run (holds : h.Holds size earlier) :
    (h.run samples).Holds size (earlier ++ h.taken samples) := by
  induction samples generalizing h earlier with
  | nil => simpa [Histogram.run, taken] using holds
  | cons s rest ih =>
    rw [Histogram.run, List.foldl_cons, offer, taken]
    cases outcome : h.record? s.key s.colour with
    | none => exact ih holds
    | some next =>
      have later := ih (holds.record outcome)
      rwa [List.append_assoc, List.singleton_append] at later

/-- As long as no bucket can fill up, only keys past the end are refused. -/
theorem Holds.taken_eq_filter (holds : h.Holds size earlier)
    (few : earlier.length + samples.length < UInt64.size) :
    h.taken samples = samples.filter fun s => s.key < size := by
  induction samples generalizing h earlier with
  | nil => rfl
  | cons s rest ih =>
    rw [List.length_cons] at few
    have most : (keys earlier).count s.key ≤ earlier.length :=
      List.count_le_length.trans_eq (List.length_map _)
    have accepted := holds.record?_isSome_iff s.key s.colour
    rw [taken, List.filter_cons]
    cases outcome : h.record? s.key s.colour with
    | none =>
      have past : ¬ s.key < size := by
        rw [outcome] at accepted
        simp at accepted
        omega
      rw [if_neg (by simpa using past)]
      exact ih holds (by omega)
    | some next =>
      have inside : s.key < size := (accepted.mp (outcome ▸ rfl)).1
      rw [if_pos (by simpa using inside)]
      have later := holds.record outcome
      exact congrArg (s :: ·) (ih later (by rw [List.length_append, List.length_singleton]; omega))

end Steps

/-- The buckets account for samples: each has those under its key, and together they have all. -/
structure Accounts (size : Nat) (samples : List Sample) (h : Histogram) : Prop where
  len_eq : h.len = size
  bucket : ∀ k < size, ∃ b, h.bucket? k = some b ∧ b.key.toNat = k % 65536 ∧
    b.count.toNat = (keys samples).count k ∧
    b.average = ((coloursUnder samples k).foldl Bucket.add (Bucket.empty b.key)).average
  total : (h.buckets.toList.map fun b => b.count.toNat).sum = samples.length
  occupied : h.occupied = (keys samples).toFinset.card

/-- A list ranks the buckets: it has each of them, and those with more colours come first and, of those
with as many, the lower keys. -/
structure RankedBy (h : Histogram) (ranking : List Bucket) : Prop where
  perm : ranking.Perm h.buckets.toList
  ordered : ranking.Pairwise fun a b => b.count.toNat < a.count.toNat ∨
    (a.count.toNat = b.count.toNat ∧ a.key.toNat ≤ b.key.toNat)

section Accounting

variable {size : Nat} {samples : List Sample} {h : Histogram}

theorem Holds.key_lt (holds : h.Holds size samples) {k : Nat} (member : k ∈ keys samples) : k < size := by
  obtain ⟨s, own, rfl⟩ := List.mem_map.mp member
  exact holds.inside s own

theorem Holds.buckets_eq (holds : h.Holds size samples) :
    h.buckets.toList = (List.range size).map (ownBucket samples) := by
  apply List.ext_getElem?
  intro k
  have entry := holds.bucket?_eq k
  rw [bucket?] at entry
  rw [Array.getElem?_toList, entry]
  split <;> simp [*]

theorem Holds.sum_counts (holds : h.Holds size samples) :
    (h.buckets.toList.map fun b => b.count.toNat).sum = samples.length := by
  have inside : ∀ k ∈ (keys samples : Multiset Nat), k ∈ Finset.range size := fun _ member =>
    Finset.mem_range.mpr (holds.key_lt (Multiset.mem_coe.mp member))
  calc (h.buckets.toList.map fun b => b.count.toNat).sum
      = ((List.range size).map fun k => (keys samples).count k).sum := by
        rw [holds.buckets_eq, List.map_map]
        exact congrArg List.sum (List.map_congr_left fun k _ => holds.count_eq k)
    _ = ∑ k ∈ Finset.range size, Multiset.count k (keys samples) := by
        simp only [Multiset.coe_count]
        rfl
    _ = (keys samples).length := Multiset.sum_count_eq_card inside
    _ = samples.length := List.length_map _

/-- As many buckets are occupied as there are keys. -/
theorem Holds.occupied_eq (holds : h.Holds size samples) :
    h.occupied = (keys samples).toFinset.card := by
  have used : (Finset.range size).filter (fun k => 0 < (keys samples).count k) =
      (keys samples).toFinset := by
    ext k
    rw [Finset.mem_filter, Finset.mem_range, List.mem_toFinset, List.count_pos_iff,
      and_iff_right_iff_imp]
    exact holds.key_lt
  have counted : h.occupied = (List.range size).countP fun k => 0 < (keys samples).count k := by
    rw [occupied, ← Array.countP_toList, holds.buckets_eq, List.countP_map]
    refine List.countP_congr fun k _ => ?_
    simp [UInt64.lt_iff_toNat_lt, holds.count_eq]
  rw [counted, List.countP_eq_length_filter, ← used]
  rfl

theorem Holds.accounts (holds : h.Holds size samples) : h.Accounts size samples where
  len_eq := by
    rw [len, ← Array.length_toList, holds.buckets_eq, List.length_map, List.length_range]
  bucket := by
    intro k inside
    have key := Sample.key_ownBucket samples k
    refine ⟨ownBucket samples k, (holds.bucket?_eq k).trans (if_pos inside), ?_, holds.count_eq k, ?_⟩
    · rw [key, UInt16.toNat_ofNat']
    · rw [key, ownBucket]
  total := holds.sum_counts
  occupied := holds.occupied_eq

end Accounting

/-- Where a property is only ever had by the first elements of a list, those it counts are the first. -/
theorem take_countP_eq_filter {α : Type} {p : α → Bool} {l : List α}
    (early : l.Pairwise fun a b => p b → p a) : l.take (l.countP p) = l.filter p := by
  induction l with
  | nil => rfl
  | cons a rest ih =>
    obtain ⟨first, early⟩ := List.pairwise_cons.mp early
    by_cases own : p a
    · rw [List.countP_cons_of_pos own, List.take_succ_cons, List.filter_cons_of_pos own, ih early]
    · have none : ∀ b ∈ rest, ¬ p b := fun b member later => own (first b member later)
      rw [List.countP_cons_of_neg own, List.countP_eq_zero.mpr none, List.take_zero,
        List.filter_cons_of_neg own, List.filter_eq_nil_iff.mpr none]

section Ranked

variable {h : Histogram} {ranking other : List Bucket}

theorem rankedBy_ranked (h : Histogram) : h.RankedBy h.ranked :=
  ⟨h.ranked_perm, h.ranked_pairwise.imp ranksBefore_iff.mp⟩

/-- The occupied buckets come first in every ranking. -/
theorem RankedBy.take_occupied (ranked : h.RankedBy ranking) :
    (ranking.take h.occupied).Perm (h.buckets.toList.filter fun b => 0 < b.count) := by
  have early : ranking.Pairwise fun a b => decide (0 < b.count) → decide (0 < a.count) := by
    refine ranked.ordered.imp fun {a b} before => ?_
    simp only [decide_eq_true_eq, UInt64.lt_iff_toNat_lt, UInt64.toNat_zero]
    omega
  rw [occupied, ← Array.countP_toList, ← ranked.perm.countP_eq, take_countP_eq_filter early]
  exact ranked.perm.filter _

/-- Buckets with keys of their own can be ranked in one way only. -/
theorem RankedBy.unique (distinct : (h.buckets.toList.map Bucket.key).Nodup)
    (first : h.RankedBy ranking) (second : h.RankedBy other) : ranking = other := by
  refine List.Perm.eq_of_pairwise ?_ first.ordered second.ordered (first.perm.trans second.perm.symm)
  intro a b here there before after
  have same : a.key = b.key := UInt16.toNat_inj.mp (by omega)
  exact List.inj_on_of_nodup_map distinct (first.perm.mem_iff.mp here) (second.perm.mem_iff.mp there)
    same

end Ranked

/-- Every run accounts for the samples it takes, and it takes each one whose key is below the size and
whose bucket can count it. Each list that ranks the buckets begins with the occupied ones; the ranking
that is computed is such a list, and the only one if no key occurs twice. -/
theorem histogram_accounts_for_samples {size : Nat} {start : Histogram}
    (made : allocate size = .ok start) (samples : List Sample) :
    let h := start.run samples
    let taken := start.taken samples
    h.Accounts size taken ∧
    (∀ s : Sample, (h.record? s.key s.colour).isSome ↔
      s.key < size ∧ (keys taken).count s.key < 2 ^ 64 - 1) ∧
    (∀ s : Sample, size ≤ s.key → h.record? s.key s.colour = none ∧ h.offer s = h) ∧
    (samples.length < 2 ^ 64 → taken = samples.filter fun s => s.key < size) ∧
    h.RankedBy h.ranked ∧
    (∀ ranking, h.RankedBy ranking →
      (ranking.take h.occupied).Perm (h.buckets.toList.filter fun b => 0 < b.count)) ∧
    (size ≤ 65536 →
      h.ranked.Pairwise (fun a b => b.count.toNat < a.count.toNat ∨
        (a.count.toNat = b.count.toNat ∧ a.key.toNat < b.key.toNat)) ∧
      ∀ ranking, h.RankedBy ranking → ranking = h.ranked) := by
  intro h taken
  obtain rfl : start = empty size := by
    unfold allocate at made
    split at made
    · cases made
    · exact (Except.ok.inj made).symm
  have fresh := holds_empty size
  have holds : h.Holds size taken := fresh.run
  have accepted (s : Sample) := holds.record?_isSome_iff s.key s.colour
  have refused (s : Sample) (past : size ≤ s.key) : h.record? s.key s.colour = none := by
    rw [← Option.not_isSome_iff_eq_none, accepted]
    omega
  refine ⟨holds.accounts, fun s => ?_, fun s past => ?_, fun few => ?_, h.rankedBy_ranked, ?_, ?_⟩
  · rw [accepted, UInt64.size]
    omega
  · exact ⟨refused s past, by rw [offer, refused s past, Option.getD_none]⟩
  · exact fresh.taken_eq_filter (by simpa using few)
  · exact fun ranking ranked => ranked.take_occupied
  · intro small
    have distinct : (h.buckets.toList.map Bucket.key).Nodup := by
      rw [holds.buckets_eq]
      exact keys_nodup_of_range small (Sample.key_ownBucket taken)
    exact ⟨(h.ranked_strict distinct).imp outranks_iff.mp, fun ranking ranked =>
      ranked.unique distinct h.rankedBy_ranked⟩

theorem histogram_accounts_for_samples_four :
    let taken : List Sample := [⟨3, ⟨63, 0, 1⟩⟩, ⟨2, ⟨5, 6, 7⟩⟩, ⟨3, ⟨0, 0, 2⟩⟩]
    let offered := ⟨4, ⟨9, 9, 9⟩⟩ :: taken
    let h := (empty 4).run offered
    allocate 4 = .ok (empty 4) ∧ offered.length < 2 ^ 64 ∧ 4 ≤ 65536 ∧ h.Accounts 4 taken ∧
      h.ranked = [⟨3, 2, ⟨31, 0, 1⟩⟩, ⟨2, 1, ⟨5, 6, 7⟩⟩, Bucket.empty 0, Bucket.empty 1] := by
  intro taken offered h
  have made : allocate 4 = .ok (empty 4) := rfl
  have few : offered.length < 2 ^ 64 := by decide
  have small : 4 ≤ 65536 := by decide
  obtain ⟨accounts, _, _, all, _, _, only⟩ := histogram_accounts_for_samples made offered
  have buckets : h.buckets.toList =
      [Bucket.empty 0, Bucket.empty 1, ⟨2, 1, ⟨5, 6, 7⟩⟩, ⟨3, 2, ⟨31, 0, 1⟩⟩] := by decide
  have same : (empty 4).taken offered = taken := all few
  rw [same] at accounts
  refine ⟨made, few, small, accounts, ((only small).2 _ ⟨?_, ?_⟩).symm⟩
  · rw [buckets]
    decide
  · decide

end Histogram
end Roomscape
