import Roomscape.Proofs.Ranking

/-! The slot of every pixel. The table from fine keys to slots is the inverse of the ranking's first
128 places, so a pixel's slot follows from pixel counts alone. -/
namespace Roomscape

namespace Raw

theorem fineKey_lt (p : Raw) : p.fineKey < fineKeys := by
  have bound := p.bits.toNat_lt
  simp only [fineKey, red, green, blue, fineKeys]
  omega

theorem coarseKey_lt (p : Raw) : p.coarseKey < coarseKeys := by
  have bound := p.bits.toNat_lt
  simp only [coarseKey, red, green, blue, coarseKeys]
  omega

end Raw

namespace Quantized

/-- The table with one more winner in it, under its key. -/
private def enter (table : Array (Option UInt8)) (won : Bucket × Nat) : Array (Option UInt8) :=
  table.setIfInBounds won.1.key.toNat (some (UInt8.ofNat won.2))

/-- Entering winners changes no key that is not theirs. -/
private theorem getElem?_enter_of_absent (winners : List Bucket) (table : Array (Option UInt8))
    (start k : Nat) (absent : ∀ b ∈ winners, b.key.toNat ≠ k) :
    ((winners.zipIdx start).foldl enter table)[k]? = table[k]? := by
  induction winners generalizing table start with
  | nil => rfl
  | cons b rest ih =>
    rw [List.zipIdx_cons, List.foldl_cons, ih _ _ fun c member => absent c (List.mem_cons_of_mem _ member)]
    exact Array.getElem?_setIfInBounds_ne (absent b List.mem_cons_self)

/-- No later winner has the same key, so what was entered stays. -/
private theorem getElem?_enter_of_found {winners : List Bucket} (table : Array (Option UInt8))
    (start : Nat) (keys : winners.Pairwise fun a b => a.key ≠ b.key) {i : Nat} {b : Bucket}
    (found : winners[i]? = some b) (inside : b.key.toNat < table.size) :
    ((winners.zipIdx start).foldl enter table)[b.key.toNat]? =
      some (some (UInt8.ofNat (start + i))) := by
  induction winners generalizing table start i with
  | nil => simp at found
  | cons a rest ih =>
    obtain ⟨apart, keys⟩ := List.pairwise_cons.mp keys
    rw [List.zipIdx_cons, List.foldl_cons]
    cases i with
    | zero =>
      obtain rfl : a = b := by simpa using found
      rw [getElem?_enter_of_absent]
      · simp [enter, inside]
      · intro c member same
        exact apart c member (UInt16.toNat_inj.mp same.symm)
    | succ i =>
      have found : rest[i]? = some b := by simpa using found
      rw [ih _ _ keys found (by simpa [enter] using inside)]
      congr 3
      omega

variable (raw : Grid Raw)

/-- The keys that won a slot, best first. -/
private def winners : List Bucket := (fineHistogram raw).ranked.take fineSlots

private theorem winners_keys : (winners raw).Pairwise fun a b => a.key ≠ b.key := by
  have keys := (((fineHistogram raw).ranked_perm.map Bucket.key).nodup_iff).mpr
    (raw.keys_nodup Raw.fineKey (show fineKeys ≤ 65536 by decide))
  exact (List.pairwise_map.mp keys).sublist (List.take_sublist _ _)

private theorem toNat_key_ownBucket {k : Nat} (hk : k < fineKeys) :
    (raw.ownBucket Raw.fineKey k).key.toNat = k := by
  have small : k < 65536 := Nat.lt_trans hk (by decide)
  rw [Grid.key_ownBucket, UInt16.toNat_ofNat', Nat.mod_eq_of_lt small]

/-- The table gives a key its rank if that is among the first 128. -/
theorem slotTable_of_rank {k : Nat} (hk : k < fineKeys) :
    (slotTable ((fineHistogram raw).ranked.take fineSlots))[k]? =
      some (if raw.rank Raw.fineKey fineKeys k < fineSlots then
        some (UInt8.ofNat (raw.rank Raw.fineKey fineKeys k)) else none) := by
  have small : fineKeys ≤ 65536 := by decide
  have place := raw.ranked_rank Raw.fineKey small hk
  have key := toNat_key_ownBucket raw hk
  have inside : k < (Array.replicate fineKeys (none : Option UInt8)).size := by simpa using hk
  change ((winners raw).zipIdx.foldl enter (Array.replicate fineKeys none))[k]? = _
  split
  case isTrue won =>
    have found : (winners raw)[raw.rank Raw.fineKey fineKeys k]? =
        some (raw.ownBucket Raw.fineKey k) := by
      rw [winners, List.getElem?_take_of_lt won]
      exact place
    have entry := getElem?_enter_of_found (Array.replicate fineKeys none) 0 (winners_keys raw) found
      (by rw [key]; exact inside)
    rwa [key, Nat.zero_add] at entry
  case isFalse lost =>
    rw [getElem?_enter_of_absent]
    · simp [hk]
    · intro b member same
      -- A winner with this key would stand at the key's rank, which is past the cut.
      obtain ⟨i, found⟩ := List.mem_iff_getElem?.mp member
      rw [winners, List.getElem?_take] at found
      obtain ⟨early, standing⟩ := Option.ite_none_right_eq_some.mp found
      obtain ⟨k', hk', rfl⟩ := raw.eq_ownBucket_of_mem_ranked Raw.fineKey
        (List.mem_of_mem_take member)
      obtain rfl : k' = k := (toNat_key_ownBucket raw hk').symm.trans same
      exact lost (raw.position_eq_rank Raw.fineKey small hk standing ▸ early)

end Quantized

namespace Grid

/-- The slot that counts alone give a pixel: the rank of its fine key if that is below 128, and
otherwise the slot of its coarse key. -/
def slot (raw : Grid Raw) (p : Raw) : Nat :=
  let rank := raw.rank Raw.fineKey fineKeys p.fineKey
  if rank < 128 then rank else 128 + p.coarseKey

theorem slot_lt (raw : Grid Raw) (p : Raw) : raw.slot p < paletteSlots := by
  have coarse := p.coarseKey_lt
  simp only [slot, coarseKeys, paletteSlots] at coarse ⊢
  split <;> omega

end Grid

namespace Quantized

variable (raw : Grid Raw)

theorem toNat_index (p : Raw) :
    ((slotOf (slotTable ((fineHistogram raw).ranked.take fineSlots)) p).getD
      (coarseSlot p)).toNat = raw.slot p := by
  have bound := raw.slot_lt p
  rw [slotOf, slotTable_of_rank raw p.fineKey_lt]
  simp only [Grid.slot, fineSlots, paletteSlots] at bound ⊢
  split at bound
  case isTrue won =>
    simp only [won, if_true, Option.join_some, Option.getD_some, UInt8.toNat_ofNat']
    omega
  case isFalse lost =>
    simp only [lost, if_false, Option.join_some, Option.getD_none, coarseSlot, fineSlots,
      UInt8.toNat_ofNat']
    omega

theorem indices_eq_map : (ofRaw raw).indices = raw.map fun p =>
    (slotOf (slotTable ((fineHistogram raw).ranked.take fineSlots)) p).getD (coarseSlot p) :=
  rfl

theorem get?_indices (x y : Nat) :
    ((ofRaw raw).indices.get? x y).map UInt8.toNat = (raw.get? x y).map raw.slot := by
  rw [indices_eq_map, Grid.get?_map, Option.map_map]
  exact congrArg (Option.map · (raw.get? x y)) (funext (toNat_index raw))

/-- Every pixel's index is the slot that the pixel counts give it, and is below 192. -/
theorem indices_follow_counts :
    (ofRaw raw).indices.width = raw.width ∧ (ofRaw raw).indices.height = raw.height ∧
    ∀ x y, ((ofRaw raw).indices.get? x y).map UInt8.toNat = (raw.get? x y).map raw.slot ∧
      ((ofRaw raw).indices.get? x y).all (·.toNat < 192) := by
  refine ⟨rfl, rfl, fun x y => ⟨get?_indices raw x y, ?_⟩⟩
  have slots := get?_indices raw x y
  cases index : (ofRaw raw).indices.get? x y with
  | none => rfl
  | some i =>
    rw [index] at slots
    obtain ⟨p, _, same⟩ := Option.map_eq_some_iff.mp slots.symm
    have bound := raw.slot_lt p
    rw [same] at bound
    simpa using bound

end Quantized
end Roomscape
