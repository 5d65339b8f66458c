import Roomscape.Proofs.GridAccess
import Roomscape.Proofs.GuardedFills

/-! Grids in which nothing holds the sides and the buffer together. Every product, sum, slice and index
on the way to a pixel is guarded, as in a fill. A grid that is made, mapped or written to has as many
pixels as its sides need all the same, so no guard ever ends anything: each way into it is the one into
the grid that carries this fact with it. -/
namespace Roomscape

section Buffers

variable {α β τ : Type}

/-- A stretch of a buffer that is changed where it stands. -/
theorem extract_mapIdx_extract (xs : Array α) (f : Nat → α → α) {start stop : Nat}
    (order : start ≤ stop) (inside : stop ≤ xs.size) :
    xs.extract 0 start ++ (xs.extract start stop).mapIdx f ++ xs.extract stop xs.size =
      xs.mapIdx fun i p => if start ≤ i ∧ i < stop then f (i - start) p else p := by
  have front : min start xs.size = start := by omega
  have stretch : min stop xs.size - start = stop - start := by omega
  apply Array.ext_getElem?
  intro i
  simp only [Array.getElem?_append, Array.getElem?_mapIdx, Array.getElem?_extract, Array.size_append,
    Array.size_mapIdx, Array.size_extract, Nat.sub_zero, front, stretch]
  rcases Nat.lt_or_ge i start with before | past
  · have apart : ¬ start ≤ i := by omega
    simp [before, apart]
    omega
  · rcases Nat.lt_or_ge i stop with within | behind
    · have place : start + (i - start) = i := by omega
      rw [if_pos (by omega), if_neg (by omega), if_pos (by omega), place]
      simp [past, within]
    · have place : stop + (i - (start + (stop - start))) = i := by omega
      have apart : ¬ i < stop := by omega
      rw [if_neg (by omega), place]
      by_cases last : i < xs.size
      · rw [if_pos (by omega)]
        simp [apart]
      · simp [last]

/-- What is pushed one after the other, by something that remembers, is as many as there were. -/
theorem size_foldl_push (f : τ → α → β × τ) (xs : Array α) (start : τ) :
    (xs.foldl (fun (s : Array β × τ) a => (s.1.push (f s.2 a).1, (f s.2 a).2)) (#[], start)).1.size =
      xs.size :=
  xs.foldl_induction (fun i (s : Array β × τ) => s.1.size = i) rfl fun i s size => by
    simpa using size

theorem foldl_push_map (f : α → β) (xs : Array α) :
    xs.foldl (fun (s : Array β × Unit) a => (s.1.push (f a), ())) (#[], ()) = (xs.map f, ()) := by
  have pushed : xs.foldl (fun line a => line.push (f a)) #[] = xs.map f := by simp
  rw [← pushed]
  exact Array.foldl_hom (fun line => (line, ())) fun _ _ => rfl

end Buffers

/-- A rectangle of pixels as a machine has it: nothing ties the buffer to the sides. -/
structure LooseGrid (α : Type) where
  width : Nat
  height : Nat
  pixels : Array α

/-- A write through one of the two ways into a grid that change it. -/
inductive Edit (α : Type) where
  | set (x y : Nat) (value : α)
  | row (y : Nat) (f : Nat → α → α)

namespace LooseGrid

open Guarded (address slice element)

variable {α β τ : Type} (g : LooseGrid α)

def ofArray (width height : Nat) (pixels : Array α) : Except Fault (LooseGrid α) :=
  if addressSpace ≤ width * height then .error (.malformed none (.areaOverflow width height))
  else if pixels.size = width * height then .ok ⟨width, height, pixels⟩
  else .error (.malformed none (.pixelCount width height (width * height) pixels.size))

def filled (width height : Nat) (value : α) (pixelBytes : Nat) : Except Fault (LooseGrid α) :=
  if addressSpace ≤ width * height then .error (.exhausted (.area width height))
  else if largestBuffer < width * height * pixelBytes then .error (.exhausted .grid)
  else .ok ⟨width, height, Array.replicate (width * height) value⟩

/-- The grid with every pixel changed, one after the other, by something that remembers. -/
def tryMap (f : τ → α → β × τ) (start : τ) (pixelBytes : Nat) : Except Fault (LooseGrid β × τ) :=
  if largestBuffer < g.pixels.size * pixelBytes then .error (.exhausted .grid)
  else
    let done := g.pixels.foldl (fun s a => (s.1.push (f s.2 a).1, (f s.2 a).2)) (#[], start)
    .ok (⟨g.width, g.height, done.1⟩, done.2)

def offset (x y : Nat) : Guarded (Option Nat) := do
  if x < g.width ∧ y < g.height then
    let start ← address (y * g.width)
    return some (← address (start + x))
  else return none

def get (x y : Nat) : Guarded (Option α) := do
  match ← g.offset x y with
  | some i => return some (← element g.pixels i)
  | none => return none

def getSigned (x y : Int) : Guarded (Option α) :=
  if 0 ≤ x ∧ 0 ≤ y then g.get x.toNat y.toNat else return none

def row (y : Nat) : Guarded (Option (Array α)) := do
  if y < g.height then
    let start ← address (y * g.width)
    let stop ← address (start + g.width)
    return some (← slice g.pixels start stop)
  else return none

def set (x y : Nat) (value : α) : Guarded (LooseGrid α × Bool) := do
  match ← g.offset x y with
  | some i =>
    discard (element g.pixels i)
    return ({ g with pixels := g.pixels.setIfInBounds i value }, true)
  | none => return (g, false)

/-- The grid with a row rewritten where it stands, and whether there was one. -/
def writeRow (y : Nat) (f : Nat → α → α) : Guarded (LooseGrid α × Bool) := do
  match ← g.row y with
  | some line =>
    let start := y * g.width
    let behind := g.pixels.extract (start + g.width) g.pixels.size
    return ({ g with pixels := g.pixels.extract 0 start ++ line.mapIdx f ++ behind }, true)
  | none => return (g, false)

def edit : Edit α → Guarded (LooseGrid α)
  | .set x y value => return (← g.set x y value).1
  | .row y f => return (← g.writeRow y f).1

def run (edits : List (Edit α)) : Guarded (LooseGrid α) := edits.foldlM edit g

/-- The grids that there are: made, mapped from another, or written to. -/
inductive Reached : {α : Type} → LooseGrid α → Prop where
  | ofArray {α : Type} {width height : Nat} {pixels : Array α} {g : LooseGrid α}
      (made : ofArray width height pixels = .ok g) : Reached g
  | filled {α : Type} {width height pixelBytes : Nat} {value : α} {g : LooseGrid α}
      (made : filled width height value pixelBytes = .ok g) : Reached g
  | mapped {α β τ : Type} {f : τ → α → β × τ} {first last : τ} {pixelBytes : Nat} {g : LooseGrid α}
      {h : LooseGrid β} (origin : Reached g) (made : g.tryMap f first pixelBytes = .ok (h, last)) :
      Reached h
  | edited {α : Type} {e : Edit α} {g h : LooseGrid α} (origin : Reached g)
      (done : g.edit e = .ok h) : Reached h

end LooseGrid

namespace Grid

variable {α β τ : Type} (g : Grid α)

/-- The grid without what ties its buffer to its sides. -/
def loose : LooseGrid α := ⟨g.width, g.height, g.pixels⟩

@[simp] theorem width_loose : g.loose.width = g.width := rfl

@[simp] theorem height_loose : g.loose.height = g.height := rfl

@[simp] theorem pixels_loose : g.loose.pixels = g.pixels := rfl

def edit : Edit α → Grid α
  | .set x y value => (g.set? x y value).getD g
  | .row y f => (g.updateRow? y f).getD g

def run (edits : List (Edit α)) : Grid α := edits.foldl edit g

theorem loose_ofArray (width height : Nat) (pixels : Array α) :
    LooseGrid.ofArray width height pixels = (ofArray width height pixels).map loose := by
  unfold LooseGrid.ofArray ofArray
  split
  · simp [*, Except.map]
  · split <;> simp [*, Except.map, loose]

theorem loose_filled (width height : Nat) (value : α) (pixelBytes : Nat) :
    LooseGrid.filled width height value pixelBytes =
      (filled width height value pixelBytes).map loose := by
  unfold LooseGrid.filled filled
  split
  · simp [*, Except.map]
  · split <;> simp [*, Except.map, loose]

theorem loose_tryMap (f : α → β) {pixelBytes : Nat} (room : g.len * pixelBytes ≤ largestBuffer) :
    g.loose.tryMap (fun (_ : Unit) a => (f a, ())) () pixelBytes = .ok ((g.map f).loose, ()) := by
  have fits : ¬ largestBuffer < g.loose.pixels.size * pixelBytes := Nat.not_lt.mpr room
  rw [LooseGrid.tryMap, if_neg fits, foldl_push_map]
  rfl

theorem loose_offset (x y : Nat) : g.loose.offset x y = pure (g.offset? x y) := by
  unfold LooseGrid.offset offset?
  by_cases inside : x < g.width ∧ y < g.height
  · have bound := g.position_bound inside.1 inside.2
    have counted := g.size_lt
    simp only [width_loose, height_loose, inside, and_self, if_true]
    rw [Guarded.address_eq (by omega), pure_bind, Guarded.address_eq (by omega), pure_bind]
  · simp only [width_loose, height_loose, inside, if_false]

/-- The number of a position is that of a pixel in the buffer. -/
theorem element_of_offset {x y i : Nat} (found : g.offset? x y = some i) :
    ∃ value, Guarded.element g.loose.pixels i = pure value ∧ g.pixels[i]? = some value := by
  have bound := g.numbered.within x y i found
  have own : g.pixels[i]? = some g.pixels[i] := Array.getElem?_eq_getElem bound
  exact ⟨_, Guarded.element_eq own, own⟩

theorem loose_get (x y : Nat) : g.loose.get x y = pure (g.get? x y) := by
  unfold LooseGrid.get
  rw [loose_offset, pure_bind, get?]
  cases found : g.offset? x y with
  | none => rfl
  | some i =>
    obtain ⟨value, own⟩ := g.element_of_offset found
    simp only [Option.bind_some]
    rw [own.1, own.2, pure_bind]

theorem loose_getSigned (x y : Int) : g.loose.getSigned x y = pure (g.at? x y) := by
  rw [LooseGrid.getSigned, at?_eq_ite]
  split
  · exact g.loose_get _ _
  · rfl

theorem loose_row (y : Nat) : g.loose.row y = pure (g.row? y) := g.guardedRow_eq y

/-- What a write leaves, and whether there was anything to write to. -/
def after (g : Grid α) : Option (Grid α) → LooseGrid α × Bool
  | some t => (t.loose, true)
  | none => (g.loose, false)

theorem loose_set (x y : Nat) (value : α) :
    g.loose.set x y value = pure (g.after (g.set? x y value)) := by
  unfold LooseGrid.set
  rw [loose_offset, pure_bind, set?]
  cases found : g.offset? x y with
  | none => rfl
  | some i =>
    obtain ⟨_, own⟩ := g.element_of_offset found
    simp only [own.1]
    rfl

theorem loose_writeRow (y : Nat) (f : Nat → α → α) :
    g.loose.writeRow y f = pure (g.after (g.updateRow? y f)) := by
  unfold LooseGrid.writeRow
  rw [loose_row, pure_bind, row?, updateRow?]
  by_cases hy : y < g.height
  · have fits := g.row_end_le hy
    have stretch := extract_mapIdx_extract g.pixels f (Nat.le_add_right (y * g.width) g.width) fits
    simp only [hy, if_true, width_loose, height_loose, pixels_loose, stretch]
    rfl
  · simp [hy, after]

theorem loose_edit (e : Edit α) : g.loose.edit e = pure (g.edit e).loose := by
  cases e with
  | set x y value =>
    rw [LooseGrid.edit, loose_set, pure_bind, edit]
    cases g.set? x y value <;> rfl
  | row y f =>
    rw [LooseGrid.edit, loose_writeRow, pure_bind, edit]
    cases g.updateRow? y f <;> rfl

theorem loose_run (edits : List (Edit α)) : g.loose.run edits = pure (g.run edits).loose := by
  induction edits generalizing g with
  | nil => rfl
  | cons e rest ih =>
    rw [LooseGrid.run, List.foldlM_cons, loose_edit, pure_bind]
    exact ih (g.edit e)

theorem of_map {result : Except Fault (Grid α)} {h : LooseGrid α} (made : result.map loose = .ok h) :
    ∃ own : Grid α, h = own.loose := by
  cases result with
  | ok own => exact ⟨own, (Except.ok.inj made).symm⟩
  | error fault => cases made

theorem of_tryMap {f : τ → α → β × τ} {first last : τ} {pixelBytes : Nat} {h : LooseGrid β}
    (made : g.loose.tryMap f first pixelBytes = .ok (h, last)) : ∃ own : Grid β, h = own.loose := by
  unfold LooseGrid.tryMap at made
  split at made
  · cases made
  · cases made
    have size := (size_foldl_push f g.pixels first).trans g.size_pixels
    exact ⟨⟨g.width, g.height, _, size, g.area_lt⟩, rfl⟩

end Grid

namespace LooseGrid

variable {α : Type} {g : LooseGrid α}

/-- No guard ends anything, and what comes of each way in is what the grid's own gives. -/
structure Follows (g : LooseGrid α) (own : Grid α) : Prop where
  loose : g = own.loose
  offset : ∀ x y, g.offset x y = .ok (own.offset? x y)
  get : ∀ x y, g.get x y = .ok (own.get? x y)
  getSigned : ∀ x y, g.getSigned x y = .ok (own.at? x y)
  row : ∀ y, g.row y = .ok (own.row? y)
  set : ∀ x y value, g.set x y value = .ok (own.after (own.set? x y value))
  writeRow : ∀ y f, g.writeRow y f = .ok (own.after (own.updateRow? y f))
  run : ∀ edits, g.run edits = .ok (own.run edits).loose
  map : ∀ {β : Type} (f : α → β) {pixelBytes : Nat}, own.len * pixelBytes ≤ largestBuffer →
    g.tryMap (fun (_ : Unit) a => (f a, ())) () pixelBytes = .ok ((own.map f).loose, ())

theorem follows_loose (own : Grid α) : own.loose.Follows own where
  loose := rfl
  offset := own.loose_offset
  get := own.loose_get
  getSigned := own.loose_getSigned
  row := own.loose_row
  set := own.loose_set
  writeRow := own.loose_writeRow
  run := own.loose_run
  map := own.loose_tryMap

/-- A grid is the loose form of one that carries its area: whatever made it, it was made of one. -/
theorem Reached.exists_grid (reached : g.Reached) : ∃ own : Grid α, g = own.loose := by
  induction reached with
  | ofArray made =>
    rw [Grid.loose_ofArray] at made
    exact Grid.of_map made
  | filled made =>
    rw [Grid.loose_filled] at made
    exact Grid.of_map made
  | mapped origin made ih =>
    obtain ⟨own, rfl⟩ := ih
    exact own.of_tryMap made
  | edited origin done ih =>
    obtain ⟨own, rfl⟩ := ih
    rw [Grid.loose_edit] at done
    cases done
    exact ⟨_, rfl⟩

/-- A grid whose pixels are as many as its sides need, with all the ways into it in agreement. -/
structure Sound (g : LooseGrid α) : Prop where
  size_pixels : g.pixels.size = g.width * g.height
  area_lt : g.width * g.height < addressSpace
  access : ∃ own : Grid α, g.Follows own ∧ own.Numbered ∧ own.ReadsAlike ∧ own.WritesApart

theorem sound_loose (own : Grid α) : own.loose.Sound where
  size_pixels := own.size_pixels
  area_lt := own.area_lt
  access := ⟨own, follows_loose own, own.numbered, own.readsAlike, own.writesApart⟩

theorem ofArray_eq_ok_iff {width height : Nat} {pixels : Array α} :
    ofArray width height pixels = .ok g ↔
      (pixels.size = width * height ∧ width * height < addressSpace) ∧ g = ⟨width, height, pixels⟩ := by
  unfold ofArray
  split
  · rename_i uncounted
    have apart : ¬ (pixels.size = width * height ∧ width * height < addressSpace) := by omega
    simp [apart]
  · split
    · simp [*, eq_comm, Nat.lt_of_not_le]
    · simp [*]

/-- Whatever is done to a grid, its pixels are as many as its sides need; no way into it is ever ended,
and its positions, its pixels and its rows are what they say. A buffer is taken exactly if it is of the
size its sides need and that size can be counted. -/
theorem grids_hold_together {α : Type} :
    (∀ (width height : Nat) (pixels : Array α) (g : LooseGrid α),
      (ofArray width height pixels = .ok g ↔
        (pixels.size = width * height ∧ width * height < addressSpace) ∧ g = ⟨width, height, pixels⟩) ∧
      ofArray width height pixels = (Grid.ofArray width height pixels).map Grid.loose) ∧
    (∀ (width height : Nat) (value : α) (pixelBytes : Nat),
      filled width height value pixelBytes =
        (Grid.filled width height value pixelBytes).map Grid.loose) ∧
    ∀ g : LooseGrid α, g.Reached → g.Sound := by
  refine ⟨fun width height pixels g => ⟨ofArray_eq_ok_iff, Grid.loose_ofArray ..⟩,
    Grid.loose_filled, fun g reached => ?_⟩
  obtain ⟨own, rfl⟩ := reached.exists_grid
  exact sound_loose own

/-- A strip of as many rows as can be counted and no columns, and two pixels of which one is written. -/
theorem grids_hold_together_strip :
    ((⟨0, 0xFFFFFFFFFFFFFFFF, #[]⟩ : LooseGrid UInt8).Reached ∧
      (⟨0, 0xFFFFFFFFFFFFFFFF, #[]⟩ : LooseGrid UInt8).Sound ∧
      (⟨0, 0xFFFFFFFFFFFFFFFF, #[]⟩ : LooseGrid UInt8).row 0xFFFFFFFFFFFFFFFE = .ok (some #[])) ∧
    (⟨2, 1, #[1, 9]⟩ : LooseGrid UInt8).Reached ∧ (⟨2, 1, #[1, 9]⟩ : LooseGrid UInt8).Sound := by
  have strip : (⟨0, 0xFFFFFFFFFFFFFFFF, #[]⟩ : LooseGrid UInt8).Reached :=
    .filled (show filled 0 0xFFFFFFFFFFFFFFFF (7 : UInt8) 1 = .ok _ by rfl)
  have pair : (⟨2, 1, #[1, 2]⟩ : LooseGrid UInt8).Reached :=
    .ofArray (show ofArray 2 1 #[(1 : UInt8), 2] = .ok _ by rfl)
  have written : (⟨2, 1, #[1, 9]⟩ : LooseGrid UInt8).Reached :=
    pair.edited (show edit ⟨2, 1, #[1, 2]⟩ (.set 1 0 9) = .ok _ by rfl)
  exact ⟨⟨strip, grids_hold_together.2.2 _ strip, rfl⟩, written, grids_hold_together.2.2 _ written⟩

end LooseGrid

end Roomscape
