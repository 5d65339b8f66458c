import Roomscape.Manifest

/-! Paths read from folders. Reading a path from one folder and the result from another is reading it
once from the two folders joined, so a manifest can be resolved step by step or at once; from an
absolute folder it is settled for good. -/
namespace Roomscape

namespace UnixPath

/-- What is put between a folder and a relative path that is read from it. -/
def seam (base : UnixPath) : String := if base.text = "" ∨ base.endsInSlash then "" else "/"

variable {base outer inner p : UnixPath}

theorem join_absolute (absolute : p.isAbsolute) : base.join p = p := by simp [join, absolute]

theorem join_relative (relative : ¬ p.isAbsolute) :
    base.join p = ⟨base.text ++ base.seam ++ p.text⟩ := by
  by_cases closed : base.text = "" ∨ base.endsInSlash
  · simp [join, seam, relative, closed]
  · simp [join, seam, relative, closed]

/-- A text that goes on after its first part begins as that part does. -/
theorem isAbsolute_append {front : String} (some : front ≠ "") (back : String) :
    (mk (front ++ back)).isAbsolute = (mk front).isAbsolute := by
  cases chars : front.toList with
  | nil => exact absurd (String.toList_eq_nil_iff.mp chars) some
  | cons c rest => simp [isAbsolute, chars]

/-- A text that goes on ends as its last part does. -/
theorem seam_append (front : String) {back : String} (some : back ≠ "") :
    (mk (front ++ back)).seam = (mk back).seam := by
  have filled : front ++ back ≠ "" := by simp [some]
  have last : (mk (front ++ back)).endsInSlash = (mk back).endsInSlash := by
    cases ends : back.toList.getLast? with
    | none => simp_all
    | some c => simp [endsInSlash, ends]
  simp [seam, filled, some, last]

/-- Behind a folder and its slash nothing more is put. -/
theorem seam_seam (base : UnixPath) : (mk (base.text ++ base.seam)).seam = "" := by
  by_cases closed : base.text = "" ∨ base.endsInSlash
  · have none : base.seam = "" := if_pos closed
    simp [none]
  · have slash : base.seam = "/" := if_neg closed
    rw [slash, seam_append _ (by decide)]
    decide

/-- A path comes out absolute if it is so itself, or the folder is. -/
theorem isAbsolute_join : (base.join p).isAbsolute = (base.isAbsolute || p.isAbsolute) := by
  by_cases absolute : p.isAbsolute
  · simp [join_absolute absolute, absolute]
  · rw [join_relative absolute]
    by_cases none : base.text = ""
    · have nowhere : base.isAbsolute = false := by simp [isAbsolute, none]
      simp [seam, none, nowhere]
    · rw [String.append_assoc, isAbsolute_append none]
      simp [absolute]

theorem seam_join (relative : ¬ inner.isAbsolute) : (outer.join inner).seam = inner.seam := by
  rw [join_relative relative]
  by_cases none : inner.text = ""
  · have empty : inner.seam = "" := by simp [seam, none]
    simp [none, seam_seam, empty]
  · exact seam_append _ none

/-- Folders are joined in either order of steps. -/
theorem join_assoc (outer inner p : UnixPath) :
    outer.join (inner.join p) = (outer.join inner).join p := by
  by_cases absolute : p.isAbsolute
  · simp [join_absolute absolute]
  by_cases rooted : inner.isAbsolute
  · have settled : (inner.join p).isAbsolute := by simp [isAbsolute_join, rooted]
    rw [join_absolute settled, join_absolute rooted]
  · have unsettled : ¬ (inner.join p).isAbsolute := by simp [isAbsolute_join, rooted, absolute]
    rw [join_relative unsettled, join_relative absolute, join_relative absolute, seam_join rooted,
      join_relative rooted]
    simp [String.append_assoc]

end UnixPath

namespace Manifest

/-- The paths of a manifest: that of the photo, then those of the sprites in order. -/
def paths (m : Manifest) : List UnixPath := m.photo :: m.sprites.map SpriteEntry.image

/-- What a manifest is when its paths are read from a folder: an absolute path is as it was, a relative
one stands behind the folder, and nothing else is different. -/
structure ReadFrom (base : UnixPath) (m resolved : Manifest) : Prop where
  name : resolved.name = m.name
  places : resolved.sprites.map (fun s => (s.x, s.y)) = m.sprites.map fun s => (s.x, s.y)
  absolute : ∀ (i : Nat) (p : UnixPath), m.paths[i]? = some p → p.isAbsolute →
    resolved.paths[i]? = some p
  relative : ∀ (i : Nat) (p : UnixPath), m.paths[i]? = some p → ¬ p.isAbsolute →
    resolved.paths[i]? = some ⟨base.text ++ base.seam ++ p.text⟩

theorem paths_resolvePaths (m : Manifest) (base : UnixPath) :
    (m.resolvePaths base).paths = m.paths.map base.join := by
  simp [paths, resolvePaths]

theorem readFrom_resolvePaths (m : Manifest) (base : UnixPath) :
    ReadFrom base m (m.resolvePaths base) where
  name := rfl
  places := by simp [resolvePaths]
  absolute := by
    intro i p found absolute
    simp [paths_resolvePaths, found, UnixPath.join_absolute absolute]
  relative := by
    intro i p found relative
    simp [paths_resolvePaths, found, UnixPath.join_relative relative]

theorem resolvePaths_resolvePaths (m : Manifest) (inner outer : UnixPath) :
    (m.resolvePaths inner).resolvePaths outer = m.resolvePaths (outer.join inner) := by
  simp [resolvePaths, UnixPath.join_assoc]

theorem absolute_of_mem_resolvePaths {m : Manifest} {base p : UnixPath} (rooted : base.isAbsolute)
    (member : p ∈ (m.resolvePaths base).paths) : p.isAbsolute := by
  rw [paths_resolvePaths] at member
  obtain ⟨own, _, rfl⟩ := List.mem_map.mp member
  simp [UnixPath.isAbsolute_join, rooted]

/-- Resolving a manifest against one folder and then another is resolving it against the two joined. It
changes relative paths only, and against an absolute folder it leaves none to change. -/
theorem resolving_acts_by_joining (m : Manifest) :
    (∀ inner outer,
      (m.resolvePaths inner).resolvePaths outer = m.resolvePaths (outer.join inner)) ∧
    (∀ base, ReadFrom base m (m.resolvePaths base)) ∧
    ∀ base : UnixPath, base.isAbsolute →
      (∀ p ∈ (m.resolvePaths base).paths, p.isAbsolute) ∧
      ∀ other, (m.resolvePaths base).resolvePaths other = m.resolvePaths base := by
  refine ⟨m.resolvePaths_resolvePaths, m.readFrom_resolvePaths, fun base rooted => ⟨?_, ?_⟩⟩
  · exact fun p => absolute_of_mem_resolvePaths rooted
  · intro other
    rw [resolvePaths_resolvePaths, UnixPath.join_absolute rooted]

/-- A photo beside the manifest, and a sprite that stands elsewhere. -/
def cellar : Manifest := ⟨"cellar", ⟨"a.photo"⟩, [⟨⟨"/abs/b.obj"⟩, 10, -4⟩]⟩

theorem resolving_acts_by_joining_cellar :
    (UnixPath.mk "/rooms").isAbsolute ∧
    ((cellar.resolvePaths ⟨"east/"⟩).resolvePaths ⟨"/rooms"⟩).paths =
      [⟨"/rooms/east/a.photo"⟩, ⟨"/abs/b.obj"⟩] ∧
    ∀ other, (cellar.resolvePaths ⟨"/rooms"⟩).resolvePaths other = cellar.resolvePaths ⟨"/rooms"⟩ := by
  have rooted : (UnixPath.mk "/rooms").isAbsolute := by decide
  obtain ⟨acts, _, settled⟩ := cellar.resolving_acts_by_joining
  refine ⟨rooted, ?_, (settled ⟨"/rooms"⟩ rooted).2⟩
  rw [acts]
  decide

end Manifest
end Roomscape
