import Roomscape.UnixPath

/-! The paths above a path. They start from the same place, and their segments come first among its
own. -/
namespace Roomscape.UnixPath

section Segments

theorem splitAtSlashes_eq_splitOn (cs : List Char) : splitAtSlashes cs = cs.splitOn '/' := by
  induction cs with
  | nil => rfl
  | cons c cs ih =>
    rw [List.splitOn_cons_eq_if_modifyHead, ← ih]
    by_cases slash : c = '/'
    · subst slash
      rfl
    · rw [if_neg (by simpa using slash), splitAtSlashes]
      · obtain ⟨segment, rest, split⟩ := List.exists_cons_of_ne_nil (List.splitOn_ne_nil '/' cs)
        rw [ih, split]
        rfl
      · exact slash

theorem not_mem_of_mem_splitOn {c : Char} {cs word : List Char} (member : word ∈ cs.splitOn c) :
    c ∉ word := by
  induction cs generalizing word with
  | nil => simp_all
  | cons d cs ih =>
    rw [List.splitOn_cons_eq_if_modifyHead] at member
    by_cases same : d = c
    · rw [if_pos (by simpa using same)] at member
      rcases List.mem_cons.mp member with rfl | later
      · exact List.not_mem_nil
      · exact ih later
    · rw [if_neg (by simpa using same)] at member
      obtain ⟨first, rest, split⟩ := List.exists_cons_of_ne_nil (List.splitOn_ne_nil c cs)
      rw [split] at member ih
      rcases List.mem_cons.mp member with rfl | later
      · rw [List.mem_cons, not_or]
        exact ⟨Ne.symm same, ih List.mem_cons_self⟩
      · exact ih (List.mem_cons_of_mem _ later)

theorem segments_ne_nil (p : UnixPath) : p.segments ≠ [] := by
  simp [segments, splitAtSlashes_eq_splitOn]

/-- No segment holds a slash. -/
theorem slash_not_mem {p : UnixPath} {s : String} (member : s ∈ p.segments) : '/' ∉ s.toList := by
  obtain ⟨word, split, rfl⟩ := List.mem_map.mp member
  rw [splitAtSlashes_eq_splitOn] at split
  rw [String.toList_ofList]
  exact not_mem_of_mem_splitOn split

/-- Segments joined by slashes are found again. -/
theorem segments_intercalate {ss : List String} (some : ss ≠ []) (plain : ∀ s ∈ ss, '/' ∉ s.toList) :
    (UnixPath.mk ("/".intercalate ss)).segments = ss := by
  have split : (['/'].intercalate (ss.map String.toList)).splitOn '/' = ss.map String.toList :=
    List.splitOn_intercalate '/' (by simpa using plain) (by simpa using some)
  rw [segments, splitAtSlashes_eq_splitOn, String.toList_intercalate]
  change (([('/' : Char)].intercalate _).splitOn '/').map String.ofList = ss
  rw [split, List.map_map]
  simp

/-- What has no slash and is put behind a path lengthens its last segment. -/
theorem splitAtSlashes_append (cs : List Char) {more : List Char} (plain : '/' ∉ more) :
    ∃ before last, splitAtSlashes cs = before ++ [last] ∧
      splitAtSlashes (cs ++ more) = before ++ [last ++ more] := by
  induction cs with
  | nil =>
    refine ⟨[], [], rfl, ?_⟩
    rw [List.nil_append, splitAtSlashes_eq_splitOn, List.splitOn_eq_singleton plain]
    rfl
  | cons c cs ih =>
    obtain ⟨before, last, split, split'⟩ := ih
    by_cases slash : c = '/'
    · subst slash
      refine ⟨[] :: before, last, ?_, ?_⟩
      · rw [splitAtSlashes, split]
        rfl
      · rw [List.cons_append, splitAtSlashes, split']
        rfl
    · cases before with
      | nil =>
        refine ⟨[], c :: last, ?_, ?_⟩
        · simp [splitAtSlashes, split]
        · simp [splitAtSlashes, split']
      | cons first before =>
        refine ⟨(c :: first) :: before, last, ?_, ?_⟩
        · simp [splitAtSlashes, split]
        · simp [splitAtSlashes, split']

theorem segments_append (text : String) {more : String} (plain : '/' ∉ more.toList) :
    ∃ before last, (UnixPath.mk text).segments = before ++ [last] ∧
      (UnixPath.mk (text ++ more)).segments = before ++ [last ++ more] := by
  obtain ⟨before, last, split, split'⟩ := splitAtSlashes_append text.toList plain
  refine ⟨before.map String.ofList, String.ofList last, ?_, ?_⟩
  · simp [segments, split]
  · simp [segments, split']

theorem segments_of_plain {s : String} (plain : '/' ∉ s.toList) : (UnixPath.mk s).segments = [s] := by
  simp [segments, splitAtSlashes_eq_splitOn, List.splitOn_eq_singleton plain]

theorem slash_not_mem_fileName {p : UnixPath} {name : String} (named : p.fileName? = some name) :
    '/' ∉ name.toList := by
  obtain ⟨first, rest, split⟩ := List.exists_cons_of_ne_nil p.segments_ne_nil
  have last : p.parts.getLast? = some (.name name) := by
    unfold fileName? at named
    split at named
    · cases named
      assumption
    · cases named
  have part := List.mem_of_getLast? last
  -- A name that is a part of the path is one of its segments.
  have own : name ∈ p.segments := by
    unfold parts at part
    rw [split] at part ⊢
    split at part
    · cases part
    · cases part
    · rename_i same
      cases same
      rcases List.mem_cons.mp part with leading | later
      · unfold leadingPart at leading
        split at leading <;> cases leading
        exact List.mem_cons_self
      · obtain ⟨s, member, stands⟩ := List.mem_filterMap.mp later
        unfold laterPart? at stands
        split at stands <;> cases stands
        exact List.mem_cons_of_mem _ member
  exact slash_not_mem own

/-- A path is absolute if its first segment is empty and another one follows. -/
theorem isAbsolute_iff {p : UnixPath} :
    p.isAbsolute ↔ ∃ next rest, p.segments = "" :: next :: rest := by
  unfold isAbsolute segments
  rw [splitAtSlashes_eq_splitOn]
  cases p.text.toList with
  | nil => simp
  | cons c cs =>
    rw [List.splitOn_cons_eq_if_modifyHead]
    obtain ⟨first, rest, split⟩ := List.exists_cons_of_ne_nil (List.splitOn_ne_nil '/' cs)
    rw [split]
    by_cases slash : c = '/'
    · simp [slash]
    · simp [slash]

end Segments

variable {p q r : UnixPath}

/-- How a path above `p` is written: with nothing, as the root, or with segments that come first among
those of `p`. -/
inductive Shorter (p q : UnixPath) : Prop where
  | nothing (written : q = ⟨""⟩) : Shorter p q
  | root (written : q = ⟨"/"⟩) (absolute : p.isAbsolute) : Shorter p q
  | cut {behind : List String} (split : p.segments = q.segments ++ behind) (some : behind ≠ [])
      (same : q.isAbsolute = p.isAbsolute) : Shorter p q

namespace Shorter

theorem trans (first : Shorter p q) (second : Shorter q r) : Shorter p r := by
  cases second with
  | nothing written => exact .nothing written
  | root written absolute =>
    cases first with
    | nothing written' => cases written' ▸ absolute
    | root _ absolute' => exact .root written absolute'
    | cut _ _ same => exact .root written (same ▸ absolute)
  | @cut behind split some same =>
    cases first with
    | nothing written =>
      subst written
      -- Nothing is shorter than one segment.
      have none := List.append_eq_singleton_iff.mp split.symm
      exact absurd none (by simp [segments_ne_nil, some])
    | root written absolute =>
      subst written
      obtain ⟨next, rest, own⟩ := isAbsolute_iff.mp (same.trans rfl)
      rw [own] at split
      have none := (List.cons.inj (List.cons.inj split).2).2
      exact absurd (List.append_eq_nil_iff.mp none.symm).2 some
    | @cut further split' _ same' =>
      have whole : p.segments = r.segments ++ (behind ++ further) := by
        rw [split', split, List.append_assoc]
      exact .cut whole (List.append_ne_nil_of_left_ne_nil some further) (same.trans same')

end Shorter

theorem trimEnd_prefix (segments : List String) : trimEnd segments <+: segments := by
  rw [trimEnd, ← List.reverse_suffix, List.reverse_reverse]
  exact List.dropWhile_suffix _

/-- A path that is written with the first segments of another one. -/
theorem shorter_of_segments {first : String} {kept behind : List String}
    (path : p.segments = first :: (kept ++ behind)) (some : behind ≠ []) :
    Shorter p (if first = "" ∧ kept = [] then ⟨"/"⟩ else ⟨"/".intercalate (first :: kept)⟩) := by
  have deep : p.isAbsolute ↔ first = "" := by
    rw [isAbsolute_iff, path]
    constructor
    · rintro ⟨next, rest, split⟩
      exact (List.cons.inj split).1
    · rintro rfl
      obtain ⟨next, rest, split⟩ := List.exists_cons_of_ne_nil
        (List.append_ne_nil_of_right_ne_nil kept some)
      exact ⟨next, rest, by rw [split]⟩
  split
  · rename_i root
    exact .root rfl (deep.mpr root.1)
  · rename_i inner
    have own : (UnixPath.mk ("/".intercalate (first :: kept))).segments = first :: kept := by
      refine segments_intercalate (by simp) fun s member => slash_not_mem (p := p) ?_
      rw [path, ← List.cons_append]
      exact List.mem_append_left _ member
    refine .cut (by rw [path, own]; rfl) some (Bool.eq_iff_iff.mpr ?_)
    rw [deep, isAbsolute_iff, own]
    constructor
    · rintro ⟨next, rest, split⟩
      exact (List.cons.inj split).1
    · rintro rfl
      obtain ⟨next, rest, rfl⟩ := List.exists_cons_of_ne_nil fun none => inner ⟨rfl, none⟩
      exact ⟨next, rest, rfl⟩

theorem shorter_of_parent? (found : p.parent? = some q) : Shorter p q := by
  obtain ⟨first, rest, path⟩ := List.exists_cons_of_ne_nil p.segments_ne_nil
  unfold parent? at found
  rw [path] at found
  split at found
  · cases found
  · cases found
  · cases found
  · rename_i same _ _
    cases same
    split at found
    · cases found
      exact .nothing rfl
    · rename_i some
      obtain ⟨after, whole⟩ := trimEnd_prefix rest
      obtain ⟨between, cut⟩ := trimEnd_prefix (trimEnd rest).dropLast
      let behind := between ++ (trimEnd rest).getLast some :: after
      have path' : p.segments = first :: (trimEnd (trimEnd rest).dropLast ++ behind) := by
        rw [path, ← List.append_assoc, cut, List.append_cons, List.dropLast_concat_getLast, whole]
      have shorter := shorter_of_segments path' (by simp [behind])
      split at found
      · rename_i none
        cases found
        rw [none] at shorter
        by_cases leading : first = ""
        · simpa [leading] using shorter
        · simpa [leading] using shorter
      · rename_i some
        cases found
        rwa [if_neg fun both => some both.2] at shorter

/-- The paths that stand around `p`: its parent, the parent of that, and so on. -/
inductive Above : UnixPath → UnixPath → Prop where
  | parent {p q : UnixPath} (found : p.parent? = some q) : Above q p
  | outer {p q r : UnixPath} (found : p.parent? = some q) (above : Above r q) : Above r p

theorem above_of_parent? (found : p.parent? = some q) (around : r = q ∨ Above r q) : Above r p :=
  around.elim (fun same => same ▸ .parent found) (.outer found)

theorem Above.shorter (above : Above q p) : Shorter p q := by
  induction above with
  | parent found => exact shorter_of_parent? found
  | outer found _ ih => exact (shorter_of_parent? found).trans ih

end Roomscape.UnixPath
