import Roomscape.FileTree
import Roomscape.Proofs.PathFolders

/-! What saving a file does to a tree. Folders are only made where paths above the file's path lead,
and only where nothing was; the file is put where its own path leads; nothing else is touched. -/
namespace Roomscape.FileTree

open UnixPath (Above)

/-- A segment that stays where it is. -/
def isIdle (s : String) : Bool := s == "" || s == "."

/-- A name that a folder can hold. -/
structure Ordinary (name : String) : Prop where
  moves : isIdle name = false
  down : name ≠ ".."
  short : name.utf8ByteSize ≤ longestName

instance : DecidablePred Ordinary := fun name =>
  decidable_of_iff (isIdle name = false ∧ name ≠ ".." ∧ name.utf8ByteSize ≤ longestName)
    ⟨fun ⟨moves, down, short⟩ => ⟨moves, down, short⟩,
      fun ⟨moves, down, short⟩ => ⟨moves, down, short⟩⟩

/-- From one location the segments lead to another one, and what stands there. -/
inductive Leads (t : FileTree) : Location → List String → Location → Item → Prop where
  | here {l : Location} {item : Item} (stands : t.item? l = some item) : Leads t l [] l item
  | idle {l loc : Location} {s : String} {rest : List String} {item : Item}
      (folder : t.item? l = some .folder) (idle : isIdle s) (next : Leads t l rest loc item) :
      Leads t l (s :: rest) loc item
  | up {l loc : Location} {rest : List String} {item : Item}
      (folder : t.item? l = some .folder) (next : Leads t l.dropLast rest loc item) :
      Leads t l (".." :: rest) loc item
  | down {l loc : Location} {name : String} {rest : List String} {item : Item}
      (folder : t.item? l = some .folder) (ordinary : Ordinary name)
      (next : Leads t (l ++ [name]) rest loc item) : Leads t l (name :: rest) loc item

variable {t t' : FileTree} {here l loc dir : Location} {segments a b : List String}
  {s name : String} {item found : Item} {path : UnixPath}

section Steps

theorem follow_idle (folder : t.item? l = some .folder) (idle : isIdle s) :
    t.follow l (s :: segments) = t.follow l segments := by
  rw [isIdle] at idle
  simp [follow, folder, idle]

theorem follow_up (folder : t.item? l = some .folder) :
    t.follow l (".." :: segments) = t.follow l.dropLast segments := by
  simp [follow, folder]

theorem follow_down (folder : t.item? l = some .folder) (ordinary : Ordinary name) :
    t.follow l (name :: segments) = t.follow (l ++ [name]) segments := by
  have moves := ordinary.moves
  rw [isIdle] at moves
  simp [follow, folder, moves, ordinary.down, Nat.not_lt.mpr ordinary.short]

theorem follow_eq_found_iff : t.follow l segments = .found loc item ↔ Leads t l segments loc item := by
  constructor
  · intro found
    induction segments generalizing l with
    | nil =>
      rw [follow] at found
      split at found
      · rename_i stands
        cases found
        exact .here stands
      · cases found
    | cons s rest ih =>
      unfold follow at found
      split at found
      · cases found
      · rename_i folder
        split at found
        · rename_i idle
          exact .idle folder idle (ih found)
        · rename_i moves
          split at found
          · rename_i up
            rw [beq_iff_eq] at up
            exact up ▸ .up folder (ih found)
          · rename_i down
            split at found
            · cases found
            · rename_i short
              refine .down folder ⟨?_, by simpa using down, Nat.le_of_not_lt short⟩ (ih found)
              simpa [isIdle] using moves
      · cases found
  · intro leads
    induction leads with
    | here stands => simp [follow, stands]
    | idle folder idle _ ih => exact (follow_idle folder idle).trans ih
    | up folder _ ih => exact (follow_up folder).trans ih
    | down folder ordinary _ ih => exact (follow_down folder ordinary).trans ih

end Steps

namespace Leads

theorem item? (leads : t.Leads l segments loc item) : t.item? loc = some item := by
  induction leads with
  | here stands => exact stands
  | idle _ _ _ ih => exact ih
  | up _ _ ih => exact ih
  | down _ _ _ ih => exact ih

theorem start (leads : t.Leads l segments loc item) : ∃ item, t.item? l = some item := by
  cases leads with
  | here stands => exact ⟨item, stands⟩
  | idle folder => exact ⟨.folder, folder⟩
  | up folder => exact ⟨.folder, folder⟩
  | down folder => exact ⟨.folder, folder⟩

theorem unique {other : Location} (leads : t.Leads l segments loc item)
    (leads' : t.Leads l segments other found) : loc = other ∧ item = found := by
  have same := (follow_eq_found_iff.mpr leads).symm.trans (follow_eq_found_iff.mpr leads')
  cases same
  exact ⟨rfl, rfl⟩

theorem append (first : t.Leads l a dir .folder) (second : t.Leads dir b loc item) :
    t.Leads l (a ++ b) loc item := by
  generalize standing : Item.folder = middle at first
  induction first with
  | here => exact second
  | idle folder idle _ ih => exact .idle folder idle (ih second standing)
  | up folder _ ih => exact .up folder (ih second standing)
  | down folder ordinary _ ih => exact .down folder ordinary (ih second standing)

/-- On the way to what stands behind it a path comes by a folder. -/
theorem split (leads : t.Leads l (a ++ b) loc item) (more : b ≠ []) :
    ∃ dir, t.Leads l a dir .folder ∧ t.Leads dir b loc item := by
  induction a generalizing l with
  | nil =>
    refine ⟨l, .here ?_, leads⟩
    cases leads with
    | here => exact absurd rfl more
    | idle folder => exact folder
    | up folder => exact folder
    | down folder => exact folder
  | cons s rest ih =>
    cases leads with
    | idle folder idle next =>
      obtain ⟨dir, first, second⟩ := ih next
      exact ⟨dir, .idle folder idle first, second⟩
    | up folder next =>
      obtain ⟨dir, first, second⟩ := ih next
      exact ⟨dir, .up folder first, second⟩
    | down folder ordinary next =>
      obtain ⟨dir, first, second⟩ := ih next
      exact ⟨dir, .down folder ordinary first, second⟩

/-- Before its end a path to a folder leads to folders. -/
theorem folder_of_append (leads : t.Leads l (a ++ b) loc .folder) :
    ∃ dir, t.Leads l a dir .folder := by
  cases b with
  | nil => exact ⟨loc, List.append_nil a ▸ leads⟩
  | cons => exact (leads.split (by simp)).imp fun _ => And.left

theorem eq_of_idle (leads : t.Leads l segments loc item) (idle : ∀ s ∈ segments, isIdle s) :
    loc = l := by
  induction leads with
  | here => rfl
  | idle _ _ _ ih => exact ih fun s later => idle s (List.mem_cons_of_mem _ later)
  | up => cases idle ".." List.mem_cons_self
  | down _ ordinary =>
    have still := idle _ List.mem_cons_self
    rw [ordinary.moves] at still
    cases still

theorem eq_append_name (leads : t.Leads l [name] loc item) (moves : isIdle name = false)
    (down : name ≠ "..") : loc = l ++ [name] := by
  cases leads with
  | idle _ idle =>
    rw [moves] at idle
    cases idle
  | up => exact absurd rfl down
  | down _ _ next =>
    cases next
    rfl

/-- A path that never goes up leads where its steps do. -/
theorem eq_append_steps (leads : t.Leads l segments loc item) (down : ".." ∉ segments) :
    loc = l ++ segments.filter (!isIdle ·) := by
  induction leads with
  | here => simp
  | idle _ idle _ ih =>
    rw [List.filter_cons_of_neg (by simp [idle])]
    exact ih fun later => down (List.mem_cons_of_mem _ later)
  | up => exact absurd List.mem_cons_self down
  | down _ ordinary _ ih =>
    rw [List.filter_cons_of_pos (by simp [ordinary.moves]), List.append_cons]
    exact ih fun later => down (List.mem_cons_of_mem _ later)

end Leads

section Folders

/-- Every folder of the one tree is a folder of the other. -/
def KeepsFolders (t t' : FileTree) : Prop := ∀ l, t.item? l = some .folder → t'.item? l = some .folder

/-- Where folders are kept paths lead where they led. -/
theorem Leads.keep (leads : t.Leads l segments loc item) (kept : t.KeepsFolders t')
    (now : t'.item? loc = some found) : t'.Leads l segments loc found := by
  induction leads with
  | here => exact .here now
  | idle folder idle _ ih => exact .idle (kept _ folder) idle (ih now)
  | up folder _ ih => exact .up (kept _ folder) (ih now)
  | down folder ordinary _ ih => exact .down (kept _ folder) ordinary (ih now)

theorem item?_put : (t.put l item).item? l = some item := by simp [put]

theorem item?_put_ne {other : Location} (apart : other ≠ l) :
    (t.put l item).item? other = t.item? other := by
  simp [put, apart]

theorem keepsFolders_put (file : t.item? l ≠ some .folder) : t.KeepsFolders (t.put l item) := by
  intro other folder
  rw [item?_put_ne (by rintro rfl; exact file folder)]
  exact folder

end Folders

section Paths

/-- A path that system calls accept. -/
def Usable (path : UnixPath) : Prop := path.text.isEmpty = false ∧ isUnusable path = false

theorem usable_iff :
    Usable path ↔ path.text.isEmpty = false ∧ path.text.utf8ByteSize ≤ longestPath ∧
      Char.ofNat 0 ∉ path.text.toList := by
  rw [Usable, isUnusable, String.contains_char_eq]
  simp

instance : DecidablePred Usable := fun _ => decidable_of_iff _ usable_iff.symm

theorem lookup_eq_follow (usable : Usable path) :
    t.lookup here path = t.follow (origin here path) path.segments := by
  rw [lookup, usable.1, usable.2]
  rfl

theorem lookup_eq_found_iff :
    t.lookup here path = .found loc item ↔
      Usable path ∧ t.Leads (origin here path) path.segments loc item := by
  rw [← follow_eq_found_iff, lookup, Usable]
  cases path.text.isEmpty with
  | true => simp
  | false => cases isUnusable path <;> simp

theorem lookup_keep (led : t.lookup here path = .found loc item) (kept : t.KeepsFolders t')
    (now : t'.item? loc = some found) : t'.lookup here path = .found loc found := by
  obtain ⟨usable, leads⟩ := lookup_eq_found_iff.mp led
  exact lookup_eq_found_iff.mpr ⟨usable, leads.keep kept now⟩

theorem create_made (made : t.create l a name item = .made t') :
    ∃ dir, t.Leads l a dir .folder ∧ Ordinary name ∧ t.item? (dir ++ [name]) = none ∧
      t' = t.put (dir ++ [name]) item := by
  unfold create at made
  split at made
  · cases made
  · cases made
  · rename_i dir led
    split at made
    · cases made
    · rename_i moves
      split at made
      · cases made
      · rename_i short
        split at made
        · cases made
        · rename_i free
          cases made
          simp only [Bool.or_eq_true, beq_iff_eq, not_or] at moves
          refine ⟨dir, follow_eq_found_iff.mp led, ⟨?_, moves.2, Nat.le_of_not_lt short⟩, ?_, rfl⟩
          · simpa [isIdle] using moves.1
          · simpa using free
  · cases made

/-- Through a folder one comes to what was put there under a name. -/
theorem leads_put (leads : t.Leads l a dir .folder) (ordinary : Ordinary name)
    (free : t.item? (dir ++ [name]) = none) :
    (t.put (dir ++ [name]) item).Leads l (a ++ [name]) (dir ++ [name]) item := by
  have kept : t.KeepsFolders (t.put (dir ++ [name]) item) := keepsFolders_put (by simp [free])
  have folder := kept dir leads.item?
  exact (leads.keep kept folder).append (.down folder ordinary (.here item?_put))

theorem leads_idle (folder : t.item? l = some .folder) (idle : ∀ s ∈ segments, isIdle s) :
    t.Leads l segments l .folder := by
  induction segments with
  | nil => exact .here folder
  | cons s rest ih =>
    exact .idle folder (idle s List.mem_cons_self)
      (ih fun s later => idle s (List.mem_cons_of_mem _ later))

/-- Behind the name of a folder that is to be made there are only slashes. -/
theorem segments_of_cut {before : List String}
    (cut : path.segments.reverse.dropWhile (· == "") = name :: before) :
    ∃ slashes, path.segments = before.reverse ++ name :: slashes ∧ ∀ s ∈ slashes, isIdle s := by
  refine ⟨(path.segments.reverse.takeWhile (· == "")).reverse, ?_, ?_⟩
  · have whole := congrArg List.reverse
      (List.takeWhile_append_dropWhile (p := (· == "")) (l := path.segments.reverse))
    rw [List.reverse_append, List.reverse_reverse, cut] at whole
    simpa using whole.symm
  · intro s member
    have empty := List.all_eq_true.mp List.all_takeWhile s (List.mem_reverse.mp member)
    rw [isIdle, empty]
    rfl

end Paths

section Making

theorem makeFolder_made (made : t.makeFolder here path = .made t') :
    ∃ loc, t.item? loc = none ∧ t' = t.put loc .folder ∧ t'.lookup here path = .found loc .folder := by
  unfold makeFolder at made
  split at made
  · cases made
  · rename_i text
    split at made
    · cases made
    · rename_i usable
      split at made
      · cases made
      · rename_i name before cut
        obtain ⟨slashes, split, idle⟩ := segments_of_cut cut
        obtain ⟨dir, leads, ordinary, free, rfl⟩ := create_made made
        refine ⟨dir ++ [name], free, rfl, lookup_eq_found_iff.mpr ⟨⟨?_, ?_⟩, ?_⟩⟩
        · simpa using text
        · simpa using usable
        · rw [split, List.append_cons before.reverse]
          exact (leads_put leads ordinary free).append (leads_idle item?_put idle)

/-- Folders were made where paths of one kind lead, and only where nothing was. -/
def Grown (here : Location) (kind : UnixPath → Prop) (t t' : FileTree) : Prop :=
  ∀ l, t'.item? l = t.item? l ∨ t.item? l = none ∧ t'.item? l = some .folder ∧
    ∃ q, kind q ∧ t'.lookup here q = .found l .folder

namespace Grown

variable {kind kind' : UnixPath → Prop} {u : FileTree}

theorem refl : t.Grown here kind t := fun _ => .inl rfl

theorem keepsFolders (grown : t.Grown here kind t') : t.KeepsFolders t' := by
  intro l folder
  rcases grown l with same | ⟨_, made, _⟩
  · exact same.trans folder
  · exact made

theorem trans (first : t.Grown here kind t') (second : t'.Grown here kind u) :
    t.Grown here kind u := by
  intro l
  rcases second l with same | ⟨free, made, q, own, led⟩
  · rcases first l with same' | ⟨free, made, q, own, led⟩
    · exact .inl (same.trans same')
    · have kept := second.keepsFolders
      exact .inr ⟨free, kept l made, q, own, lookup_keep led kept (kept l made)⟩
  · rcases first l with same' | ⟨_, made', _⟩
    · exact .inr ⟨same'.symm.trans free, made, q, own, led⟩
    · rw [made'] at free
      cases free

theorem imp (grown : t.Grown here kind t') (weaker : ∀ q, kind q → kind' q) :
    t.Grown here kind' t' := by
  intro l
  rcases grown l with same | ⟨free, made, q, own, led⟩
  · exact .inl same
  · exact .inr ⟨free, made, q, weaker q own, led⟩

end Grown

theorem makeFolder_grown (made : t.makeFolder here path = .made t') :
    t.Grown here (· = path) t' := by
  obtain ⟨loc, free, rfl, led⟩ := makeFolder_made made
  intro l
  by_cases own : l = loc
  · subst own
    exact .inr ⟨free, item?_put, path, rfl, led⟩
  · exact .inl (item?_put_ne own)

/-- Whether or not it comes to the end, making a folder makes nothing but it and folders above it. -/
theorem makeFolders_grown (here : Location) (depth : Nat) (path : UnixPath) (t : FileTree) :
    t.Grown here (fun q => q = path ∨ Above q path) (makeFolders here depth path t).2 := by
  induction depth generalizing path t with
  | zero =>
    unfold makeFolders
    split
    · exact .refl
    · split
      · rename_i made
        exact (makeFolder_grown made).imp fun _ => .inl
      · rename_i impossible _
        cases impossible
      · exact .refl
      · exact .refl
  | succ depth ih =>
    unfold makeFolders
    split
    · exact .refl
    · split
      · rename_i made
        exact (makeFolder_grown made).imp fun _ => .inl
      · rename_i outer absent same found
        cases same
        have around := (ih outer t).imp fun q own =>
          (.inr (UnixPath.above_of_parent? found own) : q = path ∨ Above q path)
        split
        · rename_i u done
          rw [done] at around
          split
          · rename_i made
            exact around.trans ((makeFolder_grown made).imp fun _ => .inl)
          · exact around
        · exact around
      · exact .refl
      · exact .refl

theorem makeFolders_of_made {depth : Nat} (made : t.makeFolder here path = .made t') :
    makeFolders here depth path t = (true, t') := by
  unfold makeFolders
  split
  · rename_i empty
    rw [makeFolder, if_pos empty] at made
    cases made
  · rw [made]

theorem makeFolders_of_empty (empty : path.text.isEmpty) (depth : Nat) :
    makeFolders here depth path t = (true, t) := by
  unfold makeFolders
  rw [if_pos empty]

end Making

section Saving

theorem write_some (written : t.write here path item = some t') :
    ∃ loc, t' = t.put loc item ∧ t.item? loc ≠ some .folder ∧
      t'.lookup here path = .found loc item := by
  unfold write at written
  split at written
  · cases written
  · rename_i usable
    have usable : Usable path := by simpa [Usable] using usable
    split at written
    · cases written
    · rename_i name before reversed
      have split : path.segments = before.reverse ++ [name] := by
        simpa using congrArg List.reverse reversed
      split at written
      · rename_i made
        cases written
        obtain ⟨dir, leads, ordinary, free, rfl⟩ := create_made made
        refine ⟨dir ++ [name], rfl, by simp [free], lookup_eq_found_iff.mpr ⟨usable, ?_⟩⟩
        exact split ▸ leads_put leads ordinary free
      · split at written
        · rename_i loc old led
          split at written
          · cases written
          · rename_i file
            cases written
            have stands := (lookup_eq_found_iff.mp led).2.item?
            have file : t.item? loc ≠ some .folder := by
              rw [stands]
              rintro folder
              cases folder
              exact file rfl
            exact ⟨loc, rfl, file, lookup_keep led (keepsFolders_put file) item?_put⟩
        · cases written
      · cases written

/-- Under a name that stands for nothing yet a file can be put. -/
theorem write_of_leads (item : Item) (usable : Usable path) (split : path.segments = a ++ [name])
    (leads : t.Leads (origin here path) a dir .folder) (ordinary : Ordinary name)
    (free : t.item? (dir ++ [name]) = none) :
    t.write here path item = some (t.put (dir ++ [name]) item) ∧
      (t.put (dir ++ [name]) item).lookup here path = .found (dir ++ [name]) item := by
  have moves := ordinary.moves
  rw [isIdle] at moves
  have created : t.create (origin here path) a name item = .made (t.put (dir ++ [name]) item) := by
    rw [create, follow_eq_found_iff.mpr leads]
    simp [moves, ordinary.down, Nat.not_lt.mpr ordinary.short, free]
  refine ⟨by simp [write, usable.1, usable.2, split, created], lookup_eq_found_iff.mpr ⟨usable, ?_⟩⟩
  exact split ▸ leads_put leads ordinary free

/-- A file was saved: it stands where its path leads. Folders above it may have been made where there
were none, and nothing else is different. -/
structure Saved (here : Location) (path : UnixPath) (loc : Location) (item : Item)
    (t t' : FileTree) : Prop where
  led : t'.lookup here path = .found loc item
  file : t.item? loc ≠ some .folder
  others : ∀ l, l ≠ loc → t'.item? l = t.item? l ∨ t.item? l = none ∧ t'.item? l = some .folder ∧
    ∃ q, Above q path ∧ t'.lookup here q = .found l .folder

/-- Nothing but one location is different, and it lies in the folder `dir` itself. -/
def ChangesIn (t : FileTree) (dir loc : Location) (t' : FileTree) : Prop :=
  (∃ name, loc = dir ++ [name]) ∧ ∀ l, l ≠ loc → t'.item? l = t.item? l

theorem saved_of_write {u : FileTree} (grown : t.Grown here (Above · path) u)
    (written : u.write here path item = some t') : ∃ loc, Saved here path loc item t t' := by
  obtain ⟨loc, rfl, file, led⟩ := write_some written
  refine ⟨loc, led, mt (grown.keepsFolders loc) file, fun l apart => ?_⟩
  rw [item?_put_ne apart]
  rcases grown l with same | ⟨free, made, q, above, led'⟩
  · exact .inl same
  · refine .inr ⟨free, made, q, above, lookup_keep led' (keepsFolders_put file) ?_⟩
    exact (item?_put_ne apart).trans made

/-- A path above another one leads along the way of that one. -/
theorem leads_of_above {q : UnixPath} (above : Above q path)
    (led : t.lookup here q = .found l .folder) :
    ∃ a b, path.segments = a ++ b ∧ a ≠ [] ∧ b ≠ [] ∧ t.Leads (origin here path) a l .folder := by
  obtain ⟨⟨text, _⟩, leads⟩ := lookup_eq_found_iff.mp led
  cases above.shorter with
  | nothing written =>
    rw [written] at text
    cases text
  | root written absolute =>
    obtain ⟨next, rest, split⟩ := UnixPath.isAbsolute_iff.mp absolute
    refine ⟨[""], next :: rest, split, by simp, by simp, ?_⟩
    rw [written] at leads
    rw [origin, if_pos absolute]
    obtain ⟨dir, first, last⟩ := leads.split (a := [""]) (b := [""]) (by simp)
    exact (last.eq_of_idle (by simp [isIdle])) ▸ first
  | cut split some same =>
    refine ⟨q.segments, _, split, q.segments_ne_nil, some, ?_⟩
    rwa [origin, same] at leads

namespace Saved

variable (saved : Saved here path loc item t t')

include saved

theorem keepsFolders : t.KeepsFolders t' := by
  intro l folder
  rcases saved.others l (by rintro rfl; exact saved.file folder) with same | ⟨free, _⟩
  · exact same.trans folder
  · rw [folder] at free
    cases free

/-- If the path never goes up, the folders that were made are those that the file stands in. -/
theorem inside (down : ".." ∉ path.segments) (apart : l ≠ loc)
    (changed : t'.item? l ≠ t.item? l) : l <+: loc := by
  rcases saved.others l apart with same | ⟨_, _, q, above, led⟩
  · exact absurd same changed
  · obtain ⟨a, b, split, _, _, leads⟩ := leads_of_above above led
    have own := (lookup_eq_found_iff.mp saved.led).2.eq_append_steps down
    have around := leads.eq_append_steps fun up => down (split ▸ List.mem_append_left b up)
    rw [own, around, split, List.filter_append, ← List.append_assoc]
    exact List.prefix_append ..

/-- The file stands under the last name of its path, in the folder where the rest of it leads. -/
theorem eq_append_name (split : path.segments = a ++ [name]) (moves : isIdle name = false)
    (down : name ≠ "..") : ∃ dir, t'.Leads (origin here path) a dir .folder ∧ loc = dir ++ [name] := by
  have leads := (lookup_eq_found_iff.mp saved.led).2
  rw [split] at leads
  obtain ⟨dir, first, last⟩ := leads.split (by simp)
  exact ⟨dir, first, last.eq_append_name moves down⟩

/-- No folder is made if the path led to one before, up to its last name. -/
theorem others_same (split : path.segments = a ++ [name])
    (leads : t.Leads (origin here path) a dir .folder) (apart : l ≠ loc) :
    t'.item? l = t.item? l := by
  rcases saved.others l apart with same | ⟨free, _, q, above, led⟩
  · exact same
  · obtain ⟨a', b, split', _, some, leads'⟩ := leads_of_above above led
    -- What leads to the folder that was made stands before the last name.
    have whole : a' ++ b = a ++ [name] := split'.symm.trans split
    rw [← List.dropLast_concat_getLast some, ← List.append_assoc] at whole
    have before := (List.append_inj' whole rfl).1
    obtain ⟨own, first⟩ := (before ▸ leads).folder_of_append
    have kept := saved.keepsFolders
    have same := ((first.keep kept (kept own first.item?)).unique leads').1
    rw [← same, first.item?] at free
    cases free

/-- The file is all that is different, and stands in the folder itself, exactly if up to its last name
the path led to that folder before. -/
theorem changesIn_iff (file : item ≠ .folder) (split : path.segments = a ++ [name])
    (moves : isIdle name = false) (down : name ≠ "..") :
    t.ChangesIn dir loc t' ↔ t.Leads (origin here path) a dir .folder := by
  obtain ⟨dir', first, own⟩ := saved.eq_append_name split moves down
  constructor
  · rintro ⟨⟨other, stands⟩, same⟩
    have back : t'.KeepsFolders t := by
      intro l folder
      have apart : l ≠ loc := by
        rintro rfl
        rw [(lookup_eq_found_iff.mp saved.led).2.item?] at folder
        exact file (Option.some.inj folder)
      exact (same l apart).symm.trans folder
    obtain rfl := (List.append_inj' (own.symm.trans stands) rfl).1
    exact first.keep back (back _ first.item?)
  · intro leads
    have kept := saved.keepsFolders
    obtain rfl := (first.unique (leads.keep kept (kept dir leads.item?))).1
    exact ⟨⟨name, own⟩, fun l apart => saved.others_same split leads apart⟩

/-- A file that is saved under a name alone is all that is different. -/
theorem changesIn_of_name (single : path.segments = [name]) (moves : isIdle name = false)
    (down : name ≠ "..") : t.ChangesIn here loc t' := by
  have relative : ¬path.isAbsolute := by
    rw [UnixPath.isAbsolute_iff, single]
    simp
  obtain ⟨dir, first, own⟩ := saved.eq_append_name (a := []) single moves down
  rw [origin, if_neg relative] at first
  cases first
  refine ⟨⟨name, own⟩, fun l apart => ?_⟩
  rcases saved.others l apart with same | ⟨_, _, q, above, led⟩
  · exact same
  · obtain ⟨a, b, split, some, some', _⟩ := leads_of_above above led
    have none := List.append_eq_singleton_iff.mp (split.symm.trans single)
    exact absurd none (by simp [some, some'])

end Saved
end Saving
end Roomscape.FileTree
