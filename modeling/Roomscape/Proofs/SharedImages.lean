import Roomscape.Host.Rooms
import Roomscape.Proofs.PhotoReading
import Roomscape.Proofs.StillFiles

/-! Rooms whose sprites share images. An image is loaded under the first spelling of its path that the
manifest has, and every other spelling takes it from the shelf; so a room is built as if each sprite
were loaded by itself from the first spelling. -/
namespace Roomscape

namespace UnixPath

theorem same_iff {p q : UnixPath} : p.same q ↔ p.parts = q.parts := beq_iff_eq

theorem same_refl (p : UnixPath) : p.same p := same_iff.mpr rfl

/-- The first of the known paths that is the same path, or the path itself if none is. -/
def firstSpelling (known : List UnixPath) (path : UnixPath) : UnixPath :=
  (known.find? (·.same path)).getD path

variable {known : List UnixPath} {path first : UnixPath}

theorem firstSpelling_of_known (found : known.find? (·.same path) = some first) :
    firstSpelling known path = first := by
  rw [firstSpelling, found, Option.getD_some]

theorem firstSpelling_of_unknown (missing : known.find? (·.same path) = none) :
    firstSpelling known path = path := by
  rw [firstSpelling, missing, Option.getD_none]

/-- A path that stands among the known ones is spelled as one that stands no later. -/
theorem firstSpelling_append (before after : List UnixPath) (path : UnixPath) :
    firstSpelling (before ++ path :: after) path = firstSpelling before path := by
  have own : (path :: after).find? (·.same path) = some path :=
    List.find?_cons_of_pos path.same_refl
  rw [firstSpelling, firstSpelling, List.find?_append, own]
  cases before.find? (·.same path) <;> rfl

end UnixPath

open UnixPath (firstSpelling)

namespace Manifest

def imagePaths (m : Manifest) : List UnixPath := m.sprites.map SpriteEntry.image

/-- The manifest with one spelling for each path, the first. -/
def oneSpelling (m : Manifest) : Manifest :=
  { m with sprites := m.sprites.map fun s => { s with image := firstSpelling m.imagePaths s.image } }

/-- Where one spelling of a path loads, the others load to the same image. -/
def Agrees (m : Manifest) (image : UnixPath → Except Fault Sprite) : Prop :=
  ∀ p ∈ m.imagePaths, ∀ q ∈ m.imagePaths, p.same q → ∀ i, image p = .ok i → image q = .ok i

/-- One placement for every entry, in order: at the entry's position, with the image it loads to. -/
inductive PlacedAs (image : UnixPath → Except Fault Sprite) :
    List SpriteEntry → List Placement → Prop where
  | nil : PlacedAs image [] []
  | cons {e : SpriteEntry} {p : Placement} {entries : List SpriteEntry} {placements : List Placement}
      (x : p.x = e.x) (y : p.y = e.y) (loaded : image e.image = .ok p.image)
      (rest : PlacedAs image entries placements) :
      PlacedAs image (e :: entries) (p :: placements)

/-- The fault of the first entry that does not load. -/
inductive FirstFault (image : UnixPath → Except Fault Sprite) :
    List SpriteEntry → Fault → Prop where
  | here {e : SpriteEntry} {entries : List SpriteEntry} {fault : Fault}
      (failed : image e.image = .error fault) : FirstFault image (e :: entries) fault
  | later {e : SpriteEntry} {entries : List SpriteEntry} {fault : Fault} {sprite : Sprite}
      (loaded : image e.image = .ok sprite) (rest : FirstFault image entries fault) :
      FirstFault image (e :: entries) fault

/-- What a room is that was built from a photo and images loaded one by one: it has the manifest's name,
the photo and the sprites of the entries. If there is none, the fault is the photo's, or that of the
first image that does not load. -/
structure BuiltAs (m : Manifest) (photo : Except Fault Photo)
    (image : UnixPath → Except Fault Sprite) (result : Except Fault Room) : Prop where
  ok : ∀ room, result = .ok room →
    room.name = m.name ∧ photo = .ok room.photo ∧ PlacedAs image m.sprites room.placements
  error : ∀ fault, result = .error fault →
    photo = .error fault ∨ (∃ shown, photo = .ok shown) ∧ FirstFault image m.sprites fault

end Manifest

namespace Host

section Separately

variable {m : Type → Type} [Monad m] (host : Host m)

/-- A sprite with an image that was loaded for it alone. -/
def placeAlone (options : LoadOptions) (s : SpriteEntry) : Task m Placement := do
  return ⟨s.x, s.y, ← host.loadImage s.image options⟩

/-- A room for which every image is loaded as often as it is named. -/
def buildSeparately (manifest : Manifest) (options : LoadOptions) : Task m Room := do
  let photo ← host.loadPhoto manifest.photo options
  let placements ← manifest.sprites.mapM (host.placeAlone options)
  return ⟨manifest.name, photo, placements⟩

end Separately

section Stateless

variable (host : Host Id) (options : LoadOptions)

/-- The shelf holds, each as it loads, the images of the paths so far under their first spellings. -/
structure Stocked (before : List UnixPath) (shelf : Shelf) : Prop where
  spelled : ∀ path : UnixPath,
    before.find? (·.same path) = (shelf.map Prod.fst).find? (·.same path)
  loaded : ∀ stored ∈ shelf, host.loadImage stored.1 options = pure stored.2

theorem stocked_nil : host.Stocked options [] [] := ⟨fun _ => rfl, by simp⟩

variable {host options} {before : List UnixPath} {shelf : Shelf}

theorem find?_shelf (shelf : Shelf) (path : UnixPath) :
    (shelf.map Prod.fst).find? (·.same path) =
      (List.find? (fun (known, _) => known.same path) shelf).map Prod.fst :=
  List.find?_map ..

theorem Stocked.known (stocked : host.Stocked options before shelf) {path first : UnixPath}
    (found : before.find? (·.same path) = some first) :
    ∃ image, shelf.find? path = some image ∧ host.loadImage first options = pure image := by
  rw [stocked.spelled, find?_shelf] at found
  obtain ⟨stored, there, rfl⟩ := Option.map_eq_some_iff.mp found
  exact ⟨stored.2, by rw [Shelf.find?, there]; rfl,
    stocked.loaded stored (List.mem_of_find?_eq_some there)⟩

theorem Stocked.unknown (stocked : host.Stocked options before shelf) {path : UnixPath}
    (missing : before.find? (·.same path) = none) : shelf.find? path = none := by
  rw [stocked.spelled, find?_shelf, Option.map_eq_none_iff] at missing
  rw [Shelf.find?, missing]
  rfl

/-- One more spelling of a known path changes no first spelling. -/
theorem Stocked.again (stocked : host.Stocked options before shelf) {path first : UnixPath}
    (found : before.find? (·.same path) = some first) :
    host.Stocked options (before ++ [path]) shelf where
  spelled := by
    intro other
    rw [List.find?_append, ← stocked.spelled]
    cases missing : before.find? (·.same other) with
    | some _ => rfl
    | none =>
      have apart : ¬ path.same other := by
        intro same
        have own := List.find?_some found
        refine List.find?_eq_none.mp missing first (List.mem_of_find?_eq_some found) ?_
        rw [UnixPath.same_iff] at own same ⊢
        exact own.trans same
      rw [Option.none_or, List.find?_singleton, if_neg apart]
  loaded := stocked.loaded

theorem Stocked.store (stocked : host.Stocked options before shelf) {path : UnixPath}
    {image : Sprite} (loaded : host.loadImage path options = pure image) :
    host.Stocked options (before ++ [path]) (shelf ++ [(path, image)]) where
  spelled := by
    intro other
    rw [List.map_append, List.find?_append, List.find?_append, stocked.spelled]
    rfl
  loaded := by
    intro stored member
    rcases List.mem_append.mp member with earlier | last
    · exact stocked.loaded stored earlier
    · exact List.mem_singleton.mp last ▸ loaded

/-- A path that is taken from the shelf, or loaded and put there, gives the image of its first
spelling. -/
theorem Stocked.take (stocked : host.Stocked options before shelf) (path : UnixPath) :
    (∃ image shelf', host.takeImage options shelf path = pure (image, shelf') ∧
      host.loadImage (firstSpelling before path) options = pure image ∧
      host.Stocked options (before ++ [path]) shelf') ∨
    ∃ fault, host.takeImage options shelf path = throw fault ∧
      host.loadImage (firstSpelling before path) options = throw fault := by
  cases found : before.find? (·.same path) with
  | some first =>
    obtain ⟨image, held, loaded⟩ := stocked.known found
    rw [UnixPath.firstSpelling_of_known found]
    exact .inl ⟨image, shelf, by rw [takeImage, held], loaded, stocked.again found⟩
  | none =>
    have missing := stocked.unknown found
    rw [UnixPath.firstSpelling_of_unknown found]
    rcases Task.ends (host.loadImage path options) with ⟨image, loaded⟩ | ⟨fault, failed⟩
    · refine .inl ⟨image, shelf ++ [(path, image)], ?_, loaded, stocked.store loaded⟩
      rw [takeImage, missing, loaded, pure_bind]
    · refine .inr ⟨fault, ?_, failed⟩
      rw [takeImage, missing, failed]
      rfl

/-- Sprites placed with a shelf are placed as if each were loaded alone under its first spelling. -/
theorem placeSprites_eq {all : List UnixPath} {entries : List SpriteEntry}
    (split : all = before ++ entries.map SpriteEntry.image)
    (stocked : host.Stocked options before shelf) (room : Room) :
    Prod.fst <$> host.placeSprites options entries shelf room =
      (fun placements => { room with placements := room.placements ++ placements }) <$>
        entries.mapM fun s =>
          host.placeAlone options { s with image := firstSpelling all s.image } := by
  -- The paths so far have stocked the shelf; the next is a spelling of one of them, or new.
  induction entries generalizing before shelf room with
  | nil => simp [placeSprites]
  | cons s rest ih =>
    have first : firstSpelling all s.image = firstSpelling before s.image := by
      rw [split, List.map_cons, UnixPath.firstSpelling_append]
    rw [List.mapM_cons, placeSprites, placeAlone, first]
    rcases stocked.take s.image with
      ⟨image, shelf', taken, loaded, stocked'⟩ | ⟨fault, taken, failed⟩
    · have further : all = (before ++ [s.image]) ++ rest.map SpriteEntry.image := by
        rw [split, List.map_cons, List.append_cons]
      have placed := ih further stocked' (room.place ⟨s.x, s.y, image⟩)
      simp only [taken, loaded, pure_bind, placed]
      simp [Room.place]
    · rw [taken, failed]
      rfl

variable (host options)

/-- On a system that cannot change, a room with shared images is the one that is built from the first
spellings without sharing. -/
theorem buildRoom_eq (m : Manifest) :
    host.buildRoom m options = host.buildSeparately m.oneSpelling options := by
  rw [buildRoom, buildSeparately]
  refine bind_congr fun photo => ?_
  have split : m.imagePaths = [] ++ m.sprites.map SpriteEntry.image := rfl
  calc
    _ = Prod.fst <$> host.placeSprites options m.sprites [] ⟨m.name, photo, []⟩ :=
      (map_eq_pure_bind ..).symm
    _ = _ := placeSprites_eq split (stocked_nil host options) _
    _ = _ := by
      rw [Manifest.oneSpelling, List.mapM_map]
      simp only [List.nil_append, map_eq_pure_bind]
      rfl

/-- Sprites placed one by one are those of the entries, or there is a first that does not load. -/
theorem mapM_placeAlone (entries : List SpriteEntry) :
    let image := fun path => (host.loadImage path options).run
    (∃ placements, entries.mapM (host.placeAlone options) = pure placements ∧
      Manifest.PlacedAs image entries placements) ∨
    ∃ fault, entries.mapM (host.placeAlone options) = throw fault ∧
      Manifest.FirstFault image entries fault := by
  induction entries with
  | nil => exact .inl ⟨[], rfl, .nil⟩
  | cons s rest ih =>
    rw [List.mapM_cons, placeAlone]
    rcases Task.ends (host.loadImage s.image options) with ⟨sprite, loaded⟩ | ⟨fault, failed⟩
    · rw [loaded]
      rcases ih with ⟨placements, run, placed⟩ | ⟨fault, run, first⟩
      · rw [run]
        exact .inl ⟨⟨s.x, s.y, sprite⟩ :: placements, rfl, .cons rfl rfl loaded placed⟩
      · rw [run]
        exact .inr ⟨fault, rfl, .later loaded first⟩
    · rw [failed]
      exact .inr ⟨fault, rfl, .here failed⟩

theorem buildSeparately_builtAs (m : Manifest) :
    m.BuiltAs (host.loadPhoto m.photo options).run (fun path => (host.loadImage path options).run)
      (host.buildSeparately m options).run := by
  rw [buildSeparately]
  rcases Task.ends (host.loadPhoto m.photo options) with ⟨photo, loaded⟩ | ⟨fault, failed⟩
  · rw [loaded]
    rcases host.mapM_placeAlone options m.sprites with
      ⟨placements, run, placed⟩ | ⟨fault, run, first⟩
    · rw [pure_bind, run]
      constructor
      · intro room built
        cases built
        exact ⟨rfl, rfl, placed⟩
      · intro fault built
        cases built
    · rw [pure_bind, run]
      constructor
      · intro room built
        cases built
      · intro fault' built
        cases built
        exact .inr ⟨⟨photo, rfl⟩, first⟩
  · rw [failed]
    constructor
    · intro room built
      cases built
    · intro fault' built
      cases built
      exact .inl rfl

variable {host options}

/-- Where every sprite so far loads, one more is the same under its own spelling as under the first. -/
theorem mapM_placeAlone_eq {m : Manifest}
    (agrees : m.Agrees fun path => (host.loadImage path options).run) {entries : List SpriteEntry}
    (split : m.imagePaths = before ++ entries.map SpriteEntry.image)
    (load : ∀ path ∈ before, ∃ image, host.loadImage path options = pure image) :
    (entries.mapM fun s =>
        host.placeAlone options { s with image := firstSpelling m.imagePaths s.image }) =
      entries.mapM (host.placeAlone options) := by
  induction entries generalizing before with
  | nil => rfl
  | cons s rest ih =>
    have own : s.image ∈ m.imagePaths := by simp [split]
    have same : host.loadImage (firstSpelling m.imagePaths s.image) options =
        host.loadImage s.image options := by
      rw [split, List.map_cons, UnixPath.firstSpelling_append]
      cases found : before.find? (·.same s.image) with
      | none => rw [UnixPath.firstSpelling_of_unknown found]
      | some first =>
        have earlier := List.mem_of_find?_eq_some found
        obtain ⟨image, loaded⟩ := load first earlier
        have spelled := List.find?_some found
        rw [UnixPath.firstSpelling_of_known found, loaded]
        exact (agrees first (by simp [split, earlier]) s.image own spelled image loaded).symm
    rw [List.mapM_cons, List.mapM_cons, placeAlone, placeAlone, same]
    rcases Task.ends (host.loadImage s.image options) with ⟨image, loaded⟩ | ⟨fault, failed⟩
    · have further : m.imagePaths = (before ++ [s.image]) ++ rest.map SpriteEntry.image := by
        rw [split, List.map_cons, List.append_cons]
      rw [ih further]
      intro path member
      rcases List.mem_append.mp member with earlier | last
      · exact load path earlier
      · exact ⟨image, List.mem_singleton.mp last ▸ loaded⟩
    · rw [failed]
      rfl

theorem buildSeparately_oneSpelling {m : Manifest}
    (agrees : m.Agrees fun path => (host.loadImage path options).run) :
    host.buildSeparately m.oneSpelling options = host.buildSeparately m options := by
  have split : m.imagePaths = [] ++ m.sprites.map SpriteEntry.image := rfl
  have placed := mapM_placeAlone_eq agrees split (by simp)
  rw [buildSeparately, buildSeparately]
  refine bind_congr fun photo => ?_
  rw [Manifest.oneSpelling, List.mapM_map]
  exact congrArg (· >>= _) placed

end Stateless

section System

variable {σ : Type} {host : Host (StateM σ)} {files : UnixPath → Except OpenFailure Source}
  {still : σ → Prop} (serves : host.Serves files still) (options : LoadOptions)

namespace Serves

include serves

theorem matches_takeImage (shelf : Shelf) (path : UnixPath) :
    Task.Matches still (host.takeImage options shelf path)
      ((frozen files).takeImage options shelf path) := by
  unfold takeImage
  cases shelf.find? path with
  | some image => exact .pure _
  | none => exact .bind (serves.matches_loadImage options path) fun _ => .pure _

theorem matches_placeSprites (entries : List SpriteEntry) (shelf : Shelf) (room : Room) :
    Task.Matches still (host.placeSprites options entries shelf room)
      ((frozen files).placeSprites options entries shelf room) := by
  induction entries generalizing shelf room with
  | nil => exact .pure _
  | cons s rest ih =>
    exact .bind (serves.matches_takeImage options shelf s.image) fun (_, _) => ih _ _

theorem matches_buildRoom (m : Manifest) :
    Task.Matches still (host.buildRoom m options) ((frozen files).buildRoom m options) :=
  .bind (serves.matches_loadPhoto options m.photo) fun _ =>
    .bind (serves.matches_placeSprites options m.sprites [] _) fun (_, _) =>
      .bind (serves.matches_note _) fun _ => .pure _

theorem matches_buildSeparately (m : Manifest) :
    Task.Matches still (host.buildSeparately m options) ((frozen files).buildSeparately m options) :=
  .bind (serves.matches_loadPhoto options m.photo) fun _ =>
    .bind (.mapM fun s => .bind (serves.matches_loadImage options s.image) fun _ => .pure _) fun _ =>
      .pure _

end Serves

/-- On a file system that does not change, a room is built as if every image were loaded by itself from
the first spelling of its path; and as if it were loaded from its own spelling, where the spellings of
one path agree. -/
theorem build_shares_images (serves : host.Serves files still) (m : Manifest)
    (options : LoadOptions) {s : σ} (now : still s) :
    ((host.buildRoom m options).outcome s).1 =
      ((host.buildSeparately m.oneSpelling options).outcome s).1 ∧
    m.oneSpelling.BuiltAs ((host.loadPhoto m.photo options).outcome s).1
      (fun path => ((host.loadImage path options).outcome s).1)
      ((host.buildRoom m options).outcome s).1 ∧
    (m.Agrees (fun path => ((host.loadImage path options).outcome s).1) →
      ((host.buildRoom m options).outcome s).1 = ((host.buildSeparately m options).outcome s).1) := by
  have room := (serves.matches_buildRoom options m s now).1
  have alone (m : Manifest) := (serves.matches_buildSeparately options m s now).1
  have photo := (serves.matches_loadPhoto options m.photo s now).1
  have image : (fun path => ((host.loadImage path options).outcome s).1) =
      fun path => ((frozen files).loadImage path options).run :=
    funext fun path => (serves.matches_loadImage options path s now).1
  rw [room, alone, alone, photo, image, buildRoom_eq]
  refine ⟨rfl, buildSeparately_builtAs _ options m.oneSpelling, fun agrees => ?_⟩
  rw [buildSeparately_oneSpelling agrees]

end System

section Annex

/-- A room with one image under two spellings, the second of which does not open: what stands before the
slash is no folder. -/
def annex : Manifest := ⟨"annex", ⟨"p"⟩, [⟨⟨"k"⟩, 0, 0⟩, ⟨⟨"k/"⟩, 1, 0⟩]⟩

def annexOptions : LoadOptions := { LoadOptions.standard with paletteMode := .fixed }

/-- A photo and an image of one pixel each. -/
def annexWorld : World :=
  ⟨(FileTree.bare.put ["p"] (.file [1, 0, 1, 0, 0x41, 0x08])).put ["k"] (.file [1, 0, 1, 0, 5]),
    [], #[], #[], #[]⟩

def annexSprite : Sprite := ⟨⟨1, 1⟩, ⟨1, 1, #[5], by decide, Grid.area_dot⟩, by decide⟩

theorem build_shares_images_annex :
    World.host.Serves annexWorld.openFile (FilesOf annexWorld) ∧ FilesOf annexWorld annexWorld ∧
    ((World.host.buildRoom annex annexOptions).outcome annexWorld).1 =
      ((World.host.buildSeparately annex.oneSpelling annexOptions).outcome annexWorld).1 :=
  ⟨host_serves annexWorld, ⟨rfl, rfl⟩,
    (build_shares_images (host_serves annexWorld) annex annexOptions ⟨rfl, rfl⟩).1⟩

/-- The file of a photo of one pixel makes a photo. -/
theorem loadPhoto_annex {files : UnixPath → Except OpenFailure Source} {path : UnixPath}
    (opened : files path = .ok (.ofBytes [1, 0, 1, 0, 0x41, 0x08])) :
    ∃ photo, (frozen files).loadPhoto path annexOptions = pure photo := by
  have read : PixelFile.rawPhoto annexOptions (.ofBytes [1, 0, 1, 0, 0x41, 0x08]) =
      .ok ⟨1, 1, #[⟨0x0841⟩], rfl, by decide⟩ ⟨[], 6⟩ := rfl
  obtain ⟨notices, made⟩ := PixelFile.photo_of_ok read
  exact ⟨_, loadPhoto_eq_pure _ _ opened made⟩

theorem annex_photo :
    ∃ photo, (frozen annexWorld.openFile).loadPhoto ⟨"p"⟩ annexOptions = pure photo :=
  loadPhoto_annex (World.openFile_name (by decide) (by decide) (by decide) rfl rfl)

theorem annex_image :
    (frozen annexWorld.openFile).loadImage ⟨"k"⟩ annexOptions = pure annexSprite := by
  have opened : annexWorld.openFile ⟨"k"⟩ = .ok (.ofBytes [1, 0, 1, 0, 5]) :=
    World.openFile_name (by decide) (by decide) (by decide) rfl rfl
  have read : PixelFile.sprite annexOptions (.ofBytes [1, 0, 1, 0, 5]) =
      .ok annexSprite ⟨[], 5⟩ := rfl
  rw [loadImage, decode_eq_pure (frozen annexWorld.openFile) opened read]
  rfl

theorem annex_slash : (frozen annexWorld.openFile).loadImage ⟨"k/"⟩ annexOptions =
    throw (.file ⟨"k/"⟩ .openFile) := by
  have usable : FileTree.Usable ⟨"k/"⟩ := by decide
  have split : (UnixPath.mk "k/").segments = ["k", ""] := by decide
  have refused : (frozen annexWorld.openFile).openFile ⟨"k/"⟩ = .error .refused := by
    change annexWorld.openFile ⟨"k/"⟩ = _
    rw [World.openFile, FileTree.lookup_eq_follow usable, split]
    rfl
  rw [loadImage, decode, refused]
  rfl

/-- Sharing is seen where two spellings of a path do not load alike: the second sprite is placed, though
its own path cannot be opened. -/
theorem sharing_shows_spelling :
    World.host.Serves annexWorld.openFile (FilesOf annexWorld) ∧
    (((World.host.buildRoom annex annexOptions).outcome annexWorld).1.map fun room =>
        room.placements.map fun p => (p.x, p.y, p.image.pixels.pixels)) =
      .ok [(0, 0, #[5]), (1, 0, #[5])] ∧
    ((World.host.buildSeparately annex annexOptions).outcome annexWorld).1 =
      .error (.file ⟨"k/"⟩ .openFile) := by
  have serves := host_serves annexWorld
  obtain ⟨photo, shown⟩ := annex_photo
  have room := (serves.matches_buildRoom annexOptions annex annexWorld ⟨rfl, rfl⟩).1
  have alone := (serves.matches_buildSeparately annexOptions annex annexWorld ⟨rfl, rfl⟩).1
  have spelled : annex.oneSpelling =
      { annex with sprites := [⟨⟨"k"⟩, 0, 0⟩, ⟨⟨"k"⟩, 1, 0⟩] } := rfl
  refine ⟨serves, ?_, ?_⟩
  · rw [room, buildRoom_eq, spelled, buildSeparately]
    change ((frozen annexWorld.openFile).loadPhoto ⟨"p"⟩ annexOptions >>= _).run.map _ = _
    rw [shown, pure_bind, List.mapM_cons, List.mapM_cons, placeAlone, placeAlone, annex_image]
    rfl
  · rw [alone, buildSeparately]
    change ((frozen annexWorld.openFile).loadPhoto ⟨"p"⟩ annexOptions >>= _).run = _
    rw [shown, pure_bind, annex, List.mapM_cons, List.mapM_cons, placeAlone, placeAlone, annex_image,
      annex_slash]
    rfl

end Annex
end Host
end Roomscape
