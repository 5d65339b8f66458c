import Roomscape.Proofs.RenderCourse
import Roomscape.Proofs.SharedImages
import Roomscape.Proofs.TreeChanges
import Roomscape.Proofs.WrappedDrawings

/-! What rendering leaves in a tree of files: the picture, and the folders that were missing above it.
A picture that is named for its room stands in the working folder, unless the name leads elsewhere. -/
namespace Roomscape

/-- What a world consists of, apart from what was written to people. -/
def World.files (w : World) : FileTree × Location := (w.tree, w.here)

theorem Host.rests_world : World.host.Rests World.files :=
  ⟨fun _ _ => rfl, fun _ => rfl, fun _ _ => rfl, fun _ _ => rfl⟩

theorem Manifest.slash_not_mem_nameFromPath (path : UnixPath) :
    '/' ∉ (nameFromPath path).toList := by
  unfold nameFromPath
  split
  · rename_i name named
    rw [String.toList_ofList]
    exact fun slash => UnixPath.slash_not_mem_fileName named ((List.takeWhile_prefix _).subset slash)
  · decide

section Ending

theorem png_plain : '/' ∉ ".png".toList := by decide

theorem png_ne (name : String) {s : String} (short : s.length < 4) : name ++ ".png" ≠ s := by
  intro same
  have length := congrArg String.length same
  rw [String.length_append, show ".png".length = 4 from rfl] at length
  omega

theorem png_moves (name : String) : FileTree.isIdle (name ++ ".png") = false := by
  rw [FileTree.isIdle, Bool.or_eq_false_iff, beq_eq_false_iff_ne, beq_eq_false_iff_ne]
  exact ⟨png_ne name (by decide), png_ne name (by decide)⟩

end Ending

namespace Program

open FileTree (Saved Usable)
open UnixPath (Above)

section Worlds

variable {w w' : World} {path : UnixPath}

theorem grown_of_prepareFolder (run : (prepareFolder World.host path).outcome w = (.ok (), w')) :
    w'.here = w.here ∧ w.tree.Grown w.here (Above · path) w'.tree := by
  unfold prepareFolder at run
  split at run
  · cases run
    exact ⟨rfl, .refl⟩
  · rename_i folder found
    split at run
    · obtain ⟨made, u, asked, run⟩ := Task.outcome_bind_eq_ok run
      cases (Task.outcome_lift _ w).symm.trans asked
      have grown := FileTree.makeFolders_grown w.here folder.segments.length folder w.tree
      have around := grown.imp fun q => UnixPath.above_of_parent? found
      split at run
      · cases run
      · cases run
        exact ⟨rfl, around⟩
    · cases run
      exact ⟨rfl, .refl⟩

theorem write_of_savePicture {content : Picture} (saved : w.savePicture path content = (true, w')) :
    w'.here = w.here ∧ ∃ format, PictureFormat.ofName? path = some format ∧
      w.tree.write w.here path (.picture format content) = some w'.tree := by
  unfold World.savePicture at saved
  split at saved
  · cases saved
  · rename_i format named
    dsimp only at saved
    split at saved
    · rename_i tree written
      obtain ⟨fits, rfl⟩ := Prod.mk.inj saved
      -- The picture fits the format, so it was not an empty file that was put in its place.
      rw [if_pos fits] at written
      exact ⟨rfl, format, named, written⟩
    · cases saved

theorem write_of_saveFrame {frame : Grid UInt8} {table : Display} {scale : Nat}
    (run : (saveFrame World.host frame table path scale).outcome w = (.ok (), w')) :
    w'.here = w.here ∧ frame.isEmpty = false ∧ ∃ picture format,
      Picture.draw frame table scale = .ok picture ∧ PictureFormat.ofName? path = some format ∧
      w.tree.write w.here path (.picture format picture) = some w'.tree := by
  unfold saveFrame at run
  cases empty : frame.isEmpty with
  | true =>
    rw [empty] at run
    cases (Task.outcome_bind_error (Task.outcome_throw .emptyFrame w)).symm.trans run
  | false =>
    rw [empty] at run
    obtain ⟨picture, u, drawing, run⟩ := Task.outcome_bind_eq_ok run
    rw [Task.outcome_ofExcept] at drawing
    obtain ⟨drawn, rfl⟩ := Prod.mk.inj drawing
    obtain ⟨saved, u, asked, run⟩ := Task.outcome_bind_eq_ok run
    cases (Task.outcome_lift _ w).symm.trans asked
    split at run
    · cases run
    · rename_i done
      cases run
      have written : w.savePicture path picture = (true, (w.savePicture path picture).2) :=
        Prod.ext (Bool.of_not_eq_false fun failed => done (congrArg (!·) failed)) rfl
      obtain ⟨here, format, named, written⟩ := write_of_savePicture written
      exact ⟨here, rfl, picture, format, drawn, named, written⟩

/-- What a manifest describes, as the files of `w` are: the manifest with its name, and the room. -/
structure Describes (w : World) (options : LoadOptions) (path : UnixPath) (m : Manifest)
    (room : Room) : Prop where
  loaded : ((World.host.loadManifest path).outcome w).1 = .ok m
  built : ((World.host.buildRoom m options).outcome w).1 = .ok room

theorem Describes.name {options : LoadOptions} {m : Manifest} {room : Room}
    (describes : Describes w options path m room) : room.name = m.name :=
  Host.name_of_buildRoom (Prod.ext describes.built rfl)

variable (printer : Printer) {config : ViewConfig} {manifest : UnixPath} {x y : Int32}
  {target : Option UnixPath} {scale : Nat} {vertical : Bool}

theorem render_saved
    (run : (render World.host printer config manifest x y target scale vertical).outcome w =
      (.ok (), w')) :
    w'.here = w.here ∧ ∃ m room frame table picture format loc u₁ u₂,
      let path := target.getD ⟨room.name ++ ".png"⟩
      Describes w config.load manifest m room ∧
      (compose World.host config room x y (if vertical then .columns else .rows)).outcome u₁ =
        (.ok (frame, table), u₂) ∧
      frame.isEmpty = false ∧ Picture.draw frame table scale = .ok picture ∧
      PictureFormat.ofName? path = some format ∧
      Saved w.here path loc (.picture format picture) w.tree w'.tree := by
  obtain ⟨m, room, frame, table, s₁, s₂, s₃, u₁, u₂, u₃, loaded, built, composed, prepared, saved,
    kept, kept', told⟩ := render_course printer Host.rests_world run
  obtain ⟨tree₂, here₂⟩ := Prod.mk.inj kept
  obtain ⟨tree₁, here₁⟩ := Prod.mk.inj kept'
  obtain ⟨tree', here'⟩ := Prod.mk.inj told
  obtain ⟨here₃, grown⟩ := grown_of_prepareFolder prepared
  obtain ⟨here₄, shows, picture, format, drawn, named, written⟩ := write_of_saveFrame saved
  rw [here₃, here₁] at written
  rw [tree₁, here₁] at grown
  rw [← tree'] at written
  obtain ⟨loc, changed⟩ := FileTree.saved_of_write grown written
  refine ⟨here'.trans (here₄.trans (here₃.trans here₁)), m, room, frame, table, picture, format, loc, s₃,
    u₁, ⟨congrArg Prod.fst loaded, ?_⟩, composed, shows, drawn, named, changed⟩
  -- Until then no file has changed, so the room is the one that was described at first.
  have serves := Host.host_serves w
  have early := (serves.matches_buildRoom config.load m w ⟨rfl, rfl⟩).1
  have late := (serves.matches_buildRoom config.load m s₂ ⟨tree₂, here₂⟩).1
  exact (early.trans late.symm).trans (congrArg Prod.fst built)

section Ending

variable {options : LoadOptions} {m : Manifest} {room : Room} {frame : Grid UInt8}
  {table : Display} {picture : Picture} {folder : UnixPath} {format : PictureFormat}
  {tree tree' : FileTree} {here : Location}

theorem Describes.loads (describes : Describes w options path m room) :
    (World.host.loadManifest path).Ends (· = w) m (Host.FilesOf w) := by
  intro s same
  rw [same]
  have kept := Host.rests_world.loadManifest_keeps path w
  exact ⟨_, Prod.ext describes.loaded rfl, Prod.mk.inj kept⟩

theorem Describes.builds (describes : Describes w options path m room) :
    (World.host.buildRoom m options).Ends (Host.FilesOf w) room (Host.FilesOf w) := by
  have same := (Host.host_serves w).matches_buildRoom options m
  exact same.ends ((same w ⟨rfl, rfl⟩).1.symm.trans describes.built)

theorem compose_ends (showable : config.Showable) {order : ScanOrder}
    (window : Viewer.window ⟨some room, config.paletteOffset⟩ x y config.scrollWidth
      config.scrollHeight order = .ok frame) :
    (compose World.host config room x y order).Ends (Host.FilesOf w)
      (frame, Display.ofPhoto room.photo.palette config.paletteOffset) (Host.FilesOf w) := by
  rw [compose_eq World.host showable]
  exact .bind (.lift fun _ now => ⟨rfl, now⟩) (.bind (.ofExcept window) (.pure _))

theorem isEmpty_of_window (w : World) (showable : config.Showable) {order : ScanOrder}
    (window : Viewer.window ⟨some room, config.paletteOffset⟩ x y config.scrollWidth
      config.scrollHeight order = .ok frame) : frame.isEmpty = false := by
  obtain ⟨u, run, _⟩ := compose_ends showable window w ⟨rfl, rfl⟩
  exact isEmpty_of_compose World.host showable run

theorem prepareFolder_ends (parent : path.parent? = some folder)
    (made : FileTree.makeFolders w.here folder.segments.length folder w.tree = (true, tree)) :
    (prepareFolder World.host path).Ends (Host.FilesOf w) () (·.files = (tree, w.here)) := by
  unfold prepareFolder
  rw [parent]
  dsimp only
  cases inner : folder.text.isEmpty with
  | false =>
    have asked : (liftM (World.host.makeFolders folder) : Task (StateM World) Bool).Ends
        (Host.FilesOf w) true (·.files = (tree, w.here)) := by
      refine .lift fun v now => ?_
      change (v.makeFolders folder).1 = true ∧ (v.makeFolders folder).2.files = _
      rw [World.makeFolders, now.1, now.2, made]
      exact ⟨rfl, rfl⟩
    exact .bind asked (.pure ())
  | true =>
    rw [FileTree.makeFolders_of_empty inner] at made
    obtain rfl := (Prod.mk.inj made).2
    exact fun v now => ⟨v, rfl, Prod.ext now.1 now.2⟩

theorem saveFrame_ends (shows : frame.isEmpty = false)
    (drawn : Picture.draw frame table scale = .ok picture)
    (kind : PictureFormat.ofName? path = some format) (fits : format.holds picture = true)
    (written : tree.write here path (.picture format picture) = some tree') :
    (saveFrame World.host frame table path scale).Ends (·.files = (tree, here)) ()
      (·.files = (tree', here)) := by
  have asked : (liftM (World.host.savePicture path picture) : Task (StateM World) Bool).Ends
      (·.files = (tree, here)) true (·.files = (tree', here)) := by
    refine .lift fun v now => ?_
    obtain ⟨same, here⟩ := Prod.mk.inj now
    change (v.savePicture path _).1 = true ∧ (v.savePicture path _).2.files = _
    simp only [World.savePicture, kind]
    rw [same, here, if_pos fits, written]
    exact ⟨fits, rfl⟩
  unfold saveFrame
  rw [shows]
  exact .bind (.ofExcept drawn) (.bind asked (.pure ()))

/-- Where what the manifest describes can be composed and folders can be made for the picture, rendering
comes to saving it, and then has only to tell of it. -/
theorem render_prepared (showable : config.Showable)
    (describes : Describes w config.load manifest m room)
    (window : Viewer.window ⟨some room, config.paletteOffset⟩ x y config.scrollWidth
      config.scrollHeight (if vertical then .columns else .rows) = .ok frame)
    (named : target.getD ⟨room.name ++ ".png"⟩ = path) (parent : path.parent? = some folder)
    (made : FileTree.makeFolders w.here folder.segments.length folder w.tree = (true, tree)) :
    ∃ (v : World) (tell : Task (StateM World) Unit), v.files = (tree, w.here) ∧
      (∀ files, tell.Ends (·.files = files) () (·.files = files)) ∧
      (render World.host printer config manifest x y target scale vertical).outcome w =
        (saveFrame World.host frame (Display.ofPhoto room.photo.palette config.paletteOffset) path scale >>=
          fun _ => tell).outcome v := by
  have noted (tone : Tone) (verb message : String) :
      (say World.host printer tone verb message).Ends (Host.FilesOf w) () (Host.FilesOf w) :=
    .lift fun _ now => ⟨rfl, now⟩
  subst named
  obtain ⟨u₁, now, loads⟩ := describes.loads.leads rfl
  obtain ⟨u₂, now, notes⟩ := (noted _ _ _).leads now
  obtain ⟨u₃, now, builds⟩ := describes.builds.leads now
  obtain ⟨u₄, now, composes⟩ := (compose_ends showable window).leads now
  obtain ⟨v, now, prepares⟩ := (prepareFolder_ends parent made).leads now
  refine ⟨v, _, now, fun files u still => ?_,
    loads.trans (notes.trans (builds.trans (composes.trans prepares)))⟩
  refine ⟨_, (Task.outcome_bind_ok (Task.outcome_lift _ u)).trans (Task.outcome_lift _ _), ?_⟩
  exact (Host.displayPath_keeps Host.rests_world.workingFolder _ u).trans still

/-- If besides the picture can be drawn and put in its place, rendering ends well. -/
theorem render_ends (showable : config.Showable)
    (describes : Describes w config.load manifest m room)
    (window : Viewer.window ⟨some room, config.paletteOffset⟩ x y config.scrollWidth
      config.scrollHeight (if vertical then .columns else .rows) = .ok frame)
    (named : target.getD ⟨room.name ++ ".png"⟩ = path) (parent : path.parent? = some folder)
    (made : FileTree.makeFolders w.here folder.segments.length folder w.tree = (true, tree))
    (drawn : Picture.draw frame (Display.ofPhoto room.photo.palette config.paletteOffset) scale =
      .ok picture)
    (kind : PictureFormat.ofName? path = some format) (fits : format.holds picture = true)
    (written : tree.write w.here path (.picture format picture) = some tree') :
    ∃ w', (render World.host printer config manifest x y target scale vertical).outcome w = (.ok (), w') ∧
      w'.files = (tree', w.here) := by
  have shows := isEmpty_of_window w showable window
  obtain ⟨v, tell, now, tells, run⟩ :=
    render_prepared printer showable describes window named parent made
  rw [run]
  exact (Task.Ends.bind (saveFrame_ends shows drawn kind fits written) (tells _)) v now

/-- If the picture cannot be drawn, the folders that were made for it are left. -/
theorem render_undrawable (showable : config.Showable)
    (describes : Describes w config.load manifest m room)
    (window : Viewer.window ⟨some room, config.paletteOffset⟩ x y config.scrollWidth
      config.scrollHeight (if vertical then .columns else .rows) = .ok frame)
    (named : target.getD ⟨room.name ++ ".png"⟩ = path) (parent : path.parent? = some folder)
    (made : FileTree.makeFolders w.here folder.segments.length folder w.tree = (true, tree))
    {fault : Fault}
    (failed : Picture.draw frame (Display.ofPhoto room.photo.palette config.paletteOffset) scale =
      .error fault) :
    ∃ w', (render World.host printer config manifest x y target scale vertical).outcome w =
      (.error fault, w') ∧ w'.files = (tree, w.here) := by
  have shows := isEmpty_of_window w showable window
  obtain ⟨v, tell, now, _, run⟩ :=
    render_prepared printer showable describes window named parent made
  refine ⟨v, ?_, now⟩
  have broken : (saveFrame World.host frame
      (Display.ofPhoto room.photo.palette config.paletteOffset) path scale).outcome v =
        (.error fault, v) := by
    unfold saveFrame
    rw [shows]
    refine Task.outcome_bind_error ?_
    rw [Task.outcome_ofExcept, failed]
  rw [run, Task.outcome_bind_error broken]

end Ending

/-- A world with a photo of one pixel and a manifest that has no sprites. -/
def attic (text : List UInt8) : World :=
  ⟨(FileTree.bare.put ["p"] (.file [1, 0, 1, 0, 0x41, 0x08])).put ["m"] (.file text), [],
    #[], #[], #[]⟩

/-- Settings for a window of one pixel. -/
def peephole : ViewConfig := ⟨1, 1, 64, Host.annexOptions⟩

theorem ok_of_toOption {α : Type} {result : Except Fault α} {value : α}
    (done : result.toOption = some value) : result = .ok value := by
  cases result with
  | ok other => exact congrArg Except.ok (Option.some.inj done)
  | error fault => cases done

theorem loadManifest_of_parse {w : World} {path : UnixPath} {text : String} {own : Manifest}
    (read : ((World.host.readText path).run w).1 = .ok text)
    (parsed : Manifest.parse text = .ok own) :
    ((World.host.loadManifest path).outcome w).1 = .ok (own.locate path) := by
  have asked := Task.outcome_lift (World.host.readText path) w
  rw [read] at asked
  rw [Host.loadManifest, Task.outcome_bind_ok asked]
  dsimp only
  rw [parsed]
  rfl

theorem opened_attic {text : List UInt8} : (attic text).openFile ⟨"m"⟩ = .ok (.ofBytes text) :=
  World.openFile_name (by decide) (by decide) (by decide) rfl rfl

theorem describes_attic {text : List UInt8} {m : Manifest}
    (loaded : ((World.host.loadManifest ⟨"m"⟩).outcome (attic text)).1 = .ok m)
    (shown : m.photo = ⟨"p"⟩) (bare : m.sprites = []) :
    ∃ room, Describes (attic text) peephole.load ⟨"m"⟩ m room := by
  have opened : (attic text).openFile ⟨"p"⟩ = .ok (.ofBytes [1, 0, 1, 0, 0x41, 0x08]) :=
    World.openFile_name (by decide) (by decide) (by decide) rfl rfl
  obtain ⟨photo, developed⟩ := Host.loadPhoto_annex opened
  have serves := Host.host_serves (attic text)
  refine ⟨⟨m.name, photo, []⟩, loaded, ?_⟩
  rw [(serves.matches_buildRoom peephole.load m _ ⟨rfl, rfl⟩).1, Host.buildRoom, shown, bare]
  change ((Host.frozen (attic text).openFile).loadPhoto ⟨"p"⟩ Host.annexOptions >>= _).run = _
  rw [developed]
  rfl

theorem ofName?_png {path : UnixPath} (ending : path.extension? = some "png") :
    PictureFormat.ofName? path = some .png := by
  rw [PictureFormat.ofName?, ending]
  decide +kernel

theorem png_holds {p : Picture} (wide : p.width = 1) (high : p.height = 1) :
    PictureFormat.png.holds p = true := by
  have pixels : p.pixels.isEmpty = false := by
    rw [← Bool.not_eq_true, Array.isEmpty_iff_size_eq_zero, p.size_pixels, wide, high]
    decide
  rw [PictureFormat.holds, Grid.isEmpty, pixels, wide, high]
  decide

/-- A frame of one pixel is drawn as a picture of one pixel, which can be saved. -/
theorem draw_pixel {frame : Grid UInt8} (table : Display) (wide : frame.width = 1)
    (high : frame.height = 1) :
    ∃ picture, Picture.draw frame table 1 = .ok picture ∧ PictureFormat.png.holds picture = true := by
  refine ⟨Picture.ofFrame frame table 1, Picture.draw_eq_ok _ ?_ ?_ ?_, png_holds ?_ ?_⟩
  · rw [wide]
    decide
  · rw [high]
    decide
  · rw [wide, high]
    decide
  · change Picture.enlargedSide frame.width 1 = 1
    rw [wide]
    rfl
  · change Picture.enlargedSide frame.height 1 = 1
    rw [high]
    rfl

/-- The window through the peephole is one pixel. -/
theorem window_peephole (room : Room) :
    ∃ frame, Viewer.window ⟨some room, peephole.paletteOffset⟩ 0 0 1 1 .rows = .ok frame ∧
      frame.width = 1 ∧ frame.height = 1 := by
  obtain ⟨frame, window, wide, high, _⟩ := Viewer.window_eq_ok ⟨some room, peephole.paletteOffset⟩ 0 0
    .rows (show 1 * 1 ≤ largestBuffer by decide) (show 1 ≤ largestBuffer by decide)
  exact ⟨frame, window, wide, high⟩

theorem render_attic (target : Option UnixPath) {text : List UInt8} {m : Manifest}
    {path folder : UnixPath} {tree : FileTree} {loc : Location}
    (loaded : ((World.host.loadManifest ⟨"m"⟩).outcome (attic text)).1 = .ok m)
    (shown : m.photo = ⟨"p"⟩) (bare : m.sprites = [])
    (named : target.getD ⟨m.name ++ ".png"⟩ = path) (parent : path.parent? = some folder)
    (made : FileTree.makeFolders [] folder.segments.length folder (attic text).tree = (true, tree))
    (kind : PictureFormat.ofName? path = some .png)
    (written : ∀ item, tree.write [] path item = some (tree.put loc item) ∧
      (tree.put loc item).lookup [] path = .found loc item) :
    ∃ w' content, (render World.host ⟨false⟩ peephole ⟨"m"⟩ 0 0 target 1 false).outcome (attic text) =
      (.ok (), w') ∧ w'.tree = tree.put loc (.picture .png content) ∧
      w'.tree.lookup [] path = .found loc (.picture .png content) := by
  obtain ⟨room, describes⟩ := describes_attic loaded shown bare
  have showable : peephole.Showable := ViewConfig.showable_of_validate rfl
  obtain ⟨frame, window, wide, high⟩ := window_peephole room
  obtain ⟨picture, drawn, fits⟩ :=
    draw_pixel (Display.ofPhoto room.photo.palette peephole.paletteOffset) wide high
  rw [← describes.name] at named
  have ends : ∃ w', (render World.host ⟨false⟩ peephole ⟨"m"⟩ 0 0 target 1 false).outcome (attic text) =
      (.ok (), w') ∧ w'.files = (tree.put loc (.picture .png picture), []) :=
    render_ends ⟨false⟩ showable describes window named parent made drawn kind fits (written _).1
  obtain ⟨w', run, files⟩ := ends
  have tree' : w'.tree = tree.put loc (.picture .png picture) := congrArg Prod.fst files
  exact ⟨w', picture, run, tree', tree' ▸ (written _).2⟩

/-- The text of a manifest that has nothing but the photo: `photo: p`. -/
def unnamed : List UInt8 := [0x70, 0x68, 0x6f, 0x74, 0x6f, 0x3a, 0x20, 0x70, 0x0a]

theorem unnamed_read : String.fromUTF8? ⟨unnamed.toArray⟩ = some "photo: p\n" := by decide

theorem unnamed_parsed : Manifest.parse "photo: p\n" = .ok ⟨"", ⟨"p"⟩, []⟩ :=
  ok_of_toOption (by decide +kernel)

theorem unnamed_loaded :
    ((World.host.loadManifest ⟨"m"⟩).outcome (attic unnamed)).1 = .ok ⟨"m", ⟨"p"⟩, []⟩ := by
  have read := World.readText_of_open opened_attic unnamed_read
  exact (loadManifest_of_parse read unnamed_parsed).trans (congrArg Except.ok (by decide))

/-- The files of a world with a folder in it. -/
def loft (text : List UInt8) : FileTree := (attic text).tree.put ["a"] .folder

theorem leads_loft (text : List UInt8) : (loft text).Leads [] ["a"] ["a"] .folder :=
  .down rfl (by decide) (.here rfl)

theorem makeFolders_loft {text : List UInt8} {depth : Nat} :
    FileTree.makeFolders [] depth ⟨"a"⟩ (attic text).tree = (true, loft text) := by
  have usable : Usable ⟨"a"⟩ := by decide
  have split : (UnixPath.mk "a").segments = ["a"] := by decide
  refine FileTree.makeFolders_of_made ?_
  rw [FileTree.makeFolder, usable.1, usable.2, split]
  rfl

/-- A picture with the longest sides that 32 bits hold is larger than any allocation. -/
theorem render_enormous :
    ∃ w', (render World.host ⟨false⟩ peephole ⟨"m"⟩ 0 0 (some ⟨"a/x.png"⟩) 0xffffffff false).outcome
        (attic unnamed) = (.error (.undrawable 0xffffffff 0xffffffff), w') ∧
      w'.files = (loft unnamed, []) := by
  obtain ⟨room, describes⟩ := describes_attic unnamed_loaded rfl rfl
  have showable : peephole.Showable := ViewConfig.showable_of_validate rfl
  obtain ⟨frame, window, wide, high⟩ := window_peephole room
  have large : largestBuffer < frame.width * max 0xffffffff 1 * (frame.height * max 0xffffffff 1) * 4 := by
    rw [wide, high]
    decide
  have refused := Picture.draw_refused frame
    (Display.ofPhoto room.photo.palette peephole.paletteOffset) large
  rw [wide, high] at refused
  have named : (some (UnixPath.mk "a/x.png")).getD ⟨room.name ++ ".png"⟩ = ⟨"a/x.png"⟩ := rfl
  have parent : (UnixPath.mk "a/x.png").parent? = some ⟨"a"⟩ := by decide
  exact render_undrawable ⟨false⟩ showable describes window named parent makeFolders_loft refused

/-- Where a room's picture is saved under its name, nothing else is different, and it stands in the
working folder itself, exactly if what stands before the last slash of the name led to that folder
before. It does if the name has no slash, and if it is taken from the manifest's file name. -/
theorem render_stays_here
    (run : (render World.host printer config manifest x y none scale vertical).outcome w =
      (.ok (), w')) :
    ∃ m loc format content, ((World.host.loadManifest manifest).outcome w).1 = .ok m ∧
      let path : UnixPath := ⟨m.name ++ ".png"⟩
      w'.tree.lookup w.here path = .found loc (.picture format content) ∧
      (w.tree.ChangesIn w.here loc w'.tree ↔
        w.tree.follow (FileTree.origin w.here path) path.segments.dropLast =
          .found w.here .folder) ∧
      ('/' ∉ m.name.toList ∨ m.name = Manifest.nameFromPath manifest →
        w.tree.ChangesIn w.here loc w'.tree) := by
  obtain ⟨_, m, room, _, _, _, format, loc, _, _, describes, _, _, _, _, saved⟩ :=
    render_saved printer run
  rw [Option.getD_none, describes.name] at saved
  obtain ⟨before, last, _, split⟩ := UnixPath.segments_append m.name png_plain
  refine ⟨m, loc, format, _, describes.loaded, saved.led, ?_, fun plain => ?_⟩
  · rw [split, List.dropLast_concat, FileTree.follow_eq_found_iff]
    exact saved.changesIn_iff (by simp) split (png_moves last) (png_ne last (by decide))
  · have single : (UnixPath.mk (m.name ++ ".png")).segments = [m.name ++ ".png"] := by
      have plain : '/' ∉ m.name.toList :=
        plain.elim id fun taken => taken ▸ Manifest.slash_not_mem_nameFromPath manifest
      exact UnixPath.segments_of_plain (by simp [plain])
    exact saved.changesIn_of_name single (png_moves m.name) (png_ne m.name (by decide))

/-- A room that is called after its manifest's file is rendered into the working folder. -/
theorem render_unnamed :
    ∃ w', (render World.host ⟨false⟩ peephole ⟨"m"⟩ 0 0 none 1 false).outcome (attic unnamed) =
      (.ok (), w') := by
  have usable : Usable ⟨"m.png"⟩ := by decide
  have split : (UnixPath.mk "m.png").segments = [] ++ ["m.png"] := by decide
  have here : (attic unnamed).tree.Leads [] [] [] .folder := .here rfl
  have written (item : Item) := FileTree.write_of_leads item usable split here (by decide) rfl
  have named : (none : Option UnixPath).getD ⟨"m" ++ ".png"⟩ = ⟨"m.png"⟩ := rfl
  have parent : (UnixPath.mk "m.png").parent? = some ⟨""⟩ := by decide
  obtain ⟨w', _, run, _⟩ := render_attic none unnamed_loaded rfl rfl named parent
    (FileTree.makeFolders_of_empty rfl _) (ofName?_png (by decide)) written
  exact ⟨w', run⟩

theorem render_stays_here_attic :
    ∃ w' loc format content,
      (render World.host ⟨false⟩ peephole ⟨"m"⟩ 0 0 none 1 false).outcome (attic unnamed) =
        (.ok (), w') ∧
      w'.tree.lookup [] ⟨"m.png"⟩ = .found loc (.picture format content) ∧
      (attic unnamed).tree.ChangesIn [] loc w'.tree := by
  obtain ⟨w', run⟩ := render_unnamed
  obtain ⟨m, loc, format, content, loaded, led, _, stays⟩ := render_stays_here ⟨false⟩ run
  cases unnamed_loaded.symm.trans loaded
  exact ⟨w', loc, format, content, run, led, stays (.inr (by decide))⟩

/-- The text of a manifest whose name has a slash: `name: a/m`, `photo: p`. -/
def slashed : List UInt8 := [0x6e, 0x61, 0x6d, 0x65, 0x3a, 0x20, 0x61, 0x2f, 0x6d, 0x0a] ++ unnamed

theorem slashed_loaded :
    ((World.host.loadManifest ⟨"m"⟩).outcome (attic slashed)).1 = .ok ⟨"a/m", ⟨"p"⟩, []⟩ := by
  have read : ((World.host.readText ⟨"m"⟩).run (attic slashed)).1 = .ok "name: a/m\nphoto: p\n" :=
    World.readText_of_open opened_attic (by decide)
  have parsed : Manifest.parse "name: a/m\nphoto: p\n" = .ok ⟨"a/m", ⟨"p"⟩, []⟩ :=
    ok_of_toOption (by decide +kernel)
  exact (loadManifest_of_parse read parsed).trans (congrArg Except.ok (by decide))

/-- A name with a slash makes a folder, and the picture does not stand in the working folder itself. -/
theorem render_leaves_here :
    ∃ w' content, (render World.host ⟨false⟩ peephole ⟨"m"⟩ 0 0 none 1 false).outcome (attic slashed) =
        (.ok (), w') ∧
      w'.tree.lookup [] ⟨"a/m.png"⟩ = .found ["a", "m.png"] (.picture .png content) ∧
      (attic slashed).tree.item? ["a"] = none ∧ w'.tree.item? ["a"] = some .folder := by
  have usable : Usable ⟨"a/m.png"⟩ := by decide
  have split : (UnixPath.mk "a/m.png").segments = ["a"] ++ ["m.png"] := by decide
  have written (item : Item) := FileTree.write_of_leads item usable split
    (leads_loft slashed) (by decide) rfl
  obtain ⟨w', content, run, tree, led⟩ := render_attic none slashed_loaded rfl rfl rfl
    (by decide) makeFolders_loft (ofName?_png (by decide)) written
  exact ⟨w', content, run, led, rfl, tree ▸ rfl⟩

end Worlds
end Program
end Roomscape
