import Roomscape.Proofs.TaskRuns
import Roomscape.Proofs.TreeChanges

/-! File systems that do not change. There a task that only loads files ends as it does on a system
without a state, and what is said of it can be said without one. -/
namespace Roomscape.Host

variable {σ : Type}

/-- A file system that does not change: what opening a path gives depends on its text alone, and neither
that nor a note brings about another state. -/
structure Serves (host : Host (StateM σ)) (files : UnixPath → Except OpenFailure Source)
    (still : σ → Prop) : Prop where
  openFile : ∀ path s, still s →
    ((host.openFile path).run s).1 = files path ∧ still ((host.openFile path).run s).2
  note : ∀ notice s, still s → still ((host.note notice).run s).2

/-- A system of files alone, which has no state. -/
def frozen (files : UnixPath → Except OpenFailure Source) : Host Id where
  openFile := files
  isFile _ := false
  makeFolders _ := false
  savePicture _ _ := false
  workingFolder := none
  output _ := ()
  report _ := ()
  note _ := ()

section Matching

variable {host : Host (StateM σ)} {files : UnixPath → Except OpenFailure Source} {still : σ → Prop}
  (serves : host.Serves files still) (options : LoadOptions)

namespace Serves

include serves

theorem matches_note (notice : Notice) :
    Task.Matches still (liftM (host.note notice)) (liftM ((frozen files).note notice)) :=
  .lift fun s now => ⟨rfl, serves.note notice s now⟩

theorem matches_decode {α : Type} (path : UnixPath) (decoder : Decoder α) :
    Task.Matches still (host.decode path decoder) ((frozen files).decode path decoder) := by
  refine .bind (.lift (serves.openFile path)) fun opened => ?_
  match opened with
  | .error .absent => exact .throw _
  | .error .refused => exact .throw _
  | .ok source =>
    dsimp only
    cases decoder.run source with
    | ok value _ => exact .pure value
    | error fault _ => exact .throw _

theorem matches_loadPhoto (path : UnixPath) :
    Task.Matches still (host.loadPhoto path options) ((frozen files).loadPhoto path options) :=
  .bind (serves.matches_decode path _) fun (_, _) =>
    .bind (.forM fun notice => serves.matches_note notice) fun _ =>
      .bind (serves.matches_note _) fun _ => .pure _

theorem matches_loadImage (path : UnixPath) :
    Task.Matches still (host.loadImage path options) ((frozen files).loadImage path options) :=
  .bind (serves.matches_decode path _) fun _ => .bind (serves.matches_note _) fun _ => .pure _

end Serves
end Matching

section Stateless

variable (host : Host Id) (options : LoadOptions)

theorem decode_eq_pure {α : Type} {path : UnixPath} {decoder : Decoder α} {source t : Source}
    {value : α} (opened : host.openFile path = .ok source) (run : decoder source = .ok value t) :
    host.decode path decoder = pure value := by
  have decoded : decoder.run source = .ok value t := run
  rw [decode, opened]
  change (pure (.ok source) : Task Id (Except OpenFailure Source)) >>= _ = _
  simp only [pure_bind, decoded]

theorem notes_eq_pure (notices : List Notice) :
    (notices.forM fun notice => (host.note notice : Task Id Unit)) = pure () := by
  induction notices with
  | nil => rfl
  | cons notice rest ih => exact ih

theorem loadPhoto_eq_pure {path : UnixPath} {source t : Source} {photo : Photo}
    {notices : List Notice} (opened : host.openFile path = .ok source)
    (run : PixelFile.photo options source = .ok (photo, notices) t) :
    host.loadPhoto path options = pure photo := by
  rw [loadPhoto, decode_eq_pure host opened run, pure_bind]
  change (notices.forM fun notice => (host.note notice : Task Id Unit)) >>= _ = _
  rw [notes_eq_pure]
  rfl

end Stateless

/-- The files of a world are the same in another one. -/
def FilesOf (w v : World) : Prop := v.tree = w.tree ∧ v.here = w.here

theorem host_serves (w : World) : World.host.Serves w.openFile (FilesOf w) where
  openFile := by
    rintro path v ⟨tree, here⟩
    refine ⟨?_, tree, here⟩
    change v.openFile path = w.openFile path
    rw [World.openFile, World.openFile, tree, here]
  note := fun _ _ now => now

end Roomscape.Host

namespace Roomscape.World

open FileTree (Ordinary Usable)

variable {w : World} {path : UnixPath} {bytes : List UInt8} {source : Source}

/-- A file that stands in the working folder is opened by its name. -/
theorem openFile_name {name : String} (usable : Usable ⟨name⟩) (plain : '/' ∉ name.toList)
    (ordinary : Ordinary name) (folder : w.tree.item? w.here = some .folder)
    (stands : w.tree.item? (w.here ++ [name]) = some (.file bytes)) :
    w.openFile ⟨name⟩ = .ok (.ofBytes bytes) := by
  have split := UnixPath.segments_of_plain plain
  have relative : ¬(UnixPath.mk name).isAbsolute := fun absolute => by
    obtain ⟨_, _, parts⟩ := UnixPath.isAbsolute_iff.mp absolute
    rw [split] at parts
    cases parts
  have found : w.tree.lookup w.here ⟨name⟩ = .found (w.here ++ [name]) (.file bytes) := by
    refine FileTree.lookup_eq_found_iff.mpr ⟨usable, ?_⟩
    rw [split, FileTree.origin, if_neg relative]
    exact .down folder ordinary (.here stands)
  rw [openFile, found]
  rfl

theorem decode_of_open {α : Type} {decoder : Decoder α} {value : α} {rest : Source}
    (opened : w.openFile path = .ok source) (run : decoder source = .ok value rest) :
    (host.decode path decoder).outcome w = (.ok value, w) := by
  have given : (host.openFile path).run w = (.ok source, w) := Prod.ext opened rfl
  have asked := Task.outcome_lift (host.openFile path) w
  rw [given] at asked
  have decoded : decoder.run source = .ok value rest := run
  rw [Host.decode, Task.outcome_bind_ok asked]
  simp only [decoded]
  rfl

theorem readText_of_open {text : String} (opened : w.openFile path = .ok (.ofBytes bytes))
    (decoded : String.fromUTF8? ⟨bytes.toArray⟩ = some text) :
    ((host.readText path).run w).1 = .ok text := by
  have drained : Source.drain #[] (Source.ofBytes bytes).deliveries = .ok bytes.toArray := by
    cases bytes <;> simp [Source.ofBytes, Source.drain]
  have given : (host.openFile path).run w = (.ok (.ofBytes bytes), w) := Prod.ext opened rfl
  rw [Host.readText, Host.run_bind, given]
  simp only [drained, decoded]
  rfl

end Roomscape.World
