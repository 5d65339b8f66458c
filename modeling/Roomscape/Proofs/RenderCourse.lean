import Roomscape.Proofs.OfferedSettings
import Roomscape.Proofs.PictureDrawing
import Roomscape.Proofs.TaskRuns

/-! The course of rendering, on any system. All that it reads it has read before it writes, so that
whatever is wrong with a manifest, a photo or a sprite leaves no trace. -/
namespace Roomscape

namespace Host

variable {σ κ : Type}

section Names

variable {host : Host (StateM σ)} {options : LoadOptions} {s t : σ}

theorem name_of_placeSprites {entries : List SpriteEntry} {shelf : Shelf} {room : Room}
    {placed : Room × Shelf}
    (run : (host.placeSprites options entries shelf room).outcome s = (.ok placed, t)) :
    placed.1.name = room.name := by
  induction entries generalizing shelf room s with
  | nil =>
    cases run
    rfl
  | cons entry rest ih =>
    obtain ⟨⟨image, shelf'⟩, u, taken, run⟩ := Task.outcome_bind_eq_ok run
    have kept : (room.place ⟨entry.x, entry.y, image⟩).name = room.name := rfl
    exact (ih run).trans kept

/-- A room has the name of its manifest, whatever the system answers. -/
theorem name_of_buildRoom {m : Manifest} {room : Room}
    (run : (host.buildRoom m options).outcome s = (.ok room, t)) : room.name = m.name := by
  obtain ⟨photo, u, loaded, run⟩ := Task.outcome_bind_eq_ok run
  obtain ⟨⟨placed, shelf⟩, v, filled, run⟩ := Task.outcome_bind_eq_ok run
  obtain ⟨_, v', noted, run⟩ := Task.outcome_bind_eq_ok run
  cases run
  exact name_of_placeSprites filled

end Names

/-- A system on which reading files and telling people something leave what is seen of it as it is. -/
structure Rests (host : Host (StateM σ)) (view : σ → κ) : Prop where
  openFile : ∀ path s, view ((host.openFile path).run s).2 = view s
  workingFolder : ∀ s, view (host.workingFolder.run s).2 = view s
  report : ∀ line s, view ((host.report line).run s).2 = view s
  note : ∀ notice s, view ((host.note notice).run s).2 = view s

variable {host : Host (StateM σ)} {view : σ → κ} (rests : host.Rests view) (options : LoadOptions)

namespace Rests

include rests

theorem loadManifest_keeps (path : UnixPath) : (host.loadManifest path).Keeps view := by
  refine .bind (.lift (readText_keeps rests.openFile path)) fun text => ?_
  match text with
  | .error .absent => exact .throw _
  | .error .refused => exact .throw _
  | .ok text => exact .bind (.ofExcept _) fun _ => .pure _

theorem loadPhoto_keeps (path : UnixPath) : (host.loadPhoto path options).Keeps view :=
  .bind (decode_keeps rests.openFile path _) fun (_, _) =>
    .bind (.forM fun notice => .lift (rests.note notice)) fun _ =>
      .bind (.lift (rests.note _)) fun _ => .pure _

theorem loadImage_keeps (path : UnixPath) : (host.loadImage path options).Keeps view :=
  .bind (decode_keeps rests.openFile path _) fun _ => .bind (.lift (rests.note _)) fun _ => .pure _

theorem takeImage_keeps (shelf : Shelf) (path : UnixPath) :
    (host.takeImage options shelf path).Keeps view := by
  unfold takeImage
  split
  · exact .pure _
  · exact .bind (rests.loadImage_keeps options path) fun _ => .pure _

theorem placeSprites_keeps (entries : List SpriteEntry) (shelf : Shelf) (room : Room) :
    (host.placeSprites options entries shelf room).Keeps view := by
  induction entries generalizing shelf room with
  | nil => exact .pure _
  | cons s rest ih => exact .bind (rests.takeImage_keeps options shelf s.image) fun (_, _) => ih _ _

theorem buildRoom_keeps (m : Manifest) : (host.buildRoom m options).Keeps view :=
  .bind (rests.loadPhoto_keeps options m.photo) fun _ =>
    .bind (rests.placeSprites_keeps options m.sprites [] _) fun (_, _) =>
      .bind (.lift (rests.note _)) fun _ => .pure _

end Rests
end Host

namespace Program

variable {σ κ : Type} {host : Host (StateM σ)} {view : σ → κ} (printer : Printer)
  {config : ViewConfig}

theorem say_keeps (rests : host.Rests view) (tone : Tone) (verb message : String) :
    (say host printer tone verb message).Keeps view :=
  .lift (rests.report _)

theorem compose_keeps (rests : host.Rests view) (room : Room) (x y : Int32) (order : ScanOrder) :
    (compose host config room x y order).Keeps view := by
  refine .bind (.ofExcept _) fun viewer => ?_
  refine .bind (.lift (rests.note _)) fun _ => ?_
  dsimp only
  split
  · exact .bind (.ofExcept _) fun _ => .bind (.ofExcept _) fun _ => .pure _
  · exact .throw _

/-- The course of a rendering that ends well. What is seen of the system changes only between `u₁` and
`u₃`, where the folder of the output is prepared and the picture saved. -/
theorem render_course (rests : host.Rests view) {manifest : UnixPath} {x y : Int32}
    {target : Option UnixPath} {scale : Nat} {vertical : Bool} {s t : σ}
    (run : (render host printer config manifest x y target scale vertical).outcome s = (.ok (), t)) :
    ∃ m room frame table s₁ s₂ s₃ u₁ u₂ u₃,
      let path := target.getD ⟨room.name ++ ".png"⟩
      (host.loadManifest manifest).outcome s = (.ok m, s₁) ∧
      (host.buildRoom m config.load).outcome s₂ = (.ok room, s₃) ∧
      (compose host config room x y (if vertical then .columns else .rows)).outcome s₃ =
        (.ok (frame, table), u₁) ∧
      (prepareFolder host path).outcome u₁ = (.ok (), u₂) ∧
      (saveFrame host frame table path scale).outcome u₂ = (.ok (), u₃) ∧
      view s₂ = view s ∧ view u₁ = view s ∧ view t = view u₃ := by
  obtain ⟨m, s₁, loaded, run⟩ := Task.outcome_bind_eq_ok run
  obtain ⟨_, s₂, said, run⟩ := Task.outcome_bind_eq_ok run
  obtain ⟨room, s₃, built, run⟩ := Task.outcome_bind_eq_ok run
  obtain ⟨⟨frame, table⟩, u₁, composed, run⟩ := Task.outcome_bind_eq_ok run
  obtain ⟨_, u₂, prepared, run⟩ := Task.outcome_bind_eq_ok run
  obtain ⟨_, u₃, saved, run⟩ := Task.outcome_bind_eq_ok run
  obtain ⟨shown, u₄, displayed, told⟩ := Task.outcome_bind_eq_ok run
  have kept₂ : view s₂ = view s :=
    ((say_keeps printer rests _ _ _).outcome_eq said).trans
      ((rests.loadManifest_keeps manifest).outcome_eq loaded)
  have kept₃ := (rests.buildRoom_keeps config.load m).outcome_eq built
  have kept := (compose_keeps rests room x y _).outcome_eq composed
  have displays : (display host (target.getD ⟨room.name ++ ".png"⟩)).Keeps view :=
    .lift (Host.displayPath_keeps rests.workingFolder _)
  exact ⟨m, room, frame, table, s₁, s₂, s₃, u₁, u₂, u₃, loaded, built, composed, prepared, saved,
    kept₂, kept.trans (kept₃.trans kept₂),
    ((say_keeps printer rests _ _ _).outcome_eq told).trans (displays.outcome_eq displayed)⟩

end Program
end Roomscape
