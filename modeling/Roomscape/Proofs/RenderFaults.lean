import Roomscape.Proofs.DecoderFaults
import Roomscape.Proofs.RenderedFiles

/-! What can go wrong in rendering with settings that were accepted. As the offset fits the display, the
window has pixels, and activation sends a whole palette, it lies in the files or in the size of the window
and its picture. -/
namespace Roomscape

/-- Neither a render error nor a palette of the wrong length. -/
def Fault.SparesDisplay (fault : Fault) : Prop :=
  fault.category ≠ .render ∧ ∀ file got, fault ≠ .malformed file (.paletteLength got)

namespace Fault

theorem sparesDisplay_malformed {file : Option UnixPath} {flaw : Flaw}
    (other : ∀ got, flaw ≠ .paletteLength got) : (malformed file flaw).SparesDisplay := by
  refine ⟨by simp [category], fun _ got same => ?_⟩
  cases same
  exact other got rfl

/-- Faults of the other kinds that are no render errors. -/
theorem sparesDisplay_of_category {fault : Fault}
    (other : fault.category ≠ .render ∧ fault.category ≠ .malformed) : fault.SparesDisplay := by
  refine ⟨other.1, fun file got same => other.2 ?_⟩
  rw [same]
  rfl

theorem OfStream.sparesDisplay {fault : Fault} (ofStream : fault.OfStream) : fault.SparesDisplay := by
  cases ofStream with
  | malformed other => exact sparesDisplay_malformed other
  | readFailed text => exact sparesDisplay_of_category (by simp [category])
  | exhausted shortage => exact sparesDisplay_of_category (by simp [category])

theorem SparesDisplay.inFile {fault : Fault} (spares : fault.SparesDisplay) (path : UnixPath) :
    (fault.inFile path).SparesDisplay := by
  unfold Fault.inFile
  split
  · exact sparesDisplay_of_category (by simp [category])
  · rename_i flaw
    exact sparesDisplay_malformed fun got same => spares.2 none got (same ▸ rfl)
  · exact spares

end Fault

open Fault (SparesDisplay OfStream)

section Files

theorem Manifest.parse_spares {text : String} {fault : Fault}
    (failed : Manifest.parse text = .error fault) : fault.SparesDisplay := by
  have only : fault = .badManifest := by
    unfold Manifest.parse at failed
    split at failed
    · exact (Except.error.inj failed).symm
    · split at failed
      · exact (Except.error.inj failed).symm
      · split at failed
        · exact (Except.error.inj failed).symm
        · cases failed
  exact only ▸ Fault.sparesDisplay_of_category (by simp [Fault.category])

end Files

namespace Host

variable {σ α : Type} (host : Host (StateM σ)) (path : UnixPath) (options : LoadOptions)

theorem decode_spares {decoder : Decoder α} (fails : decoder.FailsOnly OfStream) :
    (host.decode path decoder).FailsOnly SparesDisplay := by
  refine .bind (.lift _) fun opened => ?_
  match opened with
  | .error .absent => exact .throw (Fault.sparesDisplay_of_category (by simp [Fault.category]))
  | .error .refused => exact .throw (Fault.sparesDisplay_of_category (by simp [Fault.category]))
  | .ok source =>
    dsimp only
    split
    · exact .pure _
    · rename_i fault t failed
      exact .throw ((fails source fault t failed).sparesDisplay.inFile path)

theorem loadPhoto_spares : (host.loadPhoto path options).FailsOnly SparesDisplay :=
  .bind (host.decode_spares path (PixelFile.photo_failsOnly options)) fun _ =>
    .bind (.forM fun _ _ => .lift _) fun _ => .bind (.lift _) fun _ => .pure _

theorem loadImage_spares : (host.loadImage path options).FailsOnly SparesDisplay :=
  .bind (host.decode_spares path (PixelFile.sprite_failsOnly options)) fun _ =>
    .bind (.lift _) fun _ => .pure _

theorem takeImage_spares (shelf : Shelf) :
    (host.takeImage options shelf path).FailsOnly SparesDisplay := by
  unfold takeImage
  split
  · exact .pure _
  · exact .bind (host.loadImage_spares path options) fun _ => .pure _

theorem placeSprites_spares (entries : List SpriteEntry) (shelf : Shelf) (room : Room) :
    (host.placeSprites options entries shelf room).FailsOnly SparesDisplay := by
  induction entries generalizing shelf room with
  | nil => exact .pure _
  | cons entry rest ih =>
    exact .bind (host.takeImage_spares entry.image options shelf) fun (_, shelf) => ih shelf _

theorem buildRoom_spares (manifest : Manifest) :
    (host.buildRoom manifest options).FailsOnly SparesDisplay :=
  .bind (host.loadPhoto_spares manifest.photo options) fun _ =>
    .bind (host.placeSprites_spares options manifest.sprites [] _) fun (_, _) =>
      .bind (.lift _) fun _ => .pure _

theorem loadManifest_spares : (host.loadManifest path).FailsOnly SparesDisplay := by
  refine .bind (.lift _) fun text => ?_
  match text with
  | .error .absent => exact .throw (Fault.sparesDisplay_of_category (by simp [Fault.category]))
  | .error .refused => exact .throw (Fault.sparesDisplay_of_category (by simp [Fault.category]))
  | .ok text => exact .bind (.ofExcept fun _ => Manifest.parse_spares) fun _ => .pure _

end Host

theorem Viewer.window_spares (v : Viewer) {x y : Int32} {width height : Nat} {order : ScanOrder}
    {fault : Fault} (failed : v.window x y width height order = .error fault) :
    fault.SparesDisplay := by
  rcases Nat.lt_or_ge largestBuffer (width * height) with large | area
  · obtain ⟨shortage, refused⟩ := v.window_exhausted x y width height large
    cases failed.symm.trans (refused order)
    exact Fault.sparesDisplay_of_category (by simp [Fault.category])
  by_cases unbounded : order = .columns ∧ largestBuffer < height
  · obtain ⟨rfl, tall⟩ := unbounded
    obtain ⟨_, broken⟩ := v.window_unbounded x y width height area tall
    cases failed.symm.trans broken
    exact Fault.sparesDisplay_of_category (by simp [Fault.category])
  · obtain ⟨frame, made, _⟩ := v.window_made x y width height area unbounded
    cases failed.symm.trans made

namespace Program

variable {σ : Type} (host : Host (StateM σ)) {config : ViewConfig}

theorem compose_spares (showable : config.Showable) (room : Room) (x y : Int32)
    (order : ScanOrder) : (compose host config room x y order).FailsOnly SparesDisplay := by
  rw [compose_eq host showable]
  exact .bind (.lift _) fun _ => .bind (.ofExcept fun _ => Viewer.window_spares _) fun _ => .pure _

theorem prepareFolder_spares (target : UnixPath) :
    (prepareFolder host target).FailsOnly SparesDisplay := by
  unfold prepareFolder
  split
  · exact .pure _
  · split
    · refine .bind (.lift _) fun made => ?_
      split
      · exact .throw (Fault.sparesDisplay_of_category (by simp [Fault.category]))
      · exact .pure _
    · exact .pure _

theorem saveFrame_spares {frame : Grid UInt8} (shows : frame.isEmpty = false) (table : Display)
    (target : UnixPath) (scale : Nat) :
    (saveFrame host frame table target scale).FailsOnly SparesDisplay := by
  unfold saveFrame
  rw [shows]
  refine .bind (.ofExcept fun fault failed => ?_) fun picture => .bind (.lift _) fun saved => ?_
  · rw [Picture.draw_fails failed]
    exact Fault.sparesDisplay_of_category (by simp [Fault.category])
  · split
    · exact .throw (Fault.sparesDisplay_of_category (by simp [Fault.category]))
    · exact .pure _

variable (printer : Printer)

/-- Rendering with settings that were offered never ends in a render error, nor in a palette of the
wrong length, whatever the files hold and the system does. -/
theorem render_spares_display (offered : config.Offered) (manifest : UnixPath) (x y : Int32)
    (target : Option UnixPath) (scale : Nat) (vertical : Bool) :
    (render host printer config manifest x y target scale vertical).FailsOnly SparesDisplay := by
  have showable := offered.showable
  refine .bind (host.loadManifest_spares manifest) fun manifest => ?_
  refine .bind (.lift _) fun _ => ?_
  refine .bind (host.buildRoom_spares config.load manifest) fun room => ?_
  -- That a frame can be saved is known only of one that was composed with these settings.
  refine .bind_of (compose_spares host showable room x y _) fun (frame, table) _ _ run => ?_
  have shows := isEmpty_of_compose host showable run
  refine .bind (prepareFolder_spares host _) fun _ => ?_
  refine .bind (saveFrame_spares host shows table _ scale) fun _ => ?_
  exact .bind (.lift _) fun shown => .lift _

/-- With the settings of a text a room is rendered; and where its picture is too large, that is no render
error either. -/
theorem render_spares_display_attic :
    ViewConfig.parse "scroll_width: 1\nscroll_height: 1\nload:\n  palette_mode: fixed\n" = .ok peephole ∧
    (∃ w', (render World.host ⟨false⟩ peephole ⟨"m"⟩ 0 0 none 1 false).outcome (attic unnamed) =
      (.ok (), w')) ∧
    ∃ fault w', (render World.host ⟨false⟩ peephole ⟨"m"⟩ 0 0 (some ⟨"a/x.png"⟩) 0xffffffff false).outcome
      (attic unnamed) = (.error fault, w') ∧ fault.SparesDisplay := by
  have parsed : ViewConfig.parse
      "scroll_width: 1\nscroll_height: 1\nload:\n  palette_mode: fixed\n" = .ok peephole :=
    ok_of_toOption (by decide +kernel)
  have spares := render_spares_display World.host ⟨false⟩ (.parsed parsed) ⟨"m"⟩ 0 0
    (some ⟨"a/x.png"⟩) 0xffffffff false
  obtain ⟨w', run, _⟩ := render_enormous
  exact ⟨parsed, render_unnamed, _, w', run, spares _ _ _ run⟩

end Program
end Roomscape
