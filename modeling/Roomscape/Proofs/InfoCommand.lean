import Roomscape.Proofs.FileReading
import Roomscape.Proofs.FineSelection
import Roomscape.Proofs.PaletteCommand

/-! What the info command says of a photo, and that it is right. -/
namespace Roomscape

/-- What is seen of a system: its files, its working folder, the lines that were printed and the lines
that were said to people. -/
structure View where
  files : UnixPath → Except OpenFailure Source
  here : Option UnixPath
  printed : Array String
  said : Array String

namespace View

def print (v : View) (line : String) : View := { v with printed := v.printed.push line }

def say (v : View) (line : String) : View := { v with said := v.said.push line }

/-- A path as it is shown to people. -/
def shown (v : View) (path : UnixPath) : String :=
  match v.here.bind path.relativeTo? with
  | some below => if below.text.isEmpty then "." else below.text
  | none => path.text

theorem foldl_print (v : View) (lines : List String) :
    lines.foldl print v = { v with printed := v.printed ++ lines.toArray } := by
  induction lines generalizing v with
  | nil => simp
  | cons line rest ih => simp [ih, print]

end View

/-- A system that answers by what is seen of it, which changes with the lines that are written. -/
structure Host.Seen {σ : Type} (host : Host (StateM σ)) (view : σ → View) : Prop extends
    host.Traces view View.print View.say where
  files : ∀ path s, ((host.openFile path).run s).1 = (view s).files path
  here : ∀ s, (host.workingFolder.run s).1 = (view s).here

def World.view (w : World) : View :=
  ⟨w.openFile, some ⟨"/" ++ "/".intercalate w.here⟩, w.output, w.reports⟩

theorem World.host_seen : World.host.Seen World.view :=
  ⟨⟨fun _ _ => rfl, fun _ => rfl, fun _ _ => rfl, fun _ _ => rfl, fun _ _ => rfl⟩,
    fun _ _ => rfl, fun _ => rfl⟩

section Command

variable {σ : Type} {host : Host (StateM σ)} {view : σ → View} {v : View}
  {file : UnixPath} {source rest : Source}

/-- A decoder that reads a file well reads it from the system. -/
theorem Host.Seen.decode_ends (seen : host.Seen view) {α : Type} {decoder : Decoder α} {value : α}
    (opened : v.files file = .ok source) (run : decoder source = .ok value rest) :
    (host.decode file decoder).Ends (view · = v) value (view · = v) := by
  have asked : (liftM (host.openFile file) : Task (StateM σ) _).Ends (view · = v) (.ok source)
      (view · = v) :=
    .lift fun s now => ⟨by rw [seen.files, now, opened], (seen.openFile file s).trans now⟩
  have decoded : decoder.run source = .ok value rest := run
  refine .bind asked ?_
  simp only [decoded]
  exact .pure value

namespace Program

open Quantized (dusk)

theorem display_ends (seen : host.Seen view) (path : UnixPath) :
    (display host path).Ends (view · = v) (v.shown path) (view · = v) := by
  refine .lift fun s now => ⟨?_, (Host.displayPath_keeps seen.workingFolder path s).trans now⟩
  rw [Host.displayPath, Host.run_bind, View.shown, seen.here, now]
  cases v.here.bind path.relativeTo? <;> rfl

/-- The warning about pixels that fell back to coarse colours, if there are any. -/
def fallbackWarning (printer : Printer) (fallen : Nat) : List String :=
  let missed := plural fallen "pixel" "pixels"
  if 0 < fallen then [printer.line .warning "Reduced" s!"{missed} fell back to coarse colours"] else []

/-- What is said of a photo: its size, and the warning if there is one. -/
def photoReports (printer : Printer) (shown : String) (raw : Grid Raw) (fallen : Nat) : List String :=
  printer.line .info "Header" s!"{shown} is {dimensions raw.width raw.height}" ::
    fallbackWarning printer fallen

/-- The command warns by its figures, and so exactly when a pixel has fallen back. -/
theorem warn_ends (seen : host.Seen view) (printer : Printer) (raw : Grid Raw) :
    let f := (Quantized.ofRaw raw).figures
    let warning : Task (StateM σ) Unit :=
      if fineSlots < f.fineUsed then
        let missed := plural (f.pixels - f.fineCoverage) "pixel" "pixels"
        say host printer .warning "Reduced" s!"{missed} fell back to coarse colours"
      else pure ()
    warning.Ends (view · = v) () (view · = { v with
      said := v.said ++ (fallbackWarning printer
        ((Quantized.ofRaw raw).indices.pixels.countP (128 ≤ ·.toNat))).toArray }) := by
  intro f warning
  have fallen := Quantized.countP_pos_iff raw
  have missed : f.pixels - f.fineCoverage = _ := Quantized.pixels_sub_fineCoverage raw
  by_cases many : fineSlots < f.fineUsed
  · simp only [warning, fallbackWarning, if_pos many, if_pos (fallen.mpr many), missed]
    exact say_ends seen.toTraces printer _ _ _
  · simp only [warning, fallbackWarning, if_neg many, if_neg (mt fallen.mp many), Array.append_empty]
    exact .pure ()

/-- If there is a photo in the file, the command ends well, having printed the figures of it. -/
theorem info_ends (seen : host.Seen view) (printer : Printer) {config : ViewConfig} {raw : Grid Raw}
    (opened : v.files file = .ok source)
    (read : PixelFile.rawPhoto config.load source = .ok raw rest) :
    (info host printer config file false).Ends (view · = v) () (view · = { v with
      printed := v.printed ++ (photoLines raw (Quantized.ofRaw raw).figures).toArray
      said := v.said ++ (photoReports printer (v.shown file) raw
        ((Quantized.ofRaw raw).indices.pixels.countP (128 ≤ ·.toNat))).toArray }) := by
  obtain ⟨h, _, front, width, height⟩ := (PixelFile.wrapsRawPhoto config.load).header_of_ok rfl read
  let heading := printer.line .info "Header" s!"{v.shown file} is {dimensions raw.width raw.height}"
  let lines := photoLines raw (Quantized.ofRaw raw).figures
  have warned := warn_ends (v := lines.foldl View.print (v.say heading)) seen printer raw
  rw [View.foldl_print] at warned
  rw [photoReports, List.toArray_cons, ← Array.append_assoc, ← Array.push_eq_append]
  refine .bind (seen.decode_ends opened front) (.bind (display_ends seen file) ?_)
  rw [← width, ← height]
  refine .bind (say_ends seen.toTraces printer _ _ _) ?_
  refine .bind (seen.decode_ends opened read) (.bind (quantize_ends seen.toTraces raw) ?_)
  refine .bind (write_ends seen.toTraces lines) ?_
  rw [View.foldl_print]
  exact warned

/-- The figures of a photo are right, and no 128 fine keys have more of its pixels than the fine slots
do. All pixels are in fine slots exactly when there are no more than 128 keys; otherwise the info
command warns of those that are not. -/
theorem fine_selection_optimal (raw : Grid Raw) :
    let q := Quantized.ofRaw raw
    let fallen := q.indices.pixels.countP (128 ≤ ·.toNat)
    q.figures.pixels = raw.width * raw.height ∧
    q.figures.fineUsed = (raw.keysUsed Raw.fineKey).card ∧
    q.figures.coarseUsed = (raw.keysUsed Raw.coarseKey).card ∧
    q.figures.fineCoverage = q.indices.pixels.countP (·.toNat < 128) ∧
    (∀ keys : Finset Nat, keys.card ≤ 128 →
      raw.pixels.countP (fun p => p.fineKey ∈ keys) ≤ q.figures.fineCoverage) ∧
    q.figures.fineCoverage ≤ q.figures.pixels ∧
    (q.figures.fineCoverage = q.figures.pixels ↔ q.figures.fineUsed ≤ 128) ∧
    q.figures.pixels - q.figures.fineCoverage = fallen ∧
    ∀ {σ : Type} {host : Host (StateM σ)} {view : σ → View}, host.Seen view →
      ∀ printer config file s source rest, (view s).files file = .ok source →
        PixelFile.rawPhoto config.load source = .ok raw rest →
          ∃ u, (info host printer config file false).outcome s = (.ok (), u) ∧
            view u = { view s with
              printed := (view s).printed ++ (photoLines raw q.figures).toArray
              said := (view s).said ++
                (photoReports printer ((view s).shown file) raw fallen).toArray } := by
  intro q fallen
  refine ⟨raw.size_pixels, Quantized.fineUsed_eq_card raw, Quantized.coarseUsed_eq_card raw,
    (Quantized.countP_indices raw).symm, fun keys few => Quantized.countP_mem_le_fineCoverage raw few,
    Quantized.fineCoverage_le_len raw, ?_, Quantized.pixels_sub_fineCoverage raw, ?_⟩
  · rw [Quantized.fineUsed_eq_card]
    exact Quantized.fineCoverage_eq_len_iff raw
  · intro σ host view seen printer config file s source rest opened read
    exact info_ends seen printer opened read s rfl

theorem fine_selection_optimal_dusk :
    let q := Quantized.ofRaw dusk
    q.figures.fineUsed = 2 ∧ q.figures.fineCoverage = 3 ∧
    dusk.pixels.countP (fun p => p.fineKey ∈ ({0} : Finset Nat)) = 2 ∧
    dusk.pixels.countP (fun p => p.fineKey ∈ ({0} : Finset Nat)) ≤ q.figures.fineCoverage ∧
    ∃ u, (info World.host ⟨false⟩ .standard ⟨"dusk"⟩ false).outcome duskWorld = (.ok (), u) ∧
      u.view = { duskWorld.view with
        printed := duskWorld.view.printed ++ (photoLines dusk q.figures).toArray
        said := duskWorld.view.said ++ (photoReports ⟨false⟩ (duskWorld.view.shown ⟨"dusk"⟩) dusk
          (q.indices.pixels.countP (128 ≤ ·.toNat))).toArray } := by
  intro q
  obtain ⟨pixels, used, _, _, most, _, whole, _, informs⟩ := fine_selection_optimal dusk
  have two : q.figures.fineUsed = 2 := used.trans (by decide)
  have covered : q.figures.fineCoverage = 3 := (whole.mpr (two ▸ by decide)).trans pixels
  exact ⟨two, covered, by decide, most {0} (by decide),
    informs World.host_seen ⟨false⟩ .standard _ _ _ _ opened_dusk read_dusk⟩

end Program
end Command
end Roomscape
