import Roomscape.Proofs.CommandLines
import Roomscape.Proofs.FineSelection
import Roomscape.Proofs.Listing
import Roomscape.Proofs.StillFiles

/-! What the palette command prints. -/
namespace Roomscape

/-- A system on which lines of output are kept in a log, and nothing else is written there. Only what
the command asks of the system is said. -/
structure Host.Logs {σ : Type} (host : Host (StateM σ)) (log : σ → Array String) : Prop where
  output : ∀ line s, log ((host.output line).run s).2 = (log s).push line
  openFile : ∀ path s, log ((host.openFile path).run s).2 = log s
  workingFolder : ∀ s, log (host.workingFolder.run s).2 = log s
  report : ∀ line s, log ((host.report line).run s).2 = log s
  note : ∀ notice s, log ((host.note notice).run s).2 = log s

theorem World.host_logs : World.host.Logs World.output :=
  ⟨fun _ _ => rfl, fun _ _ => rfl, fun _ => rfl, fun _ _ => rfl, fun _ _ => rfl⟩

section Command

variable {σ : Type} {host : Host (StateM σ)} {log : σ → Array String}

/-- The log grows with the lines of output and leaves out what is said to people. -/
theorem Host.Logs.traces (logs : host.Logs log) :
    host.Traces log (fun lines line => lines.push line) fun lines _ => lines where
  openFile := logs.openFile
  workingFolder := logs.workingFolder
  note := logs.note
  output := logs.output
  report := logs.report

namespace Program

open Quantized (dusk)

theorem display_outcome (logs : host.Logs log) (path : UnixPath) (s : σ) :
    ∃ shown t, (display host path).outcome s = (.ok shown, t) ∧ log t = log s :=
  ⟨_, _, Task.outcome_lift _ s, Host.displayPath_keeps logs.workingFolder path s⟩

/-- The lines of a listing as they are printed in either form. -/
def printed (lines : List SlotLine) (json : Bool) : List String :=
  if json then [SlotLine.jsonArray lines] else lines.map SlotLine.plain

/-- Once the photo is read the command ends well, having printed the lines that it is to print. -/
theorem palette_outcome (logs : host.Logs log) (printer : Printer) {config : ViewConfig}
    {file : UnixPath} {raw : Grid Raw} {s t : σ}
    (loaded : (host.loadRaw file config.load).outcome s = (.ok raw, t)) (most : Option Nat)
    (json : Bool) :
    ∃ u, (palette host printer config file most json).outcome s = (.ok (), u) ∧
      log u = log s ++ (printed (listed (Quantized.ofRaw raw) most) json).toArray := by
  have kept : log t = log s := by
    have keeps := Host.decode_keeps logs.openFile file (PixelFile.rawPhoto config.load) s
    change log ((host.loadRaw file config.load).outcome s).2 = _ at keeps
    rwa [loaded] at keeps
  obtain ⟨t₁, quantized, kept₁⟩ := quantize_ends logs.traces raw t rfl
  obtain ⟨shown, t₂, displayed, kept₂⟩ := display_outcome logs file t₁
  let count := plural (listed (Quantized.ofRaw raw) most).length "colour" "colours"
  obtain ⟨t₃, said, kept₃⟩ :=
    say_ends logs.traces printer .status "Quantized" s!"{count} from {shown}" t₂ rfl
  obtain ⟨u, written, added⟩ :=
    write_ends logs.traces (printed (listed (Quantized.ofRaw raw) most) json) t₃ rfl
  rw [List.foldl_push_eq_append', kept₃, kept₂, kept₁, kept] at added
  refine ⟨u, ?_, added⟩
  calc
    _ = _ := Task.outcome_bind_ok loaded
    _ = _ := Task.outcome_bind_ok quantized
    _ = _ := Task.outcome_bind_ok displayed
    _ = _ := Task.outcome_bind_ok said
    _ = _ := written

/-- A listing leaves out nothing that an index refers to and no colour but black. The palette command
prints its first lines, and from either form the same ones are read in the same order. -/
theorem palette_listing_complete (raw : Grid Raw) :
    let q := Quantized.ofRaw raw
    let lines := q.palette.listing q.figures.fineUsed
    q.ListedIn lines ∧
    (∀ n, (printed (lines.take n) false).map SlotLine.readPlain? =
      (lines.take n).map fun l => some (l.name, l.colour)) ∧
    (∀ n, ∃ text, printed (lines.take n) true = [text] ∧
      Word.read .between text.toList = (lines.take n).flatMap SlotLine.words) ∧
    ∀ {σ : Type} {host : Host (StateM σ)} {log : σ → Array String}, host.Logs log →
      ∀ printer config file n json s t,
        (host.loadRaw file config.load).outcome s = (.ok raw, t) →
          ∃ u, (palette host printer config file (some n) json).outcome s = (.ok (), u) ∧
            log u = log s ++ (printed (lines.take n) json).toArray := by
  intro q lines
  have printable (n : Nat) : ∀ l ∈ lines.take n, l.Printable := fun l member =>
    Palette.printable_of_mem_listing _ (List.mem_of_mem_take member)
  refine ⟨Quantized.listedIn_listing raw, ?_, ?_, ?_⟩
  · intro n
    refine (List.map_map ..).trans (List.map_congr_left fun l member => ?_)
    exact SlotLine.readPlain?_plain (printable n l member)
  · intro n
    exact ⟨_, rfl, SlotLine.read_jsonArray (printable n)⟩
  · intro σ host log logs printer config file n json s t loaded
    exact palette_outcome logs printer loaded (some n) json

/-- A system with nothing but the file of a photo. -/
def duskWorld : World :=
  ⟨FileTree.bare.put ["dusk"] (.file [3, 0, 1, 0, 0x41, 0x08, 0xff, 0xff, 0x20, 0x00]), [],
    #[], #[], #[]⟩

theorem opened_dusk : duskWorld.openFile ⟨"dusk"⟩ =
    .ok (.ofBytes [3, 0, 1, 0, 0x41, 0x08, 0xff, 0xff, 0x20, 0x00]) :=
  World.openFile_name (by decide) (by decide) (by decide) rfl rfl

theorem read_dusk : PixelFile.rawPhoto .standard
    (.ofBytes [3, 0, 1, 0, 0x41, 0x08, 0xff, 0xff, 0x20, 0x00]) = .ok dusk ⟨[], 10⟩ :=
  rfl

theorem loaded_dusk : (World.host.loadRaw ⟨"dusk"⟩ .standard).outcome duskWorld =
    (.ok dusk, duskWorld) :=
  World.decode_of_open opened_dusk read_dusk

/-- Three pixels under two fine keys have two fine lines before the coarse ones. -/
theorem palette_listing_complete_dusk :
    let q := Quantized.ofRaw dusk
    let lines := q.palette.listing q.figures.fineUsed
    lines.length = 66 ∧
    (lines.take 2).map (fun l => (l.name, l.slot)) = [("fine-1", 0), ("fine-2", 1)] ∧
    (World.host.loadRaw ⟨"dusk"⟩ ViewConfig.standard.load).outcome duskWorld =
      (.ok dusk, duskWorld) ∧
    ∃ u, (palette World.host ⟨false⟩ .standard ⟨"dusk"⟩ (some 2) true).outcome duskWorld =
        (.ok (), u) ∧
      u.output = duskWorld.output ++ (printed (lines.take 2) true).toArray := by
  intro q lines
  have used : q.figures.fineUsed = 2 := (Quantized.fineUsed_eq_card dusk).trans (by decide)
  obtain ⟨complete, _, _, prints⟩ := palette_listing_complete dusk
  have complete : q.ListedIn lines := complete
  have length : lines.length = 66 := by rw [complete.length, used]; rfl
  obtain ⟨l, first, name, slot⟩ := complete.fine 0 (by rw [used]; decide)
  obtain ⟨l', second, name', slot'⟩ := complete.fine 1 (by rw [used]; decide)
  refine ⟨length, ?_, loaded_dusk,
    prints World.host_logs ⟨false⟩ .standard ⟨"dusk"⟩ 2 true _ _ loaded_dusk⟩
  have front : lines.take 2 = [l, l'] := by
    rw [List.take_add_one, List.take_add_one, List.take_zero, second, first]
    rfl
  rw [front, List.map_cons, List.map_singleton, name, name', slot, slot']
  rfl

end Program
end Command
end Roomscape
