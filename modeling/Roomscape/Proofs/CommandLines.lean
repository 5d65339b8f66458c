import Roomscape.Program
import Roomscape.Proofs.TaskRuns

/-! The lines that a command writes, as they change what is seen of the system. -/
namespace Roomscape

section

variable {σ κ : Type} {host : Host (StateM σ)} {view : σ → κ} {print say : κ → String → κ} {v : κ}

/-- A system of which something is seen that changes with the lines written to it, and with nothing
else that is asked by a command which reads one file. -/
structure Host.Traces (host : Host (StateM σ)) (view : σ → κ) (print say : κ → String → κ) : Prop where
  openFile : ∀ path s, view ((host.openFile path).run s).2 = view s
  workingFolder : ∀ s, view (host.workingFolder.run s).2 = view s
  note : ∀ notice s, view ((host.note notice).run s).2 = view s
  output : ∀ line s, view ((host.output line).run s).2 = print (view s) line
  report : ∀ line s, view ((host.report line).run s).2 = say (view s) line

namespace Program

variable (traces : host.Traces view print say)

include traces

theorem say_ends (printer : Printer) (tone : Tone) (verb message : String) :
    (Program.say host printer tone verb message).Ends (view · = v) ()
      (view · = say v (printer.line tone verb message)) :=
  .lift_unit fun s now => now ▸ traces.report _ s

theorem quantize_ends (raw : Grid Raw) :
    (quantize host raw).Ends (view · = v) (Quantized.ofRaw raw) (view · = v) :=
  .bind (.lift_unit fun s now => (traces.note _ s).trans now) (.pure _)

/-- Lines are printed one after the other. -/
theorem write_ends (lines : List String) :
    (write host lines).Ends (view · = v) () (view · = lines.foldl print v) := by
  induction lines generalizing v with
  | nil => exact .pure ()
  | cons line rest ih => exact .bind (.lift_unit fun s now => now ▸ traces.output line s) ih

end Program
end
end Roomscape
