import Roomscape.Percentage
import Roomscape.Quantized
import Roomscape.UnixPath

/-!
What the program says about its work while it runs.
-/
namespace Roomscape

inductive Notice where
  | quantized (width height : Nat) (figures : Figures)
  | loaded (kind : PixelKind) (path : UnixPath) (width height : Nat)
  | builtRoom (name : String) (placements images : Nat)
  | activated (name : String) (sprites : Nat)

namespace Notice

def level : Notice → String
  | .activated .. => "INFO"
  | _ => "DEBUG"

def text : Notice → String
  | .quantized w h f =>
    s!"quantized {dimensions w h}: {f.fineUsed} fine / {f.coarseUsed} coarse buckets used, " ++
    s!"{oneDecimal (f.fineRatio * 100.0)}% of pixels in fine slots"
  | .loaded kind path w h => s!"loaded {kind.text} {path.text} ({dimensions w h})"
  | .builtRoom name placements images =>
    s!"built room '{name}': {placements} placements, {images} distinct images"
  | .activated name sprites => s!"activating room '{name}' ({sprites} sprites)"

end Notice
end Roomscape
