import Roomscape.Host
import Roomscape.ViewConfig

/-!
Finding the view's settings: in the file that is named, or in the one that a folder may hold.
-/
namespace Roomscape.Host

variable {m : Type → Type} [Monad m] (host : Host m)

def loadConfig (path : UnixPath) : Task m ViewConfig := do
  match ← host.readText path with
  | .error _ => throw (.file path .readConfig)
  | .ok text => ofExcept (ViewConfig.parse text)

/-- The settings, and the file that they stand in, if there is one. -/
def discoverConfig (named : Option UnixPath) (folder : UnixPath) :
    Task m (ViewConfig × Option UnixPath) := do
  match named with
  | some path => return (← host.loadConfig path, some path)
  | none =>
    let candidate := folder.join ViewConfig.fileName
    if ← host.isFile candidate then return (← host.loadConfig candidate, some candidate)
    else return (ViewConfig.standard, none)

end Roomscape.Host
