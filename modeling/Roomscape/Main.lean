import Roomscape.Picture.Format
import Roomscape.Program

/-!
The program on a real system.
-/
namespace Roomscape

def succeeds (act : IO Unit) : IO Bool := do
  try
    act
    return true
  catch _ => return false

/-- The code of the failure to read a folder as a file. -/
def folderCode : UInt32 := 21

def openOnDisk (path : UnixPath) : IO (Except OpenFailure Source) := do
  try
    return .ok (Source.ofBytes (← IO.FS.readBinFile path.text).toList)
  catch
    | .noFileOrDirectory .. => return .error .absent
    | .inappropriateType _ code _ =>
      return if code == folderCode then .ok (Source.broken "Is a directory") else .error .refused
    | _ => return .error .refused

def disk : Host IO where
  openFile := openOnDisk
  isFile path := succeeds (discard (IO.FS.readBinFile path.text))
  makeFolders path := succeeds (IO.FS.createDirAll path.text)
  savePicture path content :=
    match PictureFormat.ofName? path with
    | none => return false
    | some format => do
      let made ← succeeds (IO.FS.writeBinFile path.text ⟨(format.bytes content).toArray⟩)
      return made && format.holds content
  workingFolder := do return some ⟨(← IO.currentDir).toString⟩
  output := IO.println
  report := IO.eprintln
  note _ := pure ()

def usageText : String := "Usage: roomview [--config FILE] <info|palette|render|completions|help> ..."

/-- What is said when there is no command to run, and the exit code. -/
def refuse : CommandLine.Refusal → IO UInt32
  | .version => do
    IO.println Program.versionText
    return 0
  | .help => do
    IO.println usageText
    return 0
  | _ => do
    IO.eprintln usageText
    return 2

def fail (fault : Fault) : IO UInt32 := do
  IO.eprintln s!"Error: {fault.category.code}: {fault.report}"
  if let some help := fault.help then IO.eprintln s!"  help: {help}"
  return 1

end Roomscape

def main (args : List String) : IO UInt32 := do
  match Roomscape.CommandLine.parse args with
  | .error refusal => Roomscape.refuse refusal
  | .ok line =>
    let colours := Roomscape.Printer.forOutput (← (← IO.getStderr).isTty) (← IO.getEnv "NO_COLOR")
    match ← (Roomscape.Program.run Roomscape.disk colours line).run with
    | .ok () => return 0
    | .error fault => Roomscape.fail fault
