import Roomscape.UnixPath

/-!
The command line. Every level, the program's own and that of each command, is described by data: which
options it has, what they take, and whether an operand follows. One reader serves all levels.

The value of an option or operand is checked when the next argument that settles it comes, so that an
unknown argument is reported before a bad value in front of it.
-/
namespace Roomscape

inductive Shell where
  | bash
  | elvish
  | fish
  | powershell
  | zsh
deriving DecidableEq

def Shell.all : List Shell := [.bash, .elvish, .fish, .powershell, .zsh]

def Shell.name : Shell → String
  | .bash => "bash"
  | .elvish => "elvish"
  | .fish => "fish"
  | .powershell => "powershell"
  | .zsh => "zsh"

inductive Command where
  | info (file : UnixPath) (sprite : Bool)
  | palette (file : UnixPath) (most : Option Nat) (json : Bool)
  | render (room : UnixPath) (x y : Int32) (target : Option UnixPath) (scale : Nat)
      (vertical : Bool)
  | completions (shell : Shell)
deriving DecidableEq

structure CommandLine where
  config : Option UnixPath
  command : Command
deriving DecidableEq

namespace CommandLine

inductive Refusal where
  | help
  | version
  | nothingGiven
  | missingCommand
  | unknownCommand
  | unknownArgument
  | missingOperand
  | badValue
  | unreadableValue
  | repeated
  | unwantedValue
deriving DecidableEq

inductive ValueKind where
  | path
  | natural (limit : Nat)
  | coordinate
  | shell

inductive Value where
  | present
  | path (p : UnixPath)
  | natural (n : Nat)
  | coordinate (n : Int32)
  | shell (s : Shell)

/-- One or more digits, in front of which a plus sign may stand. -/
def natural? (text : List Char) : Option Nat :=
  let digits := if text.head? == some '+' then text.drop 1 else text
  if digits.isEmpty || !digits.all Char.isDigit then none
  else some (digits.foldl (fun n d => 10 * n + (d.toNat - 48)) 0)

def integer? (text : List Char) : Option Int :=
  match text with
  | '-' :: '+' :: _ => none
  | '-' :: digits => (natural? digits).map fun n => -(n : Int)
  | _ => (natural? text).map Int.ofNat

def ValueKind.read (kind : ValueKind) (text : String) : Except Refusal Value :=
  match kind with
  | .path => if text.isEmpty then .error .badValue else .ok (.path ⟨text⟩)
  | .natural limit =>
    match natural? text.toList with
    | some n => if n ≤ limit then .ok (.natural n) else .error .unreadableValue
    | none => .error .unreadableValue
  | .coordinate =>
    match integer? text.toList with
    | some n =>
      if Int32.minValue.toInt ≤ n ∧ n ≤ Int32.maxValue.toInt then .ok (.coordinate (Int32.ofInt n))
      else .error .unreadableValue
    | none => .error .unreadableValue
  | .shell =>
    match Shell.all.find? fun s => s.name == text with
    | some s => .ok (.shell s)
    | none => .error .badValue

inductive Action where
  | flag
  /-- `hyphens` lets the value begin with a hyphen. -/
  | value (kind : ValueKind) (hyphens : Bool)
  | help
  | version

structure Switch where
  name : String
  short : Option Char
  action : Action

structure Level where
  switches : List Switch
  operand : Option ValueKind
  commands : List String

/-- An option or operand whose value is not settled yet. Operands have no name. -/
structure Pending where
  name : Option String
  kind : ValueKind
  hyphens : Bool
  text : Option String

/-- What was read so far at one level. -/
structure Reading where
  given : List (Option String × Value)
  pending : Option Pending
  hasOperand : Bool
  /-- Only operands follow. -/
  operandsOnly : Bool

namespace Reading

def start : Reading := ⟨[], none, false, false⟩

def awaiting (r : Reading) : Option Pending :=
  if r.operandsOnly then none else r.pending.filter fun p => p.text.isNone

def lookup (r : Reading) (name : Option String) : Option Value :=
  (r.given.find? fun g => g.1 == name).map Prod.snd

def record (r : Reading) (name : Option String) (value : Value) : Reading :=
  { r with given := r.given ++ [(name, value)] }

/-- Check a value and keep it. An option is given once. -/
def accept (r : Reading) (name : Option String) (kind : ValueKind) (text : String) :
    Except Refusal Reading := do
  if (r.lookup name).isSome then throw .repeated
  return r.record name (← kind.read text)

def settle (r : Reading) : Except Refusal Reading :=
  match r.pending with
  | none => .ok r
  | some p =>
    match p.text with
    | none => .error .badValue
    | some text => { r with pending := none }.accept p.name p.kind text

def feed (r : Reading) (text : String) : Reading :=
  { r with pending := r.pending.map fun p => { p with text := some text } }

/-- Act on an option that stands with `attached` as its value, if there is one. -/
def act (r : Reading) (s : Switch) (attached : Option String) : Except Refusal Reading :=
  match s.action, attached with
  | .value kind _, some text => do (← r.settle).accept s.name kind text
  | .value kind hyphens, none => do
    return { (← r.settle) with pending := some ⟨some s.name, kind, hyphens, none⟩ }
  | _, some _ => .error .unwantedValue
  | .flag, none => do
    let r ← r.settle
    if (r.lookup s.name).isSome then throw .repeated
    return r.record s.name .present
  | .help, none => do
    let _ ← r.settle
    throw .help
  | .version, none => do
    let _ ← r.settle
    throw .version

end Reading

namespace Level

def named (l : Level) (name : String) : Except Refusal Switch :=
  match l.switches.find? fun s => s.name == name with
  | some s => .ok s
  | none => .error .unknownArgument

def lettered (l : Level) (letter : Char) : Except Refusal Switch :=
  match l.switches.find? fun s => s.short == some letter with
  | some s => .ok s
  | none => .error .unknownArgument

/-- Options of one letter behind one hyphen. What follows a letter that takes a value is the value. -/
def cluster (l : Level) (r : Reading) : List Char → Except Refusal Reading
  | [] => .ok r
  | letter :: rest => do
    let s ← l.lettered letter
    match s.action with
    | .value .. =>
      let text := if rest.head? == some '=' then rest.drop 1 else rest
      r.act s (if rest.isEmpty then none else some (String.ofList text))
    | _ => l.cluster (← r.act s none) rest

def takeOperand (l : Level) (r : Reading) (text : String) : Except Refusal Reading := do
  match l.operand with
  | some kind =>
    if r.hasOperand then throw .unknownArgument
    return { (← r.settle) with pending := some ⟨none, kind, false, some text⟩, hasOperand := true }
  | none =>
    throw (if r.operandsOnly && l.commands.contains text then .unknownArgument else .unknownCommand)

def splitLong (cs : List Char) : String × Option String :=
  match cs.span (· != '=') with
  | (name, _ :: value) => (String.ofList name, some (String.ofList value))
  | (name, []) => (String.ofList name, none)

def take (l : Level) (r : Reading) (arg : String) : Except Refusal Reading :=
  if r.operandsOnly then l.takeOperand r arg
  else if r.awaiting.any (·.hyphens) then .ok (r.feed arg)
  else
    match arg.toList with
    | ['-', '-'] => .ok { r with operandsOnly := true }
    | '-' :: '-' :: long => do
      let (name, value) := splitLong long
      r.act (← l.named name) value
    | '-' :: letter :: rest => l.cluster r (letter :: rest)
    | _ => if r.awaiting.isSome then .ok (r.feed arg) else l.takeOperand r arg

/-- Read up to the name of a command, which is answered with the arguments after it, or to the end. -/
def scan (l : Level) (r : Reading) :
    List String → Except Refusal (Reading × Option (String × List String))
  | [] => .ok (r, none)
  | arg :: rest =>
    if !r.operandsOnly && r.awaiting.isNone && l.commands.contains arg then
      .ok (r, some (arg, rest))
    else do l.scan (← l.take r arg) rest

/-- Read all arguments of a command. Its operand has to be there. -/
def finish (l : Level) (args : List String) : Except Refusal Reading := do
  let (r, _) ← l.scan .start args
  let r ← r.settle
  if l.operand.isSome && !r.hasOperand then throw .missingOperand
  return r

end Level

def helpSwitch : Switch := ⟨"help", some 'h', .help⟩

def configSwitch : Switch := ⟨"config", none, .value .path false⟩

def helpName : String := "help"

inductive Verb where
  | info
  | palette
  | render
  | completions

def Verb.all : List Verb := [.info, .palette, .render, .completions]

def Verb.name : Verb → String
  | .info => "info"
  | .palette => "palette"
  | .render => "render"
  | .completions => "completions"

def Verb.ofName? (name : String) : Option Verb := Verb.all.find? fun v => v.name == name

def top : Level :=
  { switches := [configSwitch, helpSwitch, ⟨"version", some 'V', .version⟩]
    operand := none
    commands := Verb.all.map Verb.name ++ [helpName] }

def Verb.level (v : Verb) : Level :=
  let own : List Switch × ValueKind :=
    match v with
    | .info => ([⟨"sprite", none, .flag⟩], .path)
    | .palette =>
      ([⟨"max", none, .value (.natural (UInt64.size - 1)) false⟩, ⟨"json", none, .flag⟩], .path)
    | .render =>
      ([⟨"x", none, .value .coordinate true⟩, ⟨"y", none, .value .coordinate true⟩,
        ⟨"output", some 'o', .value .path false⟩,
        ⟨"scale", none, .value (.natural (UInt32.size - 1)) false⟩, ⟨"vertical", none, .flag⟩], .path)
    | .completions => ([], .shell)
  ⟨own.1 ++ [configSwitch, helpSwitch], some own.2, []⟩

namespace Reading

def path? (r : Reading) (name : Option String) : Option UnixPath :=
  match r.lookup name with
  | some (.path p) => some p
  | _ => none

def natural? (r : Reading) (name : String) : Option Nat :=
  match r.lookup name with
  | some (.natural n) => some n
  | _ => none

def coordinate? (r : Reading) (name : String) : Option Int32 :=
  match r.lookup name with
  | some (.coordinate n) => some n
  | _ => none

def shell? (r : Reading) : Option Shell :=
  match r.lookup none with
  | some (.shell s) => some s
  | _ => none

def has (r : Reading) (name : String) : Bool := (r.lookup name).isSome

end Reading

def Verb.command? (v : Verb) (r : Reading) : Option Command :=
  match v with
  | .info => do return .info (← r.path? none) (r.has "sprite")
  | .palette => do return .palette (← r.path? none) (r.natural? "max") (r.has "json")
  | .render => do
    return .render (← r.path? none) ((r.coordinate? "x").getD 0) ((r.coordinate? "y").getD 0)
      (r.path? (some "output")) ((r.natural? "scale").getD 1) (r.has "vertical")
  | .completions => do return .completions (← r.shell?)

/-- What follows the command for help: the name of a command, or nothing. -/
def helpRefusal : List String → Refusal
  | [] => .help
  | [name] => if top.commands.contains name then .help else .unknownCommand
  | _ => .unknownCommand

/-- The arguments after the program's name. The option for the settings may stand before the command
and after it, and what stands after it wins. -/
def parse (args : List String) : Except Refusal CommandLine := do
  match ← top.scan .start args with
  | (r, none) =>
    let r ← r.settle
    throw (if r.given.isEmpty then .nothingGiven else .missingCommand)
  | (r, some (name, rest)) =>
    match Verb.ofName? name with
    | none => throw (helpRefusal rest)
    | some verb =>
      let own ← verb.level.finish rest
      let r ← r.settle
      match verb.command? own with
      | some command => return ⟨(own.path? "config").orElse fun _ => r.path? "config", command⟩
      | none => throw .missingOperand

end CommandLine
end Roomscape
