/-!
Lines about the work: a verb, set flush right in a column of its own, and a message. On a terminal the
verb is bold and coloured.
-/
namespace Roomscape

structure Printer where
  colour : Bool
deriving DecidableEq

/-- What a line is about; it sets the colour of the verb. -/
inductive Tone where
  | status
  | info
  | warning
  | error
deriving DecidableEq

inductive Paint where
  | reset
  | bold
  | dim
  | red
  | green
  | yellow
  | cyan
deriving DecidableEq

def Paint.number : Paint → Nat
  | .reset => 0
  | .bold => 1
  | .dim => 2
  | .red => 31
  | .green => 32
  | .yellow => 33
  | .cyan => 36

def Paint.code (p : Paint) : String := s!"\x1b[{p.number}m"

def Tone.paint : Tone → Paint
  | .status => .green
  | .info => .cyan
  | .warning => .yellow
  | .error => .red

def verbWidth : Nat := 12

def flushRight (width : Nat) (text : String) : String :=
  String.ofList (List.replicate (width - text.length) ' ') ++ text

def plural (n : Nat) (one many : String) : String := s!"{n} {if n = 1 then one else many}"

namespace Printer

def plain : Printer := ⟨false⟩

/-- A printer on a terminal or on something else. `noColour` is the user's wish for no colours; the
empty text is none. -/
def forOutput (isTerminal : Bool) (noColour : Option String) : Printer :=
  ⟨isTerminal && !(noColour.any fun wish => !wish.isEmpty)⟩

def wrap (p : Printer) (paint : Paint) (text : String) : String :=
  if p.colour then paint.code ++ text ++ Paint.reset.code else text

def dim (p : Printer) (text : String) : String := p.wrap .dim text

def cyan (p : Printer) (text : String) : String := p.wrap .cyan text

def line (p : Printer) (tone : Tone) (verb message : String) : String :=
  let verb := flushRight verbWidth verb
  if p.colour then Paint.bold.code ++ p.wrap tone.paint verb ++ " " ++ message
  else verb ++ " " ++ message

end Printer
end Roomscape
