/-!
The pieces of a YAML text. The start and the end of a block collection are pieces of their own,
although only the indentation shows them.
-/
namespace Roomscape.Yaml

inductive ScalarStyle where
  | plain
  | quoted
  | literal
  | folded
deriving DecidableEq

/-- A tag, or a piece of one: octets that need not be the encoding of a text. -/
structure Tag where
  octets : List UInt8
deriving DecidableEq

inductive Token where
  | version (major minor : Nat)
  | tagHandle (handle : String) (stem : Tag)
  | documentStart
  | documentEnd
  | blockSequence
  | blockMapping
  | blockEnd
  | flowSequence
  | flowSequenceEnd
  | flowMapping
  | flowMappingEnd
  | dash
  | comma
  | key
  | value
  | anchor (name : String)
  | alias (name : String)
  | tag (handle : String) (suffix : Tag)
  | scalar (style : ScalarStyle) (text : String)
deriving DecidableEq

end Roomscape.Yaml
