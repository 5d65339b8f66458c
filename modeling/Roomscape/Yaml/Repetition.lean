import Roomscape.Yaml.Record

/-!
How often aliases are followed while a document is read as records and lists. A limit keeps a short
text from standing for a very long one.
-/
namespace Roomscape.Yaml

namespace Node

mutual

/-- How many pieces write the node down: one for a scalar or an alias, and for a collection one at
each end. -/
def size : Node → Nat
  | .scalar .. => 1
  | .alias _ => 1
  | .sequence items => 2 + itemsSize items
  | .mapping entries => 2 + entriesSize entries

def itemsSize : List Node → Nat
  | [] => 0
  | item :: items => item.size + itemsSize items

def entriesSize : List (Node × Node) → Nat
  | [] => 0
  | (key, value) :: entries => key.size + value.size + entriesSize entries

end

/-- The aliases followed to read a scalar. -/
def hops : Node → Nat
  | .alias _ => 1
  | _ => 0

end Node

namespace Document

variable (d : Document)

/-- The aliases followed to read a list. -/
def listHops (item : Node → Nat) (node : Node) : Nat :=
  node.hops + ((d.items? node).getD []).foldl (fun hops entry => hops + item entry) 0

/-- The aliases followed to read a record: at every key, and at the values of the fields it has. -/
def recordHops (field : String → Node → Nat) (node : Node) : Nat :=
  let entry (key value : Node) : Nat :=
    key.hops + match d.text? key with
      | some name => field name value
      | none => 0
  match d.resolve node with
  | .mapping entries => node.hops + entries.foldl (fun hops (key, value) => hops + entry key value) 0
  | _ => node.hops

/-- How many aliases may be followed: a hundred for each piece of the document. -/
def hopLimit : Nat :=
  match d.root with
  | some node => 100 * node.size
  | none => 100

end Document
end Roomscape.Yaml
