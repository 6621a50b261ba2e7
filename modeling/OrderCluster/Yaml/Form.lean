import OrderCluster.Yaml.Node

/-!
# Forms

A form tells which parts of a document are read, through lists, mappings and sections with known
entries. An alias is followed wherever it stands for such a part, or for a key beside one; what has
an unknown key is passed over. A short document can make its reader follow very many aliases, so
their number is bounded by the size of the document.
-/

namespace OrderCluster.Yaml

namespace Node

def resolve? (document : Node) : Node → Option Node
  | .alias number => document.anchored? number
  | node => some node

def text? : Node → Option String
  | .scalar _ _ _ text => some text
  | _ => none

def items? : Node → Option (List Node)
  | .sequence _ items => some items
  | .scalar _ _ .plain "" => some []
  | _ => none

def entries? : Node → Option (List (Node × Node))
  | .mapping _ entries => some entries
  | .scalar _ _ .plain "" => some []
  | _ => none

/-- How many aliases a node itself is. -/
def aliasCount : Node → Nat
  | .alias _ => 1
  | _ => 0

mutual

/-- How many scalars and aliases a node is made of, with two more for each collection: where it
begins and where it ends. -/
def size : Node → Nat
  | .alias _ | .scalar .. => 1
  | .sequence _ items => 2 + sizeOfItems items
  | .mapping _ entries => 2 + sizeOfEntries entries

def sizeOfItems : List Node → Nat
  | [] => 0
  | item :: rest => item.size + sizeOfItems rest

def sizeOfEntries : List (Node × Node) → Nat
  | [] => 0
  | (key, value) :: rest => key.size + value.size + sizeOfEntries rest

end

end Node

/-- Which parts of a node are read. -/
inductive Form where
  /-- Nothing of it. -/
  | ignored
  | scalar
  | list (item : Form)
  /-- All entries of a mapping. -/
  | map (value : Form)
  /-- The entries of a mapping that have known keys. -/
  | keyed (field : String → Form)

namespace Form

def isRead : Form → Bool
  | .ignored => false
  | _ => true

def knows (form : Form) (key : String) : Bool :=
  match form with
  | .keyed field => (field key).isRead
  | _ => false

/-- A section whose known entries are scalars. -/
def scalars (known : List String) : Form :=
  .keyed fun key => if known.contains key then .scalar else .ignored

/-- How many aliases are followed when a node of a document is read. -/
def follows (document : Node) : Form → Node → Nat
  | .ignored, _ => 0
  | .scalar, node => node.aliasCount
  | .list item, node =>
    let items := ((document.resolve? node).bind Node.items?).getD []
    items.foldl (fun n part => n + item.follows document part) node.aliasCount
  | .map value, node =>
    let entries := ((document.resolve? node).bind Node.entries?).getD []
    entries.foldl (fun n (key, part) => n + key.aliasCount + value.follows document part)
      node.aliasCount
  | .keyed field, node =>
    let entries := ((document.resolve? node).bind Node.entries?).getD []
    entries.foldl (fun n (key, part) =>
        let below := match (document.resolve? key).bind Node.text? with
          | some name => (field name).follows document part
          | none => 0
        n + key.aliasCount + below)
      node.aliasCount

/-- Whether a document makes its reader follow too many aliases: more than a hundred for each unit
of its size. -/
def isOvergrown (form : Form) (document : Node) : Bool :=
  100 * document.size < form.follows document document

end Form

end OrderCluster.Yaml
