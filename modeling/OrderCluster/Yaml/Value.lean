import OrderCluster.Yaml.Form

/-!
# Values

What a node reads as: a text, a number, a flag, a list or a section with named entries. Any scalar
reads as a text; numbers and flags must be plain, or a literal block tagged as one. A value that is
left out reads as an empty list or section. Aliases are looked up in the document.
-/

namespace OrderCluster.Yaml

/-- Reads a value from a node, which comes behind its document. -/
abbrev Reader (α : Type) := Node → Node → Option α

def readText : Reader String := fun document node => do (← document.resolve? node).text?

/-! ## Nothing -/

def isNull (text : String) : Bool := ["null", "Null", "NULL", "~"].contains text

def nullTag : String := "tag:yaml.org,2002:null"

/-- A text, or nothing. A plain scalar that is empty or spells nothing is nothing, unless its tag says
otherwise. -/
def readOptionalText : Reader (Option String) := fun document node => do
  match ← document.resolve? node with
  | .scalar _ none .plain text => some (if text.isEmpty || isNull text then none else some text)
  | .scalar _ (some tag) .plain text =>
    if tag ≠ nullTag then some (some text) else if isNull text then some none else none
  | .scalar _ _ _ text => some (some text)
  | _ => none

/-! ## Numbers and flags -/

/-- The text of a scalar that may be a value with a tag. -/
def valueText? (tag : String) : Node → Option String
  | .scalar _ _ .plain text => some text
  | .scalar _ (some given) .literal text => if given = tag then some text else none
  | _ => none

/-- A number without a sign. Zeros in front of a decimal number are refused. -/
def magnitude? : List Char → Option Nat
  | '0' :: 'x' :: rest => Text.numeral? 16 rest
  | '0' :: 'o' :: rest => Text.numeral? 8 rest
  | '0' :: 'b' :: rest => Text.numeral? 2 rest
  | '0' :: _ :: _ => none
  | s => Text.numeral? 10 s

def natural? : List Char → Option Nat
  | '+' :: rest => magnitude? rest
  | s => magnitude? s

def integer? : List Char → Option Int
  | '-' :: rest => (magnitude? rest).map fun n => -(n : Int)
  | s => (natural? s).map Int.ofNat

def intTag : String := "tag:yaml.org,2002:int"

def readNat (limit : Nat) : Reader Nat := fun document node => do
  let n ← natural? (← valueText? intTag (← document.resolve? node)).toList
  if n < limit then some n else none

def readUInt16 : Reader UInt16 := fun document node => (readNat UInt16.size document node).map Nat.toUInt16

def readUInt32 : Reader UInt32 := fun document node => (readNat UInt32.size document node).map Nat.toUInt32

def readUInt64 : Reader UInt64 := fun document node => (readNat UInt64.size document node).map Nat.toUInt64

def readInt64 : Reader Int64 := fun document node => do
  let i ← integer? (← valueText? intTag (← document.resolve? node)).toList
  if Int64.minValue.toInt ≤ i && i ≤ Int64.maxValue.toInt then some (Int64.ofInt i) else none

def boolTag : String := "tag:yaml.org,2002:bool"

def readBool : Reader Bool := fun document node => do
  let text ← valueText? boolTag (← document.resolve? node)
  if ["true", "True", "TRUE"].contains text then some true
  else if ["false", "False", "FALSE"].contains text then some false
  else none

/-! ## Lists and sections -/

def readList (read : Reader α) : Reader (List α) := fun document node => do
  (← (← document.resolve? node).items?).mapM (read document)

/-- The entries of a mapping with the texts of their keys. -/
def readNamed : Reader (List (String × Node)) := fun document node => do
  (← (← document.resolve? node).entries?).mapM fun (key, value) => do
    some (← readText document key, value)

def readMap (read : Reader α) : Reader (List (String × α)) := fun document node => do
  (← readNamed document node).mapM fun (key, value) => do some (key, ← read document value)

/-- The known entries of a section. -/
structure Section where
  document : Node
  entries : List (String × Node)

/-- A section. None of the known keys may come twice; other keys do not matter. -/
def readSection (form : Form) : Reader Section := fun document node => do
  let entries := (← readNamed document node).filter fun (key, _) => form.knows key
  if (entries.map Prod.fst).Nodup then some { document, entries } else none

namespace Section

def required (s : Section) (key : String) (read : Reader α) : Option α := do
  read s.document (← s.entries.lookup key)

def setting (s : Section) (key : String) (read : Reader α) (default : α) : Option α :=
  match s.entries.lookup key with
  | none => some default
  | some node => read s.document node

end Section

end OrderCluster.Yaml
