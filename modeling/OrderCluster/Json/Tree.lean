import OrderCluster.Json.Number
import OrderCluster.Json.Text

/-!
# JSON values and how they are written

Values with integers only, written compactly or with two spaces of indent.
-/

namespace OrderCluster

/-- A JSON value; the members of an object keep their order. -/
inductive Json where
  | null
  | bool (value : Bool)
  | number (value : Int)
  | string (value : String)
  | array (items : List Json)
  | object (members : List (String × Json))

namespace Json

def commas : List Bytes → Bytes
  | [] => []
  | [item] => item
  | item :: rest => item ++ 0x2c :: commas rest

mutual

def compact : Json → Bytes
  | .null => ascii "null"
  | .bool true => ascii "true"
  | .bool false => ascii "false"
  | .number i => writeInteger i
  | .string s => writeText s
  | .array items => 0x5b :: (commas (compactItems items) ++ [0x5d])
  | .object members => 0x7b :: (commas (compactMembers members) ++ [0x7d])

def compactItems : List Json → List Bytes
  | [] => []
  | item :: rest => item.compact :: compactItems rest

def compactMembers : List (String × Json) → List Bytes
  | [] => []
  | (name, value) :: rest => (writeText name ++ 0x3a :: value.compact) :: compactMembers rest

end

def newline (depth : Nat) : Bytes := 0x0a :: List.replicate (2 * depth) 0x20

mutual

/-- A value on lines of its own, two spaces deeper for each level. -/
def prettyAt (depth : Nat) : Json → Bytes
  | .array [] => ascii "[]"
  | .array items => 0x5b :: (commas (prettyItems (depth + 1) items) ++ newline depth ++ [0x5d])
  | .object [] => ascii "\x7b\x7d"
  | .object members =>
    0x7b :: (commas (prettyMembers (depth + 1) members) ++ newline depth ++ [0x7d])
  | .null => compact .null
  | .bool b => compact (.bool b)
  | .number i => compact (.number i)
  | .string s => compact (.string s)

def prettyItems (depth : Nat) : List Json → List Bytes
  | [] => []
  | item :: rest => (newline depth ++ item.prettyAt depth) :: prettyItems depth rest

def prettyMembers (depth : Nat) : List (String × Json) → List Bytes
  | [] => []
  | (name, value) :: rest =>
    (newline depth ++ writeText name ++ ascii ": " ++ value.prettyAt depth) ::
      prettyMembers depth rest

end

def pretty (value : Json) : Bytes := value.prettyAt 0

end Json

end OrderCluster
