import OrderCluster.Json.Decode

/-!
# Any JSON document

Reading a text without a shape in mind. Arrays and objects may be nested 127 deep; of members with
one name the last counts.
-/

namespace OrderCluster.Json

/-- A JSON value whose numbers are not told apart. -/
inductive Document where
  | null
  | bool (value : Bool)
  | number
  | string (value : String)
  | array (items : List Document)
  | object (members : List (String × Document))

namespace Document

/-- How deep arrays and objects may be nested. -/
def maxDepth : Nat := 127

def readNumeral (s : Bytes) (negative : Bool) : Except Fault (Document × Bytes) := do
  let (_, rest) ← readNumber negative s
  return (.number, rest)

/-- Reads a member behind the opening quote of its key; later members are put in front. -/
def readMember (read : Reader Document) (key : String) (members : List (String × Document)) :
    Reader (List (String × Document)) := fun s => do
  let (value, rest) ← read (← readColon s)
  return ((key, value) :: members, rest)

def readWithin : Nat → Reader Document
  | depth, s =>
    match skipBlanks s with
    | [] => .error .truncated
    | b :: rest =>
      if b = 0x6e then do return (.null, ← expect (ascii "ull") rest)
      else if b = 0x74 then do return (.bool true, ← expect (ascii "rue") rest)
      else if b = 0x66 then do return (.bool false, ← expect (ascii "alse") rest)
      else if b = 0x2d then readNumeral rest true
      else if isDigit b then readNumeral (b :: rest) false
      else if b = 0x22 then do
        let (text, rest) ← readText rest
        return (.string text, rest)
      else if b = 0x5b || b = 0x7b then
        match depth with
        | 0 => .error .malformed
        | depth + 1 =>
          if b = 0x5b then do
            let (items, rest) ← readItemsWith (readWithin depth) (rest.length + 1) true rest
            return (.array items, rest)
          else do
            let (members, rest) ←
              readMembersWith (readMember (readWithin depth)) (rest.length + 1) true [] rest
            return (.object members, ← closeObject rest)
      else .error .malformed

/-- The document that a text holds, if it holds exactly one. -/
def ofText? (s : Bytes) : Option Document :=
  match readWithin maxDepth s with
  | .ok (d, rest) => if (skipBlanks rest).isEmpty then some d else none
  | .error _ => none

/-- The member with a name; the last one of that name stands in front. -/
def member? (name : String) : Document → Option Document
  | .object members => members.lookup name
  | _ => none

def text? : Document → Option String
  | .string s => some s
  | _ => none

end Document

end OrderCluster.Json
