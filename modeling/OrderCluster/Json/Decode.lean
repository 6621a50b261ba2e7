import OrderCluster.Json.Shape
import OrderCluster.Json.Skip

/-!
# Reading a value of a shape

A record is read from an object, whose members may come in any order and among strangers, or from
an array of its fields in their order. A known field may be given once; a required one must be
given. What is wrong first, from the left, decides the fault.
-/

namespace OrderCluster.Json

/-- The fault of a text that does not begin with the wanted kind of value: some other value does
not match, and what is no value is malformed. -/
def unexpected (s : Bytes) : Fault :=
  let verdict (read : Except Fault Unit) : Fault :=
    match read with
    | .ok _ => .mismatched
    | .error fault => fault
  match skipBlanks s with
  | [] => .truncated
  | b :: rest =>
    if b = 0x6e then verdict (discard (expect (ascii "ull") rest))
    else if b = 0x74 then verdict (discard (expect (ascii "rue") rest))
    else if b = 0x66 then verdict (discard (expect (ascii "alse") rest))
    else if b = 0x2d then verdict (discard (readNumber true rest))
    else if isDigit b then verdict (discard (readNumber false (b :: rest)))
    else if b = 0x22 then verdict (discard (readText rest))
    else if b = 0x5b || b = 0x7b then .mismatched
    else .malformed

def readFlag : Reader Bool := fun s =>
  match skipBlanks s with
  | 0x74 :: rest => do return (true, ← expect (ascii "rue") rest)
  | 0x66 :: rest => do return (false, ← expect (ascii "alse") rest)
  | _ => .error (unexpected s)

def readString : Reader String := fun s =>
  match skipBlanks s with
  | 0x22 :: rest => readText rest
  | _ => .error (unexpected s)

def readInteger (least greatest : Int) : Reader { i : Int // least ≤ i ∧ i ≤ greatest } := fun s =>
  let within (read : Except Fault (Number × Bytes)) := do
    match ← read with
    | (.real, _) => .error .mismatched
    | (.integer i, rest) =>
      if h : least ≤ i ∧ i ≤ greatest then return (⟨i, h⟩, rest) else .error .mismatched
  match skipBlanks s with
  | [] => .error .truncated
  | b :: rest =>
    if b = 0x2d then within (readNumber true rest)
    else if isDigit b then within (readNumber false (b :: rest))
    else .error (unexpected s)

def indexOf? (name : String) : (names : List String) → Option (Fin names.length)
  | [] => none
  | n :: names => if n = name then some 0 else (indexOf? name names).map Fin.succ

/-- Reads one of several names; what begins with no quote is malformed, a value or not. -/
def readName (names : List String) : Reader (Fin names.length) := fun s =>
  match skipBlanks s with
  | [] => .error .truncated
  | 0x22 :: rest => do
    let (name, rest) ← readText rest
    match indexOf? name names with
    | some i => return (i, rest)
    | none => .error .mismatched
  | _ => .error .malformed

/-- Reads one of several names, alone or as the only member of an object whose value is null. -/
def readChoice (names : List String) : Reader (Fin names.length) := fun s =>
  match skipBlanks s with
  | 0x7b :: rest => do
    let (i, rest) ← readName names rest
    match skipBlanks rest with
    | [] => .error .truncated
    | 0x3a :: rest =>
      match skipBlanks rest with
      | 0x6e :: rest =>
        match skipBlanks (← expect (ascii "ull") rest) with
        | [] => .error .truncated
        | 0x7d :: rest => return (i, rest)
        | _ => .error .malformed
      | _ => .error (unexpected rest)
    | _ => .error .malformed
  | _ => readName names s

def readOptional (read : Reader α) : Reader (Option α) := fun s =>
  match skipBlanks s with
  | 0x6e :: rest => do return (none, ← expect (ascii "ull") rest)
  | _ => do let (a, rest) ← read s; return (some a, rest)

/-- Steps to the next item of an array: none when the closing bracket, which is left in place,
comes first. -/
def nextItem (first : Bool) (s : Bytes) : Except Fault (Option Bytes) :=
  match skipBlanks s with
  | [] => .error .truncated
  | b :: rest =>
    if b = 0x5d then .ok none
    else if first then .ok (some (b :: rest))
    else if b = 0x2c then
      match skipBlanks rest with
      | [] => .error .truncated
      | 0x5d :: _ => .error .malformed
      | rest => .ok (some rest)
    else .error .malformed

def closeArray (s : Bytes) : Except Fault Bytes :=
  match skipBlanks s with
  | [] => .error .truncated
  | 0x5d :: rest => .ok rest
  | _ => .error .malformed

/-- Reads items up to the closing bracket; each takes one unit of fuel. -/
def readItemsWith (read : Reader α) : Nat → Bool → Bytes → Except Fault (List α × Bytes)
  | 0, _, _ => .error .truncated
  | fuel + 1, first, s => do
    match ← nextItem first s with
    | none => return ([], ← closeArray s)
    | some s =>
      let (item, s) ← read s
      let (items, s) ← readItemsWith read fuel false s
      return (item :: items, s)

def readList (read : Reader α) : Reader (List α) := fun s =>
  match skipBlanks s with
  | 0x5b :: rest => readItemsWith read (rest.length + 1) true rest
  | _ => .error (unexpected s)

/-- Steps to the next member of an object: none when the closing brace, which is left in place,
comes first; otherwise what stands behind the opening quote of its key. -/
def nextKey (first : Bool) (s : Bytes) : Except Fault (Option Bytes) :=
  match skipBlanks s with
  | [] => .error .truncated
  | b :: rest =>
    if b = 0x7d then .ok none
    else if first then if b = 0x22 then .ok (some rest) else .error .malformed
    else if b = 0x2c then
      match skipBlanks rest with
      | [] => .error .truncated
      | 0x22 :: rest => .ok (some rest)
      | _ => .error .malformed
    else .error .malformed

def closeObject (s : Bytes) : Except Fault Bytes :=
  match skipBlanks s with
  | [] => .error .truncated
  | 0x7d :: rest => .ok rest
  | _ => .error .malformed

def readColon (s : Bytes) : Except Fault Bytes :=
  match skipBlanks s with
  | [] => .error .truncated
  | 0x3a :: rest => .ok rest
  | _ => .error .malformed

/-- Reads members up to the closing brace, which is left in place; each takes one unit of fuel. -/
def readMembersWith (member : String → σ → Reader σ) :
    Nat → Bool → σ → Bytes → Except Fault (σ × Bytes)
  | 0, _, _, _ => .error .truncated
  | fuel + 1, first, slots, s => do
    match ← nextKey first s with
    | none => return (slots, s)
    | some s =>
      let (key, s) ← readText s
      let (slots, s) ← member key slots s
      readMembersWith member fuel false slots s

/-- For each field, its value if it was given so far. -/
def Fields.Slots : Fields → Type
  | .nil => Unit
  | .required _ shape rest => Option shape.Value × rest.Slots
  | .optional _ shape rest => Option (Option shape.Value) × rest.Slots

def Fields.empty : (fs : Fields) → fs.Slots
  | .nil => ()
  | .required _ _ rest => (none, rest.empty)
  | .optional _ _ rest => (none, rest.empty)

def Fields.fill : (fs : Fields) → fs.Slots → Except Fault fs.Value
  | .nil, _ => .ok ()
  | .required _ _ rest, (slot, slots) =>
    match slot with
    | none => .error .mismatched
    | some v => do return (v, ← rest.fill slots)
  | .optional _ _ rest, (slot, slots) => do return (slot.join, ← rest.fill slots)

mutual

def Shape.read : (s : Shape) → Reader s.Value
  | .flag => readFlag
  | .text => readString
  | .integer least greatest => readInteger least greatest
  | .choice names => readChoice names
  | .list item => readList item.read
  | .record fields => fun s =>
    match skipBlanks s with
    | 0x5b :: rest => do
      let (v, rest) ← fields.readElements true rest
      return (v, ← closeArray rest)
    | 0x7b :: rest => do
      let (slots, rest) ← readMembersWith fields.readMember (rest.length + 1) true fields.empty rest
      let v ← fields.fill slots
      return (v, ← closeObject rest)
    | _ => .error (unexpected s)

/-- Reads the fields as items of an array; an optional one may be missing at the end. -/
def Fields.readElements : (fs : Fields) → Bool → Reader fs.Value
  | .nil, _ => fun s => .ok ((), s)
  | .required _ shape rest, first => fun s => do
    match ← nextItem first s with
    | none => .error .mismatched
    | some s =>
      let (v, s) ← shape.read s
      let (vs, s) ← rest.readElements false s
      return ((v, vs), s)
  | .optional _ shape rest, first => fun s => do
    match ← nextItem first s with
    | none =>
      let (vs, s) ← rest.readElements first s
      return ((none, vs), s)
    | some s =>
      let (v, s) ← readOptional shape.read s
      let (vs, s) ← rest.readElements false s
      return ((v, vs), s)

/-- Reads what stands behind a key: the value of the field with that name, which must not have been
given before, or a value that is skipped. -/
def Fields.readMember : (fs : Fields) → String → fs.Slots → Reader fs.Slots
  | .nil, _, _ => fun s => do return ((), ← skipValue (← readColon s))
  | .required name shape rest, key, (slot, slots) => fun s =>
    if name = key then
      if slot.isSome then .error .mismatched
      else do
        let (v, s) ← shape.read (← readColon s)
        return ((some v, slots), s)
    else do
      let (slots, s) ← rest.readMember key slots s
      return ((slot, slots), s)
  | .optional name shape rest, key, (slot, slots) => fun s =>
    if name = key then
      if slot.isSome then .error .mismatched
      else do
        let (v, s) ← readOptional shape.read (← readColon s)
        return ((some v, slots), s)
    else do
      let (slots, s) ← rest.readMember key slots s
      return ((slot, slots), s)

end

end OrderCluster.Json
