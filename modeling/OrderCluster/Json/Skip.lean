import OrderCluster.Json.Number
import OrderCluster.Json.Text

/-!
# Skipping a value

The value of a field that nobody asked for must be well-formed, but neither its depth, nor the size
of its numbers, nor the encoding inside its strings matters.
-/

namespace OrderCluster.Json

mutual

/-- What follows one value. Each value, item and member takes one unit of fuel. -/
def skipValueWith : Nat → Bytes → Except Fault Bytes
  | 0, _ => .error .truncated
  | fuel + 1, s =>
    match skipBlanks s with
    | [] => .error .truncated
    | b :: rest =>
      if b = 0x6e then expect (ascii "ull") rest
      else if b = 0x74 then expect (ascii "rue") rest
      else if b = 0x66 then expect (ascii "alse") rest
      else if b = 0x2d then skipNumber rest
      else if isDigit b then skipNumber (b :: rest)
      else if b = 0x22 then skipText rest
      else if b = 0x5b then
        match skipBlanks rest with
        | [] => .error .truncated
        | 0x5d :: rest => .ok rest
        | rest => skipItemsWith fuel rest
      else if b = 0x7b then
        match skipBlanks rest with
        | [] => .error .truncated
        | 0x7d :: rest => .ok rest
        | rest => skipMembersWith fuel rest
      else .error .malformed

/-- What follows the items of an array, of which at least one is left. -/
def skipItemsWith : Nat → Bytes → Except Fault Bytes
  | 0, _ => .error .truncated
  | fuel + 1, s => do
    match skipBlanks (← skipValueWith fuel s) with
    | [] => .error .truncated
    | 0x2c :: rest => skipItemsWith fuel rest
    | 0x5d :: rest => return rest
    | _ => .error .malformed

def skipMembersWith : Nat → Bytes → Except Fault Bytes
  | 0, _ => .error .truncated
  | fuel + 1, s =>
    match skipBlanks s with
    | [] => .error .truncated
    | 0x22 :: rest => do
      match skipBlanks (← skipText rest) with
      | [] => .error .truncated
      | 0x3a :: rest =>
        match skipBlanks (← skipValueWith fuel rest) with
        | [] => .error .truncated
        | 0x2c :: rest => skipMembersWith fuel rest
        | 0x7d :: rest => return rest
        | _ => .error .malformed
      | _ => .error .malformed
    | _ => .error .malformed

end

/-- What follows one value. A byte opens at most two parts, a value and its first item. -/
def skipValue (s : Bytes) : Except Fault Bytes := skipValueWith (2 * s.length + 2) s

end OrderCluster.Json
