import OrderCluster.Json.Bytes

/-!
# JSON strings

Writing escapes the quote, the backslash and control characters, and nothing else. Reading accepts
every escape of the format; surrogates must come in pairs and the bytes must be well-formed UTF-8.
A string whose value is not wanted is skipped without either demand.
-/

namespace OrderCluster.Json

def hexDigit? (b : UInt8) : Option Nat :=
  if isDigit b then some (b.toNat - 0x30)
  else if 0x61 ≤ b && b ≤ 0x66 then some (b.toNat - 0x61 + 10)
  else if 0x41 ≤ b && b ≤ 0x46 then some (b.toNat - 0x41 + 10)
  else none

def hex4? (a b c d : UInt8) : Option Nat := do
  return ((← hexDigit? a) * 16 + (← hexDigit? b)) * 256 + (← hexDigit? c) * 16 + (← hexDigit? d)

def shortEscape? (b : UInt8) : Option UInt8 :=
  if b = 0x22 || b = 0x5c || b = 0x2f then some b
  else if b = 0x62 then some 0x08
  else if b = 0x66 then some 0x0c
  else if b = 0x6e then some 0x0a
  else if b = 0x72 then some 0x0d
  else if b = 0x74 then some 0x09
  else none

/-- Whether a code unit opens a surrogate pair. -/
def opensPair (n : Nat) : Bool := 0xD800 ≤ n && n ≤ 0xDBFF

def closesPair (n : Nat) : Bool := 0xDC00 ≤ n && n ≤ 0xDFFF

def codePoint (n : Nat) : Bytes := String.utf8EncodeChar (Char.ofNat n)

/-- The content of a string whose opening quote is already read, its escapes resolved. -/
def unescape : Reader Bytes
  | [] => .error .truncated
  | 0x22 :: rest => .ok ([], rest)
  | 0x5c :: 0x75 :: a :: b :: c :: d :: rest =>
    match hex4? a b c d with
    | none => .error .malformed
    | some n =>
      if closesPair n then .error .malformed
      else if opensPair n then
        match rest with
        | [] | [0x5c] => .error .truncated
        | 0x5c :: 0x75 :: e :: f :: g :: h :: rest =>
          match hex4? e f g h with
          | none => .error .malformed
          | some m =>
            if closesPair m then do
              let (content, rest) ← unescape rest
              return (codePoint ((n - 0xD800) * 0x400 + (m - 0xDC00) + 0x10000) ++ content, rest)
            else .error .malformed
        | 0x5c :: 0x75 :: _ => .error .truncated
        | _ => .error .malformed
      else do
        let (content, rest) ← unescape rest
        return (codePoint n ++ content, rest)
  | 0x5c :: 0x75 :: _ => .error .truncated
  | [0x5c] => .error .truncated
  | 0x5c :: b :: rest =>
    match shortEscape? b with
    | none => .error .malformed
    | some c => do
      let (content, rest) ← unescape rest
      return (c :: content, rest)
  | b :: rest =>
    if b < 0x20 then .error .malformed
    else do
      let (content, rest) ← unescape rest
      return (b :: content, rest)

def readText : Reader String := fun s => do
  let (content, rest) ← unescape s
  match text? content with
  | some text => return (text, rest)
  | none => .error .malformed

/-- What follows a string whose opening quote is already read and whose value is not wanted. -/
def skipText : Bytes → Except Fault Bytes
  | [] => .error .truncated
  | 0x22 :: rest => .ok rest
  | 0x5c :: 0x75 :: a :: b :: c :: d :: rest =>
    match hex4? a b c d with
    | none => .error .malformed
    | some _ => skipText rest
  | 0x5c :: 0x75 :: _ => .error .truncated
  | [0x5c] => .error .truncated
  | 0x5c :: b :: rest =>
    match shortEscape? b with
    | none => .error .malformed
    | some _ => skipText rest
  | b :: rest => if b < 0x20 then .error .malformed else skipText rest

def hexByte (n : Nat) : UInt8 := if n < 10 then (0x30 + n).toUInt8 else (0x61 + (n - 10)).toUInt8

def escapeByte (b : UInt8) : Bytes :=
  if b = 0x22 || b = 0x5c then [0x5c, b]
  else if b = 0x08 then [0x5c, 0x62]
  else if b = 0x09 then [0x5c, 0x74]
  else if b = 0x0a then [0x5c, 0x6e]
  else if b = 0x0c then [0x5c, 0x66]
  else if b = 0x0d then [0x5c, 0x72]
  else if b < 0x20 then [0x5c, 0x75, 0x30, 0x30, hexByte (b.toNat / 16), hexByte (b.toNat % 16)]
  else [b]

def writeText (s : String) : Bytes := 0x22 :: ((utf8 s).flatMap escapeByte ++ [0x22])

end OrderCluster.Json
