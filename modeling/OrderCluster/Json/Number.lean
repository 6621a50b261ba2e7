import OrderCluster.Double
import OrderCluster.Json.Bytes

/-!
# JSON numbers

A number without fraction and exponent is an integer as long as it fits 64 bits; minus zero and all
else is a real. A real must lie within the range of a double. Reals are never wanted here, so only
that is decided about them: their digits are gathered in a 64-bit word, and the digits that no
longer fit count as powers of ten.
-/

namespace OrderCluster.Json

inductive Number where
  | integer (value : Int)
  | real
  deriving DecidableEq, Repr

def takeDigits (s : Bytes) : Bytes × Bytes := (s.takeWhile isDigit, s.dropWhile isDigit)

def wordMax : Nat := UInt64.size - 1

/-- The digits of a whole part in one word, and how many did not fit. -/
def gatherWhole (digits : Bytes) : Nat × Nat :=
  digits.foldl (fun (word, dropped) b =>
    let next := word * 10 + (b.toNat - 0x30)
    if dropped = 0 && next ≤ wordMax then (next, 0) else (word, dropped + 1)) (0, 0)

/-- The digits of a fraction behind a word, up to the first that does not fit, and their count. -/
def gatherFraction (word : Nat) (digits : Bytes) : Nat × Nat :=
  match digits with
  | [] => (word, 0)
  | b :: rest =>
    let next := word * 10 + (b.toNat - 0x30)
    if next ≤ wordMax then
      let (word, taken) := gatherFraction next rest
      (word, taken + 1)
    else (word, 0)

/-- Whether a word times a power of ten is too large for a double. -/
def overflows (word : Nat) (exponent : Int) : Bool :=
  word ≠ 0 && 0 ≤ exponent &&
    (308 < exponent ||
      Nat.pow 2 1024 - Nat.pow 2 970 ≤
        Double.round word * Double.round (Nat.pow 10 exponent.toNat))

def readExponent (s : Bytes) : Except Fault ((Bool × Bytes) × Bytes) :=
  let (negative, s) :=
    match s with
    | 0x2b :: rest => (false, rest)
    | 0x2d :: rest => (true, rest)
    | _ => (false, s)
  match takeDigits s with
  | ([], []) => .error .truncated
  | ([], _ :: _) => .error .malformed
  | (digits, rest) => .ok ((negative, digits), rest)

/-- The power of ten that an exponent shifts to, kept within 32 bits; none where it is so large
that only a zero significand stays in range. -/
def shift? (start : Int) (negative : Bool) (digits : Bytes) : Option Int :=
  let exponent : Int := digits.foldl (fun n b => n * 10 + (b.toNat - 0x30)) 0
  if Int32.maxValue.toInt < exponent then none
  else if negative then some (max Int32.minValue.toInt (start - exponent))
  else some (min Int32.maxValue.toInt (start + exponent))

/-- A real whose significand is gathered and whose exponent, if any, follows. -/
def readReal (word : Nat) (start : Int) (s : Bytes) : Except Fault (Number × Bytes) :=
  match s with
  | b :: rest =>
    if b = 0x65 || b = 0x45 then do
      let ((negative, digits), rest) ← readExponent rest
      match shift? start negative digits with
      | none => if word ≠ 0 && !negative then .error .malformed else return (.real, rest)
      | some exponent => if overflows word exponent then .error .malformed else return (.real, rest)
    else if overflows word start then .error .malformed
    else .ok (.real, s)
  | [] => if overflows word start then .error .malformed else .ok (.real, s)

def readNumber (negative : Bool) (s : Bytes) : Except Fault (Number × Bytes) :=
  match takeDigits s with
  | ([], []) => .error .truncated
  | ([], _ :: _) => .error .malformed
  | (0x30 :: _ :: _, _) => .error .malformed
  | (digits, rest) =>
    let (word, dropped) := gatherWhole digits
    match rest with
    | 0x2e :: rest =>
      match takeDigits rest with
      | ([], []) => .error .truncated
      | ([], _ :: _) => .error .malformed
      | (fraction, rest) =>
        let (word, taken) := gatherFraction word fraction
        readReal word (dropped - taken) rest
    | _ =>
      if dropped ≠ 0 || (rest.head?.any fun b => b = 0x65 || b = 0x45) then
        readReal word dropped rest
      else if !negative then .ok (.integer word, rest)
      else if 1 ≤ word && Int64.minValue.toInt ≤ -word then .ok (.integer (-word), rest)
      else .ok (.real, rest)

/-- What follows a number, behind its sign, whose value is not wanted. -/
def skipNumber (s : Bytes) : Except Fault Bytes :=
  let exponent (s : Bytes) : Except Fault Bytes :=
    match s with
    | b :: rest =>
      if b = 0x65 || b = 0x45 then
        match readExponent rest with
        | .ok (_, rest) => .ok rest
        | .error _ => .error .malformed
      else .ok s
    | [] => .ok s
  match takeDigits s with
  | ([], _) => .error .malformed
  | (0x30 :: _ :: _, _) => .error .malformed
  | (_, 0x2e :: rest) =>
    match takeDigits rest with
    | ([], _) => .error .malformed
    | (_, rest) => exponent rest
  | (_, rest) => exponent rest

def digits (n : Nat) : Bytes :=
  if n < 10 then [(0x30 + n).toUInt8] else digits (n / 10) ++ [(0x30 + n % 10).toUInt8]

def writeInteger (i : Int) : Bytes :=
  if i < 0 then 0x2d :: digits i.natAbs else digits i.natAbs

end OrderCluster.Json
