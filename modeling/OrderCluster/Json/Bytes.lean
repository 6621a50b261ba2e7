/-!
# Bytes of JSON text

Text is read from the left, byte by byte, and the first thing that is wrong decides the fault.
-/

namespace OrderCluster.Json

/-- Text as it travels. -/
abbrev Bytes := List UInt8

/-- Why a text is not a value of the wanted kind. -/
inductive Fault where
  /-- The text ended too early. -/
  | truncated
  /-- The text is not JSON. -/
  | malformed
  /-- The text is JSON so far, but not of the wanted kind. -/
  | mismatched
  deriving DecidableEq, Repr

/-- Reads a value from the front and gives back what follows it. -/
abbrev Reader (α : Type) := Bytes → Except Fault (α × Bytes)

def ascii (s : String) : Bytes := s.toList.map (fun c => c.toNat.toUInt8)

def utf8 (s : String) : Bytes := s.toUTF8.toList

def text? (bytes : Bytes) : Option String := String.fromUTF8? ⟨bytes.toArray⟩

/-- The four characters that may stand between tokens. -/
def isBlank (b : UInt8) : Bool := b = 0x20 || b = 0x0a || b = 0x09 || b = 0x0d

def isDigit (b : UInt8) : Bool := 0x30 ≤ b && b ≤ 0x39

def skipBlanks (s : Bytes) : Bytes := s.dropWhile isBlank

/-- Reads the rest of a word such as `true`, whose first letter is already read. -/
def expect : Bytes → Bytes → Except Fault Bytes
  | [], s => .ok s
  | _ :: _, [] => .error .truncated
  | b :: word, c :: s => if b = c then expect word s else .error .malformed

end OrderCluster.Json
