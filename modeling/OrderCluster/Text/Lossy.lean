/-!
# Text from bytes of any kind

Bytes are read as UTF-8. Where they are not well-formed, the longest beginning of a character, or
else a single byte, gives one replacement character.
-/

namespace OrderCluster.Text

def replacement : Char := '\ufffd'

/-- For the first byte of a character of several bytes: how many follow, the range of the next one,
and the bits that the first byte gives. -/
def lead? (b : UInt8) : Option (Nat × UInt8 × UInt8 × Nat) :=
  if 0xc2 ≤ b && b ≤ 0xdf then some (1, 0x80, 0xbf, b.toNat - 0xc0)
  else if b = 0xe0 then some (2, 0xa0, 0xbf, 0)
  else if b = 0xed then some (2, 0x80, 0x9f, 0xd)
  else if 0xe1 ≤ b && b ≤ 0xef then some (2, 0x80, 0xbf, b.toNat - 0xe0)
  else if b = 0xf0 then some (3, 0x90, 0xbf, 0)
  else if b = 0xf4 then some (3, 0x80, 0x8f, 4)
  else if 0xf1 ≤ b && b ≤ 0xf3 then some (3, 0x80, 0xbf, b.toNat - 0xf0)
  else none

/-- A character that is begun: how many bytes are missing, the range of the next, and its bits. -/
structure Begun where
  missing : Nat
  low : UInt8
  high : UInt8
  bits : Nat

/-- Reads bytes behind a character that may be begun. -/
def decodeLossy (begun : Option Begun) : List UInt8 → List Char
  | [] => if begun.isSome then [replacement] else []
  | b :: rest =>
    let fresh (_ : Unit) : List Char :=
      if b < 0x80 then Char.ofNat b.toNat :: decodeLossy none rest
      else
        match lead? b with
        | some (missing, low, high, bits) => decodeLossy (some ⟨missing, low, high, bits⟩) rest
        | none => replacement :: decodeLossy none rest
    match begun with
    | none => fresh ()
    | some c =>
      if c.low ≤ b && b ≤ c.high then
        let bits := c.bits * 64 + (b.toNat - 0x80)
        if c.missing = 1 then Char.ofNat bits :: decodeLossy none rest
        else decodeLossy (some ⟨c.missing - 1, 0x80, 0xbf, bits⟩) rest
      else replacement :: fresh ()

def lossy (bytes : List UInt8) : String := String.ofList (decodeLossy none bytes)

end OrderCluster.Text
