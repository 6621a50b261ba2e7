import OrderCluster.Json.Decode

/-!
# Types that travel as JSON

A wire type is described by a shape, and its values pass to the values of that shape and back.
Reading a whole text demands that nothing but blanks follows the value.
-/

namespace OrderCluster

open Json (Shape Fields Fault Bytes)

/-- A type whose values travel as JSON. -/
class Wire (α : Type) where
  shape : Shape
  toValue : α → shape.Value
  ofValue : shape.Value → α
  ofValue_toValue : ∀ a, ofValue (toValue a) = a

namespace Wire

def toJson [Wire α] (a : α) : Json := (shape α).toJson (toValue a)

def encode [Wire α] (a : α) : Bytes := (toJson a).compact

def read [Wire α] : Json.Reader α := fun s => do
  let (v, rest) ← (shape α).read s
  return (ofValue v, rest)

/-- Reads a value that may be followed by anything. -/
def decodeFront [Wire α] (s : Bytes) : Except Fault α := do
  let (a, _) ← read s
  return a

/-- Reads a value that only blanks may follow. -/
def decode [Wire α] (s : Bytes) : Except Fault α := do
  let (a, rest) ← read s
  if (Json.skipBlanks rest).isEmpty then return a else .error .malformed

end Wire

instance : Wire Bool where
  shape := .flag
  toValue b := b
  ofValue b := b
  ofValue_toValue _ := rfl

instance : Wire String where
  shape := .text
  toValue s := s
  ofValue s := s
  ofValue_toValue _ := rfl

instance : Wire Int32 where
  shape := .integer (-2147483648) 2147483647
  toValue i := (⟨i.toInt, i.le_toInt, Int.le_sub_one_of_lt i.toInt_lt⟩ : { _i : Int // _ })
  ofValue := fun (i : { _i : Int // _ }) => Int32.ofInt i.1
  ofValue_toValue i := Int32.ofInt_toInt i

instance : Wire Int64 where
  shape := .integer (-9223372036854775808) 9223372036854775807
  toValue i := (⟨i.toInt, i.le_toInt, Int.le_sub_one_of_lt i.toInt_lt⟩ : { _i : Int // _ })
  ofValue := fun (i : { _i : Int // _ }) => Int64.ofInt i.1
  ofValue_toValue i := Int64.ofInt_toInt i

instance : Wire UInt16 where
  shape := .integer 0 65535
  toValue n := (⟨n.toNat, by omega, by have := n.toNat_lt; omega⟩ : { _i : Int // _ })
  ofValue := fun (i : { _i : Int // _ }) => UInt16.ofNat i.1.toNat
  ofValue_toValue n := UInt16.ofNat_toNat

instance : Wire UInt32 where
  shape := .integer 0 4294967295
  toValue n := (⟨n.toNat, by omega, by have := n.toNat_lt; omega⟩ : { _i : Int // _ })
  ofValue := fun (i : { _i : Int // _ }) => UInt32.ofNat i.1.toNat
  ofValue_toValue n := UInt32.ofNat_toNat

instance [Wire α] : Wire (List α) where
  shape := .list (Wire.shape α)
  toValue items := (items.map Wire.toValue : List (Wire.shape α).Value)
  ofValue := fun (items : List (Wire.shape α).Value) => items.map Wire.ofValue
  ofValue_toValue items := by
    simp [Function.comp_def, Wire.ofValue_toValue]

end OrderCluster
