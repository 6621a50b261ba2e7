import OrderCluster.Json.Tree

/-!
# Shapes of wire types

One description of a wire type serves writing and reading alike. A shape has its own values: a
record holds one value per field, and an optional field may hold none.
-/

namespace OrderCluster.Json

mutual

/-- What a wire type is made of. -/
inductive Shape where
  | flag
  | text
  | integer (least greatest : Int)
  | choice (names : List String)
  | list (item : Shape)
  | record (fields : Fields)

inductive Fields where
  | nil
  | required (name : String) (shape : Shape) (rest : Fields)
  | optional (name : String) (shape : Shape) (rest : Fields)

end

mutual

def Shape.Value : Shape → Type
  | .flag => Bool
  | .text => String
  | .integer least greatest => { i : Int // least ≤ i ∧ i ≤ greatest }
  | .choice names => Fin names.length
  | .list item => List item.Value
  | .record fields => fields.Value

def Fields.Value : Fields → Type
  | .nil => Unit
  | .required _ shape rest => shape.Value × rest.Value
  | .optional _ shape rest => Option shape.Value × rest.Value

end

mutual

def Shape.toJson : (s : Shape) → s.Value → Json
  | .flag, (b : Bool) => .bool b
  | .text, (s : String) => .string s
  | .integer _ _, i => .number i.1
  | .choice names, (i : Fin names.length) => .string names[i]
  | .list item, (items : List item.Value) => .array (items.map item.toJson)
  | .record fields, v => .object (fields.toMembers v)

/-- The members of a record; an optional field without a value is left out. -/
def Fields.toMembers : (fs : Fields) → fs.Value → List (String × Json)
  | .nil, _ => []
  | .required name shape rest, (v, vs) => (name, shape.toJson v) :: rest.toMembers vs
  | .optional name shape rest, (some v, vs) => (name, shape.toJson v) :: rest.toMembers vs
  | .optional _ _ rest, (none, vs) => rest.toMembers vs

end

end OrderCluster.Json
