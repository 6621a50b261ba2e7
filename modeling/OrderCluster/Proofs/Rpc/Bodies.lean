import OrderCluster.Proofs.Json.Document
import OrderCluster.Proofs.Json.Shape
import OrderCluster.Rpc.Wire

/-!
# Every message survives the wire

Whatever is sent between nodes, clients and the catalog is text that is read back as just the value
that was written, whatever characters its texts are made of and however many orders it carries. So a
text stands for one value, and a value that was read from any text at all is written in one way.
-/

namespace OrderCluster

/-- What travels as JSON: the bodies of the calls and of stock changes, and what they are made of. -/
inductive Body where
  | order
  | request (method : Method)
  | response (method : Method)
  | stockRequest
  | stockChange
  | memberView
  | status
  | mode
  | address
  deriving DecidableEq, Repr

namespace Body

abbrev Value : Body → Type
  | .order => Order
  | .request method => method.Request
  | .response method => method.Response
  | .stockRequest => StockRequest
  | .stockChange => StockChange
  | .memberView => MemberView
  | .status => Status
  | .mode => Mode
  | .address => Address

instance : (b : Body) → Wire b.Value
  | .order => inferInstanceAs (Wire Order)
  | .request method => inferInstanceAs (Wire method.Request)
  | .response method => inferInstanceAs (Wire method.Response)
  | .stockRequest => inferInstanceAs (Wire StockRequest)
  | .stockChange => inferInstanceAs (Wire StockChange)
  | .memberView => inferInstanceAs (Wire MemberView)
  | .status => inferInstanceAs (Wire Status)
  | .mode => inferInstanceAs (Wire Mode)
  | .address => inferInstanceAs (Wire Address)

/-- What is written of a body can be told apart when it is read. -/
theorem legible (b : Body) : (Wire.shape b.Value).legible = true := by
  match b with
  | .request method => cases method <;> decide +kernel
  | .response method => cases method <;> decide +kernel
  | .order | .stockRequest | .stockChange | .memberView | .status | .mode | .address =>
    decide +kernel

/-- What is promised of the texts of a body. -/
structure RoundTrips (b : Body) : Prop where
  /-- A value is written as text. -/
  text : ∀ v : b.Value, Json.IsText (Wire.encode v)
  /-- A value is read back from what is written of it. -/
  back : ∀ v : b.Value, Wire.decode (Wire.encode v) = .ok v
  /-- Values that differ are written differently. -/
  apart : ∀ v w : b.Value, Wire.encode v = Wire.encode w → v = w
  /-- A value that was read from any text is read and written once more as it is. -/
  settled : ∀ (read : Json.Bytes) (v : b.Value), Wire.decode read = .ok v →
    ∃ w : b.Value, Wire.decode (Wire.encode v) = .ok w ∧ w = v ∧ Wire.encode w = Wire.encode v

/-- Every body survives the wire. -/
theorem roundTrips (b : Body) : b.RoundTrips := by
  have back : ∀ v : b.Value, Wire.decode (Wire.encode v) = .ok v := Wire.decode_encode b.legible
  constructor
  · exact fun v => Json.isText_compact (Wire.toJson v)
  · exact back
  · intro v w same
    have read := back v
    rw [same, back w] at read
    exact (Except.ok.inj read).symm
  · exact fun read v _ => ⟨v, back v, rfl, rfl⟩

end Body

end OrderCluster
