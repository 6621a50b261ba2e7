import OrderCluster.Catalog.Basic
import OrderCluster.Json.Wire
import OrderCluster.Rpc.Method

/-!
# The messages as JSON

The shape of each message. An optional field without a value is left out, and null reads as none.
-/

namespace OrderCluster

open Json (Shape Fields)

abbrev orderNumberShape : Shape := Wire.shape OrderNumber

abbrev quantityShape : Shape := Wire.shape Int32

abbrev nodeIdShape : Shape := Wire.shape NodeId

instance : Wire Order where
  shape := .record <| .required "orderNumber" orderNumberShape <| .required "name" .text <|
    .required "quantity" quantityShape .nil
  toValue o := (Wire.toValue o.number, o.product, Wire.toValue o.quantity, ())
  ofValue := fun (number, product, quantity, _) =>
    ⟨Wire.ofValue number, product, Wire.ofValue quantity⟩
  ofValue_toValue o := by simp [Wire.ofValue_toValue]

instance : Wire BuyRequest where
  shape := .record <| .required "name" .text <| .required "quantity" quantityShape .nil
  toValue r := (r.name, Wire.toValue r.quantity, ())
  ofValue := fun (name, quantity, _) => ⟨name, Wire.ofValue quantity⟩
  ofValue_toValue r := by simp [Wire.ofValue_toValue]

instance : Wire BuyResponse where
  shape := .record <| .required "success" .flag <| .optional "orderNumber" orderNumberShape <|
    .optional "errorMessage" .text .nil
  toValue r := (r.success, r.orderNumber.map Wire.toValue, r.errorMessage, ())
  ofValue := fun (success, number, message, _) => ⟨success, number.map Wire.ofValue, message⟩
  ofValue_toValue r := by simp [Function.comp_def, Wire.ofValue_toValue]

instance : Wire QueryRequest where
  shape := .record <| .required "orderNumber" orderNumberShape .nil
  toValue r := (Wire.toValue r.orderNumber, ())
  ofValue := fun (number, _) => ⟨Wire.ofValue number⟩
  ofValue_toValue r := by simp [Wire.ofValue_toValue]

instance : Wire QueryResponse where
  shape := .record <| .required "success" .flag <| .optional "order" (Wire.shape Order) <|
    .optional "errorMessage" .text .nil
  toValue r := (r.success, r.order.map Wire.toValue, r.errorMessage, ())
  ofValue := fun (success, order, message, _) => ⟨success, order.map Wire.ofValue, message⟩
  ofValue_toValue r := by simp [Function.comp_def, Wire.ofValue_toValue]

instance : Wire HealthRequest where
  shape := .record <| .required "message" .text .nil
  toValue r := (r.message, ())
  ofValue := fun (message, _) => ⟨message⟩
  ofValue_toValue _ := rfl

instance : Wire HealthResponse where
  shape := .record <| .required "message" .text .nil
  toValue r := (r.message, ())
  ofValue := fun (message, _) => ⟨message⟩
  ofValue_toValue _ := rfl

instance : Wire LeaderAssignment where
  shape := .record <| .required "id" nodeIdShape <| .required "host" .text <|
    .required "port" (Wire.shape UInt16) .nil
  toValue r := (Wire.toValue r.id, r.host, Wire.toValue r.port, ())
  ofValue := fun (id, host, port, _) => ⟨Wire.ofValue id, host, Wire.ofValue port⟩
  ofValue_toValue r := by simp [Wire.ofValue_toValue]

instance : Wire AssignmentResponse where
  shape := .record <| .required "message" .text .nil
  toValue r := (r.message, ())
  ofValue := fun (message, _) => ⟨message⟩
  ofValue_toValue _ := rfl

instance : Wire FetchRequest where
  shape := .record <| .required "requesterId" nodeIdShape <|
    .required "afterOrderNumber" orderNumberShape .nil
  toValue r := (Wire.toValue r.requester, Wire.toValue r.after, ())
  ofValue := fun (requester, after, _) => ⟨Wire.ofValue requester, Wire.ofValue after⟩
  ofValue_toValue r := by simp [Wire.ofValue_toValue]

instance : Wire FetchResponse where
  shape := .record <| .required "orders" (Wire.shape (List Order)) <|
    .required "afterOrderNumber" orderNumberShape .nil
  toValue r := (Wire.toValue r.orders, Wire.toValue r.after, ())
  ofValue := fun (orders, after, _) => ⟨Wire.ofValue orders, Wire.ofValue after⟩
  ofValue_toValue r := by simp [Wire.ofValue_toValue]

instance : Wire AcceptRequest where
  shape := .record <| .required "order" (Wire.shape Order) <|
    .required "requesterId" nodeIdShape .nil
  toValue r := (Wire.toValue r.order, Wire.toValue r.requester, ())
  ofValue := fun (order, requester, _) => ⟨Wire.ofValue order, Wire.ofValue requester⟩
  ofValue_toValue r := by simp [Wire.ofValue_toValue]

instance : Wire AcceptResponse where
  shape := .record <| .required "success" .flag .nil
  toValue r := (r.success, ())
  ofValue := fun (success, _) => ⟨success⟩
  ofValue_toValue _ := rfl

instance : Wire StockRequest where
  shape := .record <| .required "name" .text <| .required "quantity" quantityShape <|
    .required "isIncrement" .flag .nil
  toValue r := (r.name, Wire.toValue r.quantity, r.isIncrement, ())
  ofValue := fun (name, quantity, isIncrement, _) => ⟨name, Wire.ofValue quantity, isIncrement⟩
  ofValue_toValue r := by simp [Wire.ofValue_toValue]

instance : Wire StockChange where
  shape := .record <| .required "success" .flag <| .optional "errorMessage" .text .nil
  toValue r := (r.success, r.errorMessage, ())
  ofValue := fun (success, message, _) => ⟨success, message⟩
  ofValue_toValue _ := rfl

instance : Wire Status where
  shape := .choice ["ACTIVE", "OFFLINE"]
  toValue
    | .active => (0 : Fin 2)
    | .offline => (1 : Fin 2)
  ofValue := fun (i : Fin 2) => if i = 0 then .active else .offline
  ofValue_toValue s := by cases s <;> rfl

instance : Wire Mode where
  shape := .choice ["LEADER", "FOLLOWER"]
  toValue
    | .leader => (0 : Fin 2)
    | .follower => (1 : Fin 2)
  ofValue := fun (i : Fin 2) => if i = 0 then .leader else .follower
  ofValue_toValue m := by cases m <;> rfl

instance : Wire Address where
  shape := .record <| .required "host" .text <| .required "port" (Wire.shape UInt16) .nil
  toValue a := (a.host, Wire.toValue a.port, ())
  ofValue := fun (host, port, _) => ⟨host, Wire.ofValue port⟩
  ofValue_toValue a := by simp [Wire.ofValue_toValue]

instance : Wire MemberView where
  shape := .record <| .required "id" nodeIdShape <| .required "address" .text <|
    .required "status" (Wire.shape Status) <| .required "mode" (Wire.shape Mode) .nil
  toValue m := (Wire.toValue m.id, m.address, Wire.toValue m.status, Wire.toValue m.mode, ())
  ofValue := fun (id, address, status, mode, _) =>
    ⟨Wire.ofValue id, address, Wire.ofValue status, Wire.ofValue mode⟩
  ofValue_toValue m := by simp [Wire.ofValue_toValue]

instance : (method : Method) → Wire method.Request
  | .buy => inferInstanceAs (Wire BuyRequest)
  | .query => inferInstanceAs (Wire QueryRequest)
  | .health => inferInstanceAs (Wire HealthRequest)
  | .assign => inferInstanceAs (Wire LeaderAssignment)
  | .fetch => inferInstanceAs (Wire FetchRequest)
  | .accept => inferInstanceAs (Wire AcceptRequest)

instance : (method : Method) → Wire method.Response
  | .buy => inferInstanceAs (Wire BuyResponse)
  | .query => inferInstanceAs (Wire QueryResponse)
  | .health => inferInstanceAs (Wire HealthResponse)
  | .assign => inferInstanceAs (Wire AssignmentResponse)
  | .fetch => inferInstanceAs (Wire FetchResponse)
  | .accept => inferInstanceAs (Wire AcceptResponse)

end OrderCluster
