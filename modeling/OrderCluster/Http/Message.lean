import OrderCluster.Rpc.Wire
import OrderCluster.Service.Error

/-!
# Http messages

What travels between a client and a node. Every response of a node bears a request id of sixteen
upper-case hexadecimal digits, a date and the name of the server.
-/

namespace OrderCluster.Http

open Json (Bytes)

/-- What a client sends; the path includes the query. -/
structure Request where
  method : String
  path : String
  contentType : Option String := none
  body : Bytes := []
  deriving DecidableEq, Repr

/-- What a node sends back. The methods that a path allows are listed where another was used. -/
structure Response where
  status : Nat
  contentType : Option String := none
  allow : List String := []
  requestId : Option String := none
  date : Option String := none
  server : Option String := none
  body : Bytes := []
  deriving DecidableEq, Repr

def jsonType : String := "application/json"

def isRequestId (s : String) : Bool :=
  s.length = 16 && s.all fun c => c.isDigit || ('A' ≤ c && c ≤ 'F')

namespace Response

def isSuccess (r : Response) : Bool := 200 ≤ r.status && r.status < 300

def ofJson (status : Nat) (body : Json) : Response :=
  { status, contentType := some jsonType, body := body.compact }

def ofWire [Wire α] (a : α) : Response := .ofJson 200 (Wire.toJson a)

def ofText (status : Nat) (text : String) : Response :=
  { status, contentType := some "text/plain; charset=utf-8", body := Json.utf8 text }

def ofError (requestId : String) (e : ServiceError) : Response :=
  { Response.ofJson e.status (e.body requestId) with requestId := some requestId }

end Response

end OrderCluster.Http
