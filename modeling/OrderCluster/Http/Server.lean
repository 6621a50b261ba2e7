import OrderCluster.Http.MediaType
import OrderCluster.Http.Openapi
import OrderCluster.Service.Serve

/-!
# The server of a node

A request is routed by its path, then by its method. A call must announce JSON, fit the size limit
and decode, in this order; each failure has a response of its own. Every request is counted under
its method, its path and the status of its response, but for those to the metrics page.
-/

namespace OrderCluster.Http

open Json (Bytes Fault)

structure Settings where
  /-- Whether only a leader takes buys. -/
  strict : Bool := false
  /-- Whether there is a metrics page. -/
  metricsPage : Bool := true
  /-- Whether readiness waits for the first sync. -/
  awaitsSync : Bool := true
  /-- Whether the node catches up when it starts. -/
  syncsAtStart : Bool := true
  deriving DecidableEq, Repr

/-- What a request is counted under. -/
structure Answered where
  method : String
  path : String
  status : Nat
  deriving DecidableEq, Repr

/-- What the outer layer stamps on a response. -/
structure Stamp where
  requestId : String
  date : String
  deriving DecidableEq, Repr

structure Server (κ : Type) where
  settings : Settings
  desk : Desk κ
  ready : Bool := false
  answered : List (Answered × Nat) := []

def count (a : Answered) : List (Answered × Nat) → List (Answered × Nat)
  | [] => [(a, 1)]
  | (b, n) :: rest => if b = a then (b, n + 1) :: rest else (b, n) :: count a rest

/-- The greatest size of a body in bytes. -/
def sizeLimit : Nat := 2097152

/-- The text of a rejection: what failed, and why. -/
def rejection (status : Nat) (what why : String) : Response := .ofText status (what ++ ": " ++ why)

def decodeBody [Wire α] (r : Request) : Except Response α :=
  if !announcesJson r.contentType then
    .error (rejection 415 "Expected request with \x60Content-Type" "application/json\x60")
  else if sizeLimit < r.body.length then
    .error (rejection 413 "Failed to buffer the request body" "length limit exceeded")
  else
    match Wire.decodeFront r.body with
    | .ok a => .ok a
    | .error .mismatched =>
      .error (rejection 422 "Failed to deserialize the JSON body into the target type"
        "unexpected value")
    | .error .truncated =>
      .error (rejection 400 "Failed to parse the request body as JSON" "unexpected end")
    | .error .malformed =>
      .error (rejection 400 "Failed to parse the request body as JSON" "unexpected character")

namespace Server

variable {κ : Type} [Catalog κ]

def series (s : Server κ) : List Series :=
  s.answered.filterMap (fun (a, n) => Series.count? "orderstore_http_requests_total"
      [("method", a.method), ("path", a.path), ("status", toString a.status)] n) ++
    s.desk.node.series

def page (requestId : String) : Page → Server κ → Response × Server κ
  | .health, s => (.ofJson 200 (.object [("status", .string "ok")]), s)
  | .readiness, s =>
    if !s.settings.awaitsSync || s.ready then
      (.ofJson 200 (.object [("status", .string "ready")]), s)
    else (.ofJson 503 (.object [("status", .string "syncing")]), s)
  | .status, s =>
    match Service.status.perform s.desk with
    | (.ok report, desk) => (.ofJson 200 report.toJson, { s with desk })
    | (.error e, desk) => (.ofError requestId e, { s with desk })
  | .openapi, s => (.ofJson 200 Http.openapi, s)
  | .metrics, s =>
    ({ status := 200, contentType := some "text/plain; version=0.0.4",
       body := Json.utf8 (exposition s.series) }, s)

/-- Serves a call; a placed buy gives the order that is owed to the peers. -/
def call (requestId : String) (method : Method) (r : Request) (s : Server κ) :
    Response × Option Order × Server κ :=
  match (decodeBody r : Except Response method.Request) with
  | .error rejection => (rejection, none, s)
  | .ok request =>
    match (Service.serve s.settings.strict method request).perform s.desk with
    | ((.ok response, owed), desk) => (.ofWire response, owed, { s with desk })
    | ((.error e, owed), desk) => (.ofError requestId e, owed, { s with desk })

def dispatch (requestId : String) (r : Request) (s : Server κ) :
    Response × Option Order × Server κ :=
  let route? := (Route.find? r.barePath).filter fun route =>
    route ≠ .page .metrics || s.settings.metricsPage
  match route? with
  | none => ({ status := 404 }, none, s)
  | some route =>
    if !route.allowed.contains r.method then
      ({ status := 405, allow := route.allowed }, none, s)
    else
      match route with
      | .page p =>
        let (response, s) := s.page requestId p
        (if r.method = "HEAD" then { response with body := [] } else response, none, s)
      | .call method => s.call requestId method r

/-- Answers a request, stamps the response and counts it. -/
def handle (stamp : Stamp) (r : Request) (s : Server κ) : Response × Option Order × Server κ :=
  let (response, owed, s) := s.dispatch stamp.requestId r
  let response := { response with
    requestId := some (response.requestId.getD stamp.requestId)
    date := some stamp.date
    server := some "orderstore" }
  let a : Answered := ⟨r.method, Route.label r.barePath, response.status⟩
  let s := if r.barePath = Page.metrics.path then s else { s with answered := count a s.answered }
  (response, owed, s)

end Server

end OrderCluster.Http
