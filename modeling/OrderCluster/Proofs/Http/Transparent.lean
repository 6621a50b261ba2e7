import Mathlib
import OrderCluster.Catalog.Overridden
import OrderCluster.Http.Client
import OrderCluster.Http.Server
import OrderCluster.Proofs.Json.Document
import OrderCluster.Proofs.Json.Shape
import OrderCluster.Proofs.Rpc.Bodies
import OrderCluster.Proofs.Text.Lossy
import OrderCluster.Replication.Site
import OrderCluster.Rpc.Scripted

/-!
# A call over the network is a call

A node that is reached over a network answers each call as it would answer without one. The request
finds the route of its call and is read back from its body; the answer, or the error in place of one,
is read back from the body of the response. So the caller sees the very answer, or the status and the
message of the very error, and the node is left as the call itself leaves it.
-/

namespace OrderCluster

open Http Replication
open Json (Document)

/-! ## Calls without a network -/

namespace Replication.Site

variable {κ σ : Type} [Catalog κ] [Peers σ]

/-- Pushes an order that is owed to the peers in the background. -/
def pay (s : Site κ σ) : Option Order → Site κ σ
  | some order => s.spawn order
  | none => s

/-- Answers a call at once; a placed order is pushed in the background. -/
def serve (s : Site κ σ) (strict : Bool) (method : Method) (request : method.Request) :
    Except ServiceError method.Response × Site κ σ :=
  let ((answer, owed?), s) := s.work (Service.serve strict method request)
  (answer, s.pay owed?)

end Replication.Site

namespace Http

/-! ## Calls over a network -/

/-- A node among its peers that serves requests. -/
structure Outlet (κ σ : Type) where
  site : Site κ σ
  settings : Settings
  stamp : Stamp
  ready : Bool := false
  answered : List (Answered × Nat) := []

namespace Outlet

variable {κ σ : Type} [Catalog κ] [Peers σ]

def server (o : Outlet κ σ) : Server κ := ⟨o.settings, o.site.desk, o.ready, o.answered⟩

/-- Answers a request; a placed order is pushed in the background. -/
def respond (o : Outlet κ σ) (request : Request) : Response × Outlet κ σ :=
  let (response, owed?, server) := o.server.handle o.stamp request
  let site := { o.site with desk := server.desk }
  (response, { o with
    site := site.pay owed?
    settings := server.settings
    ready := server.ready
    answered := server.answered })

end Outlet

/-- A network that never fails, with one node to reach. -/
instance {κ σ : Type} [Catalog κ] [Peers σ] : Network (Outlet κ σ) where
  deliver o _ request :=
    let (response, o) := o.respond request
    (.answered response, o)

/-! ## The request -/

theorem legible_request (method : Method) : (Wire.shape method.Request).legible = true :=
  (Body.request method).legible

theorem legible_response (method : Method) : (Wire.shape method.Response).legible = true :=
  (Body.response method).legible

theorem announcesJson_jsonType : announcesJson (some jsonType) = true := by
  decide +kernel

/-- The body of a call within the size limit is read back. -/
theorem decodeBody_callRequest {method : Method} {request : method.Request}
    (fits : (Wire.encode request).length ≤ sizeLimit) :
    decodeBody (callRequest method request) = .ok request := by
  have announced : announcesJson (callRequest method request).contentType = true :=
    announcesJson_jsonType
  have within : ¬ sizeLimit < (callRequest method request).body.length := Nat.not_lt.mpr fits
  have read : Wire.decodeFront (callRequest method request).body = .ok request :=
    Wire.decodeFront_encode (legible_request method) request
  rw [decodeBody, announced, if_neg (by decide), if_neg within, read]

theorem barePath_callRequest (method : Method) (request : method.Request) :
    (callRequest method request).barePath = method.path := by
  change String.ofList (method.path.toList.takeWhile fun c => c ≠ '?' && c ≠ '#') = method.path
  cases method <;> decide +kernel

theorem label_path (method : Method) : Route.label method.path = method.path := by
  cases method <;> decide +kernel

theorem path_ne_metrics (method : Method) : method.path ≠ Page.metrics.path := by
  cases method <;> decide +kernel

theorem find?_path (method : Method) : Route.find? method.path = some (.call method) := by
  cases method <;> decide +kernel

/-! ## The response -/

/-- The response that carries an answer of the service. -/
def Response.ofAnswer {α : Type} [Wire α] (requestId : String) : Except ServiceError α → Response
  | .ok a => .ofWire a
  | .error e => .ofError requestId e

/-- The status that an answer is counted under. -/
def statusOf {α : Type} : Except ServiceError α → Nat
  | .ok _ => 200
  | .error e => e.status

/-- An error as the caller of a node sees it. -/
def relay (address : Address) (e : ServiceError) : PeerError :=
  .rejected address.text e.status e.message

/-- The body of an error is read as the object that it is. -/
theorem ofText?_body (e : ServiceError) (requestId : String) :
    Document.ofText? (e.body requestId).compact =
      some (.object [("error", .object [("requestId", .string requestId),
        ("message", .string e.message), ("code", .string e.code)])]) := by
  -- Of the levels that a document may have, the error takes two.
  have inner := Document.reads_object <|
    .cons (Document.reads_member (Document.reads_string 125 e.code) "code" []) <|
    .cons (Document.reads_member (Document.reads_string 125 e.message) "message" _) <|
    .cons (Document.reads_member (Document.reads_string 125 requestId) "requestId" _) <|
    .nil _
  have outer := Document.reads_object (.cons (Document.reads_member inner "error" []) (.nil _))
  have read := outer [] Json.stops_nil
  rw [List.append_nil] at read
  change Document.readWithin Document.maxDepth (e.body requestId).compact = _ at read
  rw [Document.ofText?, read]
  rfl

/-- The message of an error is found in its body. -/
theorem rejectionMessage_body (e : ServiceError) (requestId : String) :
    rejectionMessage (e.body requestId).compact = e.message := by
  obtain ⟨text, eq⟩ := Json.isText_compact (e.body requestId)
  have same : Text.lossy (e.body requestId).compact = text := by
    rw [eq, Text.lossy_utf8]
  have document := ofText?_body e requestId
  rw [eq] at document
  rw [rejectionMessage, same]
  simp only [document]
  rfl

/-- No error is taken for a success. -/
theorem le_status (e : ServiceError) : 400 ≤ e.status := by
  cases e <;> exact of_decide_eq_true rfl

/-- An answer is read back from the response that carries it, whatever is stamped on that. -/
theorem callOutcome_ofAnswer (address : Address) (deadline : Nat) (method : Method)
    (requestId : String) (answer : Except ServiceError method.Response) (response : Response)
    (status : response.status = statusOf answer)
    (body : response.body = (Response.ofAnswer requestId answer).body) :
    callOutcome address deadline method (.answered response) = answer.mapError (relay address) := by
  cases answer with
  | ok a =>
    have read : Wire.decode response.body = .ok a := by
      rw [body]
      exact Wire.decode_encode (legible_response method) a
    have success : response.isSuccess = true := by
      rw [Response.isSuccess, status]
      rfl
    rw [callOutcome, if_pos success, read]
    rfl
  | error e =>
    have message : rejectionMessage response.body = e.message := by
      rw [body]
      exact rejectionMessage_body e requestId
    have failure : response.isSuccess = false := by
      have large : ¬ e.status < 300 := by
        have bound := le_status e
        omega
      rw [Response.isSuccess, status]
      change (200 ≤ e.status && e.status < 300) = false
      rw [decide_eq_false large, Bool.and_false]
    rw [callOutcome, failure, message, status]
    rfl

/-! ## The server -/

section Server

variable {κ : Type} [Catalog κ]

/-- A call within the size limit is served as it was made. -/
theorem call_callRequest (s : Server κ) (requestId : String) {method : Method}
    {request : method.Request} (fits : (Wire.encode request).length ≤ sizeLimit) :
    s.call requestId method (callRequest method request) =
      (match (Service.serve s.settings.strict method request).perform s.desk with
        | ((answer, owed), desk) => (.ofAnswer requestId answer, owed, { s with desk })) := by
  rw [Server.call, decodeBody_callRequest fits]
  dsimp only
  generalize (Service.serve s.settings.strict method request).perform s.desk = done
  obtain ⟨⟨answer, owed⟩, desk⟩ := done
  cases answer <;> rfl

/-- A call finds its route. -/
theorem dispatch_callRequest (s : Server κ) (requestId : String) (method : Method)
    (request : method.Request) :
    s.dispatch requestId (callRequest method request) =
      s.call requestId method (callRequest method request) := by
  have found : (Route.find? (callRequest method request).barePath).filter (fun route =>
      route ≠ .page .metrics || s.settings.metricsPage) = some (.call method) := by
    rw [barePath_callRequest, find?_path]
    rfl
  rw [Server.dispatch, found]
  rfl

theorem handle_callRequest (s : Server κ) (stamp : Stamp) {method : Method}
    {request : method.Request} (fits : (Wire.encode request).length ≤ sizeLimit)
    {answer : Except ServiceError method.Response} {owed : Option Order} {desk : Desk κ}
    (served : (Service.serve s.settings.strict method request).perform s.desk =
      ((answer, owed), desk)) :
    ∃ response, s.handle stamp (callRequest method request) =
        (response, owed,
          { s with desk, answered := count ⟨"POST", method.path, statusOf answer⟩ s.answered }) ∧
      response.status = statusOf answer ∧
      response.body = (Response.ofAnswer stamp.requestId answer).body := by
  have done := call_callRequest s stamp.requestId fits
  have status : (Response.ofAnswer stamp.requestId answer).status = statusOf answer := by
    cases answer <;> rfl
  rw [served] at done
  let plain := Response.ofAnswer stamp.requestId answer
  refine ⟨{ plain with
    requestId := some (plain.requestId.getD stamp.requestId)
    date := some stamp.date
    server := some "orderstore" }, ?_, status, rfl⟩
  rw [Server.handle, dispatch_callRequest, done]
  simp only [barePath_callRequest, label_path, path_ne_metrics, if_false, ← status]
  rfl

end Server

/-! ## The node -/

variable {κ σ : Type} [Catalog κ] [Peers σ]

theorem respond_callRequest (o : Outlet κ σ) {method : Method} {request : method.Request}
    (fits : (Wire.encode request).length ≤ sizeLimit)
    {answer : Except ServiceError method.Response} {site : Site κ σ}
    (direct : o.site.serve o.settings.strict method request = (answer, site)) :
    ∃ response, o.respond (callRequest method request) =
        (response,
          { o with site, answered := count ⟨"POST", method.path, statusOf answer⟩ o.answered }) ∧
      response.status = statusOf answer ∧
      response.body = (Response.ofAnswer o.stamp.requestId answer).body := by
  obtain ⟨⟨⟨reply, owed⟩, desk⟩, served⟩ :
      ∃ done, (Service.serve o.settings.strict method request).perform o.site.desk = done := ⟨_, rfl⟩
  -- The server does the task of the direct call at the same desk, so both end alike.
  have end_eq : (reply, ({ o.site with desk } : Site κ σ).pay owed) = (answer, site) := by
    rw [← direct, Site.serve, Site.work, served]
  obtain ⟨rfl, rfl⟩ := Prod.mk.inj end_eq
  obtain ⟨response, handled, status, body⟩ := handle_callRequest o.server o.stamp fits served
  refine ⟨response, ?_, status, body⟩
  rw [Outlet.respond, handled]
  rfl

/-- What a call over the network comes to, from what the call itself comes to. -/
theorem callOver_eq (o : Outlet κ σ) (address : Address) (deadline : Nat) {method : Method}
    {request : method.Request} (fits : (Wire.encode request).length ≤ sizeLimit)
    {answer : Except ServiceError method.Response} {site : Site κ σ}
    (direct : o.site.serve o.settings.strict method request = (answer, site)) :
    callOver o address deadline method request =
      (answer.mapError (relay address),
        { o with site, answered := count ⟨"POST", method.path, statusOf answer⟩ o.answered }) := by
  obtain ⟨response, responded, status, body⟩ := respond_callRequest o fits direct
  have outcome := callOutcome_ofAnswer address deadline method o.stamp.requestId answer response
    status body
  have delivered : Network.deliver o address (callRequest method request) =
      (Delivery.answered response,
        { o with site, answered := count ⟨"POST", method.path, statusOf answer⟩ o.answered }) := by
    change (let (response, o) := o.respond (callRequest method request)
      (Delivery.answered response, o)) = _
    rw [responded]
  rw [callOver, delivered]
  dsimp only
  rw [outcome]

/-- A call whose body is within the size limit leaves the node as the call without a network does,
save that it is counted among the requests. Its caller sees the same answer; where there is none but
an error, the caller sees a rejection with the status and the message of that error. -/
theorem callOver_transparent (o : Outlet κ σ) (address : Address) (deadline : Nat)
    (method : Method) (request : method.Request)
    (fits : (Wire.encode request).length ≤ sizeLimit) :
    let direct := o.site.serve o.settings.strict method request
    let called := callOver o address deadline method request
    called.2 =
        { o with
          site := direct.2
          answered := count ⟨"POST", method.path, statusOf direct.1⟩ o.answered } ∧
      (∀ response, direct.1 = .ok response → called.1 = .ok response) ∧
      ∀ e, direct.1 = .error e → ∃ fault, called.1 = .error fault ∧
        fault = .rejected address.text e.status e.message ∧ fault.isTransport = false := by
  dsimp only
  generalize direct : o.site.serve o.settings.strict method request = done
  obtain ⟨answer, site⟩ := done
  rw [callOver_eq o address deadline fits direct]
  refine ⟨rfl, ?_, ?_⟩
  · rintro response rfl
    rfl
  · rintro e rfl
    exact ⟨relay address e, rfl, rfl, rfl⟩

/-! ## A node that sells ants -/

/-- A node with three ants and one peer; its catalog may have a fixed answer to every wish. -/
def antSeller (onTake : Option (Except Failure StockChange)) :
    Outlet OverriddenCatalog ScriptedPeers where
  site :=
    { desk :=
        { node :=
            { storage := { log := .table { medium := .inMemory } }
              counter := .startingAbove 0
              registry := .ofMembers 1 [{ id := 2, address := ⟨"10.0.0.2", 1766⟩ }] }
          catalog := { stock := .ofList [("ant", 3)], onTake } }
      lanes := .ofWidth 1 50 { peers := [{ id := 2 }] } }
  settings := {}
  stamp := ⟨"0123456789ABCDEF", "Thu, 01 Jan 1970 00:00:00 GMT"⟩

/-- A buy is answered as it is without a network, and a push is under way afterwards; where the
catalog is out of order, its complaint arrives letter by letter. -/
theorem callOver_antSeller :
    let ants : BuyRequest := ⟨"ant", 2⟩
    let address : Address := ⟨"10.0.0.1", 1766⟩
    let complaint := "fermé: \"café\" 🐜"
    let broken := some (.error (.because complaint))
    (Wire.encode ants).length ≤ sizeLimit ∧
      (callOver (antSeller none) address 50 .buy ants).1 = .ok (.placed 1) ∧
      (callOver (antSeller none) address 50 .buy ants).2.site.pending = 1 ∧
      (callOver (antSeller broken) address 50 .buy ants).1 =
        .error (.rejected "10.0.0.1:1766" 503 ("catalog unavailable: " ++ complaint)) := by
  intro ants address complaint broken
  have fits : (Wire.encode ants).length ≤ sizeLimit := by cbv
  have address_text : address.text = "10.0.0.1:1766" := by cbv
  obtain ⟨after, success, _⟩ := callOver_transparent (antSeller none) address 50 .buy ants fits
  obtain ⟨_, _, failure⟩ := callOver_transparent (antSeller broken) address 50 .buy ants fits
  have placed := success (.placed 1) (by cbv)
  have pushed : (callOver (antSeller none) address 50 .buy ants).2.site.pending = 1 := by
    rw [after]
    cbv
  have refused := failure (.catalogUnavailable complaint) (by cbv)
  obtain ⟨fault, outcome, same, _⟩ := refused
  rw [address_text] at same
  refine ⟨fits, placed, pushed, ?_⟩
  exact outcome.trans (congrArg Except.error same)

end Http

end OrderCluster
