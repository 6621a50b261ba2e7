import OrderCluster.Http.Route

/-!
# The description of the interface

The document that tells clients which operations a node offers, and with which statuses it answers.
-/

namespace OrderCluster.Http

structure Operation where
  route : Route
  id : String
  tag : String
  /-- Each status with what it means. -/
  responses : List (Nat × String)

namespace Operation

def all : List Operation :=
  [⟨.page .health, "HealthCheck", "Health", [(200, "Process is up")]⟩,
    ⟨.page .readiness, "Readiness", "Health",
      [(200, "Ready to serve"), (503, "Bootstrap sync still running")]⟩,
    ⟨.page .status, "Status", "Health", [(200, "This node's view of the cluster")]⟩,
    ⟨.call .buy, "Buy", "Orders",
      [(200, "Order placed, or refused by the catalog"), (400, "Invalid request"),
        (409, "Not the leader (strict mode)"), (503, "Catalog unavailable")]⟩,
    ⟨.call .query, "QueryOrderNumber", "Orders", [(200, "Lookup result")]⟩,
    ⟨.call .health, "CheckHealth", "Cluster", [(200, "Probe answered")]⟩,
    ⟨.call .assign, "AssignLeader", "Cluster", [(200, "Assignment noted")]⟩,
    ⟨.call .fetch, "FetchAllOrdersFrom", "Cluster", [(200, "Records above the number")]⟩,
    ⟨.call .accept, "AcceptOrdersFromLeader", "Cluster", [(200, "Whether the record was stored")]⟩]

def toMember (o : Operation) : String × Json :=
  let verb := match o.route with
    | .page _ => "get"
    | .call _ => "post"
  let responses := o.responses.map fun (status, meaning) =>
    (toString status, .object [("description", .string meaning)])
  (o.route.path, .object [(verb, .object [("tags", .array [.string o.tag]),
    ("operationId", .string o.id), ("responses", .object responses)])])

end Operation

def openapi : Json :=
  .object [("openapi", .string "3.1.0"),
    ("info", .object [("title", .string "orderstore"),
      ("description", .string "Replicated order-log service"), ("version", .string "0.1.0")]),
    ("paths", .object (Operation.all.map Operation.toMember)),
    ("tags", .array [
      .object [("name", .string "Health"), ("description", .string "Liveness, readiness and status")],
      .object [("name", .string "Orders"), ("description", .string "Buying and looking up orders")],
      .object [("name", .string "Cluster"),
        ("description", .string "Leader assignment and replication")]])]

end OrderCluster.Http
