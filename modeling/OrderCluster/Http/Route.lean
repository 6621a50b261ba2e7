import OrderCluster.Http.Message

/-!
# Routes

The fixed paths of a node. Each is either a page, which is read, or a call, which is posted.
-/

namespace OrderCluster.Http

inductive Page where
  | health
  | readiness
  | status
  | openapi
  | metrics
  deriving DecidableEq, Repr

inductive Route where
  | page (page : Page)
  | call (method : Method)
  deriving DecidableEq, Repr

namespace Page

def all : List Page := [.health, .readiness, .status, .openapi, .metrics]

def path : Page → String
  | .health => "/health"
  | .readiness => "/readyz"
  | .status => "/status"
  | .openapi => "/openapi.json"
  | .metrics => "/metrics"

end Page

namespace Route

def all : List Route := Page.all.map .page ++ Method.all.map .call

def path : Route → String
  | .page p => p.path
  | .call m => m.path

/-- The methods a route allows, sorted. -/
def allowed : Route → List String
  | .page _ => ["GET", "HEAD"]
  | .call _ => ["POST"]

def find? (path : String) : Option Route := all.find? fun r => r.path = path

/-- The label under which requests for a path are counted; strange paths share one. -/
def label (path : String) : String :=
  match find? path with
  | some r => r.path
  | none => "/\x7bother\x7d"

end Route

/-- The path of a request without query and fragment. -/
def Request.barePath (r : Request) : String :=
  String.ofList (r.path.toList.takeWhile fun c => c ≠ '?' && c ≠ '#')

end OrderCluster.Http
