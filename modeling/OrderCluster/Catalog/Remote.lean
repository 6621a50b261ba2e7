import OrderCluster.Http.Network

/-!
# A catalog on another machine

Stock changes are posted as JSON. A failure says first how far the request came.
-/

namespace OrderCluster

open Http (Delivery Request)

/-- A catalog at an url, and what becomes of the requests that are sent there. -/
structure RemoteCatalog where
  url : String
  deliver : Request → Delivery

namespace RemoteCatalog

/-- The path that stock changes are posted to, below the base url. -/
def path : String := "/rpc/change-stock"

/-- The path of an url, behind its scheme and its authority. -/
def pathOf (url : String) : String :=
  String.ofList (((url.splitOn "://").getD 1 "").toList.dropWhile (· ≠ '/'))

/-- The catalog below a base url, whose closing slashes do not matter. -/
def ofBase (base : String) (deliver : Request → Delivery) : RemoteCatalog :=
  let trimmed := String.ofList ((base.toList.reverse.dropWhile (· = '/')).reverse)
  ⟨trimmed ++ path, deliver⟩

def request (url : String) (change : StockRequest) : Request :=
  { method := "POST", path := pathOf url, contentType := some Http.jsonType, body := Wire.encode change }

def outcome (url : String) : Delivery → Except Failure StockChange
  | .refused reason => .error ⟨["catalog at " ++ url ++ " unreachable", reason]⟩
  | .silent =>
    .error ⟨["catalog at " ++ url ++ " unreachable", "error sending request", "operation timed out"]⟩
  | .answered r =>
    if 400 ≤ r.status && r.status < 600 then
      .error ⟨["catalog rejected the request", "status " ++ toString r.status]⟩
    else
      match Wire.decode r.body with
      | .ok change => .ok change
      | .error _ => .error ⟨["catalog sent an unreadable response", "error decoding response body"]⟩

instance : Catalog RemoteCatalog where
  change catalog change := (outcome catalog.url (catalog.deliver (request catalog.url change)), catalog)

end RemoteCatalog

end OrderCluster
