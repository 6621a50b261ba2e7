import OrderCluster.Http.Message
import OrderCluster.Text.Numeral

/-!
# Messages on a connection

How a request is written, and how a response is read, when there is one exchange on a connection.
Headers end with an empty line. The body of a response comes in chunks, or has a stated length, or
goes on to the end of the connection.
-/

namespace OrderCluster.Http

open Json (Bytes ascii)

def lineEnd : Bytes := [0x0d, 0x0a]

def Request.toBytes (r : Request) (host : String) : Bytes :=
  let line (text : String) : Bytes := Json.utf8 text ++ lineEnd
  line (r.method ++ " " ++ r.path ++ " HTTP/1.1") ++
    line ("Host: " ++ host) ++
    (match r.contentType with
      | some type => line ("Content-Type: " ++ type)
      | none => []) ++
    line ("Content-Length: " ++ toString r.body.length) ++
    line "Connection: close" ++
    lineEnd ++ r.body

def firstLine? : Bytes → Option (Bytes × Bytes)
  | 0x0d :: 0x0a :: rest => some ([], rest)
  | b :: rest => (firstLine? rest).map fun (line, rest) => (b :: line, rest)
  | [] => none

def lineText (line : Bytes) : String := (Json.text? line).getD ""

def statusOf? (line : Bytes) : Option Nat :=
  match (lineText line).splitOn " " with
  | version :: status :: _ =>
    if version.startsWith "HTTP/1." && status.length = 3 then Text.numeral? 10 status.toList else none
  | _ => none

/-- Lower-case text without the blanks around it. -/
def normal (s : List Char) : String :=
  let blank (c : Char) : Bool := c = ' ' || c = '\t'
  String.ofList (((s.dropWhile blank).reverse.dropWhile blank).reverse.map Char.toLower)

/-- Headers, with lower-case names. -/
abbrev Headers := List (String × String)

/-- Reads headers up to the empty line. -/
def readHeaders : Nat → Bytes → Option (Headers × Bytes)
  | 0, _ => none
  | fuel + 1, s => do
    let (line, rest) ← firstLine? s
    if line.isEmpty then some ([], rest)
    else
      let text := (lineText line).toList
      let header := (normal (text.takeWhile (· ≠ ':')), normal ((text.dropWhile (· ≠ ':')).drop 1))
      let (headers, rest) ← readHeaders fuel rest
      some (header :: headers, rest)

/-- Reads chunks up to the empty one. -/
def readChunks : Nat → Bytes → Option Bytes
  | 0, _ => none
  | fuel + 1, s => do
    let (line, rest) ← firstLine? s
    let size ← Text.numeral? 16 (normal ((lineText line).toList.takeWhile (· ≠ ';'))).toList
    if size = 0 then some []
    else if rest.length < size + 2 then none
    else
      let body ← readChunks fuel (rest.drop (size + 2))
      some (rest.take size ++ body)

def readBody (headers : Headers) (s : Bytes) : Option Bytes :=
  if headers.lookup "transfer-encoding" = some "chunked" then readChunks (s.length + 1) s
  else
    match headers.lookup "content-length" with
    | none => some s
    | some length => do
      let n ← Text.numeral? 10 length.toList
      if s.length < n then none else some (s.take n)

/-- The response that was read from a connection up to its end. -/
def Response.ofBytes? (s : Bytes) : Option Response := do
  let (line, rest) ← firstLine? s
  let status ← statusOf? line
  let (headers, rest) ← readHeaders (rest.length + 1) rest
  some { status, contentType := headers.lookup "content-type", body := ← readBody headers rest }

end OrderCluster.Http
