/-!
# Media types

Whether a content type announces JSON: `application/json`, or an `application` type whose part behind
the last plus is `json`, in any case of letters and with any well-formed parameters. A content type
with a character outside printable ASCII announces nothing.
-/

namespace OrderCluster.Http

/-- A media type without its parameters; the suffix is what stands behind the last plus. -/
structure MediaType where
  kind : List Char
  subtype : List Char
  suffix : Option (List Char)
  deriving DecidableEq, Repr

/-- Whether a character may stand in a name. -/
def isTokenChar (c : Char) : Bool :=
  c.isAlphanum || "!#$%&'*+-.^_\x60|~".toList.contains c

/-- Whether a character may stand between quotes: printable ASCII. -/
def isQuotable (c : Char) : Bool := 0x20 ≤ c.toNat && c.toNat < 0x7f

inductive ParameterState where
  | beforeName
  | inName
  | beforeValue
  | inValue
  | quoteOpened
  | inQuotes
  | afterQuotes
  deriving DecidableEq, Repr

namespace ParameterState

/-- Reads one more character, unless it cannot stand there. -/
def step : ParameterState → Char → Option ParameterState
  | .beforeName, c => if c = ' ' then some .beforeName else if isTokenChar c then some .inName else none
  | .inName, c => if c = '=' then some .beforeValue else if isTokenChar c then some .inName else none
  | .beforeValue, c =>
    if c = '"' then some .quoteOpened else if isTokenChar c then some .inValue else none
  | .inValue, c => if c = ';' then some .beforeName else if isTokenChar c then some .inValue else none
  | .quoteOpened, c => if isQuotable c then some .inQuotes else none
  | .inQuotes, c =>
    if c = '"' then some .afterQuotes else if isQuotable c then some .inQuotes else none
  | .afterQuotes, c =>
    if c = ';' then some .beforeName else if c = ' ' then some .afterQuotes else none

def mayEnd : ParameterState → Bool
  | .beforeName | .beforeValue | .inValue | .afterQuotes => true
  | .inName | .quoteOpened | .inQuotes => false

def accepts (state : ParameterState) : List Char → Bool
  | [] => state.mayEnd
  | c :: rest => match state.step c with
    | none => false
    | some state => state.accepts rest

end ParameterState

namespace MediaType

/-- Splits a name at its last plus, if one stands behind the first character. -/
def splitSuffix (name : List Char) : List Char × Option (List Char) :=
  let suffix := (name.reverse.takeWhile (· ≠ '+')).reverse
  let before := name.take (name.length - suffix.length - 1)
  if before.isEmpty then (name, none) else (before, some suffix)

def ofText? (s : String) : Option MediaType :=
  let cs := s.toList
  let kind := cs.takeWhile isTokenChar
  match cs.dropWhile isTokenChar with
  | '/' :: rest =>
    let name := rest.takeWhile isTokenChar
    let (subtype, suffix) := splitSuffix name
    let found : MediaType :=
      ⟨kind.map Char.toLower, subtype.map Char.toLower, suffix.map (·.map Char.toLower)⟩
    match kind.isEmpty, rest.dropWhile isTokenChar with
    | false, [] => some found
    | false, ';' :: parameters =>
      if !name.isEmpty && ParameterState.beforeName.accepts parameters then some found else none
    | _, _ => none
  | _ => none

def isJson (m : MediaType) : Bool :=
  m.kind = "application".toList &&
    (m.subtype = "json".toList || m.suffix = some "json".toList)

end MediaType

def announcesJson (contentType : Option String) : Bool :=
  (contentType.bind MediaType.ofText?).any MediaType.isJson

end OrderCluster.Http
