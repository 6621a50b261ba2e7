import OrderCluster.Config.Reading
import OrderCluster.Coordinator
import OrderCluster.Rpc.Wire
import OrderCluster.Text.Numeral

/-!
# The command line of the coordinator

A command elects a leader, buys or looks an order up. Words are read from left to right, and the
first one that is wrong, or that asks for help, decides. An option is written as `--name value` or
`--name=value`, at most once; a value of its own must not look like an option.
-/

namespace OrderCluster.CommandLine

inductive Command where
  | elect
  | buy (request : BuyRequest)
  | query (n : OrderNumber)
  deriving DecidableEq, Repr

structure Invocation where
  config : String := "orderstore.example.yaml"
  command : Command
  deriving DecidableEq, Repr

inductive Refusal where
  | help
  | misused
  deriving DecidableEq, Repr

/-! ## Words -/

/-- A number as it is given on the command line: digits, perhaps behind a sign. -/
def integer? (s : String) : Option Int :=
  match s.toList with
  | '-' :: digits => (Text.numeral? 10 digits).map fun n => -(n : Int)
  | '+' :: digits | digits => (Text.numeral? 10 digits).map Int.ofNat

def int32? (s : String) : Option Int32 := do
  let i ← integer? s
  if Int32.minValue.toInt ≤ i && i ≤ Int32.maxValue.toInt then some (Int32.ofInt i) else none

def int64? (s : String) : Option Int64 := do
  let i ← integer? s
  if Int64.minValue.toInt ≤ i && i ≤ Int64.maxValue.toInt then some (Int64.ofInt i) else none

/-- Whether a word looks like an option; a lone hyphen does not. -/
def looksLikeOption (word : String) : Bool := word.startsWith "-" && word ≠ "-"

structure Setting where
  name : String
  accepts : String → Bool

abbrev Given := List (String × String)

def Given.add (settings : List Setting) (given : Given) (name value : String) :
    Except Refusal Given :=
  if (given.lookup name).isNone && settings.any (fun s => s.name = name && s.accepts value) then
    .ok ((name, value) :: given)
  else .error .misused

/-- A long option: its name, and the value that is attached to it. -/
def splitOption (option : List Char) : String × Option String :=
  let name := String.ofList (option.takeWhile (· ≠ '='))
  match option.dropWhile (· ≠ '=') with
  | _ :: value => (name, some (String.ofList value))
  | [] => (name, none)

/-- Reads options up to a word that is none, and gives back the words from there on. Behind two
hyphens there are no options. -/
def readOptions (settings : List Setting) (given : Given) (words : List String) :
    Except Refusal (Given × List String) :=
  match words with
  | [] => .ok (given, [])
  | word :: rest =>
    match word.toList with
    | ['-', '-'] => if rest.isEmpty then .ok (given, []) else .error .misused
    | '-' :: '-' :: option =>
      match splitOption option, rest with
      | ("help", none), _ => .error .help
      | (name, some value), rest =>
        match given.add settings name value with
        | .ok given => readOptions settings given rest
        | .error e => .error e
      | (name, none), value :: rest =>
        if looksLikeOption value then .error .misused
        else
          match given.add settings name value with
          | .ok given => readOptions settings given rest
          | .error e => .error e
      | (_, none), [] => .error .misused
    | '-' :: 'h' :: _ => .error .help
    | '-' :: _ :: _ => .error .misused
    | _ => .ok (given, word :: rest)
  termination_by words.length

def readAllOptions (settings : List Setting) (words : List String) : Except Refusal Given := do
  let (given, rest) ← readOptions settings [] words
  if rest.isEmpty then .ok given else .error .misused

/-! ## Commands -/

def Given.required (given : Given) (name : String) (read? : String → Option α) : Except Refusal α :=
  match given.lookup name >>= read? with
  | some a => .ok a
  | none => .error .misused

def readCommand : List String → Except Refusal Command
  | "elect" :: rest => do
    let _ ← readAllOptions [] rest
    return .elect
  | "buy" :: rest => do
    let given ← readAllOptions
      [⟨"name", fun _ => true⟩, ⟨"quantity", fun s => (int32? s).isSome⟩] rest
    return .buy ⟨← given.required "name" some, ← given.required "quantity" int32?⟩
  | "query" :: rest => do
    let given ← readAllOptions [⟨"number", fun s => (int64? s).isSome⟩] rest
    return .query (← given.required "number" int64?)
  | ["help"] => .error .help
  | ["help", command] =>
    .error (if ["elect", "buy", "query", "help"].contains command then .help else .misused)
  | _ => .error .misused

def parse (words : List String) : Except Refusal Invocation := do
  let (given, rest) ← readOptions [⟨"config", fun path => !path.isEmpty⟩] [] words
  let command ← readCommand rest
  return { config := (given.lookup "config").getD "orderstore.example.yaml", command }

/-! ## What comes of it -/

/-- What a command leaves: its exit code, its output and its complaint. -/
structure Outcome where
  code : UInt8
  output : String := ""
  complaint : String := ""
  deriving DecidableEq, Repr

namespace Outcome

def printed (text : String) : Outcome := { code := 0, output := text ++ "\n" }

def failed (code : UInt8) (reason : String) : Outcome :=
  { code, complaint := "Error: " ++ reason ++ "\n" }

/-- The failure of a coordinator; an unreachable cluster has an exit code of its own. -/
def ofError (e : CoordinatorError) : Outcome :=
  failed (if e = .clusterUnreachable then 2 else 1) e.text

def ofResponse [Wire α] : Except CoordinatorError α → Outcome
  | .ok response => printed ((Json.text? (Wire.toJson response).pretty).getD "")
  | .error e => ofError e

def usage : String := "\n".intercalate
  ["Usage: orderstore-coordinator [--config <CONFIG>] <COMMAND>",
    "",
    "Commands:",
    "  elect                                    Run an election and print the leader id",
    "  buy --name <NAME> --quantity <QUANTITY>  Place an order through the leader",
    "  query --number <NUMBER>                  Look up an order through the leader"]

def ofRefusal : Refusal → Outcome
  | .help => printed usage
  | .misused => { code := 2, complaint := usage ++ "\n" }

end Outcome

def Command.run (command : Command) (c : Coordinator) : Program Question Outcome :=
  match command with
  | .elect => do
    match (← c.elect none).1 with
    | .ok id => return .printed (toString id.toNat)
    | .error e => return .ofError e
  | .buy request => do return .ofResponse (← c.buy request).1
  | .query n => do return .ofResponse (← c.query n).1

def complaint (path : String) : ConfigError → String
  | .unreadable => "cannot read " ++ path
  | .malformed => path ++ " is not a configuration"

def Invocation.run (i : Invocation) (content? : Option Json.Bytes) : Program Question Outcome :=
  match Config.ofFile content? with
  | .error e => return .failed 1 (complaint i.config e)
  | .ok config =>
    if config.peers.isEmpty then
      return .failed 1 ("no nodes configured under \x60peers\x60 in " ++ i.config)
    else
      i.command.run (.ofMembers config.members config.replication.healthMillis.toNat
        config.replication.rpcMillis.toNat)

end OrderCluster.CommandLine
