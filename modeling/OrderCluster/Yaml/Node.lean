import OrderCluster.Yaml.Token

/-!
# Nodes

The tree that a document stands for. Anchors are numbered by how many names are known when they come,
so an anchor whose name was used before takes the number of the next new name; an alias stands for
the node that was the last to get its number.
-/

namespace OrderCluster.Yaml

/-- A document or a part of it. -/
inductive Node where
  | alias (number : Nat)
  | scalar (anchor : Option Nat) (tag : Option String) (style : Style) (text : String)
  | sequence (anchor : Option Nat) (items : List Node)
  | mapping (anchor : Option Nat) (entries : List (Node × Node))

namespace Node

/-- A value that is left out. -/
def empty : Node := .scalar none none .plain ""

mutual

/-- The last node with an anchor number, in the order in which nodes begin. -/
def anchored? (number : Nat) : Node → Option Node
  | .alias _ => none
  | .scalar anchor tag style text =>
    if anchor = some number then some (.scalar anchor tag style text) else none
  | .sequence anchor items =>
    (anchoredItem? number items).or
      (if anchor = some number then some (.sequence anchor items) else none)
  | .mapping anchor entries =>
    (anchoredPair? number entries).or
      (if anchor = some number then some (.mapping anchor entries) else none)

def anchoredItem? (number : Nat) : List Node → Option Node
  | [] => none
  | item :: rest => (anchoredItem? number rest).or (item.anchored? number)

def anchoredPair? (number : Nat) : List (Node × Node) → Option Node
  | [] => none
  | (key, value) :: rest =>
    (anchoredPair? number rest).or ((value.anchored? number).or (key.anchored? number))

end

end Node

/-- The meaning of tag handles, and the numbers of anchors. -/
structure Names where
  handles : List (List Char × List Char)
  anchors : List (List Char × Nat) := []
  deriving Repr

namespace Names

def anchor (n : Names) (name : List Char) : Nat × Names :=
  let number := n.anchors.length
  (number, { n with anchors := (name, number) :: n.anchors.filter fun (known, _) => known ≠ name })

/-- The whole tag that a handle and a suffix stand for. -/
def tag? (n : Names) (handle suffix : List Char) : Option String :=
  if handle.isEmpty then some (String.ofList suffix)
  else (n.handles.lookup handle).map fun stem => String.ofList (stem ++ suffix)

end Names

/-- Reads nodes from tokens; what is read is given with the remaining tokens and the names. -/
abbrev NodeReader (α : Type) := Names → List Token → Option (α × Names × List Token)

/-- Reads the anchor and the tag of a node, in either order, each at most once. -/
def readProperties (names : Names) :
    List Token → Option ((Option Nat × Option String) × Names × List Token)
  | .anchor a :: .tag handle suffix :: rest => do
    let (number, names) := names.anchor a
    some ((some number, some (← names.tag? handle suffix)), names, rest)
  | .anchor a :: rest =>
    let (number, names) := names.anchor a
    some ((some number, none), names, rest)
  | .tag handle suffix :: .anchor a :: rest => do
    let (number, names) := names.anchor a
    some ((some number, some (← names.tag? handle suffix)), names, rest)
  | .tag handle suffix :: rest => do
    some ((none, some (← names.tag? handle suffix)), names, rest)
  | rest => some ((none, none), names, rest)

/-- Whether the next token is one of those behind which a value was left out. -/
def leftOut (ends : Token → Bool) : List Token → Bool
  | [] => false
  | t :: _ => ends t

/-- Behind the hyphen of an item. -/
def endsItem : Token → Bool
  | .blockEntry | .blockEnd => true
  | _ => false

/-- Behind a key or a colon of a block, and behind a hyphen that is not indented. -/
def endsBlockValue : Token → Bool
  | .key | .value | .blockEnd => true
  | _ => false

/-- Behind a hyphen that is not indented. -/
def endsBareItem : Token → Bool
  | .blockEntry | .key | .value | .blockEnd => true
  | _ => false

/-- Behind a colon of a pair in brackets. -/
def endsPairValue : Token → Bool
  | .flowEntry | .flowSequenceEnd => true
  | _ => false

/-- Behind the key of a pair in brackets. -/
def endsPairKey : Token → Bool
  | .value | .flowEntry | .flowSequenceEnd => true
  | _ => false

/-- Behind a colon in braces. -/
def endsFlowValue : Token → Bool
  | .flowEntry | .flowMappingEnd => true
  | _ => false

/-- Behind a question mark in braces. -/
def endsFlowKey : Token → Bool
  | .value | .flowEntry | .flowMappingEnd => true
  | _ => false

mutual

/-- Reads a node. In a block it may be a block; where a hyphen needs no indent it may be a bare
sequence. Each node and each step of a collection takes one unit of fuel. -/
def readNode (block bare : Bool) : Nat → NodeReader Node
  | 0, _, _ => none
  | fuel + 1, names, ts =>
    match ts with
    | .alias name :: rest => do some (.alias (← names.anchors.lookup name), names, rest)
    | _ => do
      let ((anchor, tag), names, ts) ← readProperties names ts
      match ts with
      | .blockEntry :: _ =>
        if bare then do
          let (items, names, ts) ← readBareItems fuel names ts
          some (.sequence anchor items, names, ts)
        else if anchor.isSome || tag.isSome then some (.scalar anchor tag .plain "", names, ts)
        else none
      | .scalar style text :: rest =>
        let tag := if tag = some "!" then none else tag
        some (.scalar anchor tag style (String.ofList text), names, rest)
      | .flowSequence :: rest => do
        let (items, names, ts) ← readFlowItems true fuel names rest
        some (.sequence anchor items, names, ts)
      | .flowMapping :: rest => do
        let (entries, names, ts) ← readFlowEntries true fuel names rest
        some (.mapping anchor entries, names, ts)
      | t :: rest =>
        if block && t = .blockSequence then do
          let (items, names, ts) ← readItems fuel names rest
          some (.sequence anchor items, names, ts)
        else if block && t = .blockMapping then do
          let (entries, names, ts) ← readEntries fuel names rest
          some (.mapping anchor entries, names, ts)
        else if anchor.isSome || tag.isSome then some (.scalar anchor tag .plain "", names, ts)
        else none
      | [] => if anchor.isSome || tag.isSome then some (.scalar anchor tag .plain "", names, []) else none

/-- Reads a node, or nothing where it was left out. -/
def readOrEmpty (ends : Token → Bool) (block bare : Bool) : Nat → NodeReader Node
  | 0, _, _ => none
  | fuel + 1, names, ts =>
    if leftOut ends ts then some (.empty, names, ts) else readNode block bare fuel names ts

def readItems : Nat → NodeReader (List Node)
  | 0, _, _ => none
  | fuel + 1, names, ts =>
    match ts with
    | .blockEntry :: rest => do
      let (item, names, ts) ← readOrEmpty endsItem true false fuel names rest
      let (items, names, ts) ← readItems fuel names ts
      some (item :: items, names, ts)
    | .blockEnd :: rest => some ([], names, rest)
    | _ => none

/-- Reads the items of a sequence that is not indented; it has no end of its own. -/
def readBareItems : Nat → NodeReader (List Node)
  | 0, _, _ => none
  | fuel + 1, names, ts =>
    match ts with
    | .blockEntry :: rest => do
      let (item, names, ts) ← readOrEmpty endsBareItem true false fuel names rest
      let (items, names, ts) ← readBareItems fuel names ts
      some (item :: items, names, ts)
    | _ => some ([], names, ts)

def readEntries : Nat → NodeReader (List (Node × Node))
  | 0, _, _ => none
  | fuel + 1, names, ts =>
    match ts with
    | .key :: rest => do
      let (key, names, ts) ← readOrEmpty endsBlockValue true true fuel names rest
      let (value, names, ts) ← readBlockValue fuel names ts
      let (entries, names, ts) ← readEntries fuel names ts
      some ((key, value) :: entries, names, ts)
    | .blockEnd :: rest => some ([], names, rest)
    | _ => none

/-- Reads the value of a block entry, which may lack even its colon. -/
def readBlockValue : Nat → NodeReader Node
  | 0, _, _ => none
  | fuel + 1, names, ts =>
    match ts with
    | .value :: rest => readOrEmpty endsBlockValue true true fuel names rest
    | _ => some (.empty, names, ts)

def readFlowItems (first : Bool) : Nat → NodeReader (List Node)
  | 0, _, _ => none
  | fuel + 1, names, ts =>
    match ts with
    | .flowSequenceEnd :: rest => some ([], names, rest)
    | _ => do
      let ts ← if first then some ts else
        match ts with
        | .flowEntry :: rest => some rest
        | _ => none
      match ts with
      | .flowSequenceEnd :: rest => some ([], names, rest)
      | .key :: rest => do
        let (pair, names, ts) ← readPair fuel names rest
        let (items, names, ts) ← readFlowItems false fuel names ts
        some (.mapping none [pair] :: items, names, ts)
      | ts => do
        let (item, names, ts) ← readNode false false fuel names ts
        let (items, names, ts) ← readFlowItems false fuel names ts
        some (item :: items, names, ts)

/-- Reads a single pair in brackets. Where its key is left out, the next token goes with it. -/
def readPair : Nat → NodeReader (Node × Node)
  | 0, _, _ => none
  | fuel + 1, names, ts => do
    let (key, names, ts) ←
      if leftOut endsPairKey ts then some (.empty, names, ts.drop 1)
      else readNode false false fuel names ts
    match ts with
    | .value :: rest => do
      let (value, names, ts) ← readOrEmpty endsPairValue false false fuel names rest
      some ((key, value), names, ts)
    | ts => some ((key, .empty), names, ts)

def readFlowEntries (first : Bool) : Nat → NodeReader (List (Node × Node))
  | 0, _, _ => none
  | fuel + 1, names, ts =>
    match ts with
    | .flowMappingEnd :: rest => some ([], names, rest)
    | _ => do
      let ts ← if first then some ts else
        match ts with
        | .flowEntry :: rest => some rest
        | _ => none
      match ts with
      | .flowMappingEnd :: rest => some ([], names, rest)
      | .key :: rest => do
        let (key, names, ts) ← readOrEmpty endsFlowKey false false fuel names rest
        let (value, names, ts) ← readFlowValue fuel names ts
        let (entries, names, ts) ← readFlowEntries false fuel names ts
        some ((key, value) :: entries, names, ts)
      | ts => do
        let (key, names, ts) ← readNode false false fuel names ts
        let (entries, names, ts) ← readFlowEntries false fuel names ts
        some ((key, .empty) :: entries, names, ts)

def readFlowValue : Nat → NodeReader Node
  | 0, _, _ => none
  | fuel + 1, names, ts =>
    match ts with
    | .value :: rest => readOrEmpty endsFlowValue false false fuel names rest
    | _ => some (.empty, names, ts)

end

/-! ## Documents -/

/-- The tag handles that need no directive. -/
def standardHandles : List (List Char × List Char) :=
  [(['!'], ['!']), (['!', '!'], "tag:yaml.org,2002:".toList)]

/-- Reads the directives in front of a document: a version at most once, each handle at most once. -/
def readDirectives (version : Bool) (handles : List (List Char × List Char)) :
    List Token → Option (List (List Char × List Char) × List Token)
  | .version major minor :: rest =>
    if version || major ≠ 1 || (minor ≠ 1 && minor ≠ 2) then none
    else readDirectives true handles rest
  | .tagHandle handle stem :: rest =>
    if (handles.lookup handle).isSome then none
    else readDirectives version (handles ++ [(handle, stem)]) rest
  | ts => some (handles, ts)

def isOutside : Token → Bool
  | .version .. | .tagHandle .. | .documentStart | .documentEnd => true
  | _ => false

/-- Reads the one document of a text; an empty text has none. -/
def readDocument (ts : List Token) : Option (Option Node) :=
  let fuel := 3 * ts.length + 3
  let finish (read : Option (Node × Names × List Token)) : Option (Option Node) := do
    let (node, _, rest) ← read
    if (rest.dropWhile (· = .documentEnd)).isEmpty then some (some node) else none
  match ts with
  | [] => some none
  | t :: _ =>
    if t = .documentEnd then none
    else if isOutside t then do
      let (handles, rest) ← readDirectives false [] ts
      match rest with
      | .documentStart :: rest =>
        let names : Names := ⟨handles ++ standardHandles, []⟩
        if rest.head?.all isOutside then finish (some (.empty, names, rest))
        else finish (readNode true false fuel names rest)
      | _ => none
    else finish (readNode true false fuel ⟨standardHandles, []⟩ ts)

/-- The document that a text holds, if it is well-formed and holds no more than one. -/
def Node.ofText? (text : String) : Option (Option Node) := Token.scan text >>= readDocument

end OrderCluster.Yaml
