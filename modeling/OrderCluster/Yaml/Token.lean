import OrderCluster.Yaml.Scalar

/-!
# Tokens

A document as a list of tokens. Nesting by indentation is made explicit: a block begins with a start
token of its kind and ends with an end token. Whether a word is a key is known only when its colon
comes; the key token, and the start of a mapping if there is none at that indent, are then put in
front of the word. A possible key ends with its line, and after 1024 bytes.
-/

namespace OrderCluster.Yaml

inductive Token where
  | version (major minor : Nat)
  | tagHandle (handle stem : List Char)
  | documentStart
  | documentEnd
  | blockSequence
  | blockMapping
  | blockEnd
  | flowSequence
  | flowSequenceEnd
  | flowMapping
  | flowMappingEnd
  | blockEntry
  | flowEntry
  | key
  | value
  | alias (name : List Char)
  | anchor (name : List Char)
  | tag (handle suffix : List Char)
  | scalar (style : Style) (text : List Char)
  deriving DecidableEq, Repr

/-! ## Names, tags and directives -/

def readAnchorName (c : Cursor) : Option (List Char × Cursor) :=
  let (name, c) := c.takeWhile isWordChar
  let ends := gapAhead c.rest || c.rest.head?.any fun ch => "?:,]\x7d%@\x60".toList.contains ch
  if name.isEmpty || !ends then none else some (name, c)

/-- Whether a character may stand in a tag; commas and brackets may only inside angle brackets. -/
def isTagChar (verbatim : Bool) (c : Char) : Bool :=
  isWordChar c || ";/?:@&=+$.%!~*'()".toList.contains c || (verbatim && ",[]".toList.contains c)

/-- A byte written as a percent sign and two hexadecimal digits. -/
def percentByte? : List Char → Option (Nat × List Char)
  | '%' :: a :: b :: rest => do some (← Text.numeral? 16 [a, b], rest)
  | _ => none

/-- The length of a character in bytes, and the bits of its first byte. -/
def leadByte? (n : Nat) : Option (Nat × Nat) :=
  if n < 0x80 then some (0, n)
  else if 0xc0 ≤ n && n < 0xe0 then some (1, n - 0xc0)
  else if 0xe0 ≤ n && n < 0xf0 then some (2, n - 0xe0)
  else if 0xf0 ≤ n && n < 0xf8 then some (3, n - 0xf0)
  else none

def followingBytes? : Nat → Nat → List Char → Option (Nat × List Char)
  | 0, bits, s => some (bits, s)
  | count + 1, bits, s => do
    let (n, s) ← percentByte? s
    if 0x80 ≤ n && n < 0xc0 then followingBytes? count (bits * 64 + (n - 0x80)) s else none

/-- A character written as percent bytes. One that is written with more bytes than it needs counts
as a foreign one. -/
def percentChar? (s : List Char) : Option (Char × List Char) := do
  let (n, s) ← percentByte? s
  let (count, bits) ← leadByte? n
  let (n, s) ← followingBytes? count bits s
  let c := Char.ofNat n
  some (if c.utf8Size = count + 1 then c else '\ufffd', s)

def readTagCharsWith (verbatim : Bool) : Nat → Cursor → Option (List Char × Cursor)
  | 0, c => some ([], c)
  | fuel + 1, c =>
    match c.rest with
    | [] => some ([], c)
    | ch :: _ =>
      if ch = '%' then do
        let (decoded, rest) ← percentChar? c.rest
        let (text, c) ← readTagCharsWith verbatim fuel (c.skip (c.rest.length - rest.length))
        some (decoded :: text, c)
      else if isTagChar verbatim ch then do
        let (text, c) ← readTagCharsWith verbatim fuel c.skip
        some (ch :: text, c)
      else some ([], c)

def readTagChars (verbatim : Bool) (c : Cursor) : Option (List Char × Cursor) :=
  readTagCharsWith verbatim (c.rest.length + 1) c

/-- Reads a handle: an exclamation mark, word characters, and perhaps another mark. -/
def readHandle (c : Cursor) : Option (List Char × Cursor) :=
  match c.rest with
  | '!' :: _ =>
    let (name, c) := c.skip.takeWhile isWordChar
    match c.rest with
    | '!' :: _ => some ('!' :: name ++ ['!'], c.skip)
    | _ => some ('!' :: name, c)
  | _ => none

/-- Whether a handle ends with a mark of its own. -/
def isFullHandle (handle : List Char) : Bool := 1 < handle.length && handle.getLast? = some '!'

/-- Reads a tag; without a handle of its own it has the handle `!`, or none if it is only a mark. -/
def readTag (flow : Bool) (c : Cursor) : Option (Token × Cursor) := do
  let (token, c) ←
    match c.rest with
    | '!' :: '<' :: _ => do
      let (text, c) ← readTagChars true (c.skip 2)
      match text, c.rest with
      | _ :: _, '>' :: _ => some (Token.tag [] text, c.skip)
      | _, _ => none
    | _ => do
      let (handle, c) ← readHandle c
      let (text, c) ← readTagChars false c
      if isFullHandle handle then
        if text.isEmpty then none else some (Token.tag handle text, c)
      else
        match handle.drop 1 ++ text with
        | [] => some (Token.tag [] ['!'], c)
        | suffix => some (Token.tag ['!'] suffix, c)
  if gapAhead c.rest || (flow && c.rest.head? = some ',') then some (token, c) else none

/-- Reads a number of one to nine digits. -/
def readVersionNumber (c : Cursor) : Option (Nat × Cursor) :=
  let (digits, c) := c.takeWhile Char.isDigit
  if digits.isEmpty || 9 < digits.length then none
  else do some (← Text.numeral? 10 digits, c)

def readVersion (c : Cursor) : Option (Token × Cursor) := do
  let (major, c) ← readVersionNumber (c.skipWhile isBlank)
  if c.rest.head? ≠ some '.' then none
  else
    let (minor, c) ← readVersionNumber c.skip
    some (.version major minor, c)

def readTagHandle (c : Cursor) : Option (Token × Cursor) := do
  let (handle, c) ← readHandle (c.skipWhile isBlank)
  if !(isFullHandle handle || handle = ['!']) || !c.rest.head?.any isBlank then none
  else
    let (stem, c) ← readTagChars true (c.skipWhile isBlank)
    if stem.isEmpty || !gapAhead c.rest then none else some (.tagHandle handle stem, c)

/-- Reads a directive behind its percent sign, and the rest of its line. -/
def readDirective (c : Cursor) : Option (Token × Cursor) := do
  let (name, c) := c.takeWhile isWordChar
  if !gapAhead c.rest then none
  else
    let (token, c) ←
      if name = "YAML".toList then readVersion c
      else if name = "TAG".toList then readTagHandle c
      else none
    some (token, ← c.finishLine?)

/-! ## The scanner -/

/-- A place where a key may have begun: the number of its first token, and where it stands. It is
required where nothing but a key may stand. -/
structure KeyPlace where
  required : Bool
  number : Nat
  place : Cursor
  deriving DecidableEq, Repr

/-- Whether a possible key can no longer be one: its line has ended, or more than 1024 bytes were
read since it began. -/
def KeyPlace.isStale (k : KeyPlace) (c : Cursor) : Bool :=
  k.place.line < c.line || k.place.index + 1024 < c.index

/-- What is read so far. The possible key of the innermost brackets is `key?`, those around it are
`outer`. -/
structure Scanner where
  cursor : Cursor
  tokens : List Token := []
  indent : Int := -1
  indents : List Int := []
  key? : Option KeyPlace := none
  outer : List (Option KeyPlace) := []
  keyAllowed : Bool := true
  deriving Repr

namespace Scanner

def inFlow (s : Scanner) : Bool := !s.outer.isEmpty

def add (s : Scanner) (t : Token) : Scanner := { s with tokens := s.tokens ++ [t] }

/-- Puts a token in front of the one with a number. -/
def insertAt (s : Scanner) (number : Nat) (t : Token) : Scanner :=
  { s with tokens := s.tokens.take number ++ t :: s.tokens.drop number }

def addSkipping (s : Scanner) (n : Nat) (t : Token) : Scanner :=
  { s with cursor := s.cursor.skip n }.add t

/-- Gives up the possible key; a required one must not be given up. -/
def dropKey (s : Scanner) : Option Scanner :=
  if s.key?.any (·.required) then none else some { s with key? := none }

def noteKey (s : Scanner) : Option Scanner :=
  if s.keyAllowed then do
    let required := !s.inFlow && s.indent = s.cursor.column
    some { (← s.dropKey) with key? := some ⟨required, s.tokens.length, s.cursor⟩ }
  else some s

def dropStale (s : Scanner) : Option Scanner :=
  let stale (k? : Option KeyPlace) : Bool := k?.any fun k => k.isStale s.cursor
  let keep (k? : Option KeyPlace) : Option KeyPlace := if stale k? then none else k?
  if (s.key? :: s.outer).any fun k? => stale k? && k?.any (·.required) then none
  else some { s with key? := keep s.key?, outer := s.outer.map keep }

/-- Closes the blocks that are indented further than a column. -/
def closeBlocksWith (column : Int) : List Int → Scanner → Scanner
  | indents, s =>
    if s.indent ≤ column then { s with indents }
    else
      match indents with
      | [] => { s with indents := [] }
      | indent :: indents => closeBlocksWith column indents { s.add .blockEnd with indent }

/-- Closes the blocks that are indented further than a column; inside brackets there are none. -/
def closeBlocks (s : Scanner) (column : Int) : Scanner :=
  if s.inFlow then s else closeBlocksWith column s.indents s

/-- Opens a block at a column, in front of the token with a number, unless one is open there. -/
def openBlock (s : Scanner) (column : Nat) (number : Nat) (t : Token) : Scanner :=
  if s.inFlow || (column : Int) ≤ s.indent then s
  else { s.insertAt number t with indents := s.indent :: s.indents, indent := column }

/-- Ends all blocks before a directive, a document marker or the end. -/
def endBlocks (s : Scanner) : Option Scanner := do
  some { (← (s.closeBlocks (-1)).dropKey) with keyAllowed := false }

/-- Moves over blanks, comments and line breaks, and over a byte order mark that begins a line; the
mark takes a column. Tabs count as blanks inside brackets and where no key may begin; a new line may
begin with a key. -/
def toNextTokenWith : Nat → Scanner → Scanner
  | 0, s => s
  | fuel + 1, s =>
    let c := s.cursor
    let c := if c.column = 0 && c.rest.head? = some '\ufeff' then c.skip else c
    let tabs := s.inFlow || !s.keyAllowed
    let c := c.skipWhile fun ch => ch = ' ' || (tabs && ch = '\t')
    let c := if c.rest.head? = some '#' then c.skipWhile (!isBreak ·) else c
    match c.breakLine? with
    | some (_, c) =>
      toNextTokenWith fuel { s with cursor := c, keyAllowed := s.keyAllowed || !s.inFlow }
    | none => { s with cursor := c }

def toNextToken (s : Scanner) : Scanner := toNextTokenWith (s.cursor.rest.length + 1) s

/-- Opens brackets, which may be a key. -/
def openFlow (s : Scanner) (t : Token) : Option Scanner := do
  let s ← s.noteKey
  some { s.addSkipping 1 t with key? := none, outer := s.key? :: s.outer, keyAllowed := true }

def closeFlow (s : Scanner) (t : Token) : Option Scanner := do
  let s ← s.dropKey
  let (key?, outer) := match s.outer with
    | [] => (s.key?, [])
    | key? :: outer => (key?, outer)
  some { s.addSkipping 1 t with key?, outer, keyAllowed := false }

def readFlowEntry (s : Scanner) : Option Scanner := do
  some { (← s.dropKey).addSkipping 1 .flowEntry with keyAllowed := true }

def readBlockEntry (s : Scanner) : Option Scanner :=
  if !s.inFlow && !s.keyAllowed then none
  else do
    let s := s.openBlock s.cursor.column s.tokens.length .blockSequence
    some { (← s.dropKey).addSkipping 1 .blockEntry with keyAllowed := true }

def readKey (s : Scanner) : Option Scanner :=
  if !s.inFlow && !s.keyAllowed then none
  else do
    let s := s.openBlock s.cursor.column s.tokens.length .blockMapping
    some { (← s.dropKey).addSkipping 1 .key with keyAllowed := !s.inFlow }

/-- Reads a colon, which makes the possible key a key. -/
def readValue (s : Scanner) : Option Scanner :=
  match s.key? with
  | some k =>
    let s := s.insertAt k.number .key
    let s := s.openBlock k.place.column k.number .blockMapping
    some { s.addSkipping 1 .value with key? := none, keyAllowed := false }
  | none =>
    if !s.inFlow && !s.keyAllowed then none
    else
      let s := s.openBlock s.cursor.column s.tokens.length .blockMapping
      some { s.addSkipping 1 .value with keyAllowed := !s.inFlow }

/-- Reads a token that may be a key, or the beginning of one. -/
def readWord (s : Scanner) (read : Cursor → Option (Token × Cursor)) : Option Scanner := do
  let s ← s.noteKey
  let (t, cursor) ← read s.cursor
  some { s.add t with cursor, keyAllowed := false }

/-- Reads a plain scalar; a new line behind it may begin with a key. -/
def readPlainWord (s : Scanner) : Option Scanner := do
  let s ← s.noteKey
  let (text, broken, cursor) ← readPlain s.inFlow (s.indent + 1).toNat s.cursor
  some { s.add (.scalar .plain text) with cursor, keyAllowed := broken }

def readBlockWord (s : Scanner) (style : Style) : Option Scanner := do
  let s ← s.dropKey
  let (text, cursor) ← readBlock (style = .folded) s.indent s.cursor.skip
  some { s.add (.scalar style text) with cursor, keyAllowed := true }

def plainAhead (s : Scanner) : Bool :=
  match s.cursor.rest with
  | [] => false
  | c :: rest =>
    !(isGap c || "-?:,[]\x7b\x7d#&*!|>'\"%@\x60".toList.contains c) ||
      (c = '-' && !rest.head?.any isBlank) ||
      (!s.inFlow && (c = '?' || c = ':') && !gapAhead rest)

/-- Reads one token; none stands for a fault. -/
def readToken (s : Scanner) : Option Scanner :=
  let c := s.cursor
  match c.rest with
  | [] => some s
  | ch :: rest =>
    if c.column = 0 && ch = '%' then do
      let s ← s.endBlocks
      let (t, cursor) ← readDirective c.skip
      some { s.add t with cursor }
    else if c.atMarker then do
      let s ← s.endBlocks
      some (s.addSkipping 3 (if ch = '-' then .documentStart else .documentEnd))
    else if ch = '[' then s.openFlow .flowSequence
    else if ch = '\x7b' then s.openFlow .flowMapping
    else if ch = ']' then s.closeFlow .flowSequenceEnd
    else if ch = '\x7d' then s.closeFlow .flowMappingEnd
    else if ch = ',' then s.readFlowEntry
    else if ch = '-' && gapAhead rest then s.readBlockEntry
    else if ch = '?' && (s.inFlow || gapAhead rest) then s.readKey
    else if ch = ':' && (s.inFlow || gapAhead rest) then s.readValue
    else if ch = '*' then s.readWord fun c => do
      let (name, c) ← readAnchorName c.skip
      some (.alias name, c)
    else if ch = '&' then s.readWord fun c => do
      let (name, c) ← readAnchorName c.skip
      some (.anchor name, c)
    else if ch = '!' then s.readWord (readTag s.inFlow)
    else if ch = '|' && !s.inFlow then s.readBlockWord .literal
    else if ch = '>' && !s.inFlow then s.readBlockWord .folded
    else if ch = '\'' then s.readWord fun c => do
      let (text, c) ← readQuoted true c.skip
      some (.scalar .singleQuoted text, c)
    else if ch = '"' then s.readWord fun c => do
      let (text, c) ← readQuoted false c.skip
      some (.scalar .doubleQuoted text, c)
    else if s.plainAhead then s.readPlainWord
    else none

def readAllWith : Nat → Scanner → Option (List Token)
  | 0, _ => none
  | fuel + 1, s => do
    let s ← s.toNextToken.dropStale
    let s := s.closeBlocks s.cursor.column
    if s.cursor.rest.isEmpty then
      let s ← s.endBlocks
      some s.tokens
    else readAllWith fuel (← s.readToken)

end Scanner

/-- The tokens of a text, if it is made of permitted characters and well-formed tokens. -/
def Token.scan (text : String) : Option (List Token) :=
  let chars := text.toList
  if chars.all isPermitted then Scanner.readAllWith (chars.length + 1) { cursor := ⟨chars, 0, 0, 0⟩ }
  else none

end OrderCluster.Yaml
