import OrderCluster.Text.Numeral
import OrderCluster.Yaml.Cursor

/-!
# Scalars

The text of a scalar in each of its styles. In plain and quoted scalars a line break between words
reads as a space, and of several breaks all but the first are kept; a literal block keeps its
breaks, and a folded block joins lines that do not begin with a blank.
-/

namespace OrderCluster.Yaml

inductive Style where
  | plain
  | singleQuoted
  | doubleQuoted
  | literal
  | folded
  deriving DecidableEq, Repr

/-- What stands between two words of a scalar: blanks, or a first line break and further ones. -/
structure Gap where
  blanks : List Char := []
  broken : Bool := false
  first : List Char := []
  more : List Char := []
  deriving DecidableEq, Repr

namespace Gap

def text (g : Gap) : List Char :=
  if !g.broken then g.blanks
  else if g.first = ['\n'] then if g.more.isEmpty then [' '] else g.more
  else g.first ++ g.more

/-- Takes a line break in; blanks around it are dropped. -/
def addBreak (g : Gap) (lineBreak : List Char) : Gap :=
  if g.broken then { g with more := g.more ++ lineBreak }
  else { broken := true, first := lineBreak }

def addBlank (g : Gap) (c : Char) : Gap := if g.broken then g else { g with blanks := g.blanks ++ [c] }

end Gap

/-- Reads blanks and line breaks. Behind a break, no tab may stand left of the indent. -/
def readGapWith (indent : Nat) : Nat → Gap → Cursor → Option (Gap × Cursor)
  | 0, g, c => some (g, c)
  | fuel + 1, g, c =>
    match c.breakLine? with
    | some (lineBreak, c) => readGapWith indent fuel (g.addBreak lineBreak) c
    | none =>
      match c.rest with
      | ch :: _ =>
        if !isBlank ch then some (g, c)
        else if g.broken && c.column < indent && ch = '\t' then none
        else readGapWith indent fuel (g.addBlank ch) (c.skip)
      | [] => some (g, c)

def readGap (indent : Nat) (g : Gap) (c : Cursor) : Option (Gap × Cursor) :=
  readGapWith indent (c.rest.length + 1) g c

/-! ## Plain scalars -/

/-- The characters that end a plain scalar inside brackets. -/
def endsFlow (c : Char) : Bool := c = ',' || c = '[' || c = ']' || c = '\x7b' || c = '\x7d'

/-- A word of a plain scalar. Inside brackets, a colon must not stand before an indicator. -/
def plainWord? (flow : Bool) : List Char → Option (List Char)
  | [] => some []
  | ch :: rest =>
    if isGap ch then some []
    else if flow && ch = ':' && rest.head?.any (fun next => next = '?' || endsFlow next) then none
    else if (ch = ':' && gapAhead rest) || (flow && endsFlow ch) then some []
    else (plainWord? flow rest).map (ch :: ·)

/-- Reads the words of a plain scalar; tells also whether a line was ended behind the last one. -/
def readPlainWith (flow : Bool) (indent : Nat) :
    Nat → Gap → Cursor → Option (List Char × Bool × Cursor)
  | 0, g, c => some ([], g.broken, c)
  | fuel + 1, g, c =>
    if c.atMarker || c.rest.head? = some '#' then some ([], g.broken, c)
    else do
      let word ← plainWord? flow c.rest
      if word.isEmpty then some ([], g.broken, c)
      else
        let c := c.skip word.length
        let before := g.text ++ word
        if c.rest.isEmpty || !gapAhead c.rest then some (before, false, c)
        else
          let (g, c) ← readGap indent {} c
          if !flow && c.column < indent then some (before, g.broken, c)
          else
            let (rest, broken, c) ← readPlainWith flow indent fuel g c
            some (before ++ rest, broken, c)

def readPlain (flow : Bool) (indent : Nat) (c : Cursor) : Option (List Char × Bool × Cursor) :=
  readPlainWith flow indent (c.rest.length + 1) {} c

/-! ## Quoted scalars -/

def shortEscape? : Char → Option Char
  | '0' => some '\x00'
  | 'a' => some '\x07'
  | 'b' => some '\x08'
  | 't' | '\t' => some '\t'
  | 'n' => some '\n'
  | 'v' => some '\x0b'
  | 'f' => some '\x0c'
  | 'r' => some '\r'
  | 'e' => some '\x1b'
  | ' ' => some ' '
  | '"' => some '"'
  | '/' => some '/'
  | '\\' => some '\\'
  | 'N' => some '\u0085'
  | '_' => some '\u00a0'
  | 'L' => some '\u2028'
  | 'P' => some '\u2029'
  | _ => none

def escapeWidth? : Char → Option Nat
  | 'x' => some 2
  | 'u' => some 4
  | 'U' => some 8
  | _ => none

def numericEscape? (width : Nat) (s : List Char) : Option Char := do
  let digits := s.take width
  if digits.length < width then none
  else
    let n ← Text.numeral? 16 digits
    if n.isValidChar then some (Char.ofNat n) else none

inductive RunEnd where
  | gap
  | closed
  | escapedBreak
  deriving DecidableEq, Repr

/-- Reads quoted characters of one line: what they read as, how many they are, and why they end. -/
def quotedRunWith (single : Bool) : Nat → List Char → Option (List Char × Nat × RunEnd)
  | 0, _ => some ([], 0, .gap)
  | fuel + 1, s =>
    let go (ch : Char) (n : Nat) (rest : List Char) := do
      let (text, count, runEnd) ← quotedRunWith single fuel rest
      some (ch :: text, n + count, runEnd)
    match s with
    | [] => some ([], 0, .gap)
    | ch :: rest =>
      if isGap ch then some ([], 0, .gap)
      else if single then
        if ch ≠ '\'' then go ch 1 rest
        else
          match rest with
          | '\'' :: rest => go '\'' 2 rest
          | _ => some ([], 0, .closed)
      else if ch = '"' then some ([], 0, .closed)
      else if ch ≠ '\\' then go ch 1 rest
      else
        match rest with
        | [] => none
        | escape :: rest =>
          if isBreak escape then some ([], 0, .escapedBreak)
          else
            match shortEscape? escape, escapeWidth? escape with
            | some c, _ => go c 2 rest
            | none, some width => do go (← numericEscape? width rest) (2 + width) (rest.drop width)
            | none, none => none

def readQuotedWith (single : Bool) : Nat → Cursor → Option (List Char × Cursor)
  | 0, _ => none
  | fuel + 1, c =>
    if c.atMarker || c.rest.isEmpty then none
    else do
      let (text, count, runEnd) ← quotedRunWith single (c.rest.length + 1) c.rest
      let c := c.skip count
      match runEnd with
      | .closed => some (text, c.skip)
      | .gap => do
        let (g, c) ← readGap 0 {} c
        let (rest, c) ← readQuotedWith single fuel c
        some (text ++ g.text ++ rest, c)
      | .escapedBreak => do
        let (_, c) ← c.skip.breakLine?
        let (g, c) ← readGap 0 { broken := true } c
        let (rest, c) ← readQuotedWith single fuel c
        some (text ++ g.text ++ rest, c)

def readQuoted (single : Bool) (c : Cursor) : Option (List Char × Cursor) :=
  readQuotedWith single (c.rest.length + 1) c

/-! ## Block scalars -/

/-- Which line breaks are kept at the end of a block scalar. -/
inductive Chomping where
  | strip
  | clip
  | keep
  deriving DecidableEq, Repr

def readChomping (c : Cursor) : Option Chomping × Cursor :=
  match c.rest with
  | '+' :: _ => (some .keep, c.skip)
  | '-' :: _ => (some .strip, c.skip)
  | _ => (none, c)

/-- The indentation indicator, if one stands there; it is not zero. -/
def readIndentation (c : Cursor) : Option (Option Nat × Cursor) :=
  match c.rest with
  | ch :: _ =>
    if ch = '0' then none
    else if ch.isDigit then some (some (ch.toNat - '0'.toNat), c.skip)
    else some (none, c)
  | [] => some (none, c)

def readHeader (c : Cursor) : Option (Chomping × Option Nat × Cursor) :=
  match readChomping c with
  | (some chomping, c) => do
    let (increment, c) ← readIndentation c
    some (chomping, increment, c)
  | (none, c) => do
    let (increment, c) ← readIndentation c
    match increment with
    | none => some (.clip, none, c)
    | some _ =>
      let (chomping, c) := readChomping c
      some (chomping.getD .clip, increment, c)

/-- Reads empty lines and the indentation of the next line; an indent of zero is not known yet, and
no tab may stand left of it. Gives the breaks and the greatest column reached. -/
def readMarginWith (indent : Nat) : Nat → Nat → Cursor → Option (List Char × Nat × Cursor)
  | 0, _, _ => none
  | fuel + 1, widest, c =>
    let spaces := (c.rest.takeWhile (· = ' ')).length
    let c := c.skip (if indent = 0 then spaces else min spaces (indent - c.column))
    let widest := max widest c.column
    if (indent = 0 || c.column < indent) && c.rest.head? = some '\t' then none
    else
      match c.breakLine? with
      | none => some ([], widest, c)
      | some (lineBreak, c) => do
        let (breaks, widest, c) ← readMarginWith indent fuel widest c
        some (lineBreak ++ breaks, widest, c)

def readMargin (indent : Nat) (c : Cursor) : Option (List Char × Nat × Cursor) :=
  readMarginWith indent (c.rest.length + 1) 0 c

/-- The break between two lines of a block scalar, with the breaks of the empty lines behind it.
Folding turns it into a space, or drops it before empty lines, unless one of the lines begins with
a blank. -/
def joinLines (folds : Bool) (previousBlank nextBlank : Bool) (lineBreak breaks : List Char) :
    List Char :=
  if folds && lineBreak = ['\n'] && !previousBlank && !nextBlank then
    (if breaks.isEmpty then [' '] else []) ++ breaks
  else lineBreak ++ breaks

def readBlockWith (folds : Bool) (chomping : Chomping) (indent : Nat) :
    Nat → Bool → List Char → List Char → Cursor → Option (List Char × Cursor)
  | 0, _, _, _, _ => none
  | fuel + 1, previousBlank, lineBreak, breaks, c =>
    if c.column ≠ indent || c.rest.isEmpty then
      let kept := match chomping with
        | .strip => []
        | .clip => lineBreak
        | .keep => lineBreak ++ breaks
      some (kept, c)
    else do
      let blank := c.rest.head?.any isBlank
      let (line, c) := c.takeWhile (!isBreak ·)
      let (nextBreak, c) := c.breakLine?.getD ([], c)
      let (nextBreaks, _, c) ← readMargin indent c
      let (rest, c) ← readBlockWith folds chomping indent fuel blank nextBreak nextBreaks c
      some (joinLines folds previousBlank blank lineBreak breaks ++ line ++ rest, c)

/-- Reads a block scalar behind its first indicator, in a block that is indented by so much. -/
def readBlock (folds : Bool) (parent : Int) (c : Cursor) : Option (List Char × Cursor) := do
  let (chomping, increment, c) ← readHeader c
  let c ← c.finishLine?
  let given := match increment with
    | some n => if 0 ≤ parent then parent.toNat + n else n
    | none => 0
  let (breaks, widest, c) ← readMargin given c
  let indent := if given = 0 then max (max widest (parent + 1).toNat) 1 else given
  readBlockWith folds chomping indent (c.rest.length + 2) false [] breaks c

end OrderCluster.Yaml
