/-!
# A place in a text

The text that is still to be read, with the line and the column of its first character and the
number of bytes before it.
-/

namespace OrderCluster.Yaml

/-- Whether a character may stand in a document at all. -/
def isPermitted (c : Char) : Bool :=
  let n := c.toNat
  n = 0x09 || n = 0x0a || n = 0x0d || (0x20 ≤ n && n ≤ 0x7e) || n = 0x85 ||
    (0xa0 ≤ n && n ≤ 0xd7ff) || (0xe000 ≤ n && n ≤ 0xfffd) || 0x10000 ≤ n

def isBlank (c : Char) : Bool := c = ' ' || c = '\t'

def isBreak (c : Char) : Bool :=
  c = '\r' || c = '\n' || c = '\u0085' || c = '\u2028' || c = '\u2029'

def isGap (c : Char) : Bool := isBlank c || isBreak c

/-- The characters of names, handles and numbers. -/
def isWordChar (c : Char) : Bool := c.isAlphanum || c = '_' || c = '-'

/-- Whether a text ends here, or goes on with a blank or a line break. -/
def gapAhead (s : List Char) : Bool := s.head?.all isGap

def byteLength (s : List Char) : Nat := s.foldl (fun n c => n + c.utf8Size) 0

/-- A place in a text. A column counts the characters before it on its line, the index the bytes
before it in the text. -/
structure Cursor where
  rest : List Char
  line : Nat := 0
  column : Nat := 0
  index : Nat := 0
  deriving DecidableEq, Repr

namespace Cursor

def skip (c : Cursor) (n : Nat := 1) : Cursor :=
  { c with
    rest := c.rest.drop n
    column := c.column + n
    index := c.index + byteLength (c.rest.take n) }

/-- Moves over the characters of a kind; none of them breaks a line. -/
def skipWhile (c : Cursor) (p : Char → Bool) : Cursor := c.skip (c.rest.takeWhile p).length

def takeWhile (c : Cursor) (p : Char → Bool) : List Char × Cursor :=
  (c.rest.takeWhile p, c.skipWhile p)

/-- Moves over a line break and gives the break that it stands for. -/
def breakLine? (c : Cursor) : Option (List Char × Cursor) :=
  let next (n : Nat) (rest : List Char) : Cursor := ⟨rest, c.line + 1, 0, c.index + n⟩
  match c.rest with
  | '\r' :: '\n' :: rest => some (['\n'], next 2 rest)
  | ch :: rest =>
    if ch = '\r' || ch = '\n' || ch = '\u0085' then some (['\n'], next ch.utf8Size rest)
    else if isBreak ch then some ([ch], next ch.utf8Size rest)
    else none
  | [] => none

/-- Moves over blanks and a comment to the end of the line, and over the end; none if anything else
stands there. -/
def finishLine? (c : Cursor) : Option Cursor :=
  let c := c.skipWhile isBlank
  let c := if c.rest.head? = some '#' then c.skipWhile (!isBreak ·) else c
  match c.rest, c.breakLine? with
  | [], _ => some c
  | _, some (_, c) => some c
  | _, none => none

/-- Whether a document marker, three hyphens or three dots alone, begins a line here. -/
def atMarker (c : Cursor) : Bool :=
  c.column = 0 &&
    match c.rest with
    | '-' :: '-' :: '-' :: rest => gapAhead rest
    | '.' :: '.' :: '.' :: rest => gapAhead rest
    | _ => false

end Cursor

end OrderCluster.Yaml
