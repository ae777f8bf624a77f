/-!
A place in a document. Line ends are `\n` and the two separators of Unicode; the line and the column
are counted from zero.
-/

namespace LiveMarkup.Yaml

structure Cursor where
  rest : List Char
  line : Nat
  column : Nat

def isLineBlank (c : Char) : Bool :=
  c = ' ' || c = '\t'

def isBreak (c : Char) : Bool :=
  c = '\n' || c = '\u2028' || c = '\u2029'

/-- Whether a text is empty or begins with a line end. -/
def endsLine (s : List Char) : Bool :=
  s.head?.all isBreak

/-- Whether a text is empty or begins with a blank or a line end. -/
def endsWord (s : List Char) : Bool :=
  s.head?.all fun c => isLineBlank c || isBreak c

/-- Whether a text begins with a blank. -/
def startsBlank (s : List Char) : Bool :=
  s.head?.any isLineBlank

/-- A character of the names of anchors and tags. -/
def isNameChar (c : Char) : Bool :=
  c.isAlphanum || c = '-' || c = '_'

/-- Reads the line ends of ASCII as one. -/
def normalized : List Char → List Char
  | [] => []
  | '\r' :: '\n' :: rest => '\n' :: normalized rest
  | c :: rest => (if c = '\r' || c = '\u0085' then '\n' else c) :: normalized rest

/-- A character that a document with normalized line ends may hold. -/
def isAllowed (c : Char) : Bool :=
  let n := c.toNat
  c = '\t' || c = '\n' || 0x20 ≤ n && n ≤ 0x7E || 0xA0 ≤ n && n ≤ 0xD7FF ||
    0xE000 ≤ n && n ≤ 0xFFFD || 0x10000 ≤ n

namespace Cursor

def start (s : List Char) : Cursor :=
  ⟨s, 0, 0⟩

/-- The place after the next `count` characters, which stand on one line. -/
def after (c : Cursor) (count : Nat) : Cursor :=
  { c with rest := c.rest.drop count, column := c.column + count }

/-- The start of the next line; the place is before a line end or at the end of the text. -/
def afterBreak (c : Cursor) : Cursor :=
  match c.rest with
  | [] => c
  | _ :: rest => ⟨rest, c.line + 1, 0⟩

def skipBlanks (c : Cursor) : Cursor :=
  c.after (c.rest.takeWhile isLineBlank).length

/-- The end of the line if only blanks and a comment stand before it. -/
def toLineEnd? (c : Cursor) : Option Cursor :=
  let c := c.skipBlanks
  if c.rest.head? = some '#' then some (c.after (c.rest.takeWhile (!isBreak ·)).length)
  else if endsLine c.rest then some c
  else none

/-- Whether the line begins with the given mark between documents. -/
def isAtMark (c : Cursor) (mark : Char) : Bool :=
  c.column = 0 && (List.replicate 3 mark).isPrefixOf c.rest && endsWord (c.rest.drop 3)

/-- Whether the line begins with a mark between documents. -/
def isBetween (c : Cursor) : Bool :=
  c.isAtMark '-' || c.isAtMark '.'

end Cursor

/-- A place where a token begins, and whether a key may begin there. -/
structure Opening where
  place : Cursor
  keyAllowed : Bool

/-- Skips blanks, comments and line ends. A key may begin in the next line, outside brackets. A tab
does not count as a blank where a key may begin. -/
def skipSpace (inFlow inComment keyAllowed : Bool) (line column : Nat) : List Char → Opening
  | [] => ⟨⟨[], line, column⟩, keyAllowed⟩
  | c :: rest =>
    if isBreak c then skipSpace inFlow false (keyAllowed || !inFlow) (line + 1) 0 rest
    else if inComment || c = ' ' || c = '\t' && (inFlow || !keyAllowed) ||
      c = '\ufeff' && column = 0 then
      skipSpace inFlow inComment keyAllowed line (column + 1) rest
    else if c = '#' then skipSpace inFlow true keyAllowed line (column + 1) rest
    else ⟨⟨c :: rest, line, column⟩, keyAllowed⟩

end LiveMarkup.Yaml
