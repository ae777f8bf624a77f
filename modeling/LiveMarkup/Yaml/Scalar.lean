import LiveMarkup.Yaml.Cursor

/-!
Scalars: plain text, quoted text and indented blocks of text. Where a scalar goes on in the next
line, the line end is read as a space, or as the line ends that follow it.
-/

namespace LiveMarkup.Yaml

inductive Style where
  | plain
  | quoted
  | literal
  | folded
  deriving DecidableEq, Repr

/-- A scalar and the place after it. -/
structure Scanned where
  text : List Char
  /-- Whether the place after it lies in a line after that of the text. -/
  inNextLine : Bool
  next : Cursor

/-- What separates two words of a scalar: blanks on a line, or line ends. -/
structure Gap where
  /-- In reverse. -/
  blanks : List Char
  isBroken : Bool
  /-- The first line end, unless a backslash stands before it. -/
  first : Option Char
  /-- The line ends after it, in reverse. -/
  more : List Char

namespace Gap

def empty : Gap :=
  ⟨[], false, none, []⟩

/-- The gap after a line end that leaves nothing behind. -/
def joined : Gap :=
  ⟨[], true, none, []⟩

def addBlank (gap : Gap) (c : Char) : Gap :=
  if gap.isBroken then gap else { gap with blanks := c :: gap.blanks }

def addBreak (gap : Gap) (c : Char) : Gap :=
  if gap.isBroken then { gap with more := c :: gap.more } else ⟨[], true, some c, []⟩

/-- What a gap is read as. -/
def text (gap : Gap) : List Char :=
  if !gap.isBroken then gap.blanks.reverse
  else if gap.first = some '\n' then (if gap.more.isEmpty then [' '] else gap.more.reverse)
  else gap.first.toList ++ gap.more.reverse

/-- A reversed text with what the gap after it is read as. -/
def addTo (gap : Gap) (text : List Char) : List Char :=
  gap.text.reverse ++ text

end Gap

/-! ## Plain scalars -/

def isIndicator (c : Char) : Bool :=
  "-?:,[]\x7b\x7d#&*!|>'\"%@`".toList.contains c

def isFlowEnd (c : Char) : Bool :=
  ",[]\x7b\x7d".toList.contains c

/-- Whether a plain scalar begins here. -/
def startsPlain (inFlow : Bool) : List Char → Bool
  | [] => false
  | c :: rest =>
    if c = '-' then !startsBlank rest
    else if c = '?' || c = ':' then !inFlow && !endsWord rest
    else !isLineBlank c && !isBreak c && !isIndicator c

/-- Reads the characters of a plain scalar after `text`, which is reversed, and a gap. The scalar
goes on in a line that is indented by `indent` columns, or in any line between brackets. There is
none with a tab in the indentation or a colon against a bracket. The text that is found is reversed
too. -/
def scanPlain (inFlow : Bool) (indent : Int) (text : List Char) (gap : Gap) (inGap : Bool)
    (line column : Nat) (s : List Char) : Option Scanned :=
  let stop := some ⟨text, gap.isBroken, ⟨s, line, column⟩⟩
  match s with
  | [] => stop
  | c :: rest =>
    if isBreak c then scanPlain inFlow indent text (gap.addBreak c) true (line + 1) 0 rest
    else if isLineBlank c then
      if gap.isBroken && c = '\t' && column < indent then none
      else scanPlain inFlow indent text (gap.addBlank c) true line (column + 1) rest
    else if inGap && !inFlow && column < indent then stop
    else if (inGap || text.isEmpty) && (c = '#' || (Cursor.mk s line column).isBetween) then stop
    else if inFlow && c = ':' && rest.head?.any (fun d => isFlowEnd d || d = '?') then none
    else if c = ':' && endsWord rest || inFlow && isFlowEnd c then stop
    else scanPlain inFlow indent (c :: gap.addTo text) .empty false line (column + 1) rest

/-- The plain scalar here, in a block whose lines are indented by `indent` columns. -/
def plain? (inFlow : Bool) (indent : Int) (c : Cursor) : Option Scanned :=
  (scanPlain inFlow indent [] .empty false c.line c.column c.rest).map fun scanned =>
    { scanned with text := scanned.text.reverse }

/-! ## Quoted scalars -/

def hexDigit? (c : Char) : Option Nat :=
  if c.isDigit then some (c.toNat - '0'.toNat)
  else if 'a' ≤ c && c ≤ 'f' then some (c.toNat - 'a'.toNat + 10)
  else if 'A' ≤ c && c ≤ 'F' then some (c.toNat - 'A'.toNat + 10)
  else none

/-- The character with the code that hexadecimal digits write. -/
def codePoint? (digits : List Char) : Option Char := do
  let values ← digits.mapM hexDigit?
  let code := values.foldl (fun n d => 16 * n + d) 0
  if code < 0xD800 ∨ 0xDFFF < code ∧ code < 0x110000 then some (Char.ofNat code) else none

/-- What the character after a backslash stands for. -/
def escaped? (c : Char) : Option Char :=
  match c with
  | '0' => some '\x00'
  | 'a' => some '\x07'
  | 'b' => some '\x08'
  | 't' => some '\t'
  | '\t' => some '\t'
  | 'n' => some '\n'
  | 'v' => some '\x0b'
  | 'f' => some '\x0c'
  | 'r' => some '\r'
  | 'e' => some '\x1b'
  | ' ' => some ' '
  | '"' => some '"'
  | '/' => some '/'
  | '\\' => some '\\'
  | 'N' => some '\u0085'
  | '_' => some '\u00a0'
  | 'L' => some '\u2028'
  | 'P' => some '\u2029'
  | _ => none

/-- The number of digits after the letter of a numbered escape. -/
def escapeWidth (c : Char) : Nat :=
  if c = 'x' then 2 else if c = 'u' then 4 else if c = 'U' then 8 else 0

/-- Where a quoted scalar stands while it is read. -/
inductive QuoteState where
  | inText
  | inGap (gap : Gap)
  | afterBackslash
  | inCode (digits : List Char) (missing : Nat)
  /-- After a quote that may be the first of two. -/
  | afterQuote

/-- The gap before the next character. -/
def QuoteState.gap : QuoteState → Gap
  | inGap gap => gap
  | _ => .empty

/-- Reads the characters of a quoted scalar after `text`, which is reversed. -/
def scanQuoted (quote : Char) (text : List Char) (state : QuoteState) (line column : Nat) :
    List Char → Option Scanned
  | [] =>
    match state with
    | .afterQuote => some ⟨text.reverse, false, ⟨[], line, column⟩⟩
    | _ => none
  | c :: rest =>
    let go := fun text state => scanQuoted quote text state line (column + 1) rest
    let nextLine := fun gap => scanQuoted quote text (.inGap gap) (line + 1) 0 rest
    match state with
    | .afterQuote =>
      if c = '\'' then go (c :: text) .inText
      else some ⟨text.reverse, false, ⟨c :: rest, line, column⟩⟩
    | .afterBackslash =>
      if isBreak c then nextLine .joined
      else if escapeWidth c > 0 then go text (.inCode [] (escapeWidth c))
      else (escaped? c).bind fun c => go (c :: text) .inText
    | .inCode digits missing =>
      if missing ≤ 1 then (codePoint? (digits ++ [c])).bind fun c => go (c :: text) .inText
      else go text (.inCode (digits ++ [c]) (missing - 1))
    | .inText | .inGap _ =>
      if (Cursor.mk (c :: rest) line column).isBetween then none
      else if isBreak c then nextLine (state.gap.addBreak c)
      else if isLineBlank c then go text (.inGap (state.gap.addBlank c))
      else if c = quote then
        if quote = '\'' then go (state.gap.addTo text) .afterQuote
        else some ⟨(state.gap.addTo text).reverse, false, ⟨rest, line, column + 1⟩⟩
      else if quote = '"' && c = '\\' then go (state.gap.addTo text) .afterBackslash
      else go (c :: state.gap.addTo text) .inText

/-- The scalar after an opening quote. -/
def quoted? (quote : Char) (c : Cursor) : Option Scanned :=
  scanQuoted quote [] .inText c.line (c.column + 1) (c.rest.drop 1)

/-! ## Blocks of text -/

/-- What becomes of the line ends after a block. -/
inductive Chomp where
  | strip
  | clip
  | keep
  deriving DecidableEq, Repr

/-- The sign at the front of a header. -/
def takeChomp : List Char → Option Chomp × List Char
  | '+' :: rest => (some .keep, rest)
  | '-' :: rest => (some .strip, rest)
  | s => (none, s)

/-- The indentation at the front of a header. -/
def takeWidth : List Char → Option Nat × List Char
  | [] => (none, [])
  | c :: rest => if c.isDigit then (some (c.toNat - '0'.toNat), rest) else (none, c :: rest)

/-- The sign and the indentation of a block, in either order, and the text after them. -/
def blockHeader (s : List Char) : Chomp × Option Nat × List Char :=
  match takeChomp s with
  | (some chomp, s) => (chomp, takeWidth s)
  | (none, s) =>
    let (width, s) := takeWidth s
    let (chomp, s) := if width.isSome then takeChomp s else (none, s)
    (chomp.getD .clip, width, s)

/-- The empty lines before a line of a block. -/
structure Margin where
  /-- Their line ends, in reverse. -/
  breaks : List Char
  /-- The most spaces in one of them or before the line. -/
  widest : Nat
  next : Cursor

/-- Skips the empty lines and the indentation, which is not known yet if `indent` is zero. There is
none with a tab in it. -/
def scanMargin (indent : Nat) (breaks : List Char) (widest line column : Nat) :
    List Char → Option Margin
  | [] => some ⟨breaks, max widest column, ⟨[], line, column⟩⟩
  | c :: rest =>
    let isOutside := indent = 0 || column < indent
    let widest := max widest column
    if isOutside && c = ' ' then scanMargin indent breaks widest line (column + 1) rest
    else if isOutside && c = '\t' then none
    else if isBreak c then scanMargin indent (c :: breaks) widest (line + 1) 0 rest
    else some ⟨breaks, widest, ⟨c :: rest, line, column⟩⟩

def margin? (indent : Nat) (c : Cursor) : Option Margin :=
  scanMargin indent [] 0 c.line c.column c.rest

/-- The lines of a block that are read. -/
structure Block where
  /-- In reverse. -/
  text : List Char
  /-- The end of the last line. -/
  lastBreak : Option Char
  /-- Whether the last line begins with a blank. -/
  isIndented : Bool
  margin : Margin

/-- What stands between the text of a block and its next line, in reverse. A line end between two
lines of a folded block is read as a space, unless empty lines follow it or a line begins with a
blank. -/
def Block.separator (block : Block) (style : Style) : List Char :=
  let isFolded := style = .folded && block.lastBreak = some '\n' && !block.isIndented &&
    !startsBlank block.margin.next.rest
  let before := if isFolded then (if block.margin.breaks.isEmpty then [' '] else [])
    else block.lastBreak.toList
  block.margin.breaks ++ before

/-- Reads lines that are indented by `indent` columns. The number bounds them. -/
def scanLines (style : Style) (indent : Nat) : Nat → Block → Option Block
  | 0, block => some block
  | lines + 1, block =>
    let c := block.margin.next
    if c.column ≠ indent || c.rest.isEmpty then some block
    else do
      let words := c.rest.takeWhile (!isBreak ·)
      let lineEnd := c.after words.length
      let margin ← margin? indent lineEnd.afterBreak
      scanLines style indent lines
        ⟨words.reverse ++ (block.separator style ++ block.text), lineEnd.rest.head?,
          startsBlank c.rest, margin⟩

/-- The text of a block with the line ends after it that are kept. -/
def Block.chomped (block : Block) (chomp : Chomp) : List Char :=
  let lineEnd := if chomp = .strip then [] else block.lastBreak.toList
  let empty := if chomp = .keep then block.margin.breaks.reverse else []
  block.text.reverse ++ lineEnd ++ empty

/-- The block after its mark, in a block whose lines are indented by `outer` columns. -/
def block? (style : Style) (outer : Int) (c : Cursor) : Option Scanned := do
  let (chomp, width, rest) := blockHeader (c.rest.drop 1)
  let lineEnd ← (c.after (c.rest.length - rest.length)).toLineEnd?
  let indent ← match width with
    | some 0 => none
    | some n => some ((max outer 0).toNat + n)
    | none => some 0
  let margin ← margin? indent lineEnd.afterBreak
  let indent := if indent = 0 then max margin.widest (max (outer + 1).toNat 1) else indent
  let block ← scanLines style indent (c.rest.length + 1) ⟨[], none, false, margin⟩
  pure ⟨block.chomped chomp, true, block.margin.next⟩

end LiveMarkup.Yaml
