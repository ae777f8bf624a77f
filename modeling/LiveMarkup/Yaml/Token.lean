import LiveMarkup.Yaml.Tag

/-!
The tokens of a document. Blocks begin and end by their indentation. A token that may be a key is
remembered until a colon follows it: the mark of a key and the start of its block are then put
before it. Such a key stands on one line and takes 1024 bytes at the most.
-/

namespace LiveMarkup.Yaml

inductive Token where
  | directive (d : Directive)
  | documentStart
  | documentEnd
  | blockSequence
  | blockMapping
  | blockEnd
  /-- The dash of an entry. -/
  | item
  | flowSequence
  | flowSequenceEnd
  | flowMapping
  | flowMappingEnd
  | comma
  | key
  | value
  | alias (name : String)
  | anchor (name : String)
  | tag (name : TagName)
  | scalar (style : Style) (s : String)
  deriving DecidableEq, Repr

/-- A token that may turn out to begin a key. -/
structure KeyPlace where
  /-- The number of tokens before it. -/
  token : Nat
  line : Nat
  column : Nat
  /-- The last column where its colon may stand. -/
  lastColumn : Nat
  /-- Whether nothing but a key may stand there. -/
  isRequired : Bool

/-- The most bytes of a key that no mark stands before. -/
def maxKeySize : Nat := 1024

/-- How deep sequences and mappings may lie in each other. -/
def maxDepth : Nat := 128

/-- What is known of a document after the tokens before a place. -/
structure Layout where
  tokens : Array Token
  /-- The column of the innermost block, or -1 outside all blocks. -/
  indent : Int
  /-- The columns of the blocks around it. -/
  outer : List Int
  keyAllowed : Bool
  /-- What may be a key outside brackets and in each pair of brackets, the innermost ones first. -/
  keys : List (Option KeyPlace)

namespace Layout

def start : Layout :=
  ⟨#[], -1, [], true, [none]⟩

def inFlow (layout : Layout) : Bool :=
  layout.keys.length > 1

def push (layout : Layout) (token : Token) : Layout :=
  { layout with tokens := layout.tokens.push token }

def allowKey (layout : Layout) (allowed : Bool) : Layout :=
  { layout with keyAllowed := allowed }

/-- Begins a block in a column at a place among the tokens, unless the column belongs to the
innermost block already. -/
def openBlock? (layout : Layout) (column : Int) (place : Nat) (token : Token) : Option Layout :=
  if layout.inFlow || column ≤ layout.indent then some layout
  else if layout.outer.length < maxDepth then
    some { layout with
      tokens := layout.tokens.insertIdxIfInBounds place token
      indent := column
      outer := layout.indent :: layout.outer }
  else none

/-- Ends the blocks right of a column. -/
def closeBlocksTo (column indent : Int) (tokens : Array Token) :
    List Int → Array Token × Int × List Int
  | [] => (tokens, indent, [])
  | next :: outer =>
    if column < indent then closeBlocksTo column next (tokens.push .blockEnd) outer
    else (tokens, indent, next :: outer)

def closeBlocks (layout : Layout) (column : Int) : Layout :=
  if layout.inFlow then layout
  else
    let (tokens, indent, outer) := closeBlocksTo column layout.indent layout.tokens layout.outer
    { layout with tokens := tokens, indent := indent, outer := outer }

/-- What may be a key at a place, unless the key has become too long; a required one must not. -/
def keptKey? (c : Cursor) : Option KeyPlace → Option (Option KeyPlace)
  | none => some none
  | some key =>
    if key.line < c.line || key.lastColumn < c.column then
      if key.isRequired then none else some none
    else some (some key)

def keepKeys? (layout : Layout) (c : Cursor) : Option Layout :=
  (layout.keys.mapM (keptKey? c)).map fun keys => { layout with keys := keys }

/-- Replaces what may be a key between the innermost brackets; a required key must not be lost. -/
def setKey? (layout : Layout) (key : Option KeyPlace) : Option Layout :=
  match layout.keys with
  | some old :: _ => if old.isRequired then none else some (replaced layout)
  | _ => some (replaced layout)
where
  replaced (layout : Layout) : Layout :=
    { layout with keys := key :: layout.keys.drop 1 }

def dropKey? (layout : Layout) : Option Layout :=
  layout.setKey? none

/-- How many characters at the front of a text take a number of bytes at the most. -/
def charactersWithin (bytes : Nat) : List Char → Nat
  | [] => 0
  | c :: rest =>
    if c.utf8Size ≤ bytes then charactersWithin (bytes - c.utf8Size) rest + 1 else 0

/-- Remembers that the token here may be a key. -/
def saveKey? (layout : Layout) (c : Cursor) : Option Layout :=
  if layout.keyAllowed then
    layout.setKey? (some ⟨layout.tokens.size, c.line, c.column,
      c.column + charactersWithin maxKeySize c.rest, !layout.inFlow && layout.indent = c.column⟩)
  else some layout

end Layout

/-- What is known after a token, and the place after it. -/
abbrev Step :=
  Option (Layout × Cursor)

namespace Layout

/-- A token outside of all blocks. -/
def topToken (layout : Layout) (token : Token) (next : Cursor) : Step := do
  let layout ← (layout.closeBlocks (-1)).dropKey?
  pure ((layout.allowKey false).push token, next)

def openFlow (layout : Layout) (token : Token) (c : Cursor) : Step := do
  let layout ← layout.saveKey? c
  if layout.keys.length ≤ maxDepth then
    pure ({ layout with keys := none :: layout.keys, keyAllowed := true }.push token, c.after 1)
  else none

def closeFlow (layout : Layout) (token : Token) (c : Cursor) : Step := do
  let layout ← layout.dropKey?
  let keys := if layout.inFlow then layout.keys.drop 1 else layout.keys
  pure ({ layout with keys := keys, keyAllowed := false }.push token, c.after 1)

def comma (layout : Layout) (c : Cursor) : Step := do
  let layout ← layout.dropKey?
  pure ((layout.allowKey true).push .comma, c.after 1)

/-- Begins a block here, where one may begin. -/
def openHere? (layout : Layout) (c : Cursor) (token : Token) : Option Layout :=
  if layout.inFlow then some layout
  else if layout.keyAllowed then layout.openBlock? c.column layout.tokens.size token
  else none

def item (layout : Layout) (c : Cursor) : Step := do
  let layout ← layout.openHere? c .blockSequence
  let layout ← layout.dropKey?
  pure ((layout.allowKey true).push .item, c.after 1)

def key (layout : Layout) (c : Cursor) : Step := do
  let layout ← layout.openHere? c .blockMapping
  let layout ← layout.dropKey?
  pure ((layout.allowKey !layout.inFlow).push .key, c.after 1)

/-- A colon. It makes a key of what may be one, and stands without a key otherwise. -/
def value (layout : Layout) (c : Cursor) : Step := do
  match layout.keys.head? with
  | some (some key) =>
    let marked := { layout with tokens := layout.tokens.insertIdxIfInBounds key.token .key }
    let opened ← marked.openBlock? key.column key.token .blockMapping
    let layout := { opened with keys := none :: opened.keys.drop 1, keyAllowed := false }
    pure (layout.push .value, c.after 1)
  | _ =>
    let layout ← layout.openHere? c .blockMapping
    pure ((layout.allowKey !layout.inFlow).push .value, c.after 1)

/-- A token that may begin a key. -/
def word (layout : Layout) (c : Cursor) (token : Token) (next : Cursor) : Step := do
  let layout ← layout.saveKey? c
  pure ((layout.allowKey false).push token, next)

def quotedScalar (layout : Layout) (quote : Char) (c : Cursor) : Step := do
  let scanned ← quoted? quote c
  layout.word c (.scalar .quoted (String.ofList scanned.text)) scanned.next

def plainScalar (layout : Layout) (c : Cursor) : Step := do
  let scanned ← plain? layout.inFlow (layout.indent + 1) c
  let (layout, next) ← layout.word c (.scalar .plain (String.ofList scanned.text)) scanned.next
  pure (layout.allowKey scanned.inNextLine, next)

def blockScalar (layout : Layout) (style : Style) (c : Cursor) : Step := do
  let layout ← layout.dropKey?
  let scanned ← block? style layout.indent c
  pure ((layout.allowKey true).push (.scalar style (String.ofList scanned.text)), scanned.next)

def anchor (layout : Layout) (make : String → Token) (c : Cursor) : Step := do
  let (name, next) ← anchorName? c
  layout.word c (make name) next

/-- The token at a place where one begins. -/
def step (layout : Layout) (c : Cursor) : Step :=
  let inFlow := layout.inFlow
  match c.rest with
  | [] => none
  | first :: rest =>
    let endsHere := endsWord rest
    if c.column = 0 && first = '%' then do
      let (directive, next) ← directive? c
      layout.topToken (.directive directive) next
    else if c.isAtMark '-' then layout.topToken .documentStart (c.after 3)
    else if c.isAtMark '.' then layout.topToken .documentEnd (c.after 3)
    else if first = '[' then layout.openFlow .flowSequence c
    else if first = '\x7b' then layout.openFlow .flowMapping c
    else if first = ']' then layout.closeFlow .flowSequenceEnd c
    else if first = '\x7d' then layout.closeFlow .flowMappingEnd c
    else if first = ',' then layout.comma c
    else if first = '-' && endsHere then layout.item c
    else if first = '?' && (inFlow || endsHere) then layout.key c
    else if first = ':' && (inFlow || endsHere) then layout.value c
    else if first = '*' then layout.anchor .alias c
    else if first = '&' then layout.anchor .anchor c
    else if first = '!' then do
      let (tag, next) ← tag? inFlow c
      layout.word c (.tag tag) next
    else if first = '|' && !inFlow then layout.blockScalar .literal c
    else if first = '>' && !inFlow then layout.blockScalar .folded c
    else if first = '\'' || first = '"' then layout.quotedScalar first c
    else if startsPlain inFlow c.rest then layout.plainScalar c
    else none

/-- The tokens from a place on. The number bounds them. -/
def scan : Nat → Layout → Cursor → Option (Array Token)
  | 0, _, _ => none
  | steps + 1, layout, c => do
    let opening := skipSpace layout.inFlow false layout.keyAllowed c.line c.column c.rest
    let c := opening.place
    let layout ← (layout.allowKey opening.keyAllowed).keepKeys? c
    let layout := layout.closeBlocks c.column
    if c.rest.isEmpty then do
      let layout ← (layout.closeBlocks (-1)).dropKey?
      pure layout.tokens
    else do
      let (layout, next) ← layout.step c
      scan steps layout next

end Layout

/-- The tokens of a document. -/
def tokens? (source : String) : Option (List Token) :=
  let s := normalized source.toList
  if s.all isAllowed then (Layout.start.scan (s.length + 1) (.start s)).map Array.toList else none

end LiveMarkup.Yaml
