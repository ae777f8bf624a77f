import LiveMarkup.Yaml.Scalar

/-!
Names, tags and directives. A tag is a handle, which a directive may stand for, and a suffix.
-/

namespace LiveMarkup.Yaml

/-- A tag as it is written; the handle of a whole tag is empty. -/
structure TagName where
  handle : String
  suffix : String
  deriving DecidableEq, Repr

inductive Directive where
  | version (major minor : Nat)
  /-- What the handle of a tag stands for. -/
  | handle (handle : String) (stem : String)
  deriving DecidableEq, Repr

/-- The name after the sign of an anchor or an alias, which a blank or a closing sign follows. -/
def anchorName? (c : Cursor) : Option (String × Cursor) :=
  let name := (c.rest.drop 1).takeWhile isNameChar
  let next := c.after (name.length + 1)
  if !name.isEmpty && (endsWord next.rest || next.rest.head?.any "?:,]\x7d%@`".toList.contains) then
    some (String.ofList name, next)
  else none

/-- A character of a tag beside the ones of names; more of them may stand in a whole tag. -/
def isTagSign (isWhole : Bool) (c : Char) : Bool :=
  ";/?:@&=+$.!~*'()".toList.contains c || isWhole && ",[]".toList.contains c

/-- The number of bytes of a character whose first byte is given. -/
def byteCount? (first : Nat) : Option Nat :=
  if first < 0x80 then some 1
  else if first / 0x20 = 6 then some 2
  else if first / 0x10 = 14 then some 3
  else if first / 0x08 = 30 then some 4
  else none

/-- A byte written by its code. -/
def byte? : List Char → Option (Nat × List Char)
  | '%' :: a :: b :: rest => do
    let high ← hexDigit? a
    let low ← hexDigit? b
    pure (16 * high + low, rest)
  | _ => none

/-- The character at the front of a text whose bytes are written by their codes. -/
def encodedChar? (s : List Char) : Option (Char × List Char) := do
  let (first, rest) ← byte? s
  let count ← byteCount? first
  let own := if count = 1 then first else first % Nat.pow 2 (7 - count)
  following (count - 1) own rest
where
  following : Nat → Nat → List Char → Option (Char × List Char)
    | 0, code, rest => some (Char.ofNat code, rest)
    | count + 1, code, rest => do
      let (byte, rest) ← byte? rest
      if byte / 0x40 = 2 then following count (64 * code + byte % 64) rest else none

/-- The characters of a tag at the front of a text, and the text after them. The number bounds
them. -/
def tagChars? (isWhole : Bool) : Nat → List Char → Option (List Char × List Char)
  | steps + 1, c :: rest =>
    if c = '%' then do
      let (c, rest) ← encodedChar? ('%' :: rest)
      let (more, rest) ← tagChars? isWhole steps rest
      pure (c :: more, rest)
    else if isNameChar c || isTagSign isWhole c then do
      let (more, rest) ← tagChars? isWhole steps rest
      pure (c :: more, rest)
    else some ([], c :: rest)
  | _, s => some ([], s)

/-- The characters of a tag here, of which there is one at least. -/
def tagText? (isWhole : Bool) (c : Cursor) : Option (String × Cursor) := do
  let (text, rest) ← tagChars? isWhole c.rest.length c.rest
  if text.isEmpty then none
  else some (String.ofList text, c.after (c.rest.length - rest.length))

/-- The signs and letters of a handle at the front of a text. -/
def handleChars (s : List Char) : List Char :=
  let name := (s.drop 1).takeWhile isNameChar
  let mark := if (s.drop (name.length + 1)).head? = some '!' then ['!'] else []
  '!' :: name ++ mark

/-- Whether a handle has a mark at both ends. -/
def isHandle (s : List Char) : Bool :=
  s.length > 1 && s.getLast? = some '!'

/-- A tag between angle brackets, which is whole. -/
def wholeTag? (c : Cursor) : Option (TagName × Cursor) := do
  let (suffix, next) ← tagText? true (c.after 2)
  if next.rest.head? = some '>' then some (⟨"", suffix⟩, next.after 1) else none

/-- A tag after its mark, with a handle of its own or with the mark as its handle. A mark alone is a
whole tag. -/
def shortTag? (c : Cursor) : Option (TagName × Cursor) :=
  let handle := handleChars c.rest
  if isHandle handle then
    (tagText? false (c.after handle.length)).map fun (suffix, next) =>
      (⟨String.ofList handle, suffix⟩, next)
  else
    match tagText? false (c.after 1) with
    | some (suffix, next) => some (⟨"!", suffix⟩, next)
    | none => if (c.after 1).rest.head? = some '%' then none else some (⟨"", "!"⟩, c.after 1)

/-- The tag here, which a blank or, between brackets, a comma follows. -/
def tag? (inFlow : Bool) (c : Cursor) : Option (TagName × Cursor) := do
  let (tag, next) ← if (c.after 1).rest.head? = some '<' then wholeTag? c else shortTag? c
  if endsWord next.rest || inFlow && next.rest.head? = some ',' then some (tag, next) else none

/-- The number here, of nine digits at most. -/
def versionNumber? (c : Cursor) : Option (Nat × Cursor) :=
  let digits := c.rest.takeWhile Char.isDigit
  if digits.isEmpty || digits.length > 9 then none
  else
    some (digits.foldl (fun n d => 10 * n + (d.toNat - '0'.toNat)) 0, c.after digits.length)

def version? (c : Cursor) : Option (Directive × Cursor) := do
  let (major, c) ← versionNumber? c.skipBlanks
  if c.rest.head? = some '.' then do
    let (minor, c) ← versionNumber? (c.after 1)
    pure (.version major minor, c)
  else none

def handle? (c : Cursor) : Option (Directive × Cursor) := do
  let c := c.skipBlanks
  let handle := handleChars c.rest
  let isMark := handle = ['!']
  if c.rest.head? = some '!' && (isMark || isHandle handle) then do
    let c := c.after handle.length
    if startsBlank c.rest then do
      let (stem, c) ← tagText? true c.skipBlanks
      if endsWord c.rest then some (.handle (String.ofList handle) stem, c) else none
    else none
  else none

/-- The directive in a line that begins with a percent sign. -/
def directive? (c : Cursor) : Option (Directive × Cursor) := do
  let name := (c.rest.drop 1).takeWhile isNameChar
  let afterName := c.after (name.length + 1)
  if !endsWord afterName.rest then none
  else do
    let (directive, c) ←
      if name = "YAML".toList then version? afterName
      else if name = "TAG".toList then handle? afterName
      else none
    let lineEnd ← c.toLineEnd?
    pure (directive, lineEnd.afterBreak)

end LiveMarkup.Yaml
