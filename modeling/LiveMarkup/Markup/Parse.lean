import LiveMarkup.Dom.Html
import LiveMarkup.Markup.Attributes
import LiveMarkup.Text.Chars

/-!
Markup as a tree. An end tag closes the innermost open element of its name and everything open
inside it; one that names no open element is skipped, and the end of the text closes what is open.
-/

namespace LiveMarkup.Markup

inductive Error where
  | malformed (position : Nat)
  | badAttribute (position : Nat)
  deriving DecidableEq, Repr

def Error.message : Error → String
  | malformed position => "malformed markup at byte " ++ toString position
  | badAttribute position => "malformed attribute at byte " ++ toString position

/-- An open element, its last child in front. -/
structure Frame where
  content : Content
  children : List Tree

def Frame.tree (frame : Frame) : Tree :=
  .node frame.content none frame.children.reverse

/-- The innermost open element and those around it, up to the fragment that holds everything. -/
structure Open where
  current : Frame
  outer : List Frame

namespace Open

def start : Open :=
  ⟨⟨.fragment, []⟩, []⟩

def add (o : Open) (tree : Tree) : Open :=
  { o with current := { o.current with children := tree :: o.current.children } }

def enter (o : Open) (content : Content) : Open :=
  ⟨⟨content, []⟩, o.current :: o.outer⟩

def closeAll (current : Frame) : List Frame → Tree
  | [] => current.tree
  | frame :: outer => closeAll { frame with children := current.tree :: frame.children } outer

def tree (o : Open) : Tree :=
  closeAll o.current o.outer

/-- Closes elements up to the innermost one with the tag; none without one. -/
def closeTo? (tag : String) (current : Frame) : List Frame → Option Open
  | [] => none
  | frame :: outer =>
    let closed := { frame with children := current.tree :: frame.children }
    if current.content.tag? = some tag then some ⟨closed, outer⟩ else closeTo? tag closed outer

def close (o : Open) (tag : String) : Open :=
  (closeTo? tag o.current o.outer).getD o

end Open

/-- What reading found: everything before the first error as a tree, and the element whose own
attributes were in error. -/
structure Reading where
  tree : Tree
  stray : Option Tree
  error : Option Error

def tagName (name : List Char) : String :=
  Text.asciiLower (String.ofList name)

/-- Reads tokens below the open elements; `broken` is where the tokens break off. -/
def build (broken : Option Nat) (o : Open) : List (Nat × Token) → Reading
  | [] => ⟨o.tree, none, broken.map .malformed⟩
  | (place, token) :: rest =>
    match token with
    | .start name body empty =>
      let tag := tagName name
      let attributes := readAttributes [] body
      let content := Content.element tag attributes.items
      if !attributes.complete then ⟨o.tree, some (.leaf content), some (.badAttribute place)⟩
      else if empty || isVoidElement tag then build broken (o.add (.leaf content)) rest
      else build broken (o.enter content) rest
    | .close name => build broken (o.close (tagName name)) rest
    | .text raw =>
      let s := decodeText raw
      build broken (if s.isEmpty then o else o.add (.leaf (.text (String.ofList s)))) rest
    | .verbatim s => build broken (o.add (.leaf (.text (String.ofList s)))) rest
    | .comment s => build broken (o.add (.leaf (.comment (String.ofList s)))) rest
    | .aside => build broken o rest

def dropByteOrderMark : List Char → List Char
  | '\ufeff' :: rest => rest
  | s => s

def read (markup : String) : Reading :=
  let lexed := lex 0 (dropByteOrderMark (protect markup.toList))
  build lexed.broken Open.start lexed.tokens

end Markup

namespace Dom

/-- Parses markup into a new fragment without a parent. What was read before an error stays in the
store. -/
def parse (d : Dom) (markup : String) : Dom × Except Markup.Error NodeId :=
  let reading := Markup.read markup
  let (d, copy) := d.graft reading.tree
  let d := match reading.stray with
    | some tree => (d.graft tree).1
    | none => d
  match reading.error with
  | some e => (d, .error e)
  | none => (d, .ok copy.root)

end Dom

end LiveMarkup
