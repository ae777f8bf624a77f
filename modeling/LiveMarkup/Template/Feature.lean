import LiveMarkup.Dom.Basic
import LiveMarkup.Markup.Span
import LiveMarkup.Text.Chars

/-!
The kinds of template syntax, and where each one applies. A text is offered to them without an
attribute, an element with one attribute at a time.
-/

namespace LiveMarkup

inductive Feature where
  /-- Spans in a text. -/
  | text
  /-- An element that is there while a guard holds: `*if`. -/
  | conditional
  /-- A name for an element: `#name`. -/
  | reference
  /-- A handler of an event: `@event`. -/
  | event
  /-- An attribute that follows the fields: `:name`. -/
  | binding
  /-- The text of an element in capitals: `$upper`. -/
  | upper
  /-- An element that sees a name of its own: `*scope`. -/
  | scope
  /-- The children of an element in place of it, with a name of their own: `*inner`. -/
  | inner
  deriving DecidableEq, Repr

namespace Feature

def all : List Feature :=
  [text, conditional, reference, event, binding, upper, scope, inner]

def name : Feature → String
  | text => "text"
  | conditional => "if"
  | reference => "reference"
  | event => "event"
  | binding => "attribute"
  | upper => "upper"
  | scope => "scope"
  | inner => "inner"

end Feature

namespace Attribute

/-- Whether a name follows a given first character. -/
def isMarkedBy (a : Attribute) (c : Char) : Bool :=
  match a.name.toList with
  | first :: _ :: _ => first = c
  | _ => false

/-- The name after the first character, in lowercase. -/
def markedName (a : Attribute) : String :=
  Text.asciiLower (String.ofList (a.name.toList.drop 1))

/-- Whether an attribute puts a directive on its element. -/
def isDirective (a : Attribute) : Bool :=
  a.name.toList.head? = some '*'

end Attribute

/-- Whether a feature applies to an attribute of an element. -/
def Feature.appliesTo (a : Attribute) : Feature → Bool
  | text => false
  | conditional => Text.sameIgnoringAsciiCase a.name "*if"
  | reference => a.isMarkedBy '#'
  | event => a.isMarkedBy '@'
  | binding => a.isMarkedBy ':'
  | upper => a.name = "$upper"
  | scope => a.name = "*scope"
  | inner => a.name = "*inner"

/-- Whether a feature takes part in a node and, when the node is an element, one of its attributes.
-/
def Feature.accepts (content : Content) : Option Attribute → Feature → Bool
  | some a, feature => content.isElement && feature.appliesTo a
  | none, .text =>
    match content with
    | .text s => Markup.hasSpan s
    | _ => false
  | none, _ => false

end LiveMarkup
