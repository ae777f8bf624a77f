import LiveMarkup.Dependencies
import LiveMarkup.Expr.Parse
import LiveMarkup.Markup.Span
import LiveMarkup.Scope
import LiveMarkup.Template.Error

/-!
Text with expressions in `{{ … }}` spans. A lone span keeps the truth of its value; in a longer text
the values are joined, and nothing, undefined values and truth values leave no text behind.
-/

namespace LiveMarkup

/-- A stretch of a text: what stands between spans, or what a span holds. -/
inductive Piece where
  | literal (s : List Char)
  | span (body : List Char)
  deriving DecidableEq

def Piece.literals (s : List Char) : List Piece :=
  if s.isEmpty then [] else [literal s]

/-- Cuts a text into its pieces. A span that does not end is literal. -/
def Piece.cut (s : List Char) : List Piece :=
  match hopen : Text.cut Markup.spanOpen s with
  | none => literals s
  | some (before, body) =>
    match hclose : Text.cut Markup.spanClose body with
    | none => literals s
    | some (body, after) =>
      have := Text.length_lt_of_cut (by decide) hopen
      have := Text.length_lt_of_cut (by decide) hclose
      literals before ++ span body :: cut after
termination_by s.length

inductive Part where
  | literal (s : String)
  | expression (source : String) (e : Expr.Term)

structure Interpolation where
  source : String
  parts : List Part
  /-- The fields that the source names. -/
  dependencies : Names

inductive Outcome where
  /-- True, with no text to show. -/
  | true
  | text (s : String)
  | falsy
  deriving DecidableEq, Repr

def Outcome.isTruthy : Outcome → Bool
  | falsy => .false
  | _ => .true

/-- The text that an outcome puts into the document. -/
def Outcome.text? : Outcome → Option String
  | true => some "true"
  | text s => some s
  | falsy => none

namespace Interpolation

/-- Compiles an expression that stands in the text `location`. -/
def readPart (location : String) (body : List Char) : Except CompileError Part :=
  let source := String.ofList (Text.trim body)
  match Expr.read? source with
  | some e => .ok (.expression source e)
  | none => .error (.expression location .unreadable)

def ofPiece (location : String) : Piece → Except CompileError Part
  | .literal s => .ok (.literal (String.ofList s))
  | .span body => readPart location body

/-- Compiles a text with spans; blanks around the text do not count. -/
def compile (source : String) : Except CompileError Interpolation := do
  let parts ← (Piece.cut (Text.trim source.toList)).mapM (ofPiece source)
  pure ⟨source, parts, Dependencies.scan source⟩

/-- Compiles an expression by itself. -/
def compileBare (source : String) : Except CompileError Interpolation := do
  let part ← readPart source source.toList
  pure ⟨source, [part], Dependencies.scan source⟩

def isStatic (i : Interpolation) : Bool :=
  i.parts.all fun
    | .literal _ => true
    | .expression _ _ => false

/-- The text of a value among other parts, and whether the value is true by itself. -/
def joined : Expr.Value → String × Bool
  | .undefined => ("", false)
  | .none => ("", false)
  | .bool b => ("", b)
  | v => (v.display, false)

/-- The text of all parts, and whether one of them is true by itself. -/
def evalParts (scope : Scope) : List Part → Except Expr.EvalError (String × Bool)
  | [] => .ok ("", false)
  | .literal s :: rest => do
    let (text, sawTrue) ← evalParts scope rest
    pure (s ++ text, sawTrue)
  | .expression _ e :: rest => do
    let v ← Expr.eval scope.lookup e
    let (text, sawTrue) ← evalParts scope rest
    pure ((joined v).1 ++ text, (joined v).2 || sawTrue)

/-- The outcome of a lone expression. -/
def ofValue (v : Expr.Value) : Outcome :=
  if !v.isTrue then .falsy
  else
    match v with
    | .bool _ => .true
    | v => .text v.display

def evaluate (i : Interpolation) (scope : Scope) : Except Expr.EvalError Outcome :=
  match i.parts with
  | [.expression _ e] => (Expr.eval scope.lookup e).map ofValue
  | parts => do
    let (text, sawTrue) ← evalParts scope parts
    pure (if !text.isEmpty then .text text else if sawTrue then .true else .falsy)

end Interpolation

end LiveMarkup
