import LiveMarkup.Expr.Parse
import LiveMarkup.Template.Error
import LiveMarkup.Text.Chars

/-!
Event handlers: statements between semicolons, in braces or not, after an empty parameter list and
an arrow or not. A statement steps a field, assigns to it or names a method.
-/

namespace LiveMarkup

inductive Statement where
  /-- Stores the value of an expression, whose source comes before it. -/
  | assign (field : String) (source : String) (value : Expr.Term)
  | call (method : String)

structure Handler where
  source : String
  statements : List Statement

namespace Handler

def skipBlanks (s : List Char) : List Char :=
  s.dropWhile Text.isBlank

/-- The text after a given one. -/
def strip? (front s : List Char) : Option (List Char) :=
  if front.isPrefixOf s then some (s.drop front.length) else none

/-- The text after `() =>`. -/
def stripArrow (s : List Char) : List Char :=
  let stripped := do
    let s ← strip? ['('] s
    let s ← strip? [')'] (skipBlanks s)
    let s ← strip? ['=', '>'] (skipBlanks s)
    pure (skipBlanks s)
  stripped.getD s

/-- The text inside braces, or the whole text without them. -/
def stripBraces (s : List Char) : List Char :=
  match s with
  | '\x7b' :: inner => if inner.getLast? = some '\x7d' then inner.dropLast else s
  | _ => s

/-- Puts a character before the first of some texts. -/
def consFirst (c : Char) : List (List Char) → List (List Char)
  | [] => [[c]]
  | first :: rest => (c :: first) :: rest

/-- Splits at the semicolons outside quotes; `quote` is the quote that is open, and after a
backslash in it the next character is `escaped`. -/
def split (quote : Option Char) (escaped : Bool) : List Char → List (List Char)
  | [] => [[]]
  | c :: rest =>
    match quote with
    | some q =>
      if escaped then consFirst c (split quote false rest)
      else if c = '\\' then consFirst c (split quote true rest)
      else consFirst c (split (if c = q then none else quote) false rest)
    | none =>
      if c = ';' then [] :: split none false rest
      else consFirst c (split (if c = '\'' ∨ c = '"' then some c else none) false rest)

/-- The field at the front of `this.field`, and the text after it and its blanks. -/
def fieldAt? (s : List Char) : Option (List Char × List Char) := do
  let rest ← strip? "this.".toList s
  let name := rest.takeWhile Text.isWord
  if name.isEmpty then none else some (name, skipBlanks (rest.dropWhile Text.isWord))

/-- `this.field++` and `this.field--`, with the sign. -/
def step? (s : List Char) : Option (List Char × Char) := do
  let (name, rest) ← fieldAt? s
  if rest = ['+', '+'] then some (name, '+')
  else if rest = ['-', '-'] then some (name, '-')
  else none

/-- The value of an assignment, which lies on one line. -/
def rightSide? (s : List Char) : Option (List Char) :=
  let s := skipBlanks s
  if s.isEmpty ∨ s.contains '\n' then none else some (Text.trim s)

/-- The field, the sign before the equals sign if there is one, and the value. -/
def assignment? (s : List Char) : Option (List Char × Option Char × List Char) := do
  let (name, rest) ← fieldAt? s
  match rest with
  | '+' :: '=' :: value => (rightSide? value).map fun value => (name, some '+', value)
  | '-' :: '=' :: value => (rightSide? value).map fun value => (name, some '-', value)
  | '=' :: value => (rightSide? value).map fun value => (name, none, value)
  | _ => none

/-- A method after `this.` or by itself, with or without an empty argument list. -/
def methodAt? (s : List Char) : Option (List Char) := do
  let name := s.takeWhile Text.isWord
  let rest := skipBlanks (s.dropWhile Text.isWord)
  if name.isEmpty then none
  else if rest.isEmpty then some name
  else do
    let rest ← strip? ['('] rest
    if skipBlanks rest = [')'] then some name else none

def method? (s : List Char) : Option (List Char) :=
  match (strip? "this.".toList s).bind methodAt? with
  | some name => some name
  | none => methodAt? s

def assign (location : String) (field source : List Char) : Except CompileError Statement :=
  let source := String.ofList source
  match Expr.read? source with
  | some e => .ok (.assign (String.ofList field) source e)
  | none => .error (.expression location .unreadable)

/-- The source of the value that an assignment stores. A sign before the equals sign adds the value
to the field or takes it away. -/
def assignedSource (field : List Char) (sign : Option Char) (value : List Char) : List Char :=
  match sign with
  | some sign => "this.".toList ++ field ++ [' ', sign, ' ', '('] ++ value ++ [')']
  | none => value

/-- Compiles one statement of the handler `location`. -/
def compileStatement (location : String) (s : List Char) : Except CompileError Statement :=
  let unsupported := CompileError.expression location (.unsupportedStatement (String.ofList s))
  match step? s with
  | some (field, sign) =>
    assign location field ("this.".toList ++ field ++ [' ', sign, ' ', '1'])
  | none =>
    match assignment? s with
    | some (field, sign, value) =>
      if sign.isNone ∧ value.head? = some '=' then .error unsupported
      else assign location field (assignedSource field sign value)
    | none =>
      match method? s with
      | some name => .ok (.call (String.ofList name))
      | none => .error unsupported

/-- The texts of the statements. -/
def statementTexts (source : String) : List (List Char) :=
  let body := stripBraces (Text.trim (stripArrow (Text.trim source.toList)))
  ((split none false body).map Text.trim).filter (!·.isEmpty)

def compile (source : String) : Except CompileError Handler := do
  let statements ← (statementTexts source).mapM (compileStatement source)
  if statements.isEmpty then .error (.expression source .noStatements)
  else pure ⟨source, statements⟩

/-- The methods that a handler names. -/
def methods (handler : Handler) : List String :=
  handler.statements.filterMap fun
    | .call method => some method
    | .assign _ _ _ => none

end Handler

end LiveMarkup
