import LiveMarkup.Expr.Fold
import LiveMarkup.Expr.Token

/-!
Reading an expression. The operators stand on levels, from the loosest to the tightest; each level
reads operands of the next one. What is no token ends the expression where it follows a single text.
`fuel` bounds the calls that nest in each other and `nesting` the expressions that may stand inside
one another.
-/

namespace LiveMarkup.Expr

def skip? (s : String) : List Token → Option (List Token)
  | .symbol t :: rest => if s = t then some rest else none
  | _ => none

def skipName? (s : String) : List Token → Option (List Token)
  | .name t :: rest => if s = t then some rest else none
  | _ => none

inductive Level where
  | or
  | and
  | not
  | comparison
  | sum
  | concat
  | product
  | power
  deriving DecidableEq, Repr

/-- The level that the operands of a level stand on; none for single operands. -/
def Level.next? : Level → Option Level
  | or => some and
  | and => some not
  | not => some comparison
  | comparison => some sum
  | sum => some concat
  | concat => some product
  | product => some power
  | power => none

/-- The operator at the front of the tokens, if it stands on the level. -/
def Level.operator? (level : Level) (tokens : List Token) :
    Option ((Term → Term → Term) × List Token) :=
  match level, tokens with
  | or, .name "or" :: rest => some (.or, rest)
  | and, .name "and" :: rest => some (.and, rest)
  | sum, .symbol "+" :: rest => some (.binary .add, rest)
  | sum, .symbol "-" :: rest => some (.binary .sub, rest)
  | concat, .symbol "~" :: rest => some (.binary .concat, rest)
  | product, .symbol "*" :: rest => some (.binary .mul, rest)
  | product, .symbol "/" :: rest => some (.binary .div, rest)
  | product, .symbol "//" :: rest => some (.binary .floorDiv, rest)
  | product, .symbol "%" :: rest => some (.binary .rem, rest)
  | power, .symbol "**" :: rest => some (.binary .pow, rest)
  | _, _ => none

/-- The comparison at the front of the tokens. -/
def comparison? : List Token → Option (Comparison × List Token)
  | .symbol "==" :: rest => some (.eq, rest)
  | .symbol "!=" :: rest => some (.ne, rest)
  | .symbol "<" :: rest => some (.lt, rest)
  | .symbol "<=" :: rest => some (.le, rest)
  | .symbol ">" :: rest => some (.gt, rest)
  | .symbol ">=" :: rest => some (.ge, rest)
  | .name "in" :: rest => some (.isIn, rest)
  | .name "not" :: .name "in" :: rest => some (.isNotIn, rest)
  | _ => none

/-- A comparison whose `not` is followed by no `in` is broken off. -/
def isBrokenComparison : List Token → Bool
  | .name "not" :: _ => true
  | _ => false

/-- An operand with the comparisons that follow it. -/
def Term.compared (first : Term) (links : List (Comparison × Term)) : Term :=
  if links.isEmpty then first else .compare first links

/-- Whether tokens after the name of a test begin its argument. -/
def beginsArgument : List Token → Bool
  | .name s :: _ => s ≠ "and" ∧ s ≠ "or" ∧ s ≠ "else" ∧ s ≠ "is"
  | .text _ :: _ | .number _ :: _ | .float _ :: _ => true
  | .symbol s :: _ => s = "+" ∨ s = "-" ∨ s = "[" ∨ s = "\x7b"
  | _ => false

/-- Texts that follow each other make up one text. -/
def joinTexts (s : String) : List Token → String × List Token
  | .text t :: rest => joinTexts (s ++ t) rest
  | tokens => (s, tokens)

/-- The rest of a name with dots in it. -/
def dottedTail? (name : String) : List Token → Option (String × List Token)
  | .symbol "." :: .name part :: rest => dottedTail? (name ++ "." ++ part) rest
  | .symbol "." :: _ => none
  | tokens => some (name, tokens)

/-- The name of a filter or a test, which may have dots in it. -/
def dottedName? : List Token → Option (String × List Token)
  | .name name :: rest => dottedTail? name rest
  | _ => none

/-- The most arguments that a call has. -/
def maxArguments : Nat := 2000

/-- How the argument at the front of the tokens enters the call. -/
def spreading : List Token → ArgumentForm × List Token
  | .symbol "**" :: rest => (.spreadNamed, rest)
  | .symbol "*" :: rest => (.spread, rest)
  | tokens => (.positional, tokens)

mutual

/-- A whole expression, with its conditions. -/
def parseExpr (fuel nesting : Nat) (tokens : List Token) : Option (Term × List Token) :=
  match fuel, nesting with
  | fuel + 1, nesting + 1 => parseChoice fuel nesting tokens
  | _, _ => none
termination_by structural fuel

def parseChoice (fuel nesting : Nat) (tokens : List Token) : Option (Term × List Token) :=
  match fuel with
  | 0 => none
  | fuel + 1 => do
    let (e, tokens) ← parseLevel fuel nesting .or tokens
    choiceTail fuel nesting e tokens
termination_by structural fuel

/-- The conditions after an expression. -/
def choiceTail (fuel nesting : Nat) (e : Term) (tokens : List Token) : Option (Term × List Token) :=
  match fuel with
  | 0 => none
  | fuel + 1 =>
    match skipName? "if" tokens with
    | none => some (e, tokens)
    | some tokens => do
      let (test, tokens) ← parseLevel fuel nesting .or tokens
      match skipName? "else" tokens with
      | none => choiceTail fuel nesting (.choose test e (.constant .undefined)) tokens
      | some tokens => do
        let (otherwise, tokens) ← parseChoice fuel nesting tokens
        choiceTail fuel nesting (.choose test e otherwise) tokens
termination_by structural fuel

def parseLevel (fuel nesting : Nat) (level : Level) (tokens : List Token) :
    Option (Term × List Token) :=
  match fuel with
  | 0 => none
  | fuel + 1 =>
    match if level = .not then skipName? "not" tokens else none with
    | some tokens => do
      let (e, tokens) ← parseLevel fuel nesting .not tokens
      pure (.not e, tokens)
    | none => do
      let (left, tokens) ← parseOperand fuel nesting level tokens
      if level = .comparison then do
        let (links, tokens) ← parseLinks fuel nesting tokens
        pure (left.compared links, tokens)
      else levelTail fuel nesting level left tokens
termination_by structural fuel

def parseOperand (fuel nesting : Nat) (level : Level) (tokens : List Token) :
    Option (Term × List Token) :=
  match fuel with
  | 0 => none
  | fuel + 1 =>
    match level.next? with
    | some next => parseLevel fuel nesting next tokens
    | none => parseSingle fuel nesting tokens
termination_by structural fuel

/-- The operators of a level after its first operand, from left to right. -/
def levelTail (fuel nesting : Nat) (level : Level) (left : Term) (tokens : List Token) :
    Option (Term × List Token) :=
  match fuel with
  | 0 => none
  | fuel + 1 =>
    match level.operator? tokens with
    | some (make, tokens) => do
      let (right, tokens) ← parseOperand fuel nesting level tokens
      levelTail fuel nesting level (make left right) tokens
    | none => some (left, tokens)
termination_by structural fuel

/-- Comparisons with the operand after each of them. -/
def parseLinks (fuel nesting : Nat) (tokens : List Token) :
    Option (List (Comparison × Term) × List Token) :=
  match fuel with
  | 0 => none
  | fuel + 1 =>
    match comparison? tokens with
    | some (comparison, tokens) => do
      let (right, tokens) ← parseOperand fuel nesting .comparison tokens
      let (links, tokens) ← parseLinks fuel nesting tokens
      pure ((comparison, right) :: links, tokens)
    | none => if isBrokenComparison tokens then none else some ([], tokens)
termination_by structural fuel

/-- An operand with what follows it: members, items, calls, then filters and tests. -/
def parseSingle (fuel nesting : Nat) (tokens : List Token) : Option (Term × List Token) :=
  match fuel with
  | 0 => none
  | fuel + 1 => do
    let (e, tokens) ← parseSigned fuel nesting tokens
    let (e, tokens) ← postfixTail fuel nesting e tokens
    filterTail fuel nesting e tokens
termination_by structural fuel

/-- A sign binds tighter than what follows its operand. -/
def parseSigned (fuel nesting : Nat) (tokens : List Token) : Option (Term × List Token) :=
  match fuel with
  | 0 => none
  | fuel + 1 =>
    match skip? "-" tokens with
    | some tokens => do
      let (e, tokens) ← parseSigned fuel nesting tokens
      pure (.negate e, tokens)
    | none => parsePrimary fuel nesting tokens
termination_by structural fuel

def parsePrimary (fuel nesting : Nat) (tokens : List Token) : Option (Term × List Token) :=
  match fuel, nesting with
  | fuel + 1, nesting + 1 =>
    match tokens with
    | .name s :: rest =>
      let e : Term :=
        if s = "true" ∨ s = "True" then .constant (.bool true)
        else if s = "false" ∨ s = "False" then .constant (.bool false)
        else if s = "none" ∨ s = "None" then .constant .none
        else .name s
      some (e, rest)
    | [.text s, .broken] => some (.constant (.ofString s), [])
    | .text s :: rest =>
      let (s, rest) := joinTexts s rest
      some (.constant (.ofString s), rest)
    | .number n :: rest => some (.constant (.natural n), rest)
    | .float x :: rest => some (.constant (.float x), rest)
    | .symbol "(" :: rest =>
      match skip? ")" rest with
      | some rest => some (.list [], rest)
      | none => do
        let (e, rest) ← parseExpr fuel nesting rest
        match skip? ")" rest with
        | some rest => some (e, rest)
        | none => do
          let rest ← skip? "," rest
          let (items, rest) ← parseItems fuel nesting ")" rest
          pure (.list (e :: items), rest)
    | .symbol "[" :: rest => do
      let (items, rest) ← parseItems fuel nesting "]" rest
      pure (.list items, rest)
    | .symbol "\x7b" :: rest => do
      let (entries, rest) ← parseEntries fuel nesting rest
      pure (.map entries, rest)
    | _ => none
  | _, _ => none
termination_by structural fuel

/-- Expressions between commas up to a closing symbol; a comma may stand before it. -/
def parseItems (fuel nesting : Nat) (closing : String) (tokens : List Token) :
    Option (List Term × List Token) :=
  match fuel with
  | 0 => none
  | fuel + 1 =>
    match skip? closing tokens with
    | some tokens => some ([], tokens)
    | none => do
      let (e, tokens) ← parseExpr fuel nesting tokens
      match skip? closing tokens with
      | some tokens => some ([e], tokens)
      | none => do
        let tokens ← skip? "," tokens
        let (items, tokens) ← parseItems fuel nesting closing tokens
        pure (e :: items, tokens)
termination_by structural fuel

def parseEntries (fuel nesting : Nat) (tokens : List Token) :
    Option (List (Term × Term) × List Token) :=
  match fuel with
  | 0 => none
  | fuel + 1 =>
    match skip? "\x7d" tokens with
    | some tokens => some ([], tokens)
    | none => do
      let (key, tokens) ← parseExpr fuel nesting tokens
      let tokens ← skip? ":" tokens
      let (value, tokens) ← parseExpr fuel nesting tokens
      match skip? "\x7d" tokens with
      | some tokens => some ([(key, value)], tokens)
      | none => do
        let tokens ← skip? "," tokens
        let (entries, tokens) ← parseEntries fuel nesting tokens
        pure ((key, value) :: entries, tokens)
termination_by structural fuel

/-- The arguments of a call after its parenthesis, where `count` arguments stand before. Of the ones
that are written out, named ones come last. -/
def parseArguments (fuel nesting count : Nat) (named : Bool) (tokens : List Token) :
    Option (List (ArgumentForm × Term) × List Token) :=
  match fuel with
  | 0 => none
  | fuel + 1 =>
    match skip? ")" tokens with
    | some tokens => some ([], tokens)
    | none => do
      let (form, tokens) := spreading tokens
      let (e, tokens) ← parseExpr fuel nesting tokens
      match form, e, skip? "=" tokens with
      | .positional, .name name, some tokens => do
        let (value, tokens) ← parseExpr fuel nesting tokens
        let (more, tokens) ← moreArguments fuel nesting (count + 1) true tokens
        pure ((.named name, value) :: more, tokens)
      | form, e, _ =>
        if named ∧ form = .positional then none
        else do
          let (more, tokens) ← moreArguments fuel nesting (count + 1) (named || form.isNamed) tokens
          pure ((form, e) :: more, tokens)
termination_by structural fuel

def moreArguments (fuel nesting count : Nat) (named : Bool) (tokens : List Token) :
    Option (List (ArgumentForm × Term) × List Token) :=
  match fuel with
  | 0 => none
  | fuel + 1 =>
    if maxArguments < count then none
    else
      match skip? ")" tokens with
      | some tokens => some ([], tokens)
      | none => do
        let tokens ← skip? "," tokens
        parseArguments fuel nesting count named tokens
termination_by structural fuel

/-- Members, items, slices and calls after an operand. -/
def postfixTail (fuel nesting : Nat) (e : Term) (tokens : List Token) :
    Option (Term × List Token) :=
  match fuel with
  | 0 => none
  | fuel + 1 =>
    match tokens with
    | .symbol "." :: .name name :: rest => postfixTail fuel nesting (.member e name) rest
    | .symbol "." :: .number n :: rest =>
      postfixTail fuel nesting (.item e (.constant (.natural n))) rest
    | .symbol "." :: _ => none
    | .symbol "[" :: rest => do
      let (start, rest) ← parseBound fuel nesting rest
      match skip? ":" rest with
      | none => do
        let key ← start
        let rest ← skip? "]" rest
        postfixTail fuel nesting (.item e key) rest
      | some rest => do
        let (stop, rest) ← parseBound fuel nesting rest
        let (step, rest) ← match skip? ":" rest with
          | some rest => parseBound fuel nesting rest
          | none => some (none, rest)
        let rest ← skip? "]" rest
        let bound := fun (bound : Option Term) => bound.getD (.constant .none)
        postfixTail fuel nesting (.slice e (bound start) (bound stop) (bound step)) rest
    | .symbol "(" :: rest => do
      let (args, rest) ← parseArguments fuel nesting 0 false rest
      postfixTail fuel nesting (.call e args) rest
    | tokens => some (e, tokens)
termination_by structural fuel

/-- A part of a subscript, which may be left out before a colon or the closing bracket. -/
def parseBound (fuel nesting : Nat) (tokens : List Token) : Option (Option Term × List Token) :=
  match fuel with
  | 0 => none
  | fuel + 1 =>
    if (skip? ":" tokens).isSome ∨ (skip? "]" tokens).isSome then some (none, tokens)
    else do
      let (e, tokens) ← parseExpr fuel nesting tokens
      pure (some e, tokens)
termination_by structural fuel

/-- Filters and tests after an operand. -/
def filterTail (fuel nesting : Nat) (e : Term) (tokens : List Token) : Option (Term × List Token) :=
  match fuel with
  | 0 => none
  | fuel + 1 =>
    match tokens with
    | .symbol "|" :: rest => do
      let (name, rest) ← dottedName? rest
      let (args, rest) ← optionalArguments fuel nesting rest
      filterTail fuel nesting (.filter name e args) rest
    | .name "is" :: rest => do
      let negated := (skipName? "not" rest).isSome
      let (name, rest) ← dottedName? ((skipName? "not" rest).getD rest)
      let (args, rest) ← testArguments fuel nesting rest
      let tested := Term.test name e args
      filterTail fuel nesting (if negated then .not tested else tested) rest
    | tokens => some (e, tokens)
termination_by structural fuel

def optionalArguments (fuel nesting : Nat) (tokens : List Token) :
    Option (List (ArgumentForm × Term) × List Token) :=
  match fuel with
  | 0 => none
  | fuel + 1 =>
    match skip? "(" tokens with
    | some tokens => parseArguments fuel nesting 0 false tokens
    | none => some ([], tokens)
termination_by structural fuel

/-- The arguments of a test; a single one needs no parentheses. -/
def testArguments (fuel nesting : Nat) (tokens : List Token) :
    Option (List (ArgumentForm × Term) × List Token) :=
  match fuel with
  | 0 => none
  | fuel + 1 =>
    if (skip? "(" tokens).isNone ∧ beginsArgument tokens then do
      let (e, tokens) ← parseSigned fuel nesting tokens
      let (e, tokens) ← postfixTail fuel nesting e tokens
      pure ([(.positional, e)], tokens)
    else optionalArguments fuel nesting tokens
termination_by structural fuel

end

/-- How many expressions and operands may stand inside one another. -/
def maxNesting : Nat := 150

/-- More calls than can nest over the given tokens: between two tokens lie fewer than two dozen. -/
def fuelFor (tokens : List Token) : Nat :=
  24 * (tokens.length + 1)

/-- A whole text as an expression, with the values of its constant parts. -/
def read? (source : String) : Option Term := do
  let tokens := lex source.toList
  match ← parseExpr (fuelFor tokens) maxNesting tokens with
  | (e, []) => some e.fold
  | _ => none

end LiveMarkup.Expr
