/-!
Why the evaluation of an expression fails.
-/

namespace LiveMarkup.Expr

inductive EvalError where
  /-- A member or an item of the undefined value. -/
  | undefinedBase
  /-- Operands of kinds that an operator does not take. -/
  | badOperands
  /-- A result outside the range of integers, a division by zero or a text that is too long. -/
  | outOfRange
  | unknownFilter (name : String)
  | unknownTest (name : String)
  | unknownFunction (name : String)
  | notCallable
  | badArguments
  | declarationsExpected
  deriving DecidableEq, Repr

def EvalError.message : EvalError → String
  | undefinedBase => "undefined value"
  | badOperands => "operator on unsupported operands"
  | outOfRange => "result out of range"
  | unknownFilter name => "unknown filter '" ++ name ++ "'"
  | unknownTest name => "unknown test '" ++ name ++ "'"
  | unknownFunction name => "unknown function '" ++ name ++ "'"
  | notCallable => "value is not callable"
  | badArguments => "wrong arguments"
  | declarationsExpected => "css_obj expects a map of declarations"

end LiveMarkup.Expr
