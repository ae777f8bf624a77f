import LiveMarkup.Markup.Parse

/-!
Why a template does not compile.
-/

namespace LiveMarkup

/-- What is wrong with an expression or an event handler. -/
inductive SourceFault where
  | unreadable
  | noStatements
  | unsupportedStatement (statement : String)
  deriving DecidableEq, Repr

inductive CompileError where
  | markup (e : Markup.Error)
  /-- The whole text in which the fault lies comes with it. -/
  | expression (location : String) (fault : SourceFault)
  | unsupportedDirective (name : String)
  deriving DecidableEq, Repr

def SourceFault.message : SourceFault → String
  | unreadable => ""
  | noStatements => ": event handler has no statements"
  | unsupportedStatement statement => ": unsupported handler statement '" ++ statement ++ "'"

def CompileError.message : CompileError → String
  | markup e => e.message
  | expression location fault => "invalid expression in " ++ location ++ fault.message
  | unsupportedDirective name => "unsupported directive '" ++ name ++ "'"

end LiveMarkup
