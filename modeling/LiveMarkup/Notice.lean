import LiveMarkup.Expr.Error
import LiveMarkup.Id
import LiveMarkup.Template.Error
import LiveMarkup.Text.Shown

/-!
What compilation and a live page report on the way, and what a page refuses to do. A notice never
changes what happens.
-/

namespace LiveMarkup

/-- How much a notice matters, from most to least. -/
inductive Level where
  | error
  | warn
  | debug
  | trace
  deriving DecidableEq, Repr

def Level.name : Level → String
  | error => "error"
  | warn => "warn"
  | debug => "debug"
  | trace => "trace"

def Level.rank : Level → Nat
  | error => 0
  | warn => 1
  | debug => 2
  | trace => 3

inductive PageError where
  | unknownTag (tag : String)
  | notAComponent (id : InstanceId)
  deriving DecidableEq, Repr

def PageError.message : PageError → String
  | unknownTag tag => "no component is defined for tag '" ++ tag ++ "'"
  | notAComponent id => "instance " ++ toString id.number ++ " is not a component"

/-- Why the value of an assignment cannot be stored. -/
inductive AssignmentFault where
  | evaluation (e : Expr.EvalError)
  /-- An integer too large for a field. -/
  | unstorable
  deriving DecidableEq, Repr

def AssignmentFault.message : AssignmentFault → String
  | evaluation e => e.message
  | unstorable => "number out of range"

/-- Instances, definitions and fragments are given by their numbers. -/
inductive Notice where
  | templateCompiled (definitions : Nat)
  | directivesDiscarded (kept : String) (discarded : List String)
  | badHandler (event source : String) (e : CompileError)
  | missingMethod (event method : String)
  | placeholderMismatch (index : Nat)
  | undefinedMarker (index : Nat)
  | componentDefined (tag : String)
  | connected (tag : String) (component : Nat)
  | disconnected (component : Nat)
  | passRequested (component : Nat)
  | passStarted (component : Nat)
  | mounted (fragment : Nat)
  | remounted (fragment : Nat)
  | unmounted (fragment : Nat)
  | anchorDetached (fragment : Nat)
  | rootMissing (fragment : Nat)
  | evaluationFailed (owner : Nat) (source : String) (e : Expr.EvalError)
  | badHandlerFired (event : String) (component : Nat)
  | assignmentFailed (event source : String) (fault : AssignmentFault)
  | assignmentRefused (event field : String) (e : PageError)
  | methodUndefined (event method : String)
  deriving DecidableEq, Repr

namespace Notice

def level : Notice → Level
  | directivesDiscarded _ _ | badHandler _ _ _ | missingMethod _ _ => .error
  | undefinedMarker _ | anchorDetached _ | rootMissing _ | evaluationFailed _ _ _
  | badHandlerFired _ _ | assignmentFailed _ _ _ | assignmentRefused _ _ _
  | methodUndefined _ _ => .warn
  | placeholderMismatch _ | componentDefined _ | connected _ _ | disconnected _ | mounted _
  | remounted _ | unmounted _ => .debug
  | templateCompiled _ | passRequested _ | passStarted _ => .trace

/-- What the message says before the reason that some notices give. -/
def title : Notice → String
  | templateCompiled _ => "compiled template"
  | directivesDiscarded _ _ => "only one structural directive is allowed per node"
  | badHandler _ _ _ => "invalid event handler:"
  | missingMethod _ _ => "event handler calls a method the component does not define"
  | placeholderMismatch _ => "conditional placeholder id does not match its definition"
  | undefinedMarker _ => "marked node has no definition"
  | componentDefined _ => "component defined"
  | connected _ _ => "component connected"
  | disconnected _ => "component disconnected"
  | passRequested _ => "update pass requested"
  | passStarted _ => "update pass"
  | mounted _ => "fragment mounted"
  | remounted _ => "fragment remounted"
  | unmounted _ => "fragment unmounted"
  | anchorDetached _ => "fragment anchor is detached; mount skipped"
  | rootMissing _ => "fragment template has no root element"
  | evaluationFailed _ _ _ => "expression evaluation failed:"
  | badHandlerFired _ _ => "invalid event handler fired"
  | assignmentFailed _ _ _ => "handler evaluation failed:"
  | assignmentRefused _ _ _ => "handler assignment failed:"
  | methodUndefined _ _ => "handler method is not defined"

def reason? : Notice → Option String
  | badHandler _ _ e => some e.message
  | evaluationFailed _ _ e => some e.message
  | assignmentFailed _ _ fault => some fault.message
  | assignmentRefused _ _ e => some e.message
  | _ => none

def message (notice : Notice) : String :=
  match notice.reason? with
  | some reason => notice.title ++ " " ++ reason
  | none => notice.title

def fields : Notice → List (String × String)
  | templateCompiled definitions => [("definitions", toString definitions)]
  | directivesDiscarded kept discarded =>
    [("kept", kept), ("discarded", Text.shownList (discarded.map Text.quoted))]
  | badHandler event source _ => [("event", event), ("source", source)]
  | missingMethod event method => [("event", event), ("method", method)]
  | placeholderMismatch index | undefinedMarker index => [("index", toString index)]
  | componentDefined tag => [("tag", tag)]
  | connected tag component => [("tag", tag), ("instance", toString component)]
  | disconnected component | passRequested component | passStarted component =>
    [("instance", toString component)]
  | mounted fragment | remounted fragment | unmounted fragment | anchorDetached fragment
  | rootMissing fragment => [("fragment", toString fragment)]
  | evaluationFailed owner source _ => [("instance", toString owner), ("source", source)]
  | badHandlerFired event component => [("event", event), ("instance", toString component)]
  | assignmentFailed event source _ => [("event", event), ("source", source)]
  | assignmentRefused event field _ => [("event", event), ("field", field)]
  | methodUndefined event method => [("event", event), ("method", method)]

end Notice

end LiveMarkup
