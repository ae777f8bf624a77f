import LiveMarkup.Files
import LiveMarkup.Template.Error

/-!
Why a component cannot be defined.
-/

namespace LiveMarkup

inductive DefinitionError where
  | unsupportedType (property type : String)
  | invalidTag (tag : String)
  | duplicateTag (tag : String)
  | missingTemplate (tag : String)
  | badManifest
  | compile (e : CompileError)
  | load (e : LoadError)
  deriving DecidableEq, Repr

def DefinitionError.message : DefinitionError → String
  | unsupportedType property type =>
    "component attribute '" ++ property ++ "' has unsupported type '" ++ type ++ "'"
  | invalidTag tag =>
    "invalid component tag '" ++ tag ++ "': tags must be lowercase and contain a '-'"
  | duplicateTag tag => "component '" ++ tag ++ "' is already defined"
  | missingTemplate tag => "component '" ++ tag ++ "' has no template"
  | badManifest => "invalid component manifest"
  | compile e => e.message
  | load e => e.message

end LiveMarkup
