import LiveMarkup.Dom.Shown
import LiveMarkup.Template.Registry

/-!
Diagnostic texts of templates and what they consist of.
-/

namespace LiveMarkup

open Text

def Part.shown : Part → String
  | literal s => "Literal(" ++ quoted s ++ ")"
  | expression source _ => "Expression(" ++ quoted source ++ ")"

def Interpolation.shown (i : Interpolation) : String :=
  shownRecord "Interpolation"
    [("source", quoted i.source), ("parts", shownList (i.parts.map Part.shown)),
      ("dependencies", shownSet (i.dependencies.map quoted))]

def Statement.shown : Statement → String
  | assign field source _ =>
    shownRecord "Assign" [("field", quoted field), ("value", quoted source)]
  | call method => shownRecord "Call" [("method", quoted method)]

def Handler.shown (handler : Handler) : String :=
  shownRecord "Handler"
    [("source", quoted handler.source),
      ("statements", shownList (handler.statements.map Statement.shown))]

def EventBinding.shown (event : EventBinding) : String :=
  shownRecord "EventBinding"
    [("name", quoted event.name), ("source", quoted event.source),
      ("handler", shownOption (event.handler.map Handler.shown))]

def AttributeBinding.shown (binding : AttributeBinding) : String :=
  shownRecord "AttributeBinding"
    [("name", quoted binding.name), ("interpolation", binding.interpolation.shown)]

namespace Blueprint

mutual

def shown : Blueprint → String
  | ⟨dom, root, definitions⟩ =>
    shownRecord "Blueprint"
      [("dom", dom.shown), ("root", root.shown),
        ("definitions", shownList (shownDefinitions definitions))]

def shownDefinitions : List (NodeDefinition Blueprint) → List String
  | [] => []
  | definition :: rest => shownDefinition definition :: shownDefinitions rest

def shownDefinition : NodeDefinition Blueprint → String
  | ⟨index, reference, events, attributes, content, directive, features⟩ =>
    shownRecord "NodeDefinition"
      [("index", toString index), ("reference", shownOption (reference.map quoted)),
        ("events", shownList (events.map EventBinding.shown)),
        ("attrs", shownList (attributes.map AttributeBinding.shown)),
        ("content", shownList (content.map Interpolation.shown)),
        ("directive", shownDirective? directive),
        ("parsers", shownList (features.map fun feature => quoted feature.name))]

def shownDirective? : Option (Directive Blueprint) → String
  | some directive => shownOption (some (shownDirective directive))
  | none => shownOption none

def shownDirective : Directive Blueprint → String
  | ⟨kind, placeholder, blueprint, guard⟩ =>
    shownRecord "Directive"
      [("kind", quoted kind), ("placeholder_id", quoted placeholder),
        ("blueprint", blueprint.shown), ("guard", guard.shown)]

end

end Blueprint

def Registry.shown (r : Registry) : String :=
  let names := fun (features : List Feature) =>
    shownList (features.map fun feature => quoted feature.name)
  shownRecord "Registry"
    [("node_parsers", names r.nodeFeatures), ("attribute_parsers", names r.attributeFeatures),
      ("cached_templates", toString r.templates.size)]

end LiveMarkup
