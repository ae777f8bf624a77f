import LiveMarkup.Dom.Html
import LiveMarkup.Template.Feature
import LiveMarkup.Template.Handler
import LiveMarkup.Template.Interpolation

/-!
A compiled template: markup without directives, and what each node needs once the markup is live. A
node carries the index of its definition as its marker, so every copy of the markup shows where the
definitions belong.
-/

namespace LiveMarkup

/-- An attribute that follows an interpolation. -/
structure AttributeBinding where
  name : String
  interpolation : Interpolation

structure EventBinding where
  name : String
  source : String
  /-- None for a source that does not compile. -/
  handler : Option Handler

/-- A directive that took its node out of the template. -/
structure Directive (Nested : Type) where
  kind : String
  /-- The id of the element left in its place, or the word that the directive binds. -/
  placeholder : String
  /-- The node, compiled by itself. -/
  blueprint : Nested
  guard : Interpolation

structure NodeDefinition (Nested : Type) where
  index : Nat
  reference : Option String
  events : List EventBinding
  attributes : List AttributeBinding
  content : List Interpolation
  directive : Option (Directive Nested)
  /-- The features that claimed the node, in the order in which they did. -/
  features : List Feature

structure Blueprint where
  dom : Dom
  root : NodeId
  definitions : List (NodeDefinition Blueprint)

namespace NodeDefinition

variable {Nested : Type}

def unclaimed (index : Nat) : NodeDefinition Nested :=
  ⟨index, none, [], [], [], none, []⟩

def claim (definition : NodeDefinition Nested) (feature : Feature) : NodeDefinition Nested :=
  if definition.features.contains feature then definition
  else { definition with features := definition.features ++ [feature] }

def isClaimed (definition : NodeDefinition Nested) : Bool :=
  !definition.features.isEmpty

end NodeDefinition

/-- The fields that decide whether the node of a directive is there. -/
def Directive.dependencies {Nested : Type} (directive : Directive Nested) : Names :=
  directive.guard.dependencies

namespace Blueprint

def definition? (blueprint : Blueprint) (index : Nat) : Option (NodeDefinition Blueprint) :=
  blueprint.definitions[index]?

def html (blueprint : Blueprint) : String :=
  blueprint.dom.innerHtml blueprint.root

/-- A copy of the markup in another store, with no parent. -/
def instantiate (blueprint : Blueprint) (target : Dom) : Dom × Dom.Copy :=
  target.importFrom blueprint.dom blueprint.root

mutual

/-- How deep directives are nested, the template itself included. -/
def depth : Blueprint → Nat
  | ⟨_, _, definitions⟩ => depthOfAll definitions + 1

def depthOfAll : List (NodeDefinition Blueprint) → Nat
  | [] => 0
  | definition :: rest => max (depthOf definition) (depthOfAll rest)

def depthOf : NodeDefinition Blueprint → Nat
  | ⟨_, _, _, _, _, directive, _⟩ => depthOfDirective? directive

def depthOfDirective? : Option (Directive Blueprint) → Nat
  | some directive => depthOfDirective directive
  | none => 0

def depthOfDirective : Directive Blueprint → Nat
  | ⟨_, _, nested, _⟩ => nested.depth

end

end Blueprint

end LiveMarkup
