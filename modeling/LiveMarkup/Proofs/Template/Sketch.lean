import LiveMarkup.Template.Compile
import LiveMarkup.Proofs.Dom.Sheets

/-!
What a template says, without the store, the markers and the table of definitions that it is compiled
to: texts and attributes with their interpolations, and elements with their guards.
-/

namespace LiveMarkup

inductive Sketch where
  /-- A comment, or a text without spans. -/
  | fixed (content : Content)
  | text (i : Interpolation)
  /-- An element with the attributes that stay and the ones that follow the fields. -/
  | element (tag : String) (attributes : List Attribute) (bindings : List AttributeBinding)
    (children : List Sketch)
  /-- An element that is there while the guard is truthy. -/
  | guarded (guard : Interpolation) (body : Sketch)

namespace Attribute

/-- Whether an attribute is template syntax on an element that stays. -/
def isMarked (a : Attribute) : Bool :=
  a.isMarkedBy '#' || a.isMarkedBy '@' || a.isMarkedBy ':'

/-- Whether an attribute is rendered as it is. -/
def isPlain (a : Attribute) : Bool :=
  !a.isDirective && !a.isMarked

end Attribute

namespace Sketch

def bindings? : List Attribute → Option (List AttributeBinding)
  | [] => some []
  | a :: rest =>
    if a.isMarkedBy ':' then do
      let i ← (Interpolation.compile a.value).toOption
      let more ← bindings? rest
      some (⟨a.markedName, i⟩ :: more)
    else bindings? rest

/-- The guard that a directive puts on its element. -/
def guard? (a : Attribute) : Option Interpolation :=
  if Text.sameIgnoringAsciiCase a.name "*if" then
    if Markup.hasSpan a.value then (Interpolation.compile a.value).toOption
    else (Interpolation.compileBare a.value).toOption
  else none

mutual

/-- Reads a parsed template; nothing for what does not compile. -/
def ofTree? : Tree → Option Sketch
  | .node content _ below =>
    match content with
    | .fragment => none
    | .text s =>
      if Markup.hasSpan s then (Interpolation.compile s).toOption.map .text
      else some (.fixed (.text s))
    | .comment s => some (.fixed (.comment s))
    | .element tag attributes => do
      let bindings ← bindings? attributes
      let children ← ofTrees? below
      let element := .element tag (attributes.filter (·.isPlain)) bindings children
      match attributes.find? (·.isDirective) with
      | some a => (guard? a).map (.guarded · element)
      | none => some element

def ofTrees? : List Tree → Option (List Sketch)
  | [] => some []
  | tree :: rest => do
    let sketch ← ofTree? tree
    let more ← ofTrees? rest
    some (sketch :: more)

end

end Sketch

/-! ### Compiled templates -/

/-- The definition of a text with an interpolation. -/
def NodeDefinition.IsText (definition : NodeDefinition Blueprint) (i : Interpolation) : Prop :=
  definition.content = [i] ∧ definition.features = [.text]

/-- The definition of an element without a directive. -/
structure NodeDefinition.IsPlain (definition : NodeDefinition Blueprint)
    (bindings : List AttributeBinding) : Prop where
  attributes : definition.attributes = bindings
  features : ∀ feature ∈ definition.features,
    feature = .reference ∨ feature = .event ∨ feature = .binding
  nodup : definition.features.Nodup
  binding : bindings ≠ [] → Feature.binding ∈ definition.features

/-- The definition of an element that stands for a conditional one. -/
def NodeDefinition.IsGuard (definition : NodeDefinition Blueprint) (directive : Directive Blueprint) :
    Prop :=
  definition.directive = some directive ∧ definition.features = [.conditional]

namespace Sketch

/-- An element carries a marker when it needs its definition. -/
def Marks (definitions : List (NodeDefinition Blueprint)) (bindings : List AttributeBinding) :
    Option Nat → Prop
  | none => bindings = []
  | some k => ∃ definition, definitions[k]? = some definition ∧ definition.IsPlain bindings

mutual

/-- A tree with markers and a table of definitions say what a sketch says. -/
def Realizes (definitions : List (NodeDefinition Blueprint)) : Sketch → Tree → Prop
  | .fixed content, tree => tree = .leaf content ∧ content.isElement = false
  | .text i, tree => ∃ k definition, tree = .node (.text "") (some k) [] ∧
      definitions[k]? = some definition ∧ definition.IsText i
  | .element tag attributes bindings children, tree => ∃ marker trees,
      tree = .node (.element tag attributes) marker trees ∧
        Marks definitions bindings marker ∧ RealizesAll definitions children trees
  | .guarded guard body, tree => ∃ k id definition directive,
      tree = .node (.element Compile.placeholderTag [⟨"id", id⟩]) (some k) [] ∧
        definitions[k]? = some definition ∧ definition.IsGuard directive ∧
        directive.guard = guard ∧ directive.blueprint.dom.Valid ∧ ∃ inner,
          directive.blueprint.dom.tree directive.blueprint.root = .node .fragment none [inner] ∧
            inner.content.isElement = true ∧ Realizes directive.blueprint.definitions body inner

def RealizesAll (definitions : List (NodeDefinition Blueprint)) : List Sketch → List Tree → Prop
  | [], trees => trees = []
  | sketch :: sketches, trees => ∃ tree rest,
      trees = tree :: rest ∧ Realizes definitions sketch tree ∧ RealizesAll definitions sketches rest

end

end Sketch

end LiveMarkup
