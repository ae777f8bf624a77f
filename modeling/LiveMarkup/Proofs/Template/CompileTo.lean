import LiveMarkup.Proofs.Template.Gives

/-!
What compilation makes of parsed markup, said without the walk that does it: which trees stand where
the parsed ones stood, and with which definitions.
-/

namespace LiveMarkup

/-- The features that templates are written with. -/
def Feature.builtin : List Feature :=
  [text, conditional, reference, event, binding]

namespace Attribute

/-- The feature whose syntax an attribute is, when it is no directive. -/
def feature? (a : Attribute) : Option Feature :=
  if a.isMarkedBy '#' then some .reference
  else if a.isMarkedBy '@' then some .event
  else if a.isMarkedBy ':' then some .binding
  else none

/-- The feature among some that takes an attribute off its element. -/
def takenBy (marks : List Feature) (a : Attribute) : Option Feature :=
  a.feature?.filter (marks.contains ·)

end Attribute

/-- The attributes that no feature takes. -/
def untaken (marks : List Feature) (offered : List Attribute) : List Attribute :=
  offered.filter fun a => (a.takenBy marks).isNone

/-- What the attributes of an element without a directive say to some features. -/
structure NodeDefinition.Collects (marks : List Feature) (offered : List Attribute)
    (definition : NodeDefinition Blueprint) : Prop where
  /-- The last name counts. -/
  reference : definition.reference =
    ((offered.filter (·.takenBy marks = some .reference)).map (·.markedName)).getLast?
  events : definition.events = (offered.filter (·.takenBy marks = some .event)).map fun a =>
    ⟨a.markedName, a.value, (Handler.compile a.value).toOption⟩
  attributes : List.Forall₂ (fun a binding => binding.name = a.markedName ∧
      Interpolation.compile a.value = .ok binding.interpolation)
    (offered.filter (·.takenBy marks = some .binding)) definition.attributes
  content : definition.content = []
  directive : definition.directive = none
  features : definition.features = (offered.filterMap (·.takenBy marks)).eraseDups

/-- The definition of an element without a directive, if one of its attributes is taken. -/
def Owns (marks : List Feature) (offered : List Attribute) (k : Nat) :
    Option (NodeDefinition Blueprint) → Prop
  | none => ∀ a ∈ offered, a.takenBy marks = none
  | some definition => definition.index = k ∧ definition.Collects marks offered ∧
    ∃ a ∈ offered, a.takenBy marks ≠ none

/-- The id of the element that stands for a conditional one. -/
def placeholderId (k : Nat) (word : String) : String :=
  "enso-" ++ toString k ++ "-" ++ word

namespace NodeDefinition

/-- The definition of a text with spans. -/
def ofText (k : Nat) (i : Interpolation) : NodeDefinition Blueprint :=
  ⟨k, none, [], [], [i], none, [.text]⟩

/-- The definition of the element that stands for a conditional one. -/
def ofConditional (k : Nat) (word : String) (blueprint : Blueprint) (guard : Interpolation) :
    NodeDefinition Blueprint :=
  ⟨k, none, [], [], [], some ⟨"if", placeholderId k word, blueprint, guard⟩, [.conditional]⟩

end NodeDefinition

/-- Parsed siblings, the trees that stand for them in the template and the definitions of these, in
document order and numbered from `k` on. `nodes` are the features offered texts and directives,
`marks` the ones offered other attributes. -/
inductive Tree.CompileTo (nodes marks : List Feature) :
    Nat → List Tree → List Tree → List (NodeDefinition Blueprint) → Prop
  | nil {k : Nat} : CompileTo nodes marks k [] [] []
  | cons {k : Nat} {tree made : Tree} {rest others : List Tree}
      {firsts more : List (NodeDefinition Blueprint)}
      (hfirst : CompileTo nodes marks k [tree] [made] firsts)
      (hrest : CompileTo nodes marks (k + firsts.length) rest others more) :
      CompileTo nodes marks k (tree :: rest) (made :: others) (firsts ++ more)
  | comment {k : Nat} {s : String} :
      CompileTo nodes marks k [.leaf (.comment s)] [.leaf (.comment s)] []
  | text {k : Nat} {s : String} (h : Markup.hasSpan s = false ∨ Feature.text ∉ nodes) :
      CompileTo nodes marks k [.leaf (.text s)] [.leaf (.text s)] []
  | span {k : Nat} {s : String} {i : Interpolation} (hspan : Markup.hasSpan s = true)
      (hnodes : Feature.text ∈ nodes) (hvalue : Interpolation.compile s = .ok i) :
      CompileTo nodes marks k [.leaf (.text s)] [.node (.text "") (some k) []]
        [.ofText k i]
  | element {k : Nat} {tag : String} {attributes : List Attribute} {below trees : List Tree}
      {own : Option (NodeDefinition Blueprint)} {definitions : List (NodeDefinition Blueprint)}
      (hnone : ∀ a ∈ attributes, a.isDirective = false) (howns : Owns marks attributes k own)
      (hbelow : CompileTo nodes marks (k + own.toList.length) below trees definitions) :
      CompileTo nodes marks k [.node (.element tag attributes) none below]
        [.node (.element tag (untaken marks attributes)) (own.map (·.index)) trees]
        (own.toList ++ definitions)
  | conditional {k : Nat} {tag word : String} {attributes : List Attribute} {a : Attribute}
      {below trees : List Tree} {guard : Interpolation} {blueprint : Blueprint}
      (hfirst : attributes.find? (·.isDirective) = some a) (hnodes : Feature.conditional ∈ nodes)
      (hguard : Sketch.guard? a = some guard) (hvalid : blueprint.dom.Valid)
      (htree : blueprint.dom.tree blueprint.root = .node .fragment none trees)
      (hnested : CompileTo nodes marks 0
        [.node (.element tag (attributes.filter fun a => !a.isDirective)) none below] trees
        blueprint.definitions) :
      CompileTo nodes marks k [.node (.element tag attributes) none below]
        [.node (.element Compile.placeholderTag [⟨"id", placeholderId k word⟩]) (some k) []]
        [.ofConditional k word blueprint guard]

end LiveMarkup
