import LiveMarkup.Component.Error
import LiveMarkup.Component.Property
import LiveMarkup.Component.Script
import LiveMarkup.Template.Blueprint

/-!
A component: a custom element with a template, properties and behaviour.
-/

namespace LiveMarkup

structure Component where
  tag : String
  blueprint : Blueprint
  properties : Dict Property
  /-- Style sheets, in the order in which they apply. -/
  styles : List String
  /-- Values that the template sees by name. -/
  exposed : Dict Json
  /-- Methods that event handlers call. -/
  methods : Dict Script
  hooks : Option Hooks
  /-- Whether the template renders into a root of its own beside the host. -/
  usesShadow : Bool

namespace Component

def ofTemplate (tag : String) (blueprint : Blueprint) : Component :=
  ⟨tag, blueprint, .empty, [], .empty, .empty, none, true⟩

def addProperty (c : Component) (name : String) (spec : PropertySpec) : Component :=
  { c with properties := c.properties.insert name (spec.resolve name) }

def addStyles (c : Component) (sheet : String) : Component :=
  { c with styles := c.styles ++ [sheet] }

def expose (c : Component) (name : String) (value : Json) : Component :=
  { c with exposed := c.exposed.insert name value }

def addMethod (c : Component) (name : String) (body : Script) : Component :=
  { c with methods := c.methods.insert name body }

/-- The converter between a property and its attribute. -/
def converter? (c : Component) (name : String) : Option Converter :=
  (c.properties.get? name).bind (·.converter)

/-- The property that an attribute reflects, whatever the case of its letters. -/
def attributeProperty? (c : Component) (name : String) : Option Property :=
  c.properties.values.find? fun property =>
    property.converter.isSome && Text.sameIgnoringAsciiCase property.name name

def forcedProperties (c : Component) : List Property :=
  c.properties.values.filter (·.isForced)

/-- The fields of a new instance. -/
def defaults (c : Component) : Dict Json :=
  c.properties.mapValues (·.default)

def hasMethod (c : Component) (name : String) : Bool :=
  c.methods.contains name

/-- A tag begins with a lowercase letter, holds a hyphen and does not end with one. -/
def isValidTag (tag : String) : Bool :=
  let s := tag.toList
  let isPart := fun (c : Char) => c.isLower || c.isDigit || c = '-' || c = '_' || c = '.'
  s.head?.any Char.isLower && s.contains '-' && s.getLast? ≠ some '-' && s.all isPart

def shown (c : Component) : String :=
  let exposed := c.exposed.entries.map fun (name, value) => (name, value.shown)
  Text.shownRecord "ComponentDefinition"
    [("tag", Text.quoted c.tag),
      ("properties", Text.shownMap (c.properties.mapValues Property.shown).entries),
      ("styles", toString c.styles.length), ("expose", Text.shownMap exposed),
      ("methods", Text.shownList (c.methods.keys.map Text.quoted)),
      ("script", Text.shownBool c.hooks.isSome), ("use_shadow", Text.shownBool c.usesShadow)]

end Component

end LiveMarkup
