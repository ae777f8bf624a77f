import LiveMarkup.Component.Basic
import LiveMarkup.Template.Compile
import LiveMarkup.Yaml.Resolve

/-!
Components described by a document. Templates and style sheets stand in it or in files that it
names.
-/

namespace LiveMarkup

structure AttributeEntry where
  type : String
  force : Bool

structure PropertyEntry where
  value : Json
  reflected : Option AttributeEntry

structure Manifest where
  tag : String
  template : Option String
  templateFile : Option String
  styles : List String
  styleFiles : List String
  usesShadow : Bool
  exposed : Dict Json
  properties : Dict PropertyEntry

namespace Manifest

def attribute? (node : Yaml) : Option AttributeEntry := do
  let entries ← node.fields? ["type", "force"]
  pure ⟨← Yaml.field? entries "type" (some "String") Yaml.text?,
    ← Yaml.field? entries "force" (some false) Yaml.flag?⟩

def property? (node : Yaml) : Option PropertyEntry := do
  let entries ← node.fields? ["value", "attribute"]
  pure ⟨← Yaml.field? entries "value" (some .null) Yaml.json?,
    ← Yaml.field? entries "attribute" (some none) (Yaml.optional? attribute?)⟩

def texts? (node : Yaml) : Option (List String) :=
  node.items?.bind (·.mapM Yaml.text?)

/-- Values by name. -/
def dict? {α : Type} (read : Yaml → Option α) (node : Yaml) : Option (Dict α) := do
  let entries ← node.entries?
  let values ← entries.mapM fun (name, node) => (read node).map fun value => (name, value)
  pure (Dict.ofList values)

def fieldNames : List String :=
  ["tag", "template", "template_file", "styles", "style_files", "use_shadow", "expose",
    "properties"]

def ofYaml? (node : Yaml) : Option Manifest := do
  let entries ← node.fields? fieldNames
  pure {
    tag := ← Yaml.field? entries "tag" none Yaml.text?
    template := ← Yaml.field? entries "template" (some none) (Yaml.optional? Yaml.text?)
    templateFile := ← Yaml.field? entries "template_file" (some none) (Yaml.optional? Yaml.text?)
    styles := ← Yaml.field? entries "styles" (some []) texts?
    styleFiles := ← Yaml.field? entries "style_files" (some []) texts?
    usesShadow := ← Yaml.field? entries "use_shadow" (some true) Yaml.flag?
    exposed := ← Yaml.field? entries "expose" (some .empty) (dict? Yaml.json?)
    properties := ← Yaml.field? entries "properties" (some .empty) (dict? property?) }

def read (source : String) : Except DefinitionError Manifest :=
  match (Yaml.read? source).bind ofYaml? with
  | some manifest => .ok manifest
  | none => .error .badManifest

def load (loader : Loader) (path : String) : Except DefinitionError String :=
  (loader path).mapError .load

/-- The template, which in the document wins over a file. -/
def markup (manifest : Manifest) (loader : Loader) : Except DefinitionError String :=
  match manifest.template, manifest.templateFile with
  | some inline, _ => .ok inline
  | none, some path => load loader path
  | none, none => .error (.missingTemplate manifest.tag)

def propertySpec (name : String) (property : PropertyEntry) :
    Except DefinitionError PropertySpec :=
  match property.reflected with
  | none => .ok (.plain property.value)
  | some ⟨type, force⟩ => do
    let spec ← PropertySpec.reflectedAs name type property.value
    pure (if force then spec.forced else spec)

/-- Adds everything but the template to a component. -/
def furnish (manifest : Manifest) (loader : Loader) (c : Component) :
    Except DefinitionError Component := do
  let c ← manifest.properties.entries.foldlM (fun (c : Component) (name, property) => do
    pure (c.addProperty name (← propertySpec name property))) c
  let c := manifest.styles.foldl Component.addStyles c
  let sheets ← manifest.styleFiles.mapM (load loader)
  let c := sheets.foldl Component.addStyles c
  pure (manifest.exposed.entries.foldl (fun c (name, value) => c.expose name value) c)

/-- The component that a manifest describes. -/
def define (manifest : Manifest) (registry : Registry) (loader : Loader) :
    Except DefinitionError Component × Registry :=
  match manifest.markup loader with
  | .error e => (.error e, registry)
  | .ok markup =>
    match registry.compile markup with
    | (.error e, registry) => (.error (.compile e), registry)
    | (.ok made, registry) =>
      let c := Component.ofTemplate manifest.tag made.value
      (manifest.furnish loader { c with usesShadow := manifest.usesShadow }, registry)

end Manifest

end LiveMarkup
