import LiveMarkup.Component.Error
import LiveMarkup.Decimal.Read
import LiveMarkup.Json.Text
import LiveMarkup.Text.Shown

/-!
The properties of a component. A property may be reflected by an attribute of the host; a converter
takes its value across. Without `force` such a property starts as null, so that an absent attribute
and the first value agree.
-/

namespace LiveMarkup

inductive AttributeType where
  | boolean
  | number
  | string
  deriving DecidableEq, Repr

def AttributeType.name : AttributeType → String
  | boolean => "Boolean"
  | number => "Number"
  | string => "String"

def AttributeType.ofName? (name : String) : Option AttributeType :=
  match name with
  | "Boolean" | "boolean" | "bool" => some boolean
  | "Number" | "number" => some number
  | "String" | "string" => some string
  | _ => none

structure Converter where
  type : AttributeType
  /-- Whether the attribute is there even if nobody set it. -/
  force : Bool
  deriving DecidableEq, Repr

/-- A property as it is declared. -/
structure PropertySpec where
  value : Json
  converter : Option Converter

structure Property where
  name : String
  default : Json
  converter : Option Converter

namespace PropertySpec

/-- A property without an attribute. -/
def plain (value : Json) : PropertySpec :=
  ⟨value, none⟩

def reflected (type : AttributeType) (value : Json) : PropertySpec :=
  ⟨value, some ⟨type, false⟩⟩

/-- A property reflected as an attribute of the type of the given name. -/
def reflectedAs (property type : String) (value : Json) : Except DefinitionError PropertySpec :=
  match AttributeType.ofName? type with
  | some type => .ok (reflected type value)
  | none => .error (.unsupportedType property type)

def forced (spec : PropertySpec) : PropertySpec :=
  { spec with converter := spec.converter.map ({ · with force := true }) }

/-- The property that a declaration makes. A flag without a value is not forced. -/
def resolve (spec : PropertySpec) (name : String) : Property :=
  match spec.converter with
  | none => ⟨name, spec.value, none⟩
  | some ⟨type, force⟩ =>
    let force := force && !(spec.value.isNull && type = .boolean)
    ⟨name, if force then spec.value else .null, some ⟨type, force⟩⟩

end PropertySpec

def Property.isForced (property : Property) : Bool :=
  property.converter.any (·.force)

/-- The number that a text writes; null for any other text and for numbers beyond the finite ones.
-/
def readNumber (s : String) : Json :=
  let s := Text.trim s.toList
  let int := (Decimal.readInt? s).filter fun n => Json.minInt ≤ n && n ≤ Json.maxInt
  match int with
  | some n => .int n
  | none =>
    match (Decimal.readFloat? s).filter (·.isFinite) with
    | some x => .float x
    | none => .null

namespace Converter

/-- The value that an attribute, or its absence, stands for. -/
def toValue (converter : Converter) (text : Option String) : Json :=
  match converter.type, text with
  | .boolean, some s => .bool (s ≠ "false")
  | .boolean, none => .bool false
  | .number, some s => readNumber s
  | .string, some s => .text s
  | _, none => .null

/-- The attribute that stands for a value. -/
def toAttribute (converter : Converter) (value : Json) : Option String :=
  match converter.type, value with
  | .boolean, value => if value.isTruthy then some "" else none
  | _, .null => none
  | _, .text s => some s
  | _, value => some value.compact

def shown (converter : Converter) : String :=
  Text.shownRecord "AttributeConverter"
    [("ty", converter.type.name), ("force", Text.shownBool converter.force)]

end Converter

def Property.shown (property : Property) : String :=
  Text.shownRecord "Property"
    [("name", Text.quoted property.name), ("default", property.default.shown),
      ("attribute", Text.shownOption (property.converter.map Converter.shown))]

end LiveMarkup
