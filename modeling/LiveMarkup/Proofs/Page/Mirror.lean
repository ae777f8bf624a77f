import LiveMarkup.Page.Instance
import LiveMarkup.Proofs.Dom.Attributes
import LiveMarkup.Proofs.Dom.Remove
import LiveMarkup.Proofs.Page.Bindings
import Mathlib.Data.Set.Insert

/-!
Properties and the attributes that reflect them. An attribute need not be what the converter writes for
the value: it may be a text that somebody set and that reads as the value. What one write of an
attribute or of a field leaves tied is said here for the state of one component and its host.
-/

namespace LiveMarkup

/-! ### Values and attributes -/

namespace Json

variable {value : Json}

theorem eq_of_beq_null (h : (value == null) = true) : value = null := by
  change same value null = true at h
  cases value <;> simp [same] at h ⊢

theorem eq_of_beq_text {s : String} (h : (value == text s) = true) : value = text s := by
  change same value (text s) = true at h
  cases value <;> simp_all [same]

theorem eq_of_beq_bool {b : Bool} (h : (value == bool b) = true) : value = bool b := by
  change same value (bool b) = true at h
  cases value <;> simp_all [same]

end Json

namespace Converter

variable {converter : Converter} {text : Option String} {value : Json}

/-- The attribute is written for the value, or the value is what the attribute stands for. -/
def Ties (converter : Converter) (text : Option String) (value : Json) : Prop :=
  text = converter.toAttribute value ∨ (value == converter.toValue text) = true

theorem toAttribute_null (converter : Converter) : converter.toAttribute .null = none := by
  cases htype : converter.type <;> simp [toAttribute, htype, Json.isTruthy]

/-- The attribute of a text is that text. -/
theorem Ties.eq_of_string (h : converter.Ties text value) (htype : converter.type = .string) :
    text = converter.toAttribute value := by
  obtain ⟨type, force⟩ := converter
  obtain rfl : type = .string := htype
  rcases h with h | h
  · exact h
  · cases text with
    | none => rw [Json.eq_of_beq_null h, toAttribute_null]
    | some s =>
        rw [Json.eq_of_beq_text h]
        rfl

/-- The attribute of a flag is there, and is not the word for false, just when the flag is set. -/
theorem Ties.any_of_boolean (h : converter.Ties text value) (htype : converter.type = .boolean) :
    text.any (· ≠ "false") = value.isTruthy := by
  obtain ⟨type, force⟩ := converter
  obtain rfl : type = .boolean := htype
  rcases h with h | h
  · rw [h]
    change Option.any _ (if value.isTruthy = true then some "" else none) = _
    cases value.isTruthy <;> rfl
  · cases text with
    | none | some s =>
        rw [Json.eq_of_beq_bool h]
        rfl

end Converter

namespace Text

theorem toLower_toLower (c : Char) : c.toLower.toLower = c.toLower := by
  refine dif_neg ?_
  rintro ⟨hlow, hhigh⟩
  by_cases h : c.val ≥ 'A'.val ∧ c.val ≤ 'Z'.val
  · have hsum : (c.val + 32).toNat = c.val.toNat + 32 := by
      have hle : c.val.toNat ≤ 90 := UInt32.le_iff_toNat_le.mp h.2
      rw [UInt32.toNat_add, Nat.mod_eq_of_lt]
      · rfl
      · change c.val.toNat + 32 < 2 ^ 32
        omega
    have hlower : c.toLower.val = c.val + 32 := congrArg Char.val (dif_pos h)
    rw [hlower] at hhigh
    have hlow' : 65 ≤ c.val.toNat := UInt32.le_iff_toNat_le.mp h.1
    have hhigh' : (c.val + 32).toNat ≤ 90 := UInt32.le_iff_toNat_le.mp hhigh
    omega
  · have hlower : c.toLower = c := dif_neg h
    rw [hlower] at hlow hhigh
    exact h ⟨hlow, hhigh⟩

theorem asciiLower_asciiLower (s : String) : asciiLower (asciiLower s) = asciiLower s := by
  apply String.toList_inj.mp
  simp only [asciiLower, String.toList_map, List.map_map]
  exact List.map_congr_left fun c _ => toLower_toLower c

end Text

/-! ### One attribute of a host -/

namespace Content

variable {name : String} {value : Option String} {held held' : Content}

/-- An element on which no name stands twice. -/
structure TakesAttributes (held : Content) : Prop where
  element : held.isElement = true
  distinct : held.Distinct

/-- One attribute comes to have a value or to be absent, and the others stay. -/
structure Puts (name : String) (value : Option String) (held held' : Content) : Prop where
  takes : held'.TakesAttributes
  attribute? : ∀ other, held'.attribute? other =
    if other = name then value else held.attribute? other

theorem TakesAttributes.puts_self (h : held.TakesAttributes) (hvalue : held.attribute? name = value) :
    held.Puts name value held where
  takes := h
  attribute? other := by
    split
    · rename_i heq
      rw [heq, hvalue]
    · rfl

end Content

theorem Dom.puts_putAttribute {d : Dom} {n : NodeId} (h : (d.content n).TakesAttributes)
    (name : String) (value : Option String) :
    (d.content n).Puts name value ((d.putAttribute n name value).content n) := by
  obtain ⟨helement, hdistinct⟩ := h
  cases value with
  | some s =>
      have hcontent : (d.putAttribute n name (some s)).content n =
          (d.content n).setAttribute name s := by
        rw [putAttribute, content, node_setAttribute, if_pos rfl]
      rw [hcontent]
      generalize d.content n = held at helement hdistinct ⊢
      cases held with
      | element tag attributes =>
          refine ⟨⟨?_, hdistinct.setAttribute name s⟩, fun _ => Content.attribute?_setAttribute⟩
          unfold Content.setAttribute
          dsimp only
          split <;> rfl
      | fragment | text s | comment s => cases helement
  | none =>
      have hcontent : (d.putAttribute n name none).content n =
          (d.content n).eraseAttribute name := by
        rw [putAttribute, content, node_eraseAttribute, if_pos rfl]
      rw [hcontent]
      generalize d.content n = held at helement hdistinct ⊢
      cases held with
      | element tag attributes =>
          exact ⟨⟨rfl, hdistinct.eraseAttribute name⟩,
            fun _ => Content.attribute?_eraseAttribute hdistinct⟩
      | fragment | text s | comment s => cases helement

/-! ### Components -/

namespace Dict

variable {α : Type} {d : Dict α} {name : String}

theorem not_mem_of_get? (h : d.get? name = none) (value : α) : (name, value) ∉ d.entries := by
  intro hmem
  have hcontains := (contains_iff d name).mpr ⟨value, hmem⟩
  rw [contains, h] at hcontains
  cases hcontains

end Dict

namespace PropertySpec

variable {spec : PropertySpec} {name : String} {converter : Converter}

theorem isSome_resolve (spec : PropertySpec) (name : String) :
    (spec.resolve name).converter.isSome = spec.converter.isSome := by
  rw [resolve]
  split <;> (rename_i heq; rw [heq])
  rfl

theorem default_resolve (h : (spec.resolve name).converter = some converter)
    (hforce : converter.force = false) : (spec.resolve name).default = .null := by
  rw [resolve] at h ⊢
  split at h
  · cases h
  · cases h
    exact if_neg (by simpa using hforce)

end PropertySpec

namespace Component

variable {definition : Component} {name other : String} {property : Property}
  {converter : Converter}

/-- A component with its properties under their names, no two of which share an attribute. Without
force a reflected property begins as null. -/
structure Reflective (definition : Component) : Prop where
  named : ∀ name property, (name, property) ∈ definition.properties.entries →
    property.name = name ∧ definition.properties.get? name = some property
  unset : ∀ name property converter, definition.properties.get? name = some property →
    property.converter = some converter → converter.force = false → property.default = .null
  apart : ∀ name other, (definition.converter? name).isSome = true →
    (definition.converter? other).isSome = true →
      Text.asciiLower name = Text.asciiLower other → name = other

theorem reflective_ofTemplate (tag : String) (blueprint : Blueprint) :
    (ofTemplate tag blueprint).Reflective where
  named _ _ h := absurd h List.not_mem_nil
  unset _ _ _ h := by cases h
  apart _ _ h := by cases h

theorem converter?_addProperty (definition : Component) (name : String) (spec : PropertySpec)
    (other : String) : (definition.addProperty name spec).converter? other =
      if other = name then (spec.resolve name).converter else definition.converter? other := by
  rw [converter?, addProperty, Dict.get?_insert]
  split <;> rfl

/-- A new property is declared, with an attribute of its own if it has one. -/
theorem Reflective.addProperty (h : definition.Reflective) {spec : PropertySpec}
    (hnew : definition.properties.get? name = none)
    (hapart : spec.converter.isSome = true → ∀ other, (definition.converter? other).isSome = true →
      Text.asciiLower other ≠ Text.asciiLower name) :
    (definition.addProperty name spec).Reflective where
  named other property hmem := by
    rw [Component.addProperty, Dict.get?_insert]
    rcases (Dict.mem_insertEntry_of_new (Dict.not_mem_of_get? hnew)).mp hmem with heq | hold
    · cases heq
      refine ⟨?_, if_pos rfl⟩
      rw [PropertySpec.resolve]
      split <;> rfl
    · obtain ⟨hname, hget⟩ := h.named other property hold
      refine ⟨hname, (if_neg ?_).trans hget⟩
      rintro rfl
      rw [hnew] at hget
      cases hget
  unset other property converter hget hconverter hforce := by
    rw [Component.addProperty, Dict.get?_insert] at hget
    split at hget
    · cases hget
      exact PropertySpec.default_resolve hconverter hforce
    · exact h.unset other property converter hget hconverter hforce
  apart first second hfirst hsecond heq := by
    rw [converter?_addProperty] at hfirst hsecond
    split at hfirst <;> split at hsecond
    · rename_i hone hother
      rw [hone, hother]
    · rename_i hone _
      rw [PropertySpec.isSome_resolve] at hfirst
      exact absurd (hone ▸ heq.symm) (hapart hfirst second hsecond)
    · rename_i hother
      rw [PropertySpec.isSome_resolve] at hsecond
      exact absurd (hother ▸ heq) (hapart hsecond first hfirst)
    · exact h.apart first second hfirst hsecond heq

namespace Reflective

variable (h : definition.Reflective)

include h

theorem converter?_of_mem (hmem : property ∈ definition.properties.values)
    (hconverter : property.converter = some converter) :
    definition.converter? property.name = some converter := by
  obtain ⟨⟨name, _⟩, hentry, rfl⟩ := List.mem_map.mp hmem
  obtain ⟨hname, hget⟩ := h.named name _ hentry
  rw [converter?, hname, hget]
  exact hconverter

/-- The property that an attribute reflects is the only one. -/
theorem of_attributeProperty? (hproperty : definition.attributeProperty? (Text.asciiLower name) =
    some property) : Text.asciiLower property.name = Text.asciiLower name ∧
      definition.converter? property.name = property.converter ∧
        ∀ other, (definition.converter? other).isSome = true →
          Text.asciiLower other = Text.asciiLower name → other = property.name := by
  have hfound := List.find?_some hproperty
  rw [Bool.and_eq_true] at hfound
  obtain ⟨converter, hconverter⟩ := Option.isSome_iff_exists.mp hfound.1
  have hname : Text.asciiLower property.name = Text.asciiLower name :=
    (beq_iff_eq.mp hfound.2).trans (Text.asciiLower_asciiLower name)
  have hself := h.converter?_of_mem (List.mem_of_find?_eq_some hproperty) hconverter
  refine ⟨hname, hself.trans hconverter.symm, fun other hother heq => ?_⟩
  exact h.apart other property.name hother (by rw [hself]; rfl) (heq.trans hname.symm)

/-- No property is reflected by an attribute for which there is none. -/
theorem of_attributeProperty?_eq_none
    (hnone : definition.attributeProperty? (Text.asciiLower name) = none)
    (hother : definition.converter? other = some converter) :
    Text.asciiLower other ≠ Text.asciiLower name := by
  intro heq
  obtain ⟨property, hget, hconverter⟩ := Option.bind_eq_some_iff.mp hother
  have hmem := Dict.mem_of_get? hget
  have hname := (h.named other property hmem).1
  refine absurd ?_ (List.find?_eq_none.mp hnone property (List.mem_map_of_mem hmem))
  rw [hconverter, hname, Option.isSome_some, Bool.true_and, Text.sameIgnoringAsciiCase,
    Text.asciiLower_asciiLower, beq_iff_eq]
  exact heq

/-- A forced property is among those that a component reflects when it is connected. -/
theorem exists_forced (hconverter : definition.converter? name = some converter)
    (hforce : converter.force = true) :
    ∃ property ∈ definition.forcedProperties, property.name = name := by
  obtain ⟨property, hget, hproperty⟩ := Option.bind_eq_some_iff.mp hconverter
  have hmem := Dict.mem_of_get? hget
  refine ⟨property, List.mem_filter.mpr ⟨List.mem_map_of_mem hmem, ?_⟩,
    (h.named name property hmem).1⟩
  rw [Property.isForced, hproperty]
  exact hforce

/-- The default of a reflected property that is not forced. -/
theorem get?_defaults (hconverter : definition.converter? name = some converter)
    (hforce : converter.force = false) : (definition.defaults.get? name).getD .null = .null := by
  obtain ⟨property, hget, hproperty⟩ := Option.bind_eq_some_iff.mp hconverter
  rw [defaults, Dict.get?_mapValues, hget]
  exact h.unset name property converter hget hproperty hforce

end Reflective

end Component

/-! ### The host of a component -/

namespace ComponentState

variable {state state' : ComponentState} {held held' : Content} {loose loose' : Set String}
  {name field : String} {converter : Converter}

/-- The attributes of a host are tied to the reflected properties, but for those that are `loose`. A
forced property is tied once the component is connected. -/
structure Mirrored (state : ComponentState) (held : Content) (loose : Set String) : Prop where
  takes : held.TakesAttributes
  tied : ∀ name converter, name ∉ loose → state.definition.converter? name = some converter →
    (state.connected = true ∨ converter.force = false) →
      converter.Ties (held.attribute? (Text.asciiLower name)) ((state.fields.get? name).getD .null)

namespace Mirrored

theorem mono (h : state.Mirrored held loose) (hloose : ∀ name ∈ loose,
    (state.definition.converter? name).isSome = true → name ∈ loose') :
    state.Mirrored held loose' where
  takes := h.takes
  tied name converter hname hconverter :=
    h.tied name converter (fun hmem => hname (hloose name hmem (by rw [hconverter]; rfl))) hconverter

/-- Nothing but the references and the root of a component has changed, or it is connected no more. -/
theorem congr (h : state.Mirrored held loose) (hdefinition : state'.definition = state.definition)
    (hfields : state'.fields = state.fields)
    (hconnected : state'.connected = true → state.connected = true) :
    state'.Mirrored held loose where
  takes := h.takes
  tied name converter hname hconverter hshown := by
    rw [hdefinition] at hconverter
    rw [hfields]
    exact h.tied name converter hname hconverter (hshown.imp_left hconnected)

/-- A field is written. -/
theorem insert (h : state.Mirrored held loose) (field : String) (value : Json) :
    { state with fields := state.fields.insert field value }.Mirrored held (insert field loose) where
  takes := h.takes
  tied name converter hname hconverter hshown := by
    rw [Set.mem_insert_iff, not_or] at hname
    rw [Dict.get?_insert, if_neg hname.1]
    exact h.tied name converter hname.2 hconverter hshown

/-- An attribute is written or erased, by whatever name. -/
theorem puts {text : Option String} (h : state.Mirrored held ∅) (hputs : held.Puts name text held')
    (hloose : ∀ field, (state.definition.converter? field).isSome = true →
      Text.asciiLower field = name → field ∈ loose) : state.Mirrored held' loose where
  takes := hputs.takes
  tied other converter hother hconverter hshown := by
    have hname : Text.asciiLower other ≠ name := fun heq =>
      hother (hloose other (by rw [hconverter]; rfl) heq)
    rw [hputs.attribute?, if_neg hname]
    exact h.tied other converter (Set.notMem_empty other) hconverter hshown

/-- The attribute that reflects a field is tied to it. -/
theorem ties {text : Option String} (h : state.Mirrored held loose)
    (hreflective : state.definition.Reflective)
    (hconverter : state.definition.converter? field = some converter)
    (hputs : held.Puts (Text.asciiLower field) text held')
    (hties : converter.Ties text ((state.fields.get? field).getD .null)) :
    state.Mirrored held' (loose \ {field}) where
  takes := hputs.takes
  tied other found hother hfound hshown := by
    rw [hputs.attribute?]
    by_cases heq : other = field
    · subst heq
      rw [hconverter, Option.some.injEq] at hfound
      rw [if_pos rfl, ← hfound]
      exact hties
    · have hname : Text.asciiLower other ≠ Text.asciiLower field := fun hname =>
        heq (hreflective.apart other field (by rw [hfound]; rfl) (by rw [hconverter]; rfl) hname)
      rw [if_neg hname]
      exact h.tied other found (fun hmem => hother ⟨hmem, heq⟩) hfound hshown

/-- A field that no attribute reflects is never loose. -/
theorem of_converter?_eq_none (h : state.Mirrored held loose)
    (hnone : state.definition.converter? field = none) : state.Mirrored held (loose \ {field}) := by
  refine h.mono fun name hmem hsome => ⟨hmem, ?_⟩
  rintro rfl
  rw [hnone] at hsome
  cases hsome

end Mirrored

/-- The host of a new component has no attributes, and what need not be forced is null. -/
theorem mirrored_defaults {definition : Component} (h : definition.Reflective) (host : NodeId)
    (tag : String) : (⟨definition, host, host, definition.defaults, .empty, false⟩ :
      ComponentState).Mirrored (.element tag []) ∅ where
  takes := ⟨rfl, List.nodup_nil⟩
  tied name converter _ hconverter hshown := by
    have hforce : converter.force = false := hshown.resolve_left Bool.false_ne_true
    refine Or.inl ?_
    rw [h.get?_defaults hconverter hforce, Converter.toAttribute_null]
    rfl

end ComponentState

end LiveMarkup
