import LiveMarkup.Proofs.Dom.Attributes
import LiveMarkup.Proofs.Page.Errands

/-!
What a template renders to, by recursion on what it says, and when a node of a page shows what its
line wants. The attributes of an element are compared by name, since writing to them may change their
order.
-/

namespace LiveMarkup

/-! ### The reference -/

/-- The scope of a component with some fields. -/
def Component.scope (definition : Component) (fields : Dict Json) : Scope :=
  [⟨Dict.empty.insert "this" (fieldsValue fields), definition.exposed⟩]

/-- The value that an outcome gives an attribute. -/
def Outcome.attribute? : Outcome → Option String
  | true => some ""
  | text s => some s
  | falsy => none

namespace Sketch

/-- The value of an attribute of a rendered element: a bound one follows its interpolation. -/
def attribute? (scope : Scope) (attributes : List Attribute) (bindings : List AttributeBinding)
    (name : String) : Option String :=
  match bindings.find? (·.name = name) with
  | some b => (b.interpolation.outcome scope).attribute?
  | none => (attributes.find? (·.name = name)).map (·.value)

mutual

/-- The trees that a sketch is rendered to, where `Shows` is what a text may show of its
interpolation. -/
def Renders (Shows : Interpolation → String → Prop) (scope : Scope) : Sketch → List Tree → Prop
  | .fixed content, trees => ∃ marker, trees = [.node content marker []]
  | .text i, trees => ∃ s marker, trees = [.node (.text s) marker []] ∧ Shows i s
  | .element tag attributes bindings kids, trees => ∃ held marker below,
      trees = [.node (.element tag held) marker below] ∧ (Content.element tag held).Distinct ∧
        (∀ name, (Content.element tag held).attribute? name =
          attribute? scope attributes bindings name) ∧ RendersAll Shows scope kids below
  | .guarded guard body, trees => ∃ marker rest,
      trees = .node (.comment Page.anchorText) marker [] :: rest ∧
        if (guard.outcome scope).isTruthy then Renders Shows scope body rest else rest = []

def RendersAll (Shows : Interpolation → String → Prop) (scope : Scope) :
    List Sketch → List Tree → Prop
  | [], trees => trees = []
  | sketch :: sketches, trees => ∃ first rest, trees = first ++ rest ∧
      Renders Shows scope sketch first ∧ RendersAll Shows scope sketches rest

end

mutual

theorem Renders.mono {Shows Shows' : Interpolation → String → Prop}
    (hshows : ∀ i s, Shows i s → Shows' i s) {scope : Scope} : ∀ (sketch : Sketch) {trees : List Tree},
      sketch.Renders Shows scope trees → sketch.Renders Shows' scope trees
  | .fixed _, _, h => h
  | .text i, _, ⟨s, marker, htrees, hs⟩ => ⟨s, marker, htrees, hshows i s hs⟩
  | .element _ _ _ kids, _, ⟨held, marker, below, htrees, hdistinct, hattributes, hbelow⟩ =>
    ⟨held, marker, below, htrees, hdistinct, hattributes, RendersAll.mono hshows kids hbelow⟩
  | .guarded guard body, _, ⟨marker, rest, htrees, hrest⟩ => by
    refine ⟨marker, rest, htrees, ?_⟩
    split at hrest
    · rename_i hmounted
      rw [if_pos hmounted]
      exact Renders.mono hshows body hrest
    · rename_i hmounted
      rwa [if_neg hmounted]

theorem RendersAll.mono {Shows Shows' : Interpolation → String → Prop}
    (hshows : ∀ i s, Shows i s → Shows' i s) {scope : Scope} :
    ∀ (sketches : List Sketch) {trees : List Tree},
      RendersAll Shows scope sketches trees → RendersAll Shows' scope sketches trees
  | [], _, h => h
  | sketch :: sketches, _, ⟨first, rest, htrees, hfirst, hrest⟩ =>
    ⟨first, rest, htrees, Renders.mono hshows sketch hfirst,
      RendersAll.mono hshows sketches hrest⟩

end

mutual

/-- A sketch and everything in it. -/
def parts : Sketch → List Sketch
  | .element tag attributes bindings kids =>
    .element tag attributes bindings kids :: partsAll kids
  | .guarded guard body => .guarded guard body :: parts body
  | line => [line]

def partsAll : List Sketch → List Sketch
  | [] => []
  | sketch :: sketches => parts sketch ++ partsAll sketches

end

/-- The interpolations of a sketch, those below it aside. -/
def interpolations : Sketch → List Interpolation
  | .fixed _ => []
  | .text i => [i]
  | .element _ _ bindings _ => bindings.map (·.interpolation)
  | .guarded guard _ => [guard]

/-- Whether no attribute is written out twice or bound twice. -/
def Distinct : Sketch → Prop
  | .element _ attributes bindings _ =>
    (attributes.map (·.name)).Nodup ∧ (bindings.map (·.name)).Nodup
  | _ => True

end Sketch

/-! ### What a line shows -/

/-- What a task writes is there. -/
def Task.Done (scope : Scope) : Task → Content → Prop
  | .writeText i, held => ∀ s, (i.outcome scope).text? = some s → held = .text s
  | .writeAttribute name i, held => held.attribute? name = (i.outcome scope).attribute?
  | _, _ => True

/-- What a node for a sketch holds, whatever has been written to it: a text that its interpolation
has given for some fields of the past, and the attributes that are not bound. -/
def Sketch.Bears (definition : Component) (past : Dict Json → Prop) : Sketch → Content → Prop
  | .text i, held => ∃ s, held = .text s ∧
      (s = "" ∨ ∃ fields, past fields ∧ (i.outcome (definition.scope fields)).text? = some s)
  | .element tag attributes bindings _, held => held.Distinct ∧
      ∀ name, name ∉ bindings.map (·.name) →
        held.attribute? name = (Content.element tag attributes).attribute? name
  | _, _ => True

section Writing

variable {definition : Component} {past past' : Dict Json → Prop} {sketch : Sketch} {scope : Scope}
  {task other : Task} {held : Content}

theorem Task.done_put (hsuits : sketch.Suits held) (htask : task ∈ sketch.tasks)
    (hdistinct : held.Distinct) : task.Done scope (task.put scope held) := by
  cases sketch with
  | fixed content | guarded guard body => cases htask
  | text i =>
      obtain rfl := List.mem_singleton.mp htask
      intro s hs
      rw [Task.put, hs]
  | element tag attributes bindings kids =>
      obtain ⟨b, _, rfl⟩ := List.mem_map.mp htask
      obtain ⟨held, rfl⟩ := hsuits
      rw [Task.Done, Task.put]
      cases b.interpolation.outcome scope with
      | true => exact Content.attribute?_setAttribute.trans (if_pos rfl)
      | text s => exact Content.attribute?_setAttribute.trans (if_pos rfl)
      | falsy => exact (Content.attribute?_eraseAttribute hdistinct).trans (if_pos rfl)

/-- Writing an attribute leaves the other names alone. -/
theorem Task.attribute?_put {name other : String} {i : Interpolation} {tag : String}
    {attributes : List Attribute} (hdistinct : (Content.element tag attributes).Distinct)
    (hne : other ≠ name) :
    ((Task.writeAttribute name i).put scope (.element tag attributes)).attribute? other =
      (Content.element tag attributes).attribute? other := by
  rw [Task.put]
  cases i.outcome scope with
  | true => exact Content.attribute?_setAttribute.trans (if_neg hne)
  | text s => exact Content.attribute?_setAttribute.trans (if_neg hne)
  | falsy => exact (Content.attribute?_eraseAttribute hdistinct).trans (if_neg hne)

theorem Task.distinct_put {name : String} {i : Interpolation} (h : held.Distinct) :
    ((Task.writeAttribute name i).put scope held).Distinct := by
  rw [Task.put]
  cases i.outcome scope with
  | true => exact h.setAttribute _ _
  | text s => exact h.setAttribute _ _
  | falsy => exact h.eraseAttribute _

/-- A task leaves what the other tasks of its line have written. -/
theorem Task.Done.put (hdone : other.Done scope held) (hsuits : sketch.Suits held)
    (hheld : held.Distinct) (hdistinct : sketch.Distinct) (hother : other ∈ sketch.tasks)
    (htask : task ∈ sketch.tasks) (hne : other ≠ task) :
    other.Done scope (task.put scope held) := by
  cases sketch with
  | fixed content | guarded guard body => cases htask
  | text i =>
      obtain rfl := List.mem_singleton.mp htask
      exact absurd (List.mem_singleton.mp hother) hne
  | element tag attributes bindings kids =>
      obtain ⟨b, hb, rfl⟩ := List.mem_map.mp htask
      obtain ⟨b', hb', rfl⟩ := List.mem_map.mp hother
      obtain ⟨held, rfl⟩ := hsuits
      have hname : b'.name ≠ b.name := fun heq =>
        hne (by rw [List.inj_on_of_nodup_map hdistinct.2 hb' hb heq])
      exact (Task.attribute?_put hheld hname).trans hdone

theorem Sketch.bears_blank (hdistinct : sketch.Distinct) :
    sketch.Bears definition past sketch.blank := by
  cases sketch with
  | fixed content | guarded guard body => trivial
  | text i => exact ⟨"", rfl, Or.inl rfl⟩
  | element tag attributes bindings kids => exact ⟨hdistinct.1, fun _ _ => rfl⟩

theorem Sketch.Bears.mono (h : sketch.Bears definition past held)
    (hpast : ∀ fields, past fields → past' fields) : sketch.Bears definition past' held := by
  cases sketch with
  | fixed content | guarded guard body => trivial
  | text i =>
      obtain ⟨s, hs, hshown⟩ := h
      exact ⟨s, hs, hshown.imp id fun ⟨fields, hfields, hgiven⟩ =>
        ⟨fields, hpast fields hfields, hgiven⟩⟩
  | element tag attributes bindings kids => exact h

theorem Sketch.Bears.put (h : sketch.Bears definition past held) (hsuits : sketch.Suits held)
    (htask : task ∈ sketch.tasks) {fields : Dict Json} (hfields : past fields) :
    sketch.Bears definition past (task.put (definition.scope fields) held) := by
  cases sketch with
  | fixed content | guarded guard body => cases htask
  | text i =>
      obtain rfl := List.mem_singleton.mp htask
      rw [Task.put]
      split
      · rename_i s hs
        exact ⟨s, rfl, Or.inr ⟨fields, hfields, hs⟩⟩
      · exact h
  | element tag attributes bindings kids =>
      obtain ⟨b, hb, rfl⟩ := List.mem_map.mp htask
      obtain ⟨held, rfl⟩ := hsuits
      refine ⟨Task.distinct_put h.1, fun name hname => ?_⟩
      have hne : name ≠ b.name := by
        rintro rfl
        exact hname (List.mem_map_of_mem hb)
      exact (Task.attribute?_put h.1 hne).trans (h.2 name hname)

theorem Sketch.Bears.distinct (h : sketch.Bears definition past held) (hsuits : sketch.Suits held)
    (htask : task ∈ sketch.tasks) : held.Distinct := by
  cases sketch with
  | fixed content | guarded guard body => cases htask
  | text i =>
      obtain ⟨s, rfl⟩ := hsuits
      exact List.nodup_nil
  | element tag attributes bindings kids => exact h.1

end Writing

/-- Of the fields, an interpolation depends on the ones that its source names. -/
def Interpolation.Tracked (i : Interpolation) (definition : Component) : Prop :=
  ∀ fields fields' : Dict Json, (∀ name ∈ i.dependencies, fields.get? name = fields'.get? name) →
    i.outcome (definition.scope fields) = i.outcome (definition.scope fields')

end LiveMarkup
