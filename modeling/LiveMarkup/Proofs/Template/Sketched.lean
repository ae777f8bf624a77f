import LiveMarkup.Proofs.Template.Compiled

/-!
Compiled templates and their sketches. What the parsed markup compiles to says what its sketch says.
-/

namespace LiveMarkup

/-! ### Attributes -/

section Attributes

variable {attributes : List Attribute}

theorem takenBy_builtin (a : Attribute) :
    a.takenBy [.reference, .event, .binding] = a.feature? := by
  cases hfeature : a.feature? with
  | none => rw [Attribute.takenBy, hfeature, Option.filter_none]
  | some feature =>
      refine Compile.takenBy_iff.mpr ⟨hfeature, ?_⟩
      rcases Compile.feature?_iff.mp hfeature with ⟨rfl, _⟩ | ⟨rfl, _⟩ | ⟨rfl, _⟩ <;> simp

theorem isNone_takenBy (a : Attribute) :
    (a.takenBy [.reference, .event, .binding]).isNone = !a.isMarked := by
  rw [takenBy_builtin, Attribute.feature?, Attribute.isMarked]
  cases a.isMarkedBy '#' <;> cases a.isMarkedBy '@' <;> cases a.isMarkedBy ':' <;> rfl

theorem takenBy_binding (a : Attribute) :
    a.takenBy [.reference, .event, .binding] = some .binding ↔ a.isMarkedBy ':' = true := by
  rw [takenBy_builtin, Compile.feature?_iff]
  simp

/-- What follows the fields is read off the attributes that the binding feature takes. -/
theorem bindings?_of_forall₂ {bindings : List AttributeBinding}
    (h : List.Forall₂ (fun a binding => binding.name = a.markedName ∧
        Interpolation.compile a.value = .ok binding.interpolation)
      (attributes.filter (·.takenBy [.reference, .event, .binding] = some .binding)) bindings) :
    Sketch.bindings? attributes = some bindings := by
  induction attributes generalizing bindings with
  | nil =>
      cases h
      rfl
  | cons a rest ih =>
      rw [Sketch.bindings?]
      by_cases hmarked : a.isMarkedBy ':' = true
      · rw [List.filter_cons_of_pos (by simpa using (takenBy_binding a).mpr hmarked)] at h
        obtain ⟨⟨name, i⟩, more, ⟨rfl, hvalue⟩, hmore, rfl⟩ := List.forall₂_cons_left_iff.mp h
        rw [if_pos hmarked, hvalue, ih hmore]
        rfl
      · rw [List.filter_cons_of_neg (by simpa using mt (takenBy_binding a).mp hmarked)] at h
        rw [if_neg hmarked, ih h]

theorem bindings?_filter (attributes : List Attribute) :
    Sketch.bindings? (attributes.filter fun a => !a.isDirective) = Sketch.bindings? attributes := by
  induction attributes with
  | nil => rfl
  | cons a rest ih =>
      by_cases hdirective : a.isDirective = true
      · have hnot : a.isMarkedBy ':' = false := by
          rw [Bool.eq_false_iff]
          intro hmarked
          unfold Attribute.isMarkedBy at hmarked
          unfold Attribute.isDirective at hdirective
          split at hmarked
          · rename_i heq
            rw [heq] at hdirective
            simp only [decide_eq_true_eq] at hmarked hdirective
            rw [List.head?_cons, Option.some.injEq, hmarked] at hdirective
            exact absurd hdirective (by decide)
          · cases hmarked
        rw [List.filter_cons_of_neg (by simp [hdirective]), ih, Sketch.bindings?,
          if_neg (by simp [hnot])]
      · rw [List.filter_cons_of_pos (by simpa using hdirective), Sketch.bindings?,
          Sketch.bindings?, ih]

theorem untaken_builtin (hnone : ∀ a ∈ attributes, a.isDirective = false) :
    untaken [.reference, .event, .binding] attributes = attributes.filter (·.isPlain) :=
  List.filter_congr fun a ha => by simp [isNone_takenBy, Attribute.isPlain, hnone a ha]

theorem filter_isPlain (attributes : List Attribute) :
    (attributes.filter fun a => !a.isDirective).filter (·.isPlain) =
      attributes.filter (·.isPlain) := by
  rw [List.filter_filter]
  refine List.filter_congr fun a _ => ?_
  rw [Attribute.isPlain]
  cases a.isDirective <;> simp

theorem NodeDefinition.Collects.isPlain {definition : NodeDefinition Blueprint}
    (h : definition.Collects [.reference, .event, .binding] attributes) :
    definition.IsPlain definition.attributes := by
  refine ⟨rfl, ?_, ?_, ?_⟩
  · intro feature hfeature
    rw [h.features, List.mem_eraseDups, List.mem_filterMap] at hfeature
    obtain ⟨a, _, htaken⟩ := hfeature
    rcases Compile.feature?_iff.mp (Compile.takenBy_iff.mp htaken).1 with
      ⟨rfl, _⟩ | ⟨rfl, _⟩ | ⟨rfl, _⟩ <;> simp
  · rw [h.features]
    exact Compile.nodup_eraseDups _
  · intro hne
    obtain ⟨binding, rest, hattributes⟩ := List.exists_cons_of_ne_nil hne
    have hall := h.attributes
    rw [hattributes] at hall
    obtain ⟨a, more, _, _, hfilter⟩ := List.forall₂_cons_right_iff.mp hall
    have ha : a ∈ attributes.filter
        (·.takenBy [.reference, .event, .binding] = some .binding) := by
      rw [hfilter]
      exact List.mem_cons_self
    obtain ⟨hmem, htaken⟩ := List.mem_filter.mp ha
    rw [h.features, List.mem_eraseDups, List.mem_filterMap]
    exact ⟨a, hmem, by simpa using htaken⟩

end Attributes

/-! ### Templates -/

namespace Sketch

/-- An element carries the marker of its own definition. -/
theorem marks_of_owns {attributes : List Attribute} {k : Nat}
    {own : Option (NodeDefinition Blueprint)}
    (howns : Owns [.reference, .event, .binding] attributes k own) :
    ∃ bindings, bindings? attributes = some bindings ∧ ∀ before after, before.length = k →
      Marks (before ++ own.toList ++ after) bindings (own.map (·.index)) := by
  cases own with
  | none =>
      have hnone : attributes.filter
          (·.takenBy [.reference, .event, .binding] = some .binding) = [] := by
        rw [List.filter_eq_nil_iff]
        intro a ha
        simp [howns a ha]
      refine ⟨[], bindings?_of_forall₂ ?_, fun _ _ _ => rfl⟩
      rw [hnone]
      exact .nil
  | some definition =>
      obtain ⟨hindex, hcollects, _⟩ := howns
      refine ⟨definition.attributes, bindings?_of_forall₂ hcollects.attributes,
        fun before after hbefore => ⟨definition, ?_, hcollects.isPlain⟩⟩
      simp [hindex, ← hbefore]

theorem not_isDirective_of_mem (attributes : List Attribute) :
    ∀ a ∈ attributes.filter (fun a => !a.isDirective), a.isDirective = false :=
  fun a ha => by simpa using (List.mem_filter.mp ha).2

theorem ofTree?_plain {tag : String} {attributes : List Attribute} {marker : Option Nat}
    {below : List Tree} (hnone : ∀ a ∈ attributes, a.isDirective = false) :
    ofTree? (.node (.element tag attributes) marker below) =
      (bindings? attributes).bind fun bindings => (ofTrees? below).map fun children =>
        .element tag (attributes.filter (·.isPlain)) bindings children := by
  have hfind : attributes.find? (·.isDirective) = none :=
    List.find?_eq_none.mpr fun a ha => by simp [hnone a ha]
  simp only [ofTree?, hfind, Option.bind_eq_bind, Option.map_eq_bind]
  rfl

theorem ofTree?_guarded {tag : String} {attributes : List Attribute} {marker : Option Nat}
    {below : List Tree} {a : Attribute} {guard : Interpolation}
    (hfirst : attributes.find? (·.isDirective) = some a) (hguard : guard? a = some guard) :
    ofTree? (.node (.element tag attributes) marker below) =
      (ofTree? (.node (.element tag (attributes.filter fun a => !a.isDirective)) marker below)).map
        (.guarded guard) := by
  rw [ofTree?_plain (not_isDirective_of_mem attributes), bindings?_filter, filter_isPlain]
  simp only [ofTree?, hfirst, hguard, Option.bind_eq_bind, Option.map_some]
  cases bindings? attributes <;> cases ofTrees? below <;> rfl

theorem ofTrees?_singleton {tree : Tree} {sketches : List Sketch}
    (h : ofTrees? [tree] = some sketches) : ∃ sketch, ofTree? tree = some sketch ∧
      sketches = [sketch] := by
  simp only [ofTrees?, Option.bind_eq_bind, Option.bind_eq_some_iff, Option.some.injEq] at h
  obtain ⟨sketch, hsketch, _, rfl, rfl⟩ := h
  exact ⟨sketch, hsketch, rfl⟩

end Sketch

/-- What trees compile to realizes their sketches. -/
theorem Tree.CompileTo.realizes {k : Nat} {parsed trees : List Tree}
    {definitions : List (NodeDefinition Blueprint)}
    (h : CompileTo [.text, .conditional] [.reference, .event, .binding] k parsed trees definitions) :
    ∃ sketches, Sketch.ofTrees? parsed = some sketches ∧ ∀ before after, before.length = k →
      Sketch.RealizesAll (before ++ definitions ++ after) sketches trees := by
  induction h with
  | nil => exact ⟨[], rfl, fun _ _ _ => rfl⟩
  | @cons k tree made rest others firsts more _ _ ihfirst ihrest =>
      obtain ⟨_, hfirst, hrealizes⟩ := ihfirst
      obtain ⟨sketch, hsketch, rfl⟩ := Sketch.ofTrees?_singleton hfirst
      obtain ⟨sketches, hsketches, hrealizes'⟩ := ihrest
      refine ⟨sketch :: sketches, ?_, fun before after hbefore => ?_⟩
      · simp only [Sketch.ofTrees?, hsketch, hsketches, Option.bind_eq_bind, Option.bind_some]
      · have hsplit : before ++ (firsts ++ more) ++ after = before ++ firsts ++ (more ++ after) := by
          simp only [List.append_assoc]
        have hsplit' : before ++ (firsts ++ more) ++ after = before ++ firsts ++ more ++ after := by
          simp only [List.append_assoc]
        obtain ⟨tree', rest', htrees, hfirst', _⟩ := hrealizes before (more ++ after) hbefore
        cases htrees
        refine ⟨made, others, rfl, hsplit ▸ hfirst', hsplit' ▸ hrealizes' _ _ ?_⟩
        rw [List.length_append, hbefore]
  | @comment k s =>
      exact ⟨[.fixed (.comment s)], rfl, fun _ _ _ => ⟨_, [], rfl, ⟨rfl, rfl⟩, rfl⟩⟩
  | @text k s h =>
      have hspan : Markup.hasSpan s = false := h.resolve_right (by simp)
      refine ⟨[.fixed (.text s)], ?_, fun _ _ _ => ⟨_, [], rfl, ⟨rfl, rfl⟩, rfl⟩⟩
      simp [Sketch.ofTrees?, Sketch.ofTree?, Tree.leaf, hspan]
  | @span k s i hspan _ hvalue =>
      refine ⟨[.text i], ?_, fun before after hbefore => ?_⟩
      · simp [Sketch.ofTrees?, Sketch.ofTree?, Tree.leaf, hspan, hvalue, Except.toOption]
      · refine ⟨_, [], rfl, ⟨k, .ofText k i, rfl, ?_, rfl, rfl⟩, rfl⟩
        simp [← hbefore]
  | @element k tag attributes below trees own definitions hnone howns _ ih =>
      obtain ⟨sketches, hsketches, hrealizes⟩ := ih
      obtain ⟨bindings, hbindings, hmarks⟩ := Sketch.marks_of_owns howns
      refine ⟨[.element tag (attributes.filter (·.isPlain)) bindings sketches], ?_,
        fun before after hbefore => ⟨_, [], rfl, ⟨own.map (·.index), trees, ?_, ?_, ?_⟩, rfl⟩⟩
      · simp only [Sketch.ofTrees?, Sketch.ofTree?_plain hnone, hbindings, hsketches,
          Option.bind_some, Option.map_some, Option.bind_eq_bind]
      · rw [untaken_builtin hnone]
      · have hsplit : before ++ (own.toList ++ definitions) ++ after =
            before ++ own.toList ++ (definitions ++ after) := by simp only [List.append_assoc]
        rw [hsplit]
        exact hmarks before _ hbefore
      · have hsplit : before ++ (own.toList ++ definitions) ++ after =
            before ++ own.toList ++ definitions ++ after := by simp only [List.append_assoc]
        rw [hsplit]
        exact hrealizes _ _ (by rw [List.length_append, hbefore])
  | @conditional k tag word attributes a below trees guard blueprint hfirst _ hguard hvalid htree
      _ ih =>
      obtain ⟨_, hsketches, hrealizes⟩ := ih
      obtain ⟨sketch, hsketch, rfl⟩ := Sketch.ofTrees?_singleton hsketches
      obtain ⟨inner, _, rfl, hinner, rfl⟩ := hrealizes [] [] rfl
      rw [List.nil_append, List.append_nil] at hinner
      refine ⟨[.guarded guard sketch], ?_, fun before after hbefore => ⟨_, [], rfl,
        ⟨k, placeholderId k word, .ofConditional k word blueprint guard, _, rfl, ?_, ⟨rfl, rfl⟩, rfl,
          hvalid, inner, htree, ?_, hinner⟩, rfl⟩⟩
      · simp only [Sketch.ofTrees?, Sketch.ofTree?_guarded hfirst hguard, hsketch, Option.map_some,
          Option.bind_eq_bind, Option.bind_some]
      · simp [← hbefore]
      · rw [Sketch.ofTree?_plain (Sketch.not_isDirective_of_mem attributes)] at hsketch
        obtain ⟨_, _, hsketch⟩ := Option.bind_eq_some_iff.mp hsketch
        obtain ⟨_, _, rfl⟩ := Option.map_eq_some_iff.mp hsketch
        obtain ⟨_, _, rfl, _⟩ := hinner
        rfl

/-- The sketch of markup, if it compiles. -/
def Sketch.ofMarkup? (markup : String) : Option (List Sketch) :=
  match (Markup.read markup).error with
  | some _ => none
  | none => ofTrees? (Markup.read markup).tree.children

/-- A compiled template says what some sketches say. -/
structure Blueprint.Says (blueprint : Blueprint) (sketches : List Sketch) : Prop where
  valid : blueprint.dom.Valid
  trees : ∃ trees, blueprint.dom.tree blueprint.root = .node .fragment none trees ∧
    Sketch.RealizesAll blueprint.definitions sketches trees

theorem Blueprint.Compiled.says {parsed : List Tree} {blueprint : Blueprint}
    (h : blueprint.Compiled [.text, .conditional] [.reference, .event, .binding] parsed) :
    ∃ sketches, Sketch.ofTrees? parsed = some sketches ∧ blueprint.Says sketches := by
  obtain ⟨trees, htree, hcompiled⟩ := h.trees
  obtain ⟨sketches, hsketches, hrealizes⟩ := hcompiled.realizes
  refine ⟨sketches, hsketches, h.valid, trees, htree, ?_⟩
  simpa using hrealizes [] [] rfl

theorem Registry.compile_says {r : Registry} {markup : String}
    (h : r.Honest [.text, .conditional] [.reference, .event, .binding]) {made : Shared Blueprint}
    (hmade : (r.compile markup).1 = .ok made) :
    ∃ sketches, Sketch.ofMarkup? markup = some sketches ∧ made.value.Says sketches := by
  obtain ⟨parsed, hreads, hcompiled⟩ := compile_compiled h hmade
  obtain ⟨sketches, hsketches, hsaid⟩ := hcompiled.says
  refine ⟨sketches, ?_, hsaid⟩
  rw [Sketch.ofMarkup?, hreads.error, hreads.tree]
  exact hsketches

end LiveMarkup
