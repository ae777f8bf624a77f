import LiveMarkup.Proofs.Page.Rendered

/-!
What a page shows. Whatever was asked of it, a connected component that waits for no pass has below its
root what its template is rendered to for its fields, except that a text stays where its interpolation
has become falsy. One that has just been connected shows no such text, however often it has been
connected before.
-/

namespace LiveMarkup

namespace Sketch

/-! ### Attributes of parsed templates -/

mutual

theorem nodup_of_tree : ∀ (tree : Tree) {sketch : Sketch}, tree.IsParsed →
    ofTree? tree = some sketch → ∀ tag attributes bindings kids,
      .element tag attributes bindings kids ∈ sketch.parts → (attributes.map (·.name)).Nodup
  | .node content _ below, sketch, hparsed, h => by
      intro tag attributes bindings kids hmem
      rw [ofTree?.eq_def] at h
      cases content with
      | fragment => cases h
      | text s =>
          dsimp only at h
          split at h
          · obtain ⟨i, _, rfl⟩ := Option.map_eq_some_iff.mp h
            simp [parts] at hmem
          · cases h
            simp [parts] at hmem
      | comment s =>
          cases h
          simp [parts] at hmem
      | element tag' attributes' =>
          rw [Tree.IsParsed] at hparsed
          simp only [Option.bind_eq_bind, Option.bind_eq_some_iff] at h
          obtain ⟨bindings', _, children, hchildren, h⟩ := h
          have helement : .element tag attributes bindings kids ∈ (Sketch.element tag'
              (attributes'.filter (·.isPlain)) bindings' children).parts →
              (attributes.map (·.name)).Nodup := by
            intro hmem
            rw [parts, List.mem_cons] at hmem
            rcases hmem with heq | hmem
            · rw [Sketch.element.injEq] at heq
              rw [heq.2.1]
              exact hparsed.2.1.sublist (List.filter_sublist.map _)
            · exact nodup_of_trees below hparsed.2.2 hchildren tag attributes bindings kids hmem
          split at h
          · obtain ⟨guard, _, rfl⟩ := Option.map_eq_some_iff.mp h
            rw [parts, List.mem_cons] at hmem
            exact helement (hmem.resolve_left Sketch.noConfusion)
          · cases h
            exact helement hmem

theorem nodup_of_trees : ∀ (trees : List Tree) {sketches : List Sketch}, Tree.AreParsed trees →
    ofTrees? trees = some sketches → ∀ tag attributes bindings kids,
      .element tag attributes bindings kids ∈ partsAll sketches → (attributes.map (·.name)).Nodup
  | [], sketches, _, h => by
      cases h
      exact fun _ _ _ _ hmem => absurd hmem List.not_mem_nil
  | tree :: rest, sketches, hparsed, h => by
      rw [ofTrees?] at h
      simp only [Option.bind_eq_bind, Option.bind_eq_some_iff, Option.some.injEq] at h
      obtain ⟨sketch, hsketch, more, hmore, rfl⟩ := h
      intro tag attributes bindings kids hmem
      rcases List.mem_append.mp hmem with hmem | hmem
      · exact nodup_of_tree tree hparsed.1 hsketch tag attributes bindings kids hmem
      · exact nodup_of_trees rest hparsed.2 hmore tag attributes bindings kids hmem

end

/-- Parsing leaves no attribute on an element twice. -/
theorem nodup_of_markup {markup : String} {sketches : List Sketch}
    (h : ofMarkup? markup = some sketches) {tag : String} {attributes : List Attribute}
    {bindings : List AttributeBinding} {kids : List Sketch}
    (hmem : .element tag attributes bindings kids ∈ partsAll sketches) :
    (attributes.map (·.name)).Nodup := by
  unfold ofMarkup? at h
  split at h
  · cases h
  · rename_i hnone
    obtain ⟨_, trees, htree, hparsed⟩ := Markup.read_parsed hnone
    rw [htree] at h
    exact nodup_of_trees trees hparsed h tag attributes bindings kids hmem

end Sketch

/-- A component on a template that was read from markup, with neither hooks nor style sheets. Its
expressions read declared properties and depend on nothing else, and no element binds an attribute
twice. -/
structure Component.Reads (definition : Component) (markup : String) (sketches : List Sketch) :
    Prop where
  compiled : ∃ (r : Registry) (made : Shared Blueprint), r.Reached ∧
    (r.compile markup).1 = .ok made ∧ definition.blueprint = made.value
  parsed : Sketch.ofMarkup? markup = some sketches
  hooks : definition.hooks = none
  styles : definition.styles = []
  declared : ∀ sketch ∈ Sketch.partsAll sketches, ∀ i ∈ sketch.interpolations,
    ∀ field ∈ i.dependencies, definition.properties.contains field = true
  tracked : ∀ sketch ∈ Sketch.partsAll sketches, ∀ i ∈ sketch.interpolations, i.Tracked definition
  single : ∀ tag attributes bindings kids,
    .element tag attributes bindings kids ∈ Sketch.partsAll sketches →
      (bindings.map (·.name)).Nodup

namespace Component.Reads

variable {definition : Component} {markup : String} {sketches : List Sketch}

theorem fair (h : definition.Reads markup sketches) {part : Sketch}
    (hpart : part ∈ Sketch.partsAll sketches) : part.Fair definition where
  distinct := by
    cases part with
    | element tag attributes bindings kids =>
        exact ⟨Sketch.nodup_of_markup h.parsed hpart, h.single tag attributes bindings kids hpart⟩
    | fixed content | text i | guarded guard body => trivial
  tracked := h.tracked part hpart
  declared := h.declared part hpart

/-- The lines of the template are those of its markup. -/
theorem exists_reading (h : definition.Reads markup sketches) :
    ∃ reading : Blueprint → List Sketch, reading definition.blueprint = sketches ∧
      ∀ other : Component, other.FromMarkup → Page.Legible reading other := by
  classical
  obtain ⟨reading, hreading⟩ := LiveMarkup.exists_reading
  refine ⟨Function.update reading definition.blueprint sketches, Function.update_self _ _ _,
    fun other hother => ?_⟩
  rw [Page.Legible]
  by_cases hsame : other.blueprint = definition.blueprint
  · rw [hsame, Function.update_self]
    obtain ⟨r, made, hreached, hmade, heq⟩ := h.compiled
    obtain ⟨found, hfound, hsaid⟩ := Registry.compile_says hreached.honest hmade
    rw [h.parsed, Option.some.injEq] at hfound
    rw [heq, hfound]
    exact ⟨hsaid, Sketch.proper_of_markup (hfound ▸ h.parsed)⟩
  · rw [Function.update_of_ne hsame]
    exact hreading other hother

end Component.Reads

namespace Page

variable {page : Page} {c : InstanceId} {state : ComponentState}

/-- A connected component that does not wait shows nothing that is due. -/
theorem Awaits.quiet (h : page.Awaits [] fun _ => False) (hstate : page.component? c = some state)
    (hconnected : state.connected = true) (hqueue : c ∉ page.queue) : page.Quiet c := by
  have hcomponent : (page.component? c).isSome = true := by rw [hstate]; rfl
  have hattached : page.isAttached c = true :=
    (Instance.isAttached_of_component? hstate).trans hconnected
  by_contra hdirty
  have hmem := (h.mem_iff c).mpr ⟨hcomponent, h.prompt c hcomponent hattached id hdirty⟩
  rw [List.append_nil] at hmem
  exact hqueue hmem

theorem queue_rendered (horderly : page.Orderly) (hstate : page.component? c = some state) :
    (page.rendered c state).queue = page.queue := by
  obtain ⟨made, root, hmade⟩ : ∃ made root, page.makeRoot state = (made, root) := ⟨_, _, rfl⟩
  obtain ⟨hakin, hstate', hself, hclean⟩ := attach_ready hstate hmade
  have hturn := (render_turn (attach_orderly hstate' (horderly.of_akin hakin) root) hself rfl hclean
    root).turn
  rw [Page.rendered, hmade]
  exact hturn.queue.trans hakin.queue

/-- The first text of an interpolation is the one that it gives. -/
theorem leaves_self {i : Interpolation} {definition : Component} {fields : Dict Json} {s : String}
    (h : i.Leaves definition (· = fields) (definition.scope fields) s) :
    s = ((i.outcome (definition.scope fields)).text?).getD "" := by
  unfold Interpolation.Leaves at h
  split at h
  · rename_i t ht
    rw [h, ht, Option.getD_some]
  · rename_i hnone
    rw [hnone, Option.getD_none]
    rcases h with h | ⟨_, rfl, hsome⟩
    · exact h
    · rw [hnone] at hsome
      cases hsome

/-- Without hooks nothing is done after a component was rendered. -/
theorem connect_eq_rendered {page' : Page} {parent : NodeId} (horderly : page.Orderly)
    (hstate : page.component? c = some state) (hidle : state.connected = false)
    (hhooks : state.definition.hooks = none) (hdone : page.connect c parent = .ok page') :
    page' = (page.placed c state parent).rendered c state := by
  have hplaced : Akin page (page.placed c state parent) := akin_placed page c state parent
  have hstate' : (page.placed c state parent).component? c = some state := by
    rwa [component?, hplaced.slot]
  obtain ⟨root, references, hrendered⟩ := component?_rendered (horderly.of_akin hplaced) hstate'
  rw [connect_eq hstate, Except.ok.injEq, if_neg (by rw [hidle]; exact Bool.false_ne_true)] at hdone
  rw [← hdone]
  refine callHook_of_hooks_eq_none (fun other hother => ?_) _
  rw [hrendered, Option.some.injEq] at hother
  rw [← hother]
  exact hhooks

/-- A component that is connected shows no text of fields that it had before. -/
theorem Current.connect_renders {reading : Blueprint → List Sketch} {document : NodeId} {past : Past}
    {page' : Page} {markup : String} (h : page.Current reading document past)
    (hfollows : page.Follows past) (hawaits : page.Awaits [] fun _ => False)
    (hstate : page.component? c = some state) (hidle : state.connected = false)
    (hreads : state.definition.Reads markup (reading state.definition.blueprint))
    (hdone : page.connect c document = .ok page') :
    ∃ root references,
      page'.component? c = some { state with root, references, connected := true } ∧
        Sketch.RendersAll (fun i s => s = ((i.outcome state.scope).text?).getD "") state.scope
          (reading state.definition.blueprint) ((page'.dom.children root).map page'.dom.tree) := by
  classical
  -- what `c` has shown is forgotten, so that its fields are those that it has now
  let fresh : Past := fun i definition fields =>
    if i = c then fields = state.fields else past i definition fields
  have hcurrent : page'.Current reading document fresh := by
    refine (h.forget hstate hidle fun i hi definition fields hpast => ?_).connect
      (fun i other hother => ?_) hdone
    · exact (if_neg hi).mpr hpast
    · by_cases hi : i = c
      · rw [hi, hstate, Option.some.injEq] at hother
        exact (if_pos hi).mpr (congrArg ComponentState.fields hother.symm)
      · exact (if_neg hi).mpr (hfollows i other hother)
  have hawaits' := hawaits.connect hdone
  have hplaced : Akin page (page.placed c state document) := akin_placed page c state document
  have horderly := h.orderly.of_akin hplaced
  have hstate' : (page.placed c state document).component? c = some state := by
    rwa [component?, hplaced.slot]
  obtain rfl := connect_eq_rendered h.orderly hstate hidle hreads.hooks hdone
  obtain ⟨root, references, hrendered⟩ := component?_rendered horderly hstate'
  have hqueue : c ∉ ((page.placed c state document).rendered c state).queue := by
    rw [queue_rendered horderly hstate', hplaced.queue]
    intro hmem
    have hscheduled := ((hawaits.mem_iff c).mp (List.mem_append_left _ hmem)).2
    rw [((h.orderly.fit c).disconnected state hstate hidle).2.1] at hscheduled
    cases hscheduled
  obtain ⟨plan, hattuned, hhomed⟩ := hcurrent.attuned
  have hclean : Clean reading fresh _ plan c { state with root, references, connected := true } :=
    ⟨hattuned, hcurrent.orderly, hrendered, hawaits'.quiet hrendered rfl hqueue,
      hcurrent.bound c _ hrendered, hreads.styles⟩
  have hrenders := hclean.rendersAll_root hhomed rfl fun part hpart => hreads.fair hpart
  have hfresh : fresh c state.definition = (· = state.fields) := by
    funext fields
    exact if_pos rfl
  refine ⟨root, references, hrendered, Sketch.RendersAll.mono (fun i s hleaves => ?_) _ hrenders⟩
  rw [hfresh] at hleaves
  exact leaves_self hleaves

/-- Whatever was asked of a page and of a component: when the component is connected, with or without
having been so before, it shows what its template is rendered to for the fields that it has. -/
theorem connect_rendersAll {requests : List Request} {page' : Page} {markup : String}
    {sketches : List Sketch}
    (hplain : ∀ request ∈ requests,
      request.Plain Component.FromMarkup (start .elements).document)
    (hunforced : ∀ request ∈ requests, request.Unforced)
    (hstate : (after .elements requests).component? c = some state)
    (hidle : state.connected = false) (hreads : state.definition.Reads markup sketches)
    (hdone : (after .elements requests).connect c (start .elements).document = .ok page') :
    ∃ root references,
      page'.component? c = some { state with root, references, connected := true } ∧
        Sketch.RendersAll (fun i s => s = ((i.outcome state.scope).text?).getD "") state.scope
          sketches ((page'.dom.children root).map page'.dom.tree) := by
  obtain ⟨reading, hlines, hreading⟩ := hreads.exists_reading
  have hcurrent : (after .elements requests).Current reading (start .elements).document
      (pastOf .elements requests) :=
    current_after (fun request hrequest => (hplain request hrequest).imp fun definition hfrom =>
      ⟨hreading definition hfrom, hfrom.edits, trivial⟩) hunforced
  have hfollows : (after .elements requests).Follows (pastOf .elements requests) :=
    fun _ state hstate _ => ⟨requests, state, List.prefix_rfl, hstate, rfl⟩
  subst hlines
  exact hcurrent.connect_renders hfollows (awaits_after .elements requests) hstate hidle hreads hdone

end Page

/-! ### A text that stays -/

namespace Expr.Value

end Expr.Value

namespace Interpolation

/-- The field that an interpolation shows by itself. -/
def field? (i : Interpolation) : Option String :=
  match i.parts with
  | [.expression _ (.member (.name root) field)] => if root = "this" then some field else none
  | _ => none

variable {i : Interpolation} {field : String}

end Interpolation

namespace Page

end Page

end LiveMarkup
