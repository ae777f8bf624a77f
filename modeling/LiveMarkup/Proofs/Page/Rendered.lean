import LiveMarkup.Proofs.Page.Rows

/-!
What a component shows while nothing in it is due. All tasks of what is shown are done, so that the
nodes below its root are what its lines are rendered to.
-/

namespace LiveMarkup

/-- What a text may show of its interpolation: the text that it gives, or, while it is falsy, nothing
or a text that it has given before. -/
def Interpolation.Leaves (i : Interpolation) (definition : Component) (past : Dict Json → Prop)
    (scope : Scope) (shown : String) : Prop :=
  match (i.outcome scope).text? with
  | some s => shown = s
  | none => shown = "" ∨
      ∃ fields, past fields ∧ (i.outcome (definition.scope fields)).text? = some shown

theorem Interpolation.leaves_of {i : Interpolation} {definition : Component}
    {past : Dict Json → Prop} {scope : Scope} {shown : String}
    (hdone : ∀ s, (i.outcome scope).text? = some s → shown = s)
    (hpast : shown = "" ∨
      ∃ fields, past fields ∧ (i.outcome (definition.scope fields)).text? = some shown) :
    i.Leaves definition past scope shown := by
  unfold Leaves
  split
  · rename_i s hs
    exact hdone s hs
  · exact hpast

/-- A sketch whose attributes have one source each, and which reads declared fields only. -/
structure Sketch.Fair (definition : Component) (sketch : Sketch) : Prop where
  distinct : sketch.Distinct
  tracked : ∀ i ∈ sketch.interpolations, i.Tracked definition
  declared : ∀ i ∈ sketch.interpolations, ∀ field ∈ i.dependencies,
    definition.properties.contains field = true

/-- The interpolation that a task of a line evaluates is one of the line. -/
theorem Sketch.mem_interpolations {sketch : Sketch} {task : Task} {i : Interpolation}
    (htask : task ∈ sketch.tasks) (hi : task.interpolation? = some i) : i ∈ sketch.interpolations := by
  cases sketch with
  | fixed content | guarded guard body => cases htask
  | text i' =>
      obtain rfl := List.mem_singleton.mp htask
      cases hi
      exact List.mem_singleton_self i
  | element tag attributes bindings kids =>
      obtain ⟨b, hb, rfl⟩ := List.mem_map.mp htask
      cases hi
      exact List.mem_map_of_mem hb

theorem Sketch.self_mem_parts (sketch : Sketch) : sketch ∈ sketch.parts := by
  cases sketch <;> simp [parts]

namespace Page

variable {reading : Blueprint → List Sketch} {page : Page} {plan : Plan} {past : Past}
  {n p r x : NodeId} {c f o : InstanceId} {sketch : Sketch} {nodes : List NodeId}
  {state : ComponentState} {task : Task}

/-- A component without style sheets in which nothing that is shown is due. -/
structure Clean (reading : Blueprint → List Sketch) (past : Past) (page : Page) (plan : Plan)
    (c : InstanceId) (state : ComponentState) : Prop where
  attuned : page.Attuned reading past plan
  orderly : page.Orderly
  component : page.component? c = some state
  quiet : page.Quiet c
  bound : ∀ name, state.definition.properties.contains name = true →
    (page.slot c).bindings.contains name = true
  unstyled : state.definition.styles = []

namespace Clean

section Tasks

variable (h : page.Clean reading past plan c state)

include h

theorem component_eq (ho : page.ShownFrom c o) : (page.slot o).component = c := by
  rw [Orderly.component_of_under h.orderly ho.1, (h.orderly.component_eq c state h.component).2]

theorem holder?_eq (ho : page.ShownFrom c o) : page.holder? o = some state := by
  rw [holder?, h.component_eq ho, h.component]

/-- A task of a node that is shown is done. -/
theorem meets (ho : page.ShownFrom c o) (hwants : plan.Wants page.dom o n task)
    (hdistinct : (plan.role n).Distinct)
    (htracked : ∀ i, task.interpolation? = some i → i.Tracked state.definition)
    (hdeclared : ∀ i, task.interpolation? = some i → ∀ field ∈ i.dependencies,
      state.definition.properties.contains field = true) :
    page.Meets state.scope (plan.role n) n task := by
  have htraces : page.Traces o state.definition task := by
    refine ⟨htracked, fun field hfield => ?_⟩
    rw [knows, h.component_eq ho]
    cases hi : task.interpolation? with
    | none =>
        cases task with
        | mountFragment => cases hfield
        | writeText i | writeUpper i | writeAttribute name i | guardFragment i => cases hi
    | some i =>
        rw [Task.dependencies_eq hi] at hfield
        exact h.bound field (hdeclared i hi field hfield)
  have htends := (h.attuned.tended.tends o n task hwants).shown state (h.holder?_eq ho) hdistinct htraces
  rcases htends with hawaits | ⟨e, _, _, hrun | hdue⟩ | hmeets
  · exact absurd hawaits List.not_mem_nil
  · exact absurd hrun List.not_mem_nil
  · have hchanges := Bindings.hasChanges_of_mem_due hdue
    rw [show (page.slot o).bindings.hasChanges = false from h.quiet o ho] at hchanges
    cases hchanges
  · exact hmeets

theorem fillsAll (ho : page.ShownFrom c o) (hhouses : plan.Houses o p) :
    page.FillsAll plan o (plan.lines o (page.dom.children p)) (page.dom.children p) := by
  have hlaid := h.attuned.laid
  refine hlaid.fillsAll h.orderly hhouses fun x hx => ⟨fun i hrole => ?_, ?_⟩
  · have hlive := hlaid.valid.live_of_mem_children hx
    obtain ⟨other, hother, hstyles⟩ := h.attuned.dressed x i hlive hrole
    obtain ⟨_, q, hq, hplace⟩ := hlaid.fits_of_role hlive hrole
    rw [(hlaid.valid.mem_children p x).mp hx, Option.some.injEq] at hq
    subst hq
    have howner : (plan.role p).owner? = some i := by
      rcases hplace with hhome | hstyle
      · exact hlaid.owner_of_houses (Or.inl hhome)
      · rw [hstyle]
        rfl
    rw [hlaid.owner_of_houses hhouses, Option.some.injEq] at howner
    subst howner
    obtain rfl := eq_of_under_component h.orderly hother ho.1
    rw [h.component, Option.some.injEq] at hother
    exact hstyles (hother ▸ h.unstyled)
  · cases hrole : plan.role x with
    | slot i guard body =>
        obtain ⟨_, _, hmem⟩ := h.attuned.tended.planted i x guard body
          (hlaid.valid.live_of_mem_children hx) hrole
        exact absurd hmem List.not_mem_nil
    | document | host _ | shadow _ | copy _ | style _ | line _ _ | anchor _ _ _ _ => rfl

theorem tree_of_leaf (hleaf : (plan.role x).isLeaf = true) :
    page.dom.tree x = .node (page.dom.content x) (page.dom.marker x) [] := by
  rw [Dom.tree_eq h.attuned.laid.valid, h.attuned.laid.children_of_leaf hleaf]
  rfl

theorem meets_of_line (ho : page.ShownFrom c o) (hx : page.dom.Live x)
    (hrole : plan.role x = .line o sketch) (hfair : sketch.Fair state.definition)
    (htask : task ∈ sketch.tasks) : page.Meets state.scope (plan.role x) x task := by
  have hwants : plan.Wants page.dom o x task :=
    ⟨hx, by rw [hrole]; rfl, by rw [hrole]; exact htask⟩
  refine h.meets ho hwants (by rw [hrole]; exact hfair.distinct)
    (fun i hi => ?_) fun i hi => ?_
  · exact hfair.tracked i (Sketch.mem_interpolations htask hi)
  · exact hfair.declared i (Sketch.mem_interpolations htask hi)

theorem bears (ho : page.ShownFrom c o) (hx : page.dom.Live x)
    (hrole : plan.role x = .line o sketch) (hfair : sketch.Fair state.definition) :
    sketch.Bears state.definition (past c state.definition) (page.dom.content x) := by
  have hbears := h.attuned.tended.bears o x sketch state hx hrole hfair.distinct (h.holder?_eq ho)
  rwa [show (page.slot o).component = c from h.component_eq ho] at hbears

/-- The mount of a fragment whose anchor is shown follows its guard. -/
theorem isMounted_eq (ho : page.ShownFrom c o) (hx : page.dom.Live x) {guard : Interpolation}
    {body : Sketch} (hrole : plan.role x = .anchor o f guard body)
    (hfair : (Sketch.guarded guard body).Fair state.definition) :
    page.isMounted f = (guard.outcome state.scope).isTruthy := by
  have hwants : plan.Wants page.dom o x (.guardFragment guard) :=
    ⟨hx, by rw [hrole]; rfl, by rw [hrole]; exact List.mem_singleton_self _⟩
  refine h.meets ho hwants (by rw [hrole]; trivial) (fun i hi => ?_) (fun i hi => ?_) o f body hrole
  · cases hi
    exact hfair.tracked guard (List.mem_singleton_self guard)
  · cases hi
    exact hfair.declared guard (List.mem_singleton_self guard)

/-- An attribute of a shown element follows its binding, or it is what the template says. -/
theorem attribute?_eq (ho : page.ShownFrom c o) (hx : page.dom.Live x) {tag : String}
    {attributes : List Attribute} {bindings : List AttributeBinding} {kids : List Sketch}
    (hrole : plan.role x = .line o (.element tag attributes bindings kids))
    (hfair : (Sketch.element tag attributes bindings kids).Fair state.definition) (name : String) :
    (page.dom.content x).attribute? name =
      Sketch.attribute? state.scope attributes bindings name := by
  rw [Sketch.attribute?]
  cases hfind : bindings.find? (·.name = name) with
  | some b =>
      have hb : b.name = name := by simpa using List.find?_some hfind
      have hmeets := h.meets_of_line ho hx hrole hfair
        (List.mem_map_of_mem (List.mem_of_find?_eq_some hfind))
      rw [meets_iff_done rfl] at hmeets
      exact hb ▸ hmeets
  | none =>
      refine (h.bears ho hx hrole hfair).2 name fun hmem => ?_
      obtain ⟨b, hb, rfl⟩ := List.mem_map.mp hmem
      simpa using List.find?_eq_none.mp hfind b hb

omit h in
theorem shownFrom_fragment (ho : page.ShownFrom c o)
    (hup : page.up f = some o) (hmounted : page.isMounted f = true) : page.ShownFrom c f := by
  refine ⟨.step hup ho.1, fun i hci hif => ?_⟩
  rcases hif.cases_up with rfl | ⟨q, hq, hiq⟩
  · cases hstate : page.fragment? f with
    | none =>
        rw [isMounted, hstate] at hmounted
        cases hmounted
    | some state =>
        rw [isAttached, Instance.isAttached_of_fragment? hstate,
          ← isMounted_of_fragment? hstate, hmounted]
  · rw [hup, Option.some.injEq] at hq
    exact ho.2 i hci (hq ▸ hiq)

end Tasks

mutual

/-- The nodes for a sketch hold what it is rendered to. -/
theorem renders (h : page.Clean reading past plan c state) :
    ∀ (sketch : Sketch) {o : InstanceId} {nodes : List NodeId}, page.ShownFrom c o →
      (∀ part ∈ sketch.parts, part.Fair state.definition) → (∀ x ∈ nodes, page.dom.Live x) →
      page.Fills plan o sketch nodes →
      sketch.Renders (fun i => i.Leaves state.definition (past c state.definition) state.scope)
        state.scope (nodes.map page.dom.tree)
  | .fixed content, o, nodes, ho, hfair, hlive, hfills => by
      cases hfills with
      | @line x _ hx =>
          have hsuits := (h.attuned.laid.fits_of_role (hlive x (List.mem_singleton_self x)) hx).2.1
          refine ⟨page.dom.marker x, ?_⟩
          rw [List.map_singleton, h.tree_of_leaf (by rw [hx]; rfl)]
          rw [show page.dom.content x = content from hsuits]
  | .text i, o, nodes, ho, hfair, hlive, hfills => by
      have hself := hfair (.text i) (Sketch.self_mem_parts _)
      cases hfills with
      | @line x _ hx =>
          have hx' := hlive x (List.mem_singleton_self x)
          obtain ⟨s, hcontent, hshown⟩ := h.bears ho hx' hx hself
          refine ⟨s, page.dom.marker x, ?_, ?_⟩
          · rw [List.map_singleton, h.tree_of_leaf (by rw [hx]; rfl), hcontent]
          · have hmeets := h.meets_of_line ho hx' hx hself (List.mem_singleton_self _)
            rw [meets_iff_done rfl] at hmeets
            refine Interpolation.leaves_of (fun s' hs' => ?_) hshown
            have htext := hmeets s' hs'
            rw [hcontent, Content.text.injEq] at htext
            exact htext
  | .element tag attributes bindings kids, o, nodes, ho, hfair, hlive, hfills => by
      have hlaid := h.attuned.laid
      have hself := hfair (.element tag attributes bindings kids) (Sketch.self_mem_parts _)
      cases hfills with
      | @line x _ hx =>
          have hx' := hlive x (List.mem_singleton_self x)
          obtain ⟨held, hcontent⟩ := (hlaid.fits_of_role hx' hx).2.1
          have hbears := h.bears ho hx' hx hself
          have hattributes := h.attribute?_eq ho hx' hx hself
          rw [hcontent] at hbears hattributes
          refine ⟨held, page.dom.marker x, (page.dom.children x).map page.dom.tree, ?_, hbears.1,
            hattributes, ?_⟩
          · rw [List.map_singleton, Dom.tree_eq hlaid.valid, hcontent]
          · have hfills := h.fillsAll ho (Or.inr ⟨tag, attributes, bindings, kids, hx⟩)
            rw [hlaid.lines x o tag attributes bindings kids hx' hx] at hfills
            exact rendersAll h kids ho (fun part hpart => hfair part (List.mem_cons_of_mem _ hpart))
              (fun y hy => hlaid.valid.live_of_mem_children hy) hfills
  | .guarded guard body, o, nodes, ho, hfair, hlive, hfills => by
      have hlaid := h.attuned.laid
      have hself := hfair (.guarded guard body) (Sketch.self_mem_parts _)
      have hanchor : ∀ {x f}, plan.role x = .anchor o f guard body → page.dom.Live x →
          page.dom.tree x = .node (.comment anchorText) (page.dom.marker x) [] := by
        intro x f hx hx'
        rw [h.tree_of_leaf (by rw [hx]; rfl), (hlaid.fits_of_role hx' hx).2.1]
      cases hfills with
      | @line x _ hx =>
          exact ((hlaid.fits_of_role (hlive x (List.mem_singleton_self x)) hx).2.1).elim
      | @shut x f _ _ hx hmounted =>
          have hx' := hlive x (List.mem_singleton_self x)
          refine ⟨page.dom.marker x, [], by rw [List.map_singleton, hanchor hx hx'], ?_⟩
          rw [if_neg (by rw [← h.isMounted_eq ho hx' hx hself, hmounted]; exact Bool.false_ne_true)]
      | @shown x r f _ _ hx hmounted hr =>
          have hx' := hlive x List.mem_cons_self
          refine ⟨page.dom.marker x, [page.dom.tree r], ?_, ?_⟩
          · rw [List.map_cons, List.map_singleton, hanchor hx hx']
          · rw [if_pos (by rw [← h.isMounted_eq ho hx' hx hself, hmounted])]
            have hf := shownFrom_fragment ho (hlaid.fits_of_role hx' hx).2.2.2.1 hmounted
            exact renders h body hf (fun part hpart => hfair part (List.mem_cons_of_mem _ hpart))
              (fun y hy => hlive y (List.mem_cons_of_mem _ hy)) (.line hr)

theorem rendersAll (h : page.Clean reading past plan c state) :
    ∀ (sketches : List Sketch) {o : InstanceId} {nodes : List NodeId}, page.ShownFrom c o →
      (∀ part ∈ Sketch.partsAll sketches, part.Fair state.definition) →
      (∀ x ∈ nodes, page.dom.Live x) → page.FillsAll plan o sketches nodes →
      Sketch.RendersAll
        (fun i => i.Leaves state.definition (past c state.definition) state.scope) state.scope
        sketches (nodes.map page.dom.tree)
  | [], _, _, _, _, _, hfills => by
      cases hfills
      rfl
  | sketch :: rest, o, nodes, ho, hfair, hlive, hfills => by
      cases hfills with
      | @cons _ _ first more hfirst hrest =>
          exact ⟨first.map page.dom.tree, more.map page.dom.tree, List.map_append,
            renders h sketch ho (fun part hpart => hfair part (List.mem_append_left _ hpart))
              (fun x hx => hlive x (List.mem_append_left _ hx)) hfirst,
            rendersAll h rest ho (fun part hpart => hfair part (List.mem_append_right _ hpart))
              (fun x hx => hlive x (List.mem_append_right _ hx)) hrest⟩

end

/-- Below its root, a component has what its lines are rendered to. -/
theorem rendersAll_root (h : page.Clean reading past plan c state) (hhomed : page.Homed plan)
    (hconnected : state.connected = true)
    (hfair : ∀ part ∈ Sketch.partsAll (reading state.definition.blueprint),
      part.Fair state.definition) :
    Sketch.RendersAll
      (fun i => i.Leaves state.definition (past c state.definition) state.scope) state.scope
      (reading state.definition.blueprint)
      ((page.dom.children state.root).map page.dom.tree) := by
  have hlaid := h.attuned.laid
  have hhome := hhomed c state h.component hconnected
  obtain ⟨other, hother, _, hlines⟩ := (hlaid.home c state.root hhome).state
  rw [h.component, Option.some.injEq] at hother
  subst hother
  have hshown : page.ShownFrom c c := by
    refine shownFrom_self ?_ h.orderly
    rw [isAttached, Instance.isAttached_of_component? h.component, hconnected]
  have hfills := h.fillsAll hshown (Or.inl hhome)
  rw [hlines] at hfills
  exact h.rendersAll _ hshown hfair (fun x hx => hlaid.valid.live_of_mem_children hx) hfills

end Clean

end Page

end LiveMarkup
