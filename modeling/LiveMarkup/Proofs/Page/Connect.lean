import LiveMarkup.Proofs.Page.Disconnect

/-!
Creating and connecting a component. A new component has nothing but its fields, and a component
that is connected has nothing dirty once it is rendered.
-/

namespace LiveMarkup.Page

variable {page page' : Page} {rest : List InstanceId} {busy : InstanceId → Prop}
  {i : Instance} {id j : InstanceId} {root : NodeId}

/-! ### Creating -/

theorem not_holds_foldl_ensure (fields : List String) {b : Bindings} (h : ∀ e, ¬ b.Holds e)
    (e : Effect) : ¬ (fields.foldl Bindings.ensure b).Holds e := by
  induction fields generalizing b with
  | nil => exact h e
  | cons field rest ih =>
      refine ih fun e he => ?_
      obtain ⟨field, he⟩ := he
      exact h e ⟨field, Bindings.registers_ensure.mp he⟩

theorem hasChanges_foldl_ensure (fields : List String) (b : Bindings) :
    (fields.foldl Bindings.ensure b).hasChanges = b.hasChanges := by
  induction fields generalizing b with
  | nil => rfl
  | cons field rest ih => rw [List.foldl_cons, ih, Bindings.hasChanges_ensure]

/-- A new component, with a table entry for each of its fields. -/
def newComponent (id : InstanceId) (definition : Component) (host : NodeId) : Instance :=
  { Instance.alone id
      (.component ⟨definition, host, host, definition.defaults, .empty, false⟩) with
    bindings := definition.defaults.keys.foldl Bindings.ensure .empty }

theorem create_eq {tag : String} {definition : Component}
    (hdefinition : page.definitions.get? tag = some definition) :
    page.create tag = .ok
      ({ page with dom := (page.dom.createElement tag).1 }.occupy
        (newComponent page.nextSlot definition (page.dom.createElement tag).2), page.nextSlot) := by
  rw [create, hdefinition]
  rfl

theorem create_joins (h : page.Orderly) (definition : Component) (dom : Dom) (host : NodeId) :
    Joins page.nextSlot (newComponent page.nextSlot definition host) page
      ({ page with dom }.occupy (newComponent page.nextSlot definition host)) :=
  have hjoins := occupy_joins { page with dom } (newComponent page.nextSlot definition host)
    (h.of_akin (akin_dom page dom)) rfl
  ⟨hjoins.queue, hjoins.effects, hjoins.ran, hjoins.definitions, hjoins.document, hjoins.styles,
    hjoins.vacant, hjoins.lt_size, hjoins.free_nodup, hjoins.mem_free, hjoins.slot_self,
    hjoins.slot_other⟩

theorem create_orderly (h : page.Orderly) (definition : Component) (dom : Dom) (host : NodeId) :
    ({ page with dom }.occupy (newComponent page.nextSlot definition host)).Orderly := by
  have hholds := not_holds_foldl_ensure definition.defaults.keys (b := .empty)
    fun _ => Bindings.not_holds_empty
  refine (create_joins h definition dom host).orderly h
    ⟨rfl, rfl, hholds, ⟨?_, ?_⟩, ?_, ?_, ?_, ?_, ?_⟩
  · rintro state ⟨⟩
  · rintro state ⟨⟩ _
    exact ⟨rfl, rfl, hholds⟩
  · rintro state ⟨⟩
    exact ⟨rfl, rfl⟩
  · rintro state ⟨⟩
  · rintro p ⟨⟩
  · rintro p ⟨⟩
  · rintro p ⟨⟩

/-- An instance that comes alone changes nothing about who waits. -/
theorem Awaits.join (h : page.Awaits rest busy) (hj : Joins id i page page')
    (horderly : page'.Orderly) (hparent : i.parent = none) (hscheduled : i.scheduled = false)
    (hattached : i.isAttached = false) (hclean : i.bindings.hasChanges = false) :
    page'.Awaits rest busy := by
  have hother : ∀ j, j ≠ id → page'.slot j = page.slot j := by
    intro j hne
    rw [hj.slot_other j hne, hparent]
    rfl
  have hempty := h.orderly.vacant_eq id hj.vacant
  have hnew : ∀ j, page.isAttached j = page'.isAttached j := by
    intro j
    by_cases heq : j = id
    · rw [isAttached, isAttached, heq, hempty, hj.slot_self, hattached]
      rfl
    · rw [isAttached, isAttached, hother j heq]
  have hup : page'.up = page.up := by
    funext j
    by_cases heq : j = id
    · rw [up, up, heq, hj.slot_self, hparent, hempty]
      rfl
    · rw [up, up, hother j heq]
  have hshown : ∀ a o, page'.ShownFrom a o ↔ page.ShownFrom a o := by
    intro a o
    simp only [ShownFrom, Under, hup, hnew]
  refine ⟨horderly, ?_, ?_, ?_, ?_⟩
  · intro j hfragment hchanges
    by_cases heq : j = id
    · rw [heq, hj.slot_self, hclean] at hchanges
      cases hchanges
    · rw [fragment?, hother j heq] at hfragment
      rw [hother j heq] at hchanges ⊢
      exact h.diligent j hfragment hchanges
  · rw [hj.queue]
    exact h.nodup
  · intro j
    rw [hj.queue, h.mem_iff]
    by_cases heq : j = id
    · rw [heq, hj.slot_self, hscheduled, component?, hempty]
      simp [Instance.alone, Instance.component?]
    · rw [component?, component?, hother j heq]
  · intro j hcomponent hshownj hbusy hdirty
    have hne : j ≠ id := by
      rintro rfl
      rw [isAttached, hj.slot_self, hattached] at hshownj
      cases hshownj
    rw [component?, hother j hne] at hcomponent
    rw [← hnew] at hshownj
    rw [hother j hne]
    refine h.prompt j hcomponent hshownj hbusy fun hquiet => hdirty fun o ho => ?_
    have ho := (hshown j o).mp ho
    by_cases heq : o = id
    · rw [heq, hj.slot_self, hclean]
    · rw [hother o heq]
      exact hquiet o ho

theorem Awaits.create (h : page.Awaits rest busy) {tag : String}
    (hdone : page.create tag = .ok (page', id)) : page'.Awaits rest busy := by
  cases hdefinition : page.definitions.get? tag with
  | none =>
      rw [Page.create, hdefinition] at hdone
      cases hdone
  | some definition =>
      rw [create_eq hdefinition] at hdone
      cases hdone
      refine h.join (create_joins h.orderly definition _ _) (create_orderly h.orderly _ _ _) rfl rfl
        rfl ?_
      exact hasChanges_foldl_ensure _ _

/-! ### Connecting -/

/-- The host is in its place, with the attributes that show its properties. -/
def placed (page : Page) (id : InstanceId) (state : ComponentState) (parent : NodeId) : Page :=
  state.definition.forcedProperties.foldl (fun page p => page.reflect id p.name)
    (page.editDom (·.appendChild parent state.host))

/-- A component is attached, with a root to render into. -/
def attach (page : Page) (id : InstanceId) (root : NodeId) : Page :=
  page.updateSlot id fun i =>
    (i.mapBindings (·.clearChanges)).mapComponent ({ · with root, connected := true })

/-- A component is attached and rendered, before its hook runs. -/
def rendered (page : Page) (id : InstanceId) (state : ComponentState) : Page :=
  let (page, root) := page.makeRoot state
  let page := (page.attach id root).render id state.definition root
  (page.editDom fun dom => page.styles.attach dom root state.definition.styles).report
    (.connected state.definition.tag id.number)

theorem connect_eq {state : ComponentState} (hstate : page.component? id = some state)
    (parent : NodeId) :
    page.connect id parent = .ok (if state.connected then page
      else ((page.placed id state parent).rendered id state).callHook id (·.started)) := by
  rw [connect]
  split
  · rename_i hnone
    rw [hstate] at hnone
    cases hnone
  · rename_i other hother
    rw [hstate] at hother
    cases hother
    cases state.connected <;> rfl

theorem akin_placed (page : Page) (id : InstanceId) (state : ComponentState) (parent : NodeId) :
    Akin page (page.placed id state parent) :=
  (akin_editDom page _).trans (Akin.foldl (fun page (p : Property) => akin_reflect page id p.name) _ _)

theorem akin_makeRoot (page : Page) (state : ComponentState) :
    Akin page (page.makeRoot state).1 := by
  unfold makeRoot
  split
  · exact akin_dom page _
  · exact .refl page

section Attach

variable {state : ComponentState} (hstate : page.component? id = some state)

include hstate

theorem slot_attach (root : NodeId) (j : InstanceId) :
    (page.attach id root).slot j =
      if j = id then
        { page.slot j with
          bindings := (page.slot j).bindings.clearChanges
          kind := .component { state with root, connected := true } }
      else page.slot j := by
  rw [attach, slot_updateSlot (lt_size_of_not_vacant (Instance.not_vacant_of_component? hstate))]
  split
  · rename_i heq
    subst heq
    have hkind := Instance.kind_of_component? hstate
    simp only [Instance.mapBindings, Instance.mapComponent, hkind]
  · rfl

/-- A component that was given its root is ready to be rendered. -/
theorem attach_ready {made : Page} {root : NodeId} (hmade : page.makeRoot state = (made, root)) :
    Akin page made ∧ made.component? id = some state ∧
      (made.attach id root).component? id = some { state with root, connected := true } ∧
        ((made.attach id root).slot id).bindings.hasChanges = false := by
  have hakin := akin_makeRoot page state
  rw [hmade] at hakin
  have hstate' : made.component? id = some state := by rwa [component?, hakin.slot]
  have hslot := slot_attach hstate' root id
  rw [if_pos rfl] at hslot
  refine ⟨hakin, hstate', ?_, ?_⟩
  · rw [component?, hslot]
    rfl
  · rw [hslot]
    exact Bindings.hasChanges_clearChanges

theorem attach_orderly (h : page.Orderly) (root : NodeId) : (page.attach id root).Orderly := by
  have hslot := slot_attach hstate root id
  have hkind := Instance.kind_of_component? hstate
  rw [if_pos rfl] at hslot
  refine h.retouch (retouch_updateSlot page id _) ?_ ?_ ?_
  · rw [hslot]
    refine ⟨rfl, rfl, rfl, ?_, ?_, ?_⟩
    · simp [Instance.blueprint?, hkind]
    · simp [Instance.component?, hkind]
    · rw [Instance.not_vacant_of_component? hstate]
      intro hfalse
      cases hfalse
  · rw [hslot]
    refine ⟨?_, ?_⟩
    · rintro fragment ⟨⟩
    · rintro other ⟨⟩ hconnected
      cases hconnected
  · intro e he
    rw [hslot] at he
    simpa using he

theorem Awaits.attach (h : page.Awaits rest busy) (hidle : state.connected = false)
    (root : NodeId) : (page.attach id root).Awaits rest busy := by
  have hslot := slot_attach hstate root
  have horderly := attach_orderly hstate h.orderly root
  obtain ⟨hchildren, hscheduled, _⟩ := (h.orderly.fit id).disconnected state hstate hidle
  have hself : (page.attach id root).slot id =
      { page.slot id with
        bindings := (page.slot id).bindings.clearChanges
        kind := .component { state with root, connected := true } } := by
    rw [hslot, if_pos rfl]
  have hother : ∀ j, j ≠ id → (page.attach id root).slot j = page.slot j := by
    intro j hne
    rw [hslot, if_neg hne]
  have hcomponent : ∀ j, ((page.attach id root).component? j).isSome =
      (page.component? j).isSome := by
    intro j
    by_cases heq : j = id
    · rw [heq, hstate, component?, hself]
      rfl
    · rw [component?, component?, hother j heq]
  have hwaits : ∀ j, ((page.attach id root).slot j).scheduled = (page.slot j).scheduled := by
    intro j
    by_cases heq : j = id
    · rw [heq, hself]
    · rw [hother j heq]
  refine ⟨horderly, ?_, h.nodup, ?_, ?_⟩
  · intro j hfragment hchanges
    have hne : j ≠ id := by
      rintro rfl
      rw [fragment?, hself] at hfragment
      cases hfragment
    rw [fragment?, hother j hne] at hfragment
    rw [hother j hne] at hchanges ⊢
    exact h.diligent j hfragment hchanges
  · intro j
    rw [hcomponent, hwaits]
    exact h.mem_iff j
  · intro j hj hattached hbusy hdirty
    rw [hcomponent] at hj
    by_cases heq : j = id
    · subst heq
      refine absurd (fun o ho => ?_) hdirty
      rcases under_cases horderly ho.1 with rfl | ⟨f, hf, _⟩
      · rw [hself]
        exact Bindings.hasChanges_clearChanges
      · rw [hself, hchildren] at hf
        cases hf
    · rw [isAttached, hother j heq] at hattached
      rw [hother j heq]
      refine h.prompt j hj hattached hbusy fun hquiet => hdirty fun o ho => ?_
      have hup : (page.attach id root).up = page.up := by
        funext k
        by_cases hk : k = id
        · rw [up, up, hk, hself]
        · rw [up, up, hother k hk]
      have hjo : page.Under j o := by
        have hunder := ho.1
        rwa [Under, hup] at hunder
      -- `id` is a component, so it is not in the family of `j`.
      have hne : ∀ i, page.Under j i → i ≠ id := by
        rintro i hji rfl
        exact heq (hji.eq_of_up_none (h.orderly.component_eq i state hstate).1)
      rw [hother o (hne o hjo)]
      refine hquiet o ⟨hjo, fun i hji hio => ?_⟩
      have hshown := ho.2 i (by rwa [Under, hup]) (by rwa [Under, hup])
      rwa [isAttached, hother i (hne i hji)] at hshown

end Attach

/-- A component that was just attached renders its template. -/
theorem rendering_of_connected (h : page.Orderly) {state : ComponentState}
    (hstate : page.component? id = some state) (hconnected : state.connected = true)
    (hclean : (page.slot id).bindings.hasChanges = false) :
    Rendering state.definition.blueprint.depth id state.definition.blueprint page := by
  refine ⟨h, Instance.blueprint?_of_component? hstate, Nat.le_succ _, ⟨?_, ?_⟩, hclean⟩
  · intro fragment hfragment
    rw [Instance.fragment?_of_component? hstate] at hfragment
    cases hfragment
  · intro other hother
    rw [show page.component? id = some other from hother] at hstate
    cases hstate
    exact hconnected

/-- Rendering a component is a turn of the component. -/
theorem render_turn (h : page.Orderly) {state : ComponentState}
    (hstate : page.component? id = some state) (hconnected : state.connected = true)
    (hclean : (page.slot id).bindings.hasChanges = false) (root : NodeId) :
    OrderlyTurn (page.Under id) [] page (page.render id state.definition root) := by
  have hakin := akin_dom page (state.definition.blueprint.instantiate page.dom).1
  have hrendering := rendering_of_connected h hstate hconnected hclean
  have hwire := hrendering.trans (hrendering.akin_turn hakin) fun hnext =>
    hnext.wireAll_turn (mountWithin_mounts state.definition.blueprint.depth)
      (state.definition.blueprint.instantiate page.dom).2.marked
  unfold render
  dsimp only
  exact hwire.trans_akin (akin_editDom _ _)

/-- The chores of a fresh copy are done without work that is not on the agenda. -/
theorem render_acts (h : page.Orderly) {state : ComponentState}
    (hstate : page.component? id = some state) (hconnected : state.connected = true)
    (hclean : (page.slot id).bindings.hasChanges = false) {dom : Dom} {copy : Dom.Copy}
    (hcopy : state.definition.blueprint.instantiate page.dom = (dom, copy)) (root : NodeId) :
    ∃ drawn, Acts id False
        ({ page with dom }, (state.definition.blueprint.chores id copy.marked).map .chore)
        (drawn, []) ∧
      page.render id state.definition root =
        drawn.editDom fun dom => (dom.moveChildren copy.root root).remove copy.root := by
  have hrendering := rendering_of_connected h hstate hconnected hclean
  have hbelongs : ∀ chore ∈ state.definition.blueprint.chores id copy.marked,
      chore.Belongs state.definition.blueprint id := fun _ => Blueprint.belongs_of_mem_chores
  have hacts := foldl_perform_acts (mountWithin_mounts _)
    (mountWithin_splits id False state.definition.blueprint.depth)
    (hrendering.of_turn (hrendering.akin_turn (akin_dom page dom)))
    (h.component_eq id state hstate).2
    ((Instance.isAttached_of_component? hstate).trans hconnected) hbelongs []
  rw [List.append_nil] at hacts
  refine ⟨_, hacts, ?_⟩
  rw [render, hcopy, ← wireAll_eq]

theorem Awaits.rendered (h : page.Awaits rest busy) {state : ComponentState}
    (hstate : page.component? id = some state) (hidle : state.connected = false) :
    (page.rendered id state).Awaits rest busy := by
  have hroot := akin_makeRoot page state
  unfold Page.rendered
  generalize page.makeRoot state = made at hroot ⊢
  obtain ⟨next, root⟩ := made
  have hnext := h.of_akin hroot
  have hstate' : next.component? id = some state := by
    rw [component?, hroot.slot id]
    exact hstate
  have hattached := hnext.attach hstate' hidle root
  have hslot := slot_attach hstate' root id
  rw [if_pos rfl] at hslot
  have hclean : ((next.attach id root).slot id).bindings.hasChanges = false := by
    rw [hslot]
    exact Bindings.hasChanges_clearChanges
  have hchildren : ((next.attach id root).slot id).children = [] := by
    rw [hslot]
    exact ((hnext.orderly.fit id).disconnected state hstate' hidle).1
  have hconnected : (next.attach id root).component? id =
      some { state with root, connected := true } := by
    rw [component?, hslot]
    rfl
  have hturn := render_turn hattached.orderly hconnected rfl hclean root
  have hquiet := quiet_of_childless hattached.orderly hturn.turn hclean hchildren
  have hrendered := (hattached.mono fun _ => Or.inl).of_turn hturn hquiet
  dsimp only
  generalize (next.attach id root).render id state.definition root = drawn at hrendered ⊢
  exact hrendered.of_akin ((akin_editDom drawn _).trans (akin_report _ _))

theorem Awaits.connect (h : page.Awaits rest busy) {parent : NodeId}
    (hdone : page.connect id parent = .ok page') : page'.Awaits rest busy := by
  cases hstate : page.component? id with
  | none =>
      rw [Page.connect, hstate] at hdone
      cases hdone
  | some state =>
      rw [connect_eq hstate] at hdone
      cases hdone
      split
      · exact h
      · rename_i hidle
        have hplaced := akin_placed page id state parent
        refine ((h.of_akin hplaced).rendered ?_ (by simpa using hidle)).callHook id
          Hooks.started fun _ hedits => hedits.started
        rw [component?, hplaced.slot id]
        exact hstate

end LiveMarkup.Page
