import LiveMarkup.Proofs.PassRuns

/-!
Listeners evaluate in instances that are there and name methods that are there. Wiring is all that
adds listeners, each for the instance that is wired, and a component that is disconnected takes its
own with it.
-/

namespace LiveMarkup.Page

variable {page page' page'' : Page} {id f c owner : InstanceId} {late : Prop}

/-- The definition of a component. -/
def definition? (page : Page) (id : InstanceId) : Option Component :=
  (page.component? id).map (·.definition)

/-- The scope of a listener is an instance of its component, which has the methods that the handler
names. -/
structure Hears (page : Page) (l : Listener) : Prop where
  scope : (page.slot l.scope).isVacant = false
  component : (page.slot l.scope).component = l.component
  methods : ∀ handler, l.handler = some handler → ∀ method ∈ handler.methods, ∃ definition,
    page.definition? l.component = some definition ∧ definition.hasMethod method = true

def Heard (page : Page) : Prop :=
  ∀ l ∈ page.listeners, page.Hears l

/-- Instances stay in their components, which keep their definitions, and no listener is new. -/
structure Stays (page page' : Page) : Prop where
  stays : ∀ j, (page.slot j).isVacant = false →
    (page'.slot j).isVacant = false ∧ (page'.slot j).component = (page.slot j).component
  definition : ∀ j definition, page.definition? j = some definition →
    page'.definition? j = some definition
  listeners : page'.listeners = page.listeners

theorem Calm.definition?_eq (h : Calm page page') (j : InstanceId) :
    page'.definition? j = page.definition? j := by
  have hform (i : Instance) : i.form.component?.map (·.definition) =
      i.component?.map (·.definition) := by
    rw [Instance.component?_form, Option.map_map]
    rfl
  rw [definition?, definition?, component?, component?, ← hform, h.form j, hform]

theorem Calm.stays (h : Calm page page') : Stays page page' where
  stays j hj := ⟨(h.isVacant j).trans hj, h.component j⟩
  definition j _ hdefinition := (h.definition?_eq j).trans hdefinition
  listeners := h.listeners

theorem Stays.trans (h : Stays page page') (h' : Stays page' page'') : Stays page page'' where
  stays j hj :=
    ⟨(h'.stays j (h.stays j hj).1).1,
      (h'.stays j (h.stays j hj).1).2.trans (h.stays j hj).2⟩
  definition j definition hdefinition :=
    h'.definition j definition (h.definition j definition hdefinition)
  listeners := h'.listeners.trans h.listeners

theorem Hears.of_stays {l : Listener} (h : page.Hears l) (hstays : Stays page page') :
    page'.Hears l where
  scope := (hstays.stays l.scope h.scope).1
  component := (hstays.stays l.scope h.scope).2.trans h.component
  methods handler hhandler method hmethod := by
    obtain ⟨definition, hdefinition, hhas⟩ := h.methods handler hhandler method hmethod
    exact ⟨definition, hstays.definition _ _ hdefinition, hhas⟩

theorem Heard.of_stays (h : page.Heard) (hstays : Stays page page') : page'.Heard := by
  intro l hl
  rw [hstays.listeners] at hl
  exact (h l hl).of_stays hstays

/-! ### Acts -/

/-- What of an instance stays. -/
def place (i : Instance) : Bool × InstanceId × Option Component :=
  (i.isVacant, i.component, i.component?.map (·.definition))

theorem place_mapFragment (f : FragmentState → FragmentState) (i : Instance) :
    place (i.mapFragment f) = place i := by
  unfold Instance.mapFragment
  split
  · rename_i state hkind
    simp [place, Instance.isVacant, Instance.component?, hkind]
  · rfl

theorem stays_of_place (hplace : ∀ j, place (page'.slot j) = place (page.slot j))
    (hlisteners : page'.listeners = page.listeners) : Stays page page' where
  stays j hj := by
    have hsame := hplace j
    rw [place, place, Prod.mk.injEq, Prod.mk.injEq] at hsame
    exact ⟨hsame.1.trans hj, hsame.2.1⟩
  definition j definition hdefinition := by
    have hsame := hplace j
    rw [place, place, Prod.mk.injEq, Prod.mk.injEq] at hsame
    exact hsame.2.2.trans hdefinition
  listeners := hlisteners

/-- Instances that keep their slots stay. -/
theorem stays_of_slots (hslots : ∀ j, (page.slot j).isVacant = false →
    ∃ children, page'.slot j = { page.slot j with children })
    (hlisteners : page'.listeners = page.listeners) : Stays page page' where
  stays j hj := by
    obtain ⟨children, hslot⟩ := hslots j hj
    rw [hslot]
    exact ⟨hj, rfl⟩
  definition j definition hdefinition := by
    obtain ⟨state, hstate, _⟩ := Option.map_eq_some_iff.mp hdefinition
    obtain ⟨children, hslot⟩ := hslots j (Instance.not_vacant_of_component? hstate)
    rw [definition?, component?, hslot]
    exact hdefinition
  listeners := hlisteners

theorem stays_setMounted (page : Page) (id : InstanceId) (root : NodeId) :
    Stays page (page.setMounted id root) :=
  stays_of_place (read_updateSlot place (place_mapFragment _) page id)
    rfl

theorem stays_unmount (page : Page) (id : InstanceId) : Stays page (page.unmount id) :=
  stays_of_place (read_unmount place (place_mapFragment _) page id)
    (listeners_unmount page id)

theorem stays_createFragment (h : page.Orderly) (howner : (page.slot owner).isVacant = false)
    (blueprint : Blueprint) (anchor : NodeId) (locals : Dict Expr.Value) :
    Stays page (page.createFragment owner blueprint anchor locals).1 := by
  have hjoins := createFragment_joins h howner blueprint anchor locals
  refine stays_of_slots (fun j hj => ⟨_, hjoins.slot_other j (hjoins.ne_of_not_vacant hj)⟩) ?_
  unfold createFragment occupy
  dsimp only
  split <;> rfl

theorem Turned.stays {wish : Bool} {new : List Chore} (h : Turned f page wish page' new) :
    Stays page page' := by
  have hdom := fun dom => (calm_dom page dom).stays
  cases h with
  | kept _ | hidden _ _ _ => exact (Calm.refl page).stays
  | unmounted _ _ => exact stays_unmount page f
  | remounted _ _ _ _ _ | mounted _ _ _ _ _ _ _ =>
      exact ((hdom _).trans (stays_setMounted _ f _)).trans (calm_report _ rfl).stays
  | refused _ _ _ _ | rootless _ _ _ _ _ | unplaced _ _ _ _ _ _ =>
      exact stays_of_slots (fun j _ => ⟨(page.slot j).children, rfl⟩) rfl

theorem Mounted.stays {e : Effect} {new : List Chore} (h : Mounted e page page' new) :
    Stays page page' := by
  cases h with
  | guarded _ _ hturned => exact (calm_checked page e _).stays.trans hturned.stays
  | always _ _ hturned => exact (calm_counted page e).stays.trans hturned.stays
  | idle _ _ => exact (calm_counted page e).stays

theorem anchored_stays (h : page.Orderly) (howner : (page.slot owner).isVacant = false)
    {node anchor : NodeId} {index : Nat} {directive : Directive Blueprint}
    (hanchored : page.anchored owner node index directive = (page', anchor, f)) :
    Stays page page' := by
  have hakin := (Rendering.akin_reportMismatch page index directive node).trans
    (Rendering.akin_placeAnchor _ node)
  have hcalm := (calm_reportMismatch page index directive node).trans (calm_placeAnchor _ node)
  unfold anchored at hanchored
  cases hanchored
  exact hcalm.stays.trans (stays_createFragment (h.of_akin hakin)
    ((hcalm.isVacant owner).trans howner) directive.blueprint _ .empty)

theorem hasMethod_of_not_missing {handler : Handler}
    (h : page.missingMethod? owner handler = none) {method : String}
    (hmethod : method ∈ handler.methods) : ∃ definition,
      page.definition? (page.slot owner).component = some definition ∧
        definition.hasMethod method = true := by
  have hhas := List.find?_eq_none.mp h method hmethod
  rw [Bool.not_eq_true, Bool.not_eq_false'] at hhas
  split at hhas
  · rename_i state hstate
    exact ⟨state.definition, by rw [definition?, hstate, Option.map_some], hhas⟩
  · cases hhas

theorem Heard.listen (h : page.Heard) (hvacant : (page.slot owner).isVacant = false)
    (node : NodeId) (binding : EventBinding) : (Page.listen owner node page binding).Heard := by
  have hadd : ∀ (next : Page) handler, Stays page next →
      (∀ other, handler = some other → page.missingMethod? owner other = none) → Heard
        { next with listeners := next.listeners ++ [⟨node, Text.asciiLower binding.name,
          (next.slot owner).component, owner, handler⟩] } := by
    intro next handler hstays hmissing l hl
    rcases List.mem_append.mp hl with hl | hl
    · obtain ⟨hscope, hcomponent, hmethods⟩ := h.of_stays hstays l hl
      exact ⟨hscope, hcomponent, hmethods⟩
    · cases List.mem_singleton.mp hl
      refine ⟨(hstays.stays owner hvacant).1, rfl, fun other hother method hmethod => ?_⟩
      obtain ⟨definition, hdefinition, hhas⟩ :=
        hasMethod_of_not_missing (hmissing other hother) hmethod
      refine ⟨definition, ?_, hhas⟩
      rw [← (hstays.stays owner hvacant).2] at hdefinition
      exact hstays.definition _ _ hdefinition
  unfold Page.listen
  cases binding.handler with
  | none => exact hadd page none (Calm.refl page).stays fun _ hnone => by cases hnone
  | some handler =>
      dsimp only
      cases hmissing : page.missingMethod? owner handler with
      | none =>
          exact hadd page (some handler) (Calm.refl page).stays fun _ hsome => by
            cases hsome
            exact hmissing
      | some method => exact hadd _ none (calm_report page rfl).stays fun _ hnone => by cases hnone

theorem Step.heard {s s' : Page × List Errand} (hstep : Step c late s s') (h : s.1.Heard) :
    s'.1.Heard := by
  obtain ⟨horderly, hact⟩ := hstep
  cases hact with
  | @unmark page _ node _ _ => exact h.of_stays (calm_editDom page (·.setMarker node none)).stays
  | refer _ => exact h.of_stays (idle_setReference _ _ _ _).toCalm.stays
  | listen _ hvacant => exact h.listen hvacant _ _
  | unknown => exact h.of_stays (calm_report _ rfl).stays
  | enroll _ _ _ => exact h.of_stays (calm_enrolled _ _ _).stays
  | guard _ hattached hanchored =>
      exact h.of_stays ((anchored_stays horderly (Instance.not_vacant_of_isAttached hattached)
        hanchored).trans (calm_enrolled _ _ _).stays)
  | nest _ hattached hmade =>
      have hcreate := stays_createFragment horderly (Instance.not_vacant_of_isAttached hattached)
      exact h.of_stays ((congrArg Prod.fst hmade ▸ hcreate _ _ _).trans
        (calm_enrolled _ _ _).stays)
  | rewrite mount _ _ hwrites => exact h.of_stays (calm_runEffect mount _ hwrites).stays
  | remount _ _ hmounted => exact h.of_stays hmounted.stays
  | rest _ _ => exact h.of_stays (idle_scheduled _ _ false).toCalm.stays
  | @drain page o _ _ _ _ _ _ =>
      exact h.of_stays (calm_mapBindings page o fun _ => (page.slot o).bindings.clearChanges).stays

theorem Acts.heard {s s' : Page × List Errand} (hacts : Acts c late s s') (h : s.1.Heard) :
    s'.1.Heard := by
  induction hacts with
  | refl => exact h
  | tail _ hstep ih => exact hstep.heard ih

/-! ### Requests -/

theorem heard_respects (id : InstanceId) : Respects (fun _ => True) id Heard :=
  calm_respects (fun _ _ hcalm h => h.of_stays hcalm.stays) fun _ state _ _ =>
    state.definition.edits_true

theorem Heard.callHook (h : page.Heard) (id : InstanceId) (hook : Hooks → Script)
    (hhook : ∀ allowed hooks, Hooks.Edits allowed hooks → (hook hooks).Edits allowed) :
    (page.callHook id hook).Heard :=
  callHook_respects (heard_respects id) (hhook _) h

theorem Heard.runEffects (h : page.Heard) (horderly : page.Orderly) {state : ComponentState}
    (hstate : page.component? id = some state) (hconnected : state.connected = true) :
    (page.runEffects id state.definition.blueprint.depth).Heard := by
  have hacts : Acts id True (page, []) (page.runEffects id state.definition.blueprint.depth, []) :=
    runEffects_acts horderly hstate hconnected
  exact hacts.heard h

theorem Heard.runFrame (h : page.Heard) (hawaits : page.Awaits [] fun _ => False) :
    page.runFrame.1.Heard :=
  runFrame_keeps (fun _ _ hpassing hpage => hpage.of_stays hpassing.toCalm.stays)
    (fun _ id _ hook hhook _ hpage => hpage.callHook id hook hhook)
    (fun _ _ _ _ horderly hstate hconnected hpage => hpage.runEffects horderly hstate hconnected)
    hawaits h

theorem Heard.runUntilIdle (h : page.Heard) (hawaits : page.Awaits [] fun _ => False)
    (limit : Nat) : (runUntilIdle limit page).1.Heard := by
  induction limit generalizing page with
  | zero => exact h
  | succ limit ih =>
      rw [Page.runUntilIdle]
      split
      · exact ih (h.runFrame hawaits) hawaits.runFrame
      · exact h

theorem Heard.mount (h : page.Heard) (horderly : page.Orderly) (id : InstanceId) :
    (page.mount id).Heard := by
  unfold Page.mount
  cases hstate : page.fragment? id with
  | none => exact h
  | some state =>
      obtain ⟨middle, new, hturned, hacts⟩ := mountWithin_splits (page.slot id).component True
        state.blueprint.depth page id horderly rfl (by rw [hstate]; rfl)
        (le_of_eq (Instance.rank_of_blueprint? (Instance.blueprint?_of_fragment? hstate)))
        (Or.inl trivial)
      exact (hacts []).heard (h.of_stays hturned.stays)

theorem calm_placed (page : Page) (id : InstanceId) (state : ComponentState) (parent : NodeId) :
    Calm page (page.placed id state parent) :=
  (calm_editDom page _).trans (.foldl (fun page (p : Property) => calm_reflect page id p.name) _ _)

theorem calm_makeRoot (page : Page) (state : ComponentState) :
    Calm page (page.makeRoot state).1 := by
  unfold makeRoot
  split
  · exact calm_dom page _
  · exact .refl page

theorem stays_attach {state : ComponentState} (hstate : page.component? id = some state)
    (root : NodeId) : Stays page (page.attach id root) := by
  refine stays_of_place (fun j => ?_) rfl
  rw [slot_attach hstate]
  split
  · rename_i hj
    have hstate' : (page.slot id).component? = some state := hstate
    rw [hj, place, place, Instance.not_vacant_of_component? hstate, hstate']
    rfl
  · rfl

theorem Heard.rendered (h : page.Heard) (horderly : page.Orderly) {state : ComponentState}
    (hstate : page.component? id = some state) : (page.rendered id state).Heard := by
  have hroot := akin_makeRoot page state
  have hcalm := calm_makeRoot page state
  unfold Page.rendered
  generalize page.makeRoot state = made at hroot hcalm ⊢
  obtain ⟨next, root⟩ := made
  have hstate' : next.component? id = some state := by
    rw [component?, hroot.slot id]
    exact hstate
  have hslot := slot_attach hstate' root id
  rw [if_pos rfl] at hslot
  have hconnected : (next.attach id root).component? id =
      some { state with root, connected := true } := by
    rw [component?, hslot]
    rfl
  have hclean : ((next.attach id root).slot id).bindings.hasChanges = false := by
    rw [hslot]
    exact Bindings.hasChanges_clearChanges
  obtain ⟨drawn, hacts, hrender⟩ := render_acts (attach_orderly hstate' (horderly.of_akin hroot) root)
    hconnected rfl hclean rfl root
  have hattached := (h.of_stays hcalm.stays).of_stays (stays_attach hstate' root)
  have hdrawn : drawn.Heard := hacts.heard (hattached.of_stays (calm_dom _ _).stays)
  dsimp only at hrender ⊢
  rw [hrender]
  exact hdrawn.of_stays (((calm_editDom drawn _).trans (calm_editDom _ _)).trans
    (calm_report _ rfl)).stays

theorem Heard.connect (h : page.Heard) (horderly : page.Orderly) {parent : NodeId}
    (hdone : page.connect id parent = .ok page') : page'.Heard := by
  cases hstate : page.component? id with
  | none =>
      rw [Page.connect, hstate] at hdone
      cases hdone
  | some state =>
      rw [connect_eq hstate, Except.ok.injEq] at hdone
      rw [← hdone]
      split
      · exact h
      · have hplaced := akin_placed page id state parent
        refine Heard.callHook ?_ id _ fun _ _ hedits => hedits.started
        refine (h.of_stays (calm_placed page id state parent).stays).rendered
          (horderly.of_akin hplaced) ?_
        rw [component?, hplaced.slot]
        exact hstate

theorem listeners_dismantle (horderly : page.Orderly) (id : InstanceId) (state : ComponentState) :
    (page.dismantle id state).listeners = page.listeners.filter (·.component ≠ id) := by
  have hcleared := (retireAll_cleared horderly id).listeners
  have hroot : ∀ (page : Page) host root,
      (page.clearRoot host root).listeners = page.listeners := by
    intro page host root
    unfold clearRoot
    split <;> rfl
  unfold dismantle
  dsimp only
  refine (hroot _ state.host state.root).trans ?_
  exact congrArg (List.filter (·.component ≠ id)) hcleared

/-- What is heard elsewhere is not in the component that is taken down. -/
theorem Heard.dismantle (h : page.Heard) (horderly : page.Orderly)
    (hcomponent : (page.component? id).isSome = true) (state : ComponentState) :
    (page.dismantle id state).Heard := by
  obtain ⟨own, hown⟩ := Option.isSome_iff_exists.mp hcomponent
  have hempty : Emptied id page (page.dismantle id state) := dismantle_emptied horderly hcomponent
  have hself : (page.slot id).component = id := (horderly.component_eq id own hown).2
  have hsame : ∀ {j}, (page.slot j).component ≠ id →
      (page.dismantle id state).slot j = page.slot j := by
    intro j hj
    refine hempty.other j ?_ ?_
    · rintro rfl
      exact hj hself
    · intro hinside
      exact hj ((horderly.component_of_under (hinside.under horderly)).trans hself)
  intro l hl
  rw [listeners_dismantle horderly, List.mem_filter, decide_eq_true_eq] at hl
  obtain ⟨hvacant, hscope, hmethods⟩ := h l hl.1
  have hslot := hsame (j := l.scope) (hscope ▸ hl.2)
  refine ⟨hslot ▸ hvacant, hslot ▸ hscope, fun handler hhandler method hmethod => ?_⟩
  obtain ⟨definition, hdefinition, hhas⟩ := hmethods handler hhandler method hmethod
  obtain ⟨other, hother, _⟩ := Option.map_eq_some_iff.mp hdefinition
  have hproper : (page.slot l.component).component = l.component :=
    (horderly.component_eq l.component other hother).2
  have hslot := hsame (j := l.component) (hproper.symm ▸ hl.2)
  exact ⟨definition, by rwa [definition?, component?, hslot], hhas⟩

theorem Heard.disconnect (h : page.Heard) (horderly : page.Orderly)
    (hdone : page.disconnect id = .ok page') : page'.Heard := by
  cases hstate : page.component? id with
  | none =>
      rw [Page.disconnect, hstate] at hdone
      cases hdone
  | some state =>
      rw [disconnect_eq hstate, Except.ok.injEq] at hdone
      rw [← hdone]
      split
      · have hwritten := callHook_written horderly id Hooks.removed fun _ hedits => hedits.removed
        obtain ⟨fields, hfields⟩ := hwritten.component?_eq id
        rw [hstate] at hfields
        exact (h.callHook id _ fun _ _ hedits => hedits.removed).dismantle hwritten.orderly
          (by rw [hfields]; rfl) state
      · exact h

theorem Heard.create (h : page.Heard) (horderly : page.Orderly) {tag : String}
    (hdone : page.create tag = .ok (page', id)) : page'.Heard := by
  cases hdefinition : page.definitions.get? tag with
  | none =>
      rw [Page.create, hdefinition] at hdone
      cases hdone
  | some definition =>
      rw [create_eq hdefinition] at hdone
      cases hdone
      have hjoins := create_joins horderly definition (page.dom.createElement tag).1
        (page.dom.createElement tag).2
      refine h.of_stays (stays_of_slots
        (fun j hj => ⟨_, hjoins.slot_other j (hjoins.ne_of_not_vacant hj)⟩) ?_)
      unfold occupy
      dsimp only
      split <;> rfl

theorem Heard.serve (h : page.Heard) (hawaits : page.Awaits [] fun _ => False)
    (request : Request) : (page.serve request).Heard := by
  have hrespects := fun id => heard_respects id
  cases request with
  | define definition =>
      refine settle_of h fun next hdone => ?_
      unfold Page.define at hdone
      split at hdone
      · cases hdone
      · split at hdone
        · cases hdone
        · cases hdone
          exact h.of_stays (stays_of_slots (fun j _ => ⟨(page.slot j).children, rfl⟩) rfl)
  | create tag =>
      refine settle_of h fun next hdone => ?_
      cases hcreate : page.create tag with
      | error e =>
          rw [hcreate] at hdone
          cases hdone
      | ok made =>
          rw [hcreate] at hdone
          cases hdone
          exact h.create hawaits.orderly hcreate
  | connect id parent => exact settle_of h fun _ hdone => h.connect hawaits.orderly hdone
  | disconnect id => exact settle_of h fun _ hdone => h.disconnect hawaits.orderly hdone
  | set id field value =>
      refine settle_of h fun next hdone => ?_
      unfold Page.set at hdone
      split at hdone
      · cases hdone
        exact write_respects (hrespects id) field value h
      · cases hdone
  | setHostAttribute id name value =>
      exact settle_of h fun _ hdone => setHostAttribute_respects (hrespects id)
        (fun page _ _ _ _ hpage => hpage.of_stays (calm_editDom page _).stays) hdone h
  | markChanged id field => exact h.of_stays (idle_markChanged page id field).toCalm.stays
  | dispatch node event =>
      exact dispatch_respects
        (fun page _ hskips hpage => hpage.of_stays (calm_report page hskips).stays) hrespects node event h
  | mount id => exact h.mount hawaits.orderly id
  | unmount id => exact h.of_stays (stays_unmount page id)
  | runFrame => exact h.runFrame hawaits
  | runUntilIdle limit => exact h.runUntilIdle hawaits limit

theorem heard_after (styles : StyleAttacher) (requests : List Request) :
    (after styles requests).Heard := by
  have hboth : ∀ (requests : List Request) (page : Page), page.Awaits [] (fun _ => False) →
      page.Heard → (requests.foldl serve page).Heard := by
    intro requests
    induction requests with
    | nil => exact fun _ _ h => h
    | cons request rest ih =>
        exact fun page hawaits h => ih _ (hawaits.serve request) (h.serve hawaits request)
  refine hboth requests _ (start_awaits styles) fun l hl => ?_
  cases hl

end LiveMarkup.Page
