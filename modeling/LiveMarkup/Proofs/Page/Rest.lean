import LiveMarkup.Proofs.Page.Arrival
import LiveMarkup.Proofs.Page.Elsewhere

/-!
Pages at rest. Between two requests nothing is left to be done, what a connected component has rendered
is in its root, and mounts are counted right. Scripts that leave the document alone, passes and direct
mounts end in a page at rest again.
-/

namespace LiveMarkup

/-- A component read from markup whose scripts leave the document alone, one of those that are `known`.
-/
structure Component.Native (reading : Blueprint → List Sketch) (known : Component → Prop)
    (definition : Component) : Prop where
  legible : Page.Legible reading definition
  edits : definition.Edits fun _ => False
  known : known definition

/-- A request about components that are `native`, which are connected under the document. -/
def Request.Plain (native : Component → Prop) (document : NodeId) : Request → Prop
  | .define definition => native definition
  | .connect _ parent => parent = document
  | _ => True

theorem Request.Plain.imp {native native' : Component → Prop} {document : NodeId}
    {request : Request} (h : request.Plain native document)
    (hnative : ∀ definition, native definition → native' definition) :
    request.Plain native' document := by
  cases request with
  | define definition => exact hnative definition h
  | _ => exact h

namespace Page

variable {reading : Blueprint → List Sketch} {known : Component → Prop} {page page' : Page}
  {plan plan' : Plan}
  {n document : NodeId} {c f : InstanceId} {state : ComponentState}

structure Rested (reading : Blueprint → List Sketch) (page : Page) (plan : Plan) : Prop where
  busy : Busy reading ⟨page, plan, []⟩
  balanced : page.Balanced
  home : ∀ c n, plan.home c = some n → ∃ state, page.component? c = some state ∧ state.root = n

/-- Components keep their roots, whatever else becomes of the page. -/
theorem Rested.next (h : page.Rested reading plan) (hbusy : Busy reading ⟨page', plan', []⟩)
    (hbalanced : page'.Balanced) (hhome : plan'.home = plan.home)
    (hroot : ∀ c state, page.component? c = some state → ∃ state',
      page'.component? c = some state' ∧ state'.root = state.root) : page'.Rested reading plan' where
  busy := hbusy
  balanced := hbalanced
  home c n hn := by
    rw [hhome] at hn
    obtain ⟨state, hstate, hsame⟩ := h.home c n hn
    obtain ⟨state', hstate', hsame'⟩ := hroot c state hstate
    exact ⟨state', hstate', hsame'.trans hsame⟩

theorem Rested.calm (h : page.Rested reading plan) (hcalm : Calm page page')
    (hbusy : Busy reading ⟨page', plan', []⟩) (hhome : plan'.home = plan.home) :
    page'.Rested reading plan' := by
  refine h.next hbusy (h.balanced.calm hcalm) hhome fun c state hstate => ?_
  obtain ⟨fields, references, hstate'⟩ := hcalm.component? hstate
  exact ⟨_, hstate', rfl⟩

theorem Rested.idle (h : page.Rested reading plan) (hidle : Idle page page') :
    page'.Rested reading plan :=
  h.calm hidle.toCalm (h.busy.idle hidle) rfl

/-- An attribute of a host may be anything. -/
theorem Rested.put (h : page.Rested reading plan) (hstate : page.component? c = some state)
    (name : String) (value : Option String) :
    (page.editDom (·.putAttribute state.host name value)).Rested reading plan := by
  have hlaid := h.busy.laid
  have hhost := (hlaid.component c state hstate).host_role
  refine h.calm (calm_editDom page _) (h.busy.akin (akin_editDom page _)
    (Dom.putAttribute_rewritten hlaid.valid state.host name value) (fun n _ hsuits => ?_)
    h.busy.ready h.busy.apart) rfl
  by_cases hn : n = state.host
  · rw [hn, hhost]
    trivial
  · rwa [editDom, Dom.content_putAttribute_of_ne hn]

theorem Rested.kept (h : page.Rested reading plan) (hbusy : Busy reading ⟨page', plan', []⟩)
    (hbalanced : page'.Balanced) (hhome : plan'.home = plan.home)
    (hkept : ∀ i, (page.slot i).Kept page.effects (page'.slot i)) : page'.Rested reading plan' := by
  refine h.next hbusy hbalanced hhome fun i state hstate => ?_
  obtain ⟨⟨references, hstate'⟩, _⟩ := (hkept i).component_state state hstate
  exact ⟨_, hstate', rfl⟩

theorem Rested.acts {middle : Page} {agenda : List Errand} {late : Prop}
    (h : page.Rested reading plan) (hbusy : Busy reading ⟨middle, plan', agenda⟩)
    (hbalanced : middle.Balanced) (hhome : plan'.home = plan.home)
    (hacts : Acts c late (middle, agenda) (page', []))
    (hkept : ∀ i, (page.slot i).Kept page.effects (page'.slot i)) :
    ∃ plan'', page'.Rested reading plan'' ∧ plan''.home = plan.home ∧
      Work.Carries c ⟨middle, plan', agenda⟩ ⟨page', plan'', []⟩ := by
  obtain ⟨plan'', hbusy', hbalanced', hhome', hcarries⟩ := hacts.busy hbusy hbalanced
  have hsame := hhome'.trans hhome
  exact ⟨plan'', h.kept hbusy' hbalanced' hsame hkept, hsame, hcarries⟩

/-- The changed effects of a component and of the fragments mounted in it are run. -/
theorem Rested.runEffects (h : page.Rested reading plan) (horderly : page.Orderly)
    (hstate : page.component? c = some state) (hconnected : state.connected = true) :
    ∃ plan', (page.runEffects c state.definition.blueprint.depth).Rested reading plan' ∧
      plan'.home = plan.home ∧ Work.Carries c ⟨page, plan, []⟩
        ⟨page.runEffects c state.definition.blueprint.depth, plan', []⟩ :=
  h.acts h.busy h.balanced rfl (runEffects_acts horderly hstate hconnected)
    (runEffects_turn horderly hstate).turn.kept

/-- No component is made or written to when effects run. -/
theorem Turn.component?_back {inside : InstanceId → Prop} (hturn : Turn inside page page')
    {state' : ComponentState} (hstate' : page'.component? c = some state') :
    ∃ state references, page.component? c = some state ∧ state' = { state with references } := by
  have hkept := hturn.kept c
  cases hkind : (page.slot c).kind with
  | component state =>
      have hstate := Instance.component?_of_kind hkind
      obtain ⟨⟨references, hsame⟩, _⟩ := hkept.component_state state hstate
      rw [component?, hsame, Option.some.injEq] at hstate'
      exact ⟨state, references, hstate, hstate'.symm⟩
  | fragment state =>
      obtain ⟨_, _, hsame, _⟩ := hkept.fragment_state state (Instance.fragment?_of_kind hkind)
      rw [component?, Instance.component?_of_fragment? hsame] at hstate'
      cases hstate'
  | vacant =>
      rcases hkept.born (Instance.isVacant_iff.mpr hkind) with hvacant | ⟨state, hsame⟩
      · rw [Instance.not_vacant_of_component? hstate'] at hvacant
        cases hvacant
      · rw [component?, Instance.component?_of_fragment? hsame] at hstate'
        cases hstate'

/-! ### The whole page -/

/-- A page at rest with components that were read from markup. -/
structure Tidy (reading : Blueprint → List Sketch) (known : Component → Prop) (document : NodeId)
    (page : Page) : Prop where
  rested : ∃ plan, page.Rested reading plan
  document : page.document = document
  declared : ∀ tag definition, page.definitions.get? tag = some definition →
    definition.Native reading known
  made : ∀ c state, page.component? c = some state → state.definition.Native reading known

namespace Tidy

theorem next (h : page.Tidy reading known document) (hrested : ∃ plan, page'.Rested reading plan)
    (hdocument : page'.document = page.document) (hdefinitions : page'.definitions = page.definitions)
    (hback : ∀ c state', page'.component? c = some state' → ∃ state,
      page.component? c = some state ∧ state'.definition = state.definition) :
    page'.Tidy reading known document where
  rested := hrested
  document := hdocument.trans h.document
  declared := by
    rw [hdefinitions]
    exact h.declared
  made c state' hstate' := by
    obtain ⟨state, hstate, hdefinition⟩ := hback c state' hstate'
    rw [hdefinition]
    exact h.made c state hstate

theorem calm (h : page.Tidy reading known document) (hcalm : Calm page page')
    (hrested : ∀ plan, page.Rested reading plan → page'.Rested reading plan) :
    page'.Tidy reading known document := by
  refine h.next (h.rested.imp hrested) hcalm.document hcalm.definitions fun c state' hstate' => ?_
  obtain ⟨fields, references, hstate⟩ :=
    Instance.component?_of_form (hcalm.form c).symm hstate'
  exact ⟨_, hstate, rfl⟩

theorem idle (h : page.Tidy reading known document) (hidle : Idle page page') :
    page'.Tidy reading known document :=
  h.calm hidle.toCalm fun _ hrested => hrested.idle hidle

theorem turn (h : page.Tidy reading known document) {inside : InstanceId → Prop}
    (hturn : Turn inside page page') (hrested : ∃ plan, page'.Rested reading plan) :
    page'.Tidy reading known document := by
  refine h.next hrested hturn.document hturn.definitions fun c state' hstate' => ?_
  obtain ⟨state, references, hstate, rfl⟩ := hturn.component?_back hstate'
  exact ⟨state, hstate, rfl⟩

/-! ### Scripts -/

theorem put (h : page.Tidy reading known document) (hstate : page.component? c = some state)
    (name : String) (value : Option String) :
    (page.editDom (·.putAttribute state.host name value)).Tidy reading known document :=
  h.calm (calm_editDom page _) fun _ hrested => hrested.put hstate name value

theorem reflect (h : page.Tidy reading known document) (c : InstanceId) (field : String) :
    (page.reflect c field).Tidy reading known document :=
  reflect_keeps (P := Tidy reading known document)
    (fun _ name value hstate => h.put hstate name value) h field

end Tidy

theorem tidy_respects (c : InstanceId) :
    Respects (fun _ => False) c (Tidy reading known document) where
  store page field _ h :=
    ((h.idle (idle_mapComponent (fun state => ⟨_, state.references, rfl⟩) page c)).idle
      (idle_markChanged _ c field)).reflect c field
  mark page field h := h.idle (idle_markChanged page c field)
  edit _ _ hfalse _ := hfalse.elim
  note _ _ h := h.idle (idle_of_calm (calm_of_slots rfl rfl rfl rfl rfl rfl rfl rfl) rfl rfl)
  overrun _ h := h.idle (idle_of_calm (calm_of_slots rfl rfl rfl rfl rfl rfl rfl rfl) rfl rfl)
  scripts _ state h hstate := (h.made c state hstate).edits

theorem Tidy.callHook (h : page.Tidy reading known document) (c : InstanceId) (hook : Hooks → Script)
    (hhook : ∀ allowed hooks, Hooks.Edits allowed hooks → (hook hooks).Edits allowed) :
    (page.callHook c hook).Tidy reading known document :=
  callHook_respects (tidy_respects c) (hhook _) h

theorem Tidy.set (h : page.Tidy reading known document) {field : String} {value : Json}
    (hdone : page.set c field value = .ok page') : page'.Tidy reading known document := by
  unfold Page.set at hdone
  split at hdone
  · cases hdone
    exact write_respects (tidy_respects c) field value h
  · cases hdone

theorem Tidy.setHostAttribute (h : page.Tidy reading known document) {name : String}
    {value : Option String} (hdone : page.setHostAttribute c name value = .ok page') :
    page'.Tidy reading known document :=
  setHostAttribute_respects (tidy_respects c)
    (fun _ _ hstate name value hpage => hpage.put hstate name value) hdone h

theorem Tidy.dispatch (h : page.Tidy reading known document) (node : NodeId) (event : String) :
    (page.dispatch node event).1.Tidy reading known document := by
  exact dispatch_respects (fun page _ hskips hpage => hpage.idle (idle_report page hskips))
    tidy_respects node event h

/-! ### Passes and mounts -/

theorem Tidy.runEffects (h : page.Tidy reading known document) (horderly : page.Orderly)
    (hstate : page.component? c = some state) (hconnected : state.connected = true) :
    (page.runEffects c state.definition.blueprint.depth).Tidy reading known document := by
  obtain ⟨plan, hrested⟩ := h.rested
  exact h.turn (runEffects_turn horderly hstate).turn
    ((hrested.runEffects horderly hstate hconnected).imp fun _ => And.left)

theorem Tidy.runFrame (h : page.Tidy reading known document) (hawaits : page.Awaits [] fun _ => False) :
    page.runFrame.1.Tidy reading known document :=
  runFrame_keeps (fun _ _ hpassing hpage => hpage.idle hpassing.toIdle)
    (fun _ c _ hook hhook _ hpage => hpage.callHook c hook hhook)
    (fun _ _ _ _ horderly hstate hconnected hpage => hpage.runEffects horderly hstate hconnected)
    hawaits h

theorem Tidy.runUntilIdle (h : page.Tidy reading known document)
    (hawaits : page.Awaits [] fun _ => False) (limit : Nat) :
    (runUntilIdle limit page).1.Tidy reading known document := by
  induction limit generalizing page with
  | zero => exact h
  | succ limit ih =>
      rw [Page.runUntilIdle]
      split
      · exact ih (h.runFrame hawaits) hawaits.runFrame
      · exact h

/-- A fragment is mounted by hand. -/
theorem Rested.mount (h : page.Rested reading plan) (horderly : page.Orderly) (f : InstanceId) :
    ∃ plan', (page.mount f).Rested reading plan' ∧
      Work.SparesHosts ⟨page, plan, []⟩ ⟨page.mount f, plan', []⟩ ∧
        Work.Spares (page.slot f).component ⟨page, plan, []⟩ ⟨page.mount f, plan', []⟩ := by
  have hkept := (mount_turn horderly f).turn.kept
  unfold Page.mount at hkept ⊢
  cases hstate : page.fragment? f with
  | none => exact ⟨plan, h, .refl _, .refl _ _⟩
  | some state =>
      rw [hstate] at hkept
      obtain ⟨middle, new, hturned, hacts⟩ := mountWithin_splits (page.slot f).component True
        state.blueprint.depth page f horderly rfl (by rw [hstate]; rfl)
        (le_of_eq (Instance.rank_of_blueprint? (Instance.blueprint?_of_fragment? hstate)))
        (Or.inl trivial)
      obtain ⟨plan', hflip, hbusy⟩ := hturned.flip h.busy
      obtain ⟨plan'', hrested, _, hcarries⟩ :=
        h.acts hbusy (h.balanced.flip hflip) hflip.home (hacts []) hkept
      exact ⟨plan'', hrested,
        (hflip.sparesHosts h.busy.laid h.busy.acyclic).trans hcarries.hosts,
        (hflip.spares h.busy.laid h.busy.acyclic rfl).trans hcarries.spares⟩

theorem Rested.unmount (h : page.Rested reading plan) (horderly : page.Orderly) (f : InstanceId) :
    ∃ plan', (page.unmount f).Rested reading plan' ∧
      Work.SparesHosts ⟨page, plan, []⟩ ⟨page.unmount f, plan', []⟩ ∧
        Work.Spares (page.slot f).component ⟨page, plan, []⟩ ⟨page.unmount f, plan', []⟩ := by
  have hkept := (unmount_turn horderly f (page.Under f) .self).turn.kept
  cases hstate : page.fragment? f with
  | none =>
      rw [unmount_of_fragment?_eq_none hstate]
      exact ⟨plan, h, .refl _, .refl _ _⟩
  | some state =>
      obtain ⟨plan', hflip, hbusy⟩ := (turned_unmount hstate).flip h.busy
      exact ⟨plan', h.kept hbusy (h.balanced.flip hflip) hflip.home hkept,
        hflip.sparesHosts h.busy.laid h.busy.acyclic, hflip.spares h.busy.laid h.busy.acyclic rfl⟩

theorem Tidy.mount (h : page.Tidy reading known document) (horderly : page.Orderly) (f : InstanceId) :
    (page.mount f).Tidy reading known document := by
  obtain ⟨plan, hrested⟩ := h.rested
  exact h.turn (mount_turn horderly f).turn ((hrested.mount horderly f).imp fun _ => And.left)

theorem Tidy.unmount (h : page.Tidy reading known document) (horderly : page.Orderly) (f : InstanceId) :
    (page.unmount f).Tidy reading known document := by
  obtain ⟨plan, hrested⟩ := h.rested
  exact h.turn (unmount_turn horderly f (page.Under f) .self).turn
    ((hrested.unmount horderly f).imp fun _ => And.left)

end Page

end LiveMarkup
