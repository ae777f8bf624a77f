import LiveMarkup.Proofs.Dispatching

/-!
Requests about one component. What is asked of a component, its fragments or its nodes leaves all
other components with their slots and their nodes, and the nodes and the instances that come of it
belong to the component.
-/

namespace LiveMarkup

/-- Whether a request is about the component `c` and nothing else, as the page stands. -/
def Request.Concerns (page : Page) (c : InstanceId) : Request → Prop
  | .define _ | .create _ => False
  | .connect i parent => i = c ∧ parent = page.document
  | .disconnect i | .set i _ _ | .setHostAttribute i _ _ => i = c
  | .markChanged i _ | .mount i | .unmount i => (page.slot i).component = c
  | .dispatch node event => ∀ l ∈ page.listeners, l.event = Text.asciiLower event →
      page.dom.Below l.node node → l.component = c
  | .runFrame | .runUntilIdle _ => ∀ i ∈ page.queue, i = c

namespace Page

/-- All requests are about the component `c` when they are served one after the other. -/
def Confined (page : Page) (c : InstanceId) : List Request → Prop
  | [] => True
  | request :: rest => request.Concerns page c ∧ (page.serve request).Confined c rest

variable {reading : Blueprint → List Sketch} {known : Component → Prop} {base page page' : Page}
  {plan plan' : Plan} {n document : NodeId} {c f i : InstanceId} {state : ComponentState}
  {field : String} {value : Json}

/-! ### Slots -/

theorem SparesSlots.requestPass (c : InstanceId) (hself : (page.slot c).component = c) :
    SparesSlots c page (page.requestPass c) := by
  rcases requestPass_cases page c with hrequested | ⟨heq, _⟩
  · refine .of_other hself ?_ fun i hi => ?_
    · rw [hrequested.slot, if_pos rfl]
      exact hself
    · rw [hrequested.slot, if_neg hi]
  · rw [heq]
    exact .of_slot c fun _ => rfl

theorem SparesSlots.markAt (h : page.Orderly) (field : String)
    (hi : (page.slot i).component = c) : SparesSlots c page (markAt field page i) := by
  rcases markAt_cases h field i with ⟨_, next, hdyed, heq⟩ | ⟨_, heq⟩
  · have hfirst : SparesSlots c page next := by
      refine .of_other hi ((hdyed.marked.component_eq i).trans hi) fun j hj => ?_
      rw [hdyed.slot, if_neg hj]
    have hself : (next.slot c).component = c := by
      rw [hdyed.marked.component_eq, ← hi]
      exact h.component_component i
    rw [heq, hi]
    exact hfirst.trans (.requestPass c hself)
  · rw [heq]
    exact .of_slot c fun _ => rfl

/-- Marking a field reaches an instance and what lies in it. -/
theorem SparesSlots.markChanged (h : page.Orderly) (field : String)
    (hi : (page.slot i).component = c) : SparesSlots c page (page.markChanged i field) := by
  have hstep : ∀ next, ∀ j ∈ page.family i, Marked page next ∧ SparesSlots c page next →
      Marked page (Page.markAt field next j) ∧ SparesSlots c page (Page.markAt field next j) := by
    rintro next j hj ⟨hmarked, hspares⟩
    have hcomponent : (next.slot j).component = c := by
      rw [hmarked.component_eq, h.component_of_under (under_of_mem_descend h hj), hi]
    exact ⟨hmarked.trans (markAt_marked (hmarked.orderly h) field j),
      hspares.trans (.markAt (hmarked.orderly h) field hcomponent)⟩
  exact (foldl_respects hstep ⟨.refl page, .of_slot c fun _ => rfl⟩).2

theorem component_mapComponent (change : ComponentState → ComponentState) (i : Instance) :
    (i.mapComponent change).component = i.component := by
  unfold Instance.mapComponent
  split <;> rfl

/-- What is left when a component is taken down belongs to others, or is its own host. -/
theorem Rested.dismantle_spares (h : page.Rested reading plan) (horderly : page.Orderly)
    (hstate : page.component? c = some state) (hconnected : state.connected = true) :
    Work.Spares c ⟨page, plan, []⟩
      ⟨page.dismantle c state, ⟨plan.role, Function.update plan.home c none⟩, []⟩ := by
  have hself := (horderly.component_eq c state hstate).2
  have hempty : Emptied c page (page.dismantle c state) :=
    dismantle_emptied horderly (by rw [hstate]; rfl)
  have hleft := h.busy.laid.left hstate hconnected horderly fun _ hn => h.home_eq hstate hn
  have houtside : ∀ i, page.Elsewhere c i → ¬ page.Under c i := fun i helse hunder =>
    helse.other ((horderly.component_of_under hunder).trans hself)
  refine .of_nodes ⟨fun i helse => hleft.slot i (houtside i helse), fun i helse => ?_⟩
    (fun n hn => ?_) fun n hn => ⟨(hleft.live n hn.live).1, rfl⟩
  · have hi : i ≠ c := by
      rintro rfl
      exact helse.other (by rw [hempty.slot_self hstate]; exact hself)
    have hsame := hleft.slot i (hleft.there i helse.there hi)
    exact ⟨hsame ▸ helse.there, hsame ▸ helse.other⟩
  · obtain ⟨hlive, hcontent, _⟩ := hleft.node n hn.live fun ⟨o, howner, hunder⟩ =>
      houtside o (hn.owner o howner) hunder
    exact ⟨hlive, rfl, hcontent⟩

/-! ### One component at work -/

/-- Since the page was `base`, where nodes played their roles by `plan`, nothing has become of what
does not belong to the component `c`. -/
structure Alone (reading : Blueprint → List Sketch) (known : Component → Prop) (document : NodeId)
    (c : InstanceId) (base : Page) (plan : Plan) (page : Page) : Prop where
  orderly : page.Orderly
  tidy : page.Tidy reading known document
  self : ∃ state state', base.component? c = some state ∧ page.component? c = some state' ∧
    state'.host = state.host
  rested : ∃ plan', page.Rested reading plan' ∧
    Work.Spares c ⟨base, plan, []⟩ ⟨page, plan', []⟩

/-- What scripts of the component `c` that leave the document alone come to do to it: attributes of the
host are written, and nobody starts or stops to listen. -/
structure Repaints (c : InstanceId) (page page' : Page) : Prop where
  listeners : page'.listeners = page.listeners
  live : ∀ n, page'.dom.Live n ↔ page.dom.Live n
  parent : page'.dom.parent = page.dom.parent
  children : page'.dom.children = page.dom.children
  content : ∀ n, (∀ state, page.component? c = some state → n ≠ state.host) →
    page'.dom.content n = page.dom.content n

namespace Repaints

theorem of_dom (hdom : page'.dom = page.dom) (hlisteners : page'.listeners = page.listeners) :
    Repaints c page page' :=
  ⟨hlisteners, fun n => by rw [hdom], by rw [hdom], by rw [hdom], fun n _ => by rw [hdom]⟩

theorem put (hvalid : page.dom.Valid) (hstate : page.component? c = some state) (name : String)
    (value : Option String) :
    Repaints c page (page.editDom (·.putAttribute state.host name value)) := by
  have hsame := Dom.putAttribute_rewritten hvalid state.host name value
  exact ⟨rfl, hsame.live, funext hsame.parent, funext hsame.children, fun n hn =>
    Dom.content_putAttribute_of_ne (hn state hstate) name value⟩

/-- The host stays the same one. -/
theorem trans {page'' : Page} (h : Repaints c page page')
    (hhost : ∀ state', page'.component? c = some state' → ∃ state,
      page.component? c = some state ∧ state'.host = state.host)
    (h' : Repaints c page' page'') : Repaints c page page'' where
  listeners := h'.listeners.trans h.listeners
  live n := (h'.live n).trans (h.live n)
  parent := h'.parent.trans h.parent
  children := h'.children.trans h.children
  content n hn := by
    refine (h'.content n fun state' hstate' => ?_).trans (h.content n hn)
    obtain ⟨state, hstate, heq⟩ := hhost state' hstate'
    rw [heq]
    exact hn state hstate

end Repaints

namespace Alone

section Steps

variable (h : Alone reading known document c base plan page)

include h

theorem next (horderly : page'.Orderly) (htidy : page'.Tidy reading known document)
    (hself : ∀ state, page.component? c = some state → ∃ state', page'.component? c = some state' ∧
      state'.host = state.host)
    (hrested : ∀ plan, page.Rested reading plan → ∃ plan', page'.Rested reading plan' ∧
      Work.Spares c ⟨page, plan, []⟩ ⟨page', plan', []⟩) :
    Alone reading known document c base plan page' where
  orderly := horderly
  tidy := htidy
  self := by
    obtain ⟨state, state', hstate, hstate', hhost⟩ := h.self
    obtain ⟨state'', hstate'', hhost'⟩ := hself state' hstate'
    exact ⟨state, state'', hstate, hstate'', hhost'.trans hhost⟩
  rested := by
    obtain ⟨plan', hrested', hspares⟩ := h.rested
    obtain ⟨plan'', hrested'', hspares'⟩ := hrested plan' hrested'
    exact ⟨plan'', hrested'', hspares.trans hspares'⟩

theorem component_self : (page.slot c).component = c := by
  obtain ⟨_, state, _, hstate, _⟩ := h.self
  exact (h.orderly.component_eq c state hstate).2

theorem valid : page.dom.Valid := by
  obtain ⟨_, hrested⟩ := h.tidy.rested
  exact hrested.busy.laid.valid

theorem calm (horderly : page'.Orderly) (htidy : page'.Tidy reading known document)
    (hcalm : Calm page page') (hrested : ∀ plan, page.Rested reading plan →
      page'.Rested reading plan ∧ Work.Spares c ⟨page, plan, []⟩ ⟨page', plan, []⟩) :
    Alone reading known document c base plan page' := by
  refine h.next horderly htidy (fun state hstate => ?_) fun plan hplan => ⟨plan, hrested plan hplan⟩
  obtain ⟨fields, references, hstate'⟩ := hcalm.component? hstate
  exact ⟨_, hstate', rfl⟩

theorem idle (horderly : page'.Orderly) (hidle : Idle page page')
    (hslots : SparesSlots c page page') : Alone reading known document c base plan page' :=
  h.calm horderly (h.tidy.idle hidle) hidle.toCalm fun _ hrested =>
    ⟨hrested.idle hidle, .of_dom hslots hidle.dom rfl⟩

theorem same (hakin : Akin page page') (hidle : Idle page page') :
    Alone reading known document c base plan page' :=
  h.idle (h.orderly.of_akin hakin) hidle (.of_slot c hakin.slot)

theorem report {notice : Notice} (hskips : notice.skips = false) :
    Alone reading known document c base plan (page.report notice) :=
  h.same (akin_report page notice) (idle_report page hskips)

theorem put (hstate : page.component? c = some state) (name : String) (value : Option String) :
    Alone reading known document c base plan
      (page.editDom (·.putAttribute state.host name value)) := by
  refine h.calm (h.orderly.of_akin (akin_editDom page _)) (h.tidy.put hstate name value)
    (calm_editDom page _) fun plan hrested => ⟨hrested.put hstate name value, ?_⟩
  have hlaid := hrested.busy.laid
  have hsame := Dom.putAttribute_rewritten hlaid.valid state.host name value
  refine .of_nodes (.of_slot c fun _ => rfl) (fun n hn => ⟨(hsame.live n).mpr hn.live, rfl, ?_⟩)
    fun n hn => ⟨(hsame.live n).mp hn.live, rfl⟩
  refine Dom.content_putAttribute_of_ne ?_ name value
  rintro rfl
  exact hn.owner_ne h.component_self (congrArg Role.owner? (hlaid.component_role hstate))

theorem host_eq (h' : Alone reading known document c base plan page') {state' : ComponentState}
    (hstate' : page'.component? c = some state') :
    ∃ state, page.component? c = some state ∧ state'.host = state.host := by
  obtain ⟨first, state, hfirst, hstate, hhost⟩ := h.self
  obtain ⟨first', other, hfirst', hother, hhost'⟩ := h'.self
  rw [hfirst, Option.some.injEq] at hfirst'
  rw [hstate', Option.some.injEq] at hother
  exact ⟨state, hstate, by rw [hother, hhost', hhost, hfirst']⟩

theorem reflect (field : String) :
    Alone reading known document c base plan (page.reflect c field) :=
  reflect_keeps (fun _ name value hstate => h.put hstate name value) h field

theorem markChanged (hi : (page.slot i).component = c) (field : String) :
    Alone reading known document c base plan (page.markChanged i field) :=
  h.idle ((markChanged_marked h.orderly i field).orderly h.orderly) (idle_markChanged page i field)
    (.markChanged h.orderly field hi)

theorem putField (field : String) (value : Json) :
    Alone reading known document c base plan (page.putField c field value) :=
  h.idle (putField_orderly h.orderly c field value)
    (idle_mapComponent (fun state => ⟨_, state.references, rfl⟩) page c)
    (.of_update h.component_self (component_mapComponent _))

theorem store (field : String) (value : Json) :
    Alone reading known document c base plan (page.store c field value) := by
  have hput := h.putField field value
  exact (hput.markChanged hput.component_self field).reflect field

theorem repaints_store (field : String) (value : Json) :
    Repaints c page (page.store c field value) := by
  have hput := h.putField field value
  have hmarked := hput.markChanged hput.component_self field
  have hidle := idle_markChanged (page.putField c field value) c field
  have hsame : Repaints c page ((page.putField c field value).markChanged c field) :=
    .of_dom hidle.dom hidle.listeners
  rw [store_eq]
  exact reflect_keeps (fun state name value hstate => hsame.trans (fun _ => h.host_eq hmarked)
    (.put hmarked.valid hstate name value)) hsame field

end Steps

theorem respects : Respects (fun _ => False) c (Alone reading known document c base plan) where
  store _ field value h := h.store field value
  mark _ field h := h.markChanged h.component_self field
  edit _ _ hfalse _ := hfalse.elim
  note _ _ h := h.same ⟨rfl, rfl, rfl, rfl, rfl, rfl, rfl, rfl⟩
    (idle_of_calm (calm_of_slots rfl rfl rfl rfl rfl rfl rfl rfl) rfl rfl)
  overrun _ h := h.same ⟨rfl, rfl, rfl, rfl, rfl, rfl, rfl, rfl⟩
    (idle_of_calm (calm_of_slots rfl rfl rfl rfl rfl rfl rfl rfl) rfl rfl)
  scripts _ state h hstate := (h.tidy.made c state hstate).edits

theorem refl (horderly : page.Orderly) (htidy : page.Tidy reading known document)
    (hstate : page.component? c = some state) (hrested : page.Rested reading plan) :
    Alone reading known document c page plan page :=
  ⟨horderly, htidy, ⟨state, state, hstate, hstate, rfl⟩, plan, hrested, .refl c _⟩

variable (h : Alone reading known document c base plan page)

include h

theorem callHook (hook : Hooks → Script)
    (hhook : ∀ allowed hooks, Hooks.Edits allowed hooks → (hook hooks).Edits allowed) :
    Alone reading known document c base plan (page.callHook c hook) :=
  callHook_respects respects (hhook _) h

theorem mount (hf : (page.slot f).component = c) :
    Alone reading known document c base plan (page.mount f) := by
  have hturn := mount_turn h.orderly f
  refine h.next hturn.orderly (h.tidy.mount h.orderly f) (fun state hstate => ?_)
    fun plan hrested => ?_
  · obtain ⟨⟨_, hstate'⟩, _⟩ := (hturn.turn.kept c).component_state state hstate
    exact ⟨_, hstate', rfl⟩
  · obtain ⟨plan', hrested', _, hspares⟩ := hrested.mount h.orderly f
    exact ⟨plan', hrested', hf ▸ hspares⟩

theorem unmount (hf : (page.slot f).component = c) :
    Alone reading known document c base plan (page.unmount f) := by
  have hturn := unmount_turn h.orderly f (page.Under f) .self
  refine h.next hturn.orderly (h.tidy.unmount h.orderly f) (fun state hstate => ?_)
    fun plan hrested => ?_
  · obtain ⟨⟨_, hstate'⟩, _⟩ := (hturn.turn.kept c).component_state state hstate
    exact ⟨_, hstate', rfl⟩
  · obtain ⟨plan', hrested', _, hspares⟩ := hrested.unmount h.orderly f
    exact ⟨plan', hrested', hf ▸ hspares⟩

theorem runEffects (hstate : page.component? c = some state) (hconnected : state.connected = true) :
    Alone reading known document c base plan
      (page.runEffects c state.definition.blueprint.depth) := by
  have hturn := runEffects_turn h.orderly hstate
  refine h.next hturn.orderly (h.tidy.runEffects h.orderly hstate hconnected)
    (fun other hother => ?_) fun plan hrested => ?_
  · obtain ⟨⟨_, hstate'⟩, _⟩ := (hturn.turn.kept c).component_state other hother
    exact ⟨_, hstate', rfl⟩
  · obtain ⟨plan', hrested', _, hcarries⟩ := hrested.runEffects h.orderly hstate hconnected
    exact ⟨plan', hrested', hcarries.spares⟩

omit h in
theorem passing (h : Alone reading known document c base plan page) {waited : InstanceId → Prop}
    (hwaited : ∀ i, waited i → i = c) (hpassing : Passing waited page page') :
    Alone reading known document c base plan page' := by
  refine h.idle hpassing.orderly hpassing.toIdle (.of_other h.component_self ?_ fun i hi =>
    hpassing.other i fun hwaits => hi (hwaited i hwaits))
  exact (hpassing.toCalm.component c).trans h.component_self

/-- A frame in which nothing else waits. -/
theorem runFrame (hawaits : page.Awaits [] fun _ => False) (hqueue : ∀ i ∈ page.queue, i = c) :
    Alone reading known document c base plan page.runFrame.1 :=
  runFrame_keeps (P := Alone reading known document c base plan)
    (fun _ _ hpassing hpage => hpage.passing hqueue hpassing)
    (fun _ i hi hook hhook _ hpage => by
      cases hqueue i hi
      exact hpage.callHook hook hhook)
    (fun _ i hi _ _ hstate hconnected hpage => by
      cases hqueue i hi
      exact hpage.runEffects hstate hconnected) hawaits h

theorem set (hdone : page.set c field value = .ok page') :
    Alone reading known document c base plan page' :=
  set_respects respects hdone h

theorem setHostAttribute {name : String} {value : Option String}
    (hdone : page.setHostAttribute c name value = .ok page') :
    Alone reading known document c base plan page' :=
  setHostAttribute_respects respects (fun _ _ hstate name value hpage => hpage.put hstate name value)
    hdone h

/-- Scripts of the component only write attributes of its host. -/
theorem repaints_respects : Respects (fun _ => False) c fun next =>
    Alone reading known document c base plan next ∧ Repaints c page next where
  store _ field value hnext := ⟨hnext.1.store field value,
    hnext.2.trans (fun _ => h.host_eq hnext.1) (hnext.1.repaints_store field value)⟩
  mark next field hnext := ⟨hnext.1.markChanged hnext.1.component_self field,
    hnext.2.trans (fun _ => h.host_eq hnext.1) (.of_dom (idle_markChanged next c field).dom
      (idle_markChanged next c field).listeners)⟩
  edit _ _ hfalse _ := hfalse.elim
  note _ entry hnext := ⟨respects.note _ entry hnext.1,
    hnext.2.trans (fun _ => h.host_eq hnext.1) (.of_dom rfl rfl)⟩
  overrun _ hnext := ⟨respects.overrun _ hnext.1,
    hnext.2.trans (fun _ => h.host_eq hnext.1) (.of_dom rfl rfl)⟩
  scripts _ state hnext hstate := respects.scripts _ state hnext.1 hstate

/-- An event that only the component hears. -/
theorem dispatch {node : NodeId} {event : String} (hheard : ∀ l ∈ page.listeners,
    l.event = Text.asciiLower event → page.dom.Below l.node node → l.component = c) :
    Alone reading known document c base plan (page.dispatch node event).1 := by
  have hown : ∀ next n, page.dom.Below n node →
      Alone reading known document c base plan next ∧ Repaints c page next →
        ∀ l ∈ next.listenersAt n (Text.asciiLower event), Respects (fun _ => False) l.component
          fun next => Alone reading known document c base plan next ∧ Repaints c page next := by
    intro next n hn hnext l hl
    obtain ⟨hmem, hl⟩ := List.mem_filter.mp hl
    rw [hnext.2.listeners] at hmem
    simp only [Bool.and_eq_true, decide_eq_true_eq] at hl
    rw [hheard l hmem hl.2 (hl.1 ▸ hn)]
    exact h.repaints_respects
  refine (bubble_respects (fun next notice hskips hnext => ⟨hnext.1.report hskips, hnext.2.trans
      (fun _ => h.host_eq hnext.1) (.of_dom rfl rfl)⟩)
    (fun n => page.dom.Below n node) hown (fun next n p hn hnext hp => ?_) _ .self
    ⟨h, .of_dom rfl rfl⟩).1
  rw [hnext.2.parent] at hp
  exact (Above.of_up hp).trans hn

theorem placed (hstate : page.component? c = some state) :
    Alone reading known document c base plan (page.placed c state document) := by
  refine foldl_respects (fun _ p _ hpage => hpage.reflect p.name) ?_
  refine h.calm (h.orderly.of_akin (akin_editDom page _)) (h.tidy.place hstate)
    (calm_editDom page _) fun plan hrested => ⟨?_, ?_⟩
  · exact hrested.calm (calm_editDom page _) (h.tidy.document ▸ hrested.busy.place hstate) rfl
  · have hplaced := h.tidy.document ▸ hrested.busy.laid.place hstate
    exact .of_nodes (.of_slot c fun _ => rfl)
      (fun n hn => ⟨(hplaced.live n).mpr hn.live, rfl, hplaced.content n⟩)
      fun n hn => ⟨(hplaced.live n).mp hn.live, rfl⟩

theorem rendered (hstate : page.component? c = some state) (hidle : state.connected = false) :
    Alone reading known document c base plan (page.rendered c state) := by
  obtain ⟨horderly, _, _, _⟩ := rendered_frame h.orderly hstate
  refine h.next horderly (h.tidy.rendered h.orderly hstate hidle) (fun other hother => ?_)
    fun plan hrested => ?_
  · rw [hstate, Option.some.injEq] at hother
    obtain ⟨root, references, hstate'⟩ := component?_rendered h.orderly hstate
    exact ⟨_, hstate', by rw [hother]⟩
  · obtain ⟨plan', hrested', _, hspares⟩ := hrested.rendered h.orderly hstate hidle
    exact ⟨plan', hrested', hspares⟩

theorem connect (hdone : page.connect c document = .ok page') :
    Alone reading known document c base plan page' := by
  obtain ⟨_, state, _, hstate, _⟩ := h.self
  rw [connect_eq hstate, Except.ok.injEq] at hdone
  rw [← hdone]
  split
  · exact h
  · rename_i hidle
    have hstate' : (page.placed c state document).component? c = some state := by
      rwa [component?, (akin_placed page c state document).slot]
    exact ((h.placed hstate).rendered hstate' (by simpa using hidle)).callHook _
      fun _ _ hedits => hedits.started

theorem dismantle (hstate : page.component? c = some state) (hconnected : state.connected = true) :
    Alone reading known document c base plan (page.dismantle c state) := by
  have hempty : Emptied c page (page.dismantle c state) :=
    dismantle_emptied h.orderly (by rw [hstate]; rfl)
  refine h.next (hempty.orderly hstate h.orderly) (h.tidy.dismantle h.orderly hstate hconnected)
    (fun other hother => ?_) fun plan hrested => ⟨_, hrested.dismantle h.orderly hstate hconnected,
      hrested.dismantle_spares h.orderly hstate hconnected⟩
  rw [hstate, Option.some.injEq] at hother
  exact ⟨_, by rw [component?, hempty.slot_self hstate]; rfl, by rw [hother]⟩

theorem disconnect (hdone : page.disconnect c = .ok page') :
    Alone reading known document c base plan page' := by
  obtain ⟨_, state, _, hstate, _⟩ := h.self
  rw [disconnect_eq hstate, Except.ok.injEq] at hdone
  rw [← hdone]
  split
  · rename_i hconnected
    have hwritten := callHook_written h.orderly c Hooks.removed fun _ hedits => hedits.removed
    obtain ⟨fields, hfields⟩ := hwritten.component?_eq c
    rw [hstate] at hfields
    have hhook := h.callHook (·.removed) fun _ _ hedits => hedits.removed
    have hstate' : (page.callHook c (·.removed)).component? c = some { state with fields } := hfields
    have hgone := hhook.dismantle hstate' hconnected
    exact hgone
  · exact h

/-- Only the component is asked to wait. -/
theorem queue (hbase : base.Awaits [] fun _ => False) (hawaits : page.Awaits [] fun _ => False)
    (hqueue : ∀ i ∈ base.queue, i = c) : ∀ i ∈ page.queue, i = c := by
  intro i hi
  by_contra hne
  rw [← List.append_nil page.queue, hawaits.mem_iff] at hi
  obtain ⟨state, hstate⟩ := Option.isSome_iff_exists.mp hi.1
  have helse : page.Elsewhere c i := by
    refine ⟨Instance.not_vacant_of_component? hstate, ?_⟩
    rwa [(h.orderly.component_eq i state hstate).2]
  obtain ⟨plan', _, hspares⟩ := h.rested
  have hslot : page.slot i = base.slot i := hspares.slots.slot i (hspares.slots.there i helse)
  rw [component?, hslot] at hi
  refine hne (hqueue i ?_)
  rw [← List.append_nil base.queue, hbase.mem_iff]
  exact hi

theorem runUntilIdle (hawaits : page.Awaits [] fun _ => False) (hqueue : ∀ i ∈ page.queue, i = c)
    (limit : Nat) : Alone reading known document c base plan (runUntilIdle limit page).1 := by
  induction limit generalizing page with
  | zero => exact h
  | succ limit ih =>
      rw [Page.runUntilIdle]
      split
      · obtain ⟨_, state, _, hstate, _⟩ := h.self
        obtain ⟨_, hrested⟩ := h.tidy.rested
        have hframe := (refl h.orderly h.tidy hstate hrested).runFrame hawaits hqueue
        exact ih (h.runFrame hawaits hqueue) hawaits.runFrame
          (hframe.queue hawaits hawaits.runFrame hqueue)
      · exact h

theorem serve (hawaits : page.Awaits [] fun _ => False) {request : Request}
    (hrequest : request.Concerns page c) :
    Alone reading known document c base plan (page.serve request) := by
  cases request with
  | define _ | create _ => cases hrequest
  | connect i parent =>
      obtain ⟨rfl, rfl⟩ := hrequest
      exact settle_of h fun _ hdone => h.connect (h.tidy.document ▸ hdone)
  | disconnect i =>
      cases hrequest
      exact settle_of h fun _ hdone => h.disconnect hdone
  | set i field value =>
      cases hrequest
      exact settle_of h fun _ hdone => h.set hdone
  | setHostAttribute i name value =>
      cases hrequest
      exact settle_of h fun _ hdone => h.setHostAttribute hdone
  | markChanged i field => exact h.markChanged hrequest field
  | dispatch node event => exact h.dispatch hrequest
  | mount f => exact h.mount hrequest
  | unmount f => exact h.unmount hrequest
  | runFrame => exact h.runFrame hawaits hrequest
  | runUntilIdle limit => exact h.runUntilIdle hawaits hrequest limit

/-- Any number of requests about the component alone. -/
theorem serve_all (hawaits : page.Awaits [] fun _ => False) {requests : List Request}
    (hrequests : page.Confined c requests) :
    Alone reading known document c base plan (requests.foldl Page.serve page) ∧
      (requests.foldl Page.serve page).Awaits [] fun _ => False := by
  induction requests generalizing page with
  | nil => exact ⟨h, hawaits⟩
  | cons request rest ih =>
      exact ih (h.serve hawaits hrequests.1) (hawaits.serve request) hrequests.2

end Alone

end Page

end LiveMarkup
