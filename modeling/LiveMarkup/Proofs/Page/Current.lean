import LiveMarkup.Proofs.Page.Attuned

/-!
Nothing is stale on a page that no fragment of which was mounted or unmounted by hand. Every other
request keeps that, and where effects run, the fields that components have are taken into the past.
-/

namespace LiveMarkup

theorem Bindings.contains_foldl_ensure {b : Bindings} {names : List String} {field : String} :
    (names.foldl ensure b).contains field = true ↔ field ∈ names ∨ b.contains field = true := by
  induction names generalizing b with
  | nil => simp
  | cons name rest ih =>
      rw [List.foldl_cons, ih, contains_ensure, List.mem_cons]
      tauto

theorem Component.mem_keys_defaults {definition : Component} {name : String} :
    name ∈ definition.defaults.keys ↔ definition.properties.contains name = true := by
  rw [Dict.contains_iff]
  simp [defaults, Dict.keys, Dict.mapValues]

/-- A request that does not mount or unmount a fragment against its guard. -/
def Request.Unforced : Request → Prop
  | .mount _ => False
  | .unmount _ => False
  | _ => True

/-- Hooks may write anything at any time, so that components that have them may have had any fields. -/
def Past.Lenient (past : Past) : Prop :=
  ∀ c definition fields, definition.hooks.isSome = true → past c definition fields

namespace Page

variable {reading : Blueprint → List Sketch} {page page' : Page} {plan plan' : Plan}
  {past past' : Past} {c i j : InstanceId} {document : NodeId} {field : String} {value : Json}
  {state : ComponentState}

/-- A tidy page on which nothing is stale, where declared fields are bound. -/
structure Current (reading : Blueprint → List Sketch) (document : NodeId) (past : Past)
    (page : Page) : Prop where
  orderly : page.Orderly
  tidy : page.Tidy reading (fun _ => True) document
  attuned : ∃ plan, page.Attuned reading past plan ∧ page.Homed plan
  bound : ∀ c state, page.component? c = some state → ∀ name,
    state.definition.properties.contains name = true →
      (page.slot c).bindings.contains name = true
  styles : page.styles = .elements

theorem Passing.upholds {waited : InstanceId → Prop} (h : Passing waited page page') :
    Upholds page page' where
  slot j := by
    obtain ⟨scheduled, hslot⟩ := h.slot j
    rw [hslot]
    exact .of_record (fun _ => rfl) fun _ _ he => he

namespace Current

theorem next (h : page.Current reading document past) (horderly : page'.Orderly)
    (htidy : page'.Tidy reading (fun _ => True) document)
    (hattuned : ∃ plan, page'.Attuned reading past plan ∧ page'.Homed plan)
    (hback : ∀ c state', page'.component? c = some state' → ∃ state,
      page.component? c = some state ∧ state'.definition = state.definition ∧ ∀ name,
        (page.slot c).bindings.contains name = true → (page'.slot c).bindings.contains name = true)
    (hstyles : page'.styles = page.styles) : page'.Current reading document past where
  orderly := horderly
  tidy := htidy
  attuned := hattuned
  bound c state' hstate' name hname := by
    obtain ⟨state, hstate, hdefinition, hcontains⟩ := hback c state' hstate'
    exact hcontains name (h.bound c state hstate name (hdefinition ▸ hname))
  styles := hstyles.trans h.styles

/-- What upholds all slots keeps declared fields bound. -/
theorem upheld (h : page.Current reading document past) (hupholds : Upholds page page')
    (horderly : page'.Orderly) (htidy : page'.Tidy reading (fun _ => True) document)
    (hattuned : ∃ plan, page'.Attuned reading past plan ∧ page'.Homed plan)
    (hstyles : page'.styles = page.styles) : page'.Current reading document past := by
  refine h.next horderly htidy hattuned (fun c state' hstate' => ?_) hstyles
  have hslot := hupholds.slot c
  obtain ⟨state, hstate⟩ :=
    Option.isSome_iff_exists.mp (hslot.back (Option.isSome_iff_exists.mpr ⟨state', hstate'⟩))
  obtain ⟨other, hother, hdefinition, _⟩ := hslot.state state hstate
  rw [component?, hother, Option.some.injEq] at hstate'
  subst hstate'
  exact ⟨state, hstate, hdefinition, fun name hname => by rwa [hslot.contains state hstate]⟩

theorem calm (h : page.Current reading document past) (hcalm : Calm page page')
    (hupholds : Upholds page page') (horderly : page'.Orderly)
    (htidy : page'.Tidy reading (fun _ => True) document)
    (hattuned : ∀ plan, page.Attuned reading past plan → page'.Attuned reading past plan) :
    page'.Current reading document past := by
  obtain ⟨plan, hold, hhomed⟩ := h.attuned
  exact h.upheld hupholds horderly htidy ⟨plan, hattuned plan hold, hhomed.calm hcalm⟩ hcalm.styles

theorem written (h : page.Current reading document past) (hwritten : Written page page')
    (htidy : page'.Tidy reading (fun _ => True) document)
    (hattuned : ∀ plan, page.Attuned reading past plan → page'.Attuned reading past plan) :
    page'.Current reading document past := by
  have hback : ∀ c state', page'.component? c = some state' → ∃ state fields,
      page.component? c = some state ∧ state' = { state with fields } := by
    intro c state' hstate'
    obtain ⟨fields, hfields⟩ := hwritten.component?_eq c
    rw [hstate', eq_comm, Option.map_eq_some_iff] at hfields
    obtain ⟨state, hstate, rfl⟩ := hfields
    exact ⟨state, fields, hstate, rfl⟩
  obtain ⟨plan, hold, hhomed⟩ := h.attuned
  refine h.next hwritten.orderly htidy ⟨plan, hattuned plan hold, hhomed.back rfl ?_⟩ ?_
    hwritten.styles
  · intro c state' hstate'
    obtain ⟨state, fields, hstate, rfl⟩ := hback c state' hstate'
    exact ⟨state, hstate, rfl, rfl⟩
  · intro c state' hstate'
    obtain ⟨state, fields, hstate, rfl⟩ := hback c state' hstate'
    exact ⟨state, hstate, rfl, fun name hname => by rwa [hwritten.contains_eq]⟩

/-- Nothing is done to slots and nodes. -/
theorem same (h : page.Current reading document past) (hakin : Akin page page')
    (hidle : Idle page page') : page'.Current reading document past :=
  h.calm hidle.toCalm (.of_slot hakin.slot) (h.orderly.of_akin hakin) (h.tidy.idle hidle)
    fun _ hattuned => hattuned.same h.orderly hidle hakin.slot

theorem report (h : page.Current reading document past) {notice : Notice}
    (hskips : notice.skips = false) : (page.report notice).Current reading document past :=
  h.same (akin_report page notice) (idle_report page hskips)

end Current

/-! ### What scripts leave alone -/

/-- All components but one are what they were. -/
structure Sole (c : InstanceId) (page page' : Page) : Prop where
  orderly : page'.Orderly
  others : ∀ j, j ≠ c → page'.component? j = page.component? j

theorem sole_respects (c : InstanceId) : Respects (fun _ => True) c (Sole c page) where
  store next field value h := by
    have hput := putField_orderly h.orderly c field value
    refine ⟨(Written.store h.orderly c field value).orderly, fun j hj => ?_⟩
    rw [store_eq, component?, (akin_reflect _ c field).slot]
    refine (component?_markChanged hput c field j).trans ?_
    rw [component?, slot_putField, if_neg hj]
    exact h.others j hj
  mark next field h := ⟨(markChanged_marked h.orderly c field).orderly h.orderly,
    fun j hj => (component?_markChanged h.orderly c field j).trans (h.others j hj)⟩
  edit next change _ h := ⟨h.orderly.of_akin (akin_editDom next change), h.others⟩
  note _ _ h := ⟨h.orderly.of_akin ⟨rfl, rfl, rfl, rfl, rfl, rfl, rfl, rfl⟩, h.others⟩
  overrun _ h := ⟨h.orderly.of_akin ⟨rfl, rfl, rfl, rfl, rfl, rfl, rfl, rfl⟩, h.others⟩
  scripts _ state _ _ := state.definition.edits_true

theorem callHook_of_hooks_eq_none (hnone : ∀ state, page.component? c = some state →
    state.definition.hooks = none) (hook : Hooks → Script) : page.callHook c hook = page := by
  have hbind : (page.component? c).bind (·.definition.hooks) = none :=
    Option.bind_eq_none_iff.mpr hnone
  rw [Page.callHook, runHook, hbind]

/-- Hooks write to components that have them. -/
theorem Follows.callHook (h : page.Follows past) (hlenient : Past.Lenient past)
    (horderly : page.Orderly) (c : InstanceId) (hook : Hooks → Script)
    (hhook : ∀ allowed hooks, Hooks.Edits allowed hooks → (hook hooks).Edits allowed) :
    (page.callHook c hook).Follows past := by
  by_cases hnone : ∀ state, page.component? c = some state → state.definition.hooks = none
  · rwa [callHook_of_hooks_eq_none hnone]
  · push Not at hnone
    obtain ⟨state, hstate, hhooks⟩ := hnone
    intro j state' hstate'
    by_cases hj : j = c
    · subst hj
      obtain ⟨fields, hfields⟩ := (callHook_written horderly j hook (hhook _)).component?_eq j
      rw [hstate', hstate] at hfields
      cases hfields
      exact hlenient _ _ _ (Option.isSome_iff_ne_none.mpr hhooks)
    · refine h j state' ?_
      rw [← hstate', (callHook_respects (sole_respects c) (hhook _) ⟨horderly, fun _ _ => rfl⟩).others
        j hj]

/-! ### Scripts -/

theorem current_respects (c : InstanceId) :
    Respects (fun _ => False) c (Current reading document past) where
  store page field value h := h.written (.store h.orderly c field value)
    ((tidy_respects c).store page field value h.tidy)
    fun _ hattuned => hattuned.store h.orderly c field value
  mark page field h := h.written (.of_marked h.orderly (markChanged_marked h.orderly c field))
    ((tidy_respects c).mark page field h.tidy)
    fun _ hattuned => hattuned.mark h.orderly c field
  edit _ _ hfalse _ := hfalse.elim
  note _ _ h := h.same ⟨rfl, rfl, rfl, rfl, rfl, rfl, rfl, rfl⟩
    (idle_of_calm (calm_of_slots rfl rfl rfl rfl rfl rfl rfl rfl) rfl rfl)
  overrun _ h := h.same ⟨rfl, rfl, rfl, rfl, rfl, rfl, rfl, rfl⟩
    (idle_of_calm (calm_of_slots rfl rfl rfl rfl rfl rfl rfl rfl) rfl rfl)
  scripts _ state h hstate := (h.tidy.made c state hstate).edits

namespace Current

theorem callHook (h : page.Current reading document past) (c : InstanceId) (hook : Hooks → Script)
    (hhook : ∀ allowed hooks, Hooks.Edits allowed hooks → (hook hooks).Edits allowed) :
    (page.callHook c hook).Current reading document past :=
  callHook_respects (current_respects c) (hhook _) h

theorem set (h : page.Current reading document past)
    (hdone : page.set c field value = .ok page') : page'.Current reading document past := by
  unfold Page.set at hdone
  split at hdone
  · cases hdone
    exact write_respects (current_respects c) field value h
  · cases hdone

theorem put (h : page.Current reading document past) (hstate : page.component? c = some state)
    (name : String) (value : Option String) :
    (page.editDom (·.putAttribute state.host name value)).Current reading document past :=
  h.calm (calm_editDom page _) (upholds_editDom page _) (h.orderly.of_akin (akin_editDom page _))
    (h.tidy.put hstate name value) fun _ hattuned => hattuned.put h.orderly hstate name value

theorem setHostAttribute (h : page.Current reading document past) {name : String}
    {value : Option String} (hdone : page.setHostAttribute c name value = .ok page') :
    page'.Current reading document past :=
  setHostAttribute_respects (current_respects c)
    (fun _ _ hstate name value hpage => hpage.put hstate name value) hdone h

theorem dispatch (h : page.Current reading document past) (node : NodeId) (event : String) :
    (page.dispatch node event).1.Current reading document past :=
  dispatch_respects (fun _ _ hskips hpage => hpage.report hskips) current_respects node event h

/-! ### Passes -/

theorem passing (h : page.Current reading document past) {waited : InstanceId → Prop}
    (hpassing : Passing waited page page') : page'.Current reading document past := by
  have hidle := hpassing.toIdle
  refine h.calm hidle.toCalm hpassing.upholds hpassing.orderly (h.tidy.idle hidle)
    fun plan hattuned => ?_
  refine hattuned.still h.orderly (hattuned.rested.idle hidle) hpassing.upholds (fun o e he => ?_)
    (fun n hn => by rwa [hidle.dom] at hn) (fun n _ _ => by rw [hidle.dom])
    fun f => isMounted_congr (hidle.fragment? f)
  obtain ⟨_, hslot⟩ := hpassing.slot o
  rw [hslot]
  exact he

theorem runEffects (h : page.Current reading document past) (hfollows : page.Follows past)
    (hstate : page.component? c = some state) (hconnected : state.connected = true) :
    (page.runEffects c state.definition.blueprint.depth).Current reading document past ∧
      (page.runEffects c state.definition.blueprint.depth).Follows past := by
  obtain ⟨plan, hattuned, hhomed⟩ := h.attuned
  obtain ⟨plan', hrested, hhome, hcarries⟩ := hattuned.rested.runEffects h.orderly hstate hconnected
  have hturn := runEffects_turn h.orderly hstate
  generalize page.runEffects c state.definition.blueprint.depth = page' at *
  have hhomed' : page'.Homed plan' := hhomed.back hhome fun i state' hstate' => by
    obtain ⟨old, _, hold, rfl⟩ := hturn.turn.component?_back hstate'
    exact ⟨old, hold, rfl, rfl⟩
  have hattuned' := hattuned.carried hfollows hrested hcarries
  have htidy := h.tidy.turn hturn.turn ⟨plan', hrested⟩
  exact ⟨h.upheld hcarries.upholds hturn.orderly htidy ⟨plan', hattuned', hhomed'⟩ hturn.turn.styles,
    hcarries.upholds.follows hfollows⟩

theorem runFrame (h : page.Current reading document past) (hfollows : page.Follows past)
    (hlenient : Past.Lenient past) (hawaits : page.Awaits [] fun _ => False) :
    page.runFrame.1.Current reading document past ∧ page.runFrame.1.Follows past :=
  runFrame_keeps (P := fun page => page.Current reading document past ∧ page.Follows past)
    (fun _ _ hpassing hpage => ⟨hpage.1.passing hpassing, hpassing.upholds.follows hpage.2⟩)
    (fun _ c _ hook hhook horderly hpage => ⟨hpage.1.callHook c hook hhook,
      hpage.2.callHook hlenient horderly c hook hhook⟩)
    (fun _ _ _ _ _ hstate hconnected hpage => hpage.1.runEffects hpage.2 hstate hconnected)
    hawaits ⟨h, hfollows⟩

theorem runUntilIdle (h : page.Current reading document past) (hfollows : page.Follows past)
    (hlenient : Past.Lenient past) (hawaits : page.Awaits [] fun _ => False) (limit : Nat) :
    (runUntilIdle limit page).1.Current reading document past := by
  induction limit generalizing page with
  | zero => exact h
  | succ limit ih =>
      rw [Page.runUntilIdle]
      split
      · obtain ⟨hframe, hfollows'⟩ := h.runFrame hfollows hlenient hawaits
        exact ih hframe hfollows' hawaits.runFrame
      · exact h

/-! ### Components that come and go -/

theorem define (h : page.Current reading document past) {definition : Component}
    (hnative : definition.Native reading fun _ => True) (hdone : page.define definition = .ok page')
    (horderly : page'.Orderly) : page'.Current reading document past := by
  have htidy := h.tidy.define hnative hdone
  unfold Page.define at hdone
  split at hdone
  · cases hdone
  · split at hdone
    · cases hdone
    · cases hdone
      obtain ⟨plan, hattuned, hhomed⟩ := h.attuned
      have hupholds : Upholds page ({ page with
          definitions := page.definitions.insert definition.tag definition }.report
            (.componentDefined definition.tag)) := .of_slot fun _ => rfl
      refine h.upheld hupholds horderly htidy ⟨plan, ?_, hhomed⟩ rfl
      exact hattuned.still h.orderly ((hattuned.rested.declare _).idle (idle_report _ rfl)) hupholds
        (fun _ _ he => he) (fun _ hn => hn) (fun _ _ _ => rfl) fun _ => rfl

theorem create (h : page.Current reading document past) {tag : String}
    (hdone : page.create tag = .ok (page', c)) : page'.Current reading document past := by
  have htidy := h.tidy.create h.orderly hdone
  cases hdefinition : page.definitions.get? tag with
  | none =>
      rw [Page.create, hdefinition] at hdone
      cases hdone
  | some definition =>
      rw [create_eq hdefinition] at hdone
      cases hdone
      obtain ⟨plan, hattuned, hhomed⟩ := h.attuned
      have hj := create_joins h.orderly definition (page.dom.createElement tag).1
        (page.dom.createElement tag).2
      refine ⟨create_orderly h.orderly definition _ _, htidy, ⟨_, hattuned.create h.orderly
        (h.tidy.declared tag definition hdefinition).legible tag rfl,
        fun i state hstate hconnected => ?_⟩,
        fun i state hstate name hname => ?_, hj.styles.trans h.styles⟩
      all_goals by_cases hi : i = page.nextSlot
      · rw [component?, hi, hj.slot_self] at hstate
        cases hstate
        cases hconnected
      · rw [component?, slot_of_joins hj rfl hi] at hstate
        exact hhomed i state hstate hconnected
      · subst hi
        rw [component?, hj.slot_self] at hstate
        cases hstate
        rw [hj.slot_self]
        exact Bindings.contains_foldl_ensure.mpr (Or.inl (Component.mem_keys_defaults.mpr hname))
      · rw [component?, slot_of_joins hj rfl hi] at hstate
        rw [slot_of_joins hj rfl hi]
        exact h.bound i state hstate name hname

theorem reflect (h : page.Current reading document past) (c : InstanceId) (field : String) :
    (page.reflect c field).Current reading document past :=
  reflect_keeps (P := fun next => next.Current reading document past)
    (fun _ name value hstate => h.put hstate name value) h field

theorem placed (h : page.Current reading document past) (hstate : page.component? c = some state) :
    (page.placed c state document).Current reading document past := by
  have hplaced : (page.editDom (·.appendChild document state.host)).Current reading document past :=
    h.calm (calm_editDom page _) (upholds_editDom page _) (h.orderly.of_akin (akin_editDom page _))
      (h.tidy.place hstate) fun _ hattuned => h.tidy.document ▸ hattuned.place h.orderly hstate
  exact foldl_respects (fun _ p _ hpage => hpage.reflect c p.name) hplaced

theorem connect (h : page.Current reading document past) (hfollows : page.Follows past)
    (hdone : page.connect c document = .ok page') : page'.Current reading document past := by
  cases hstate : page.component? c with
  | none =>
      rw [Page.connect, hstate] at hdone
      cases hdone
  | some state =>
      rw [connect_eq hstate, Except.ok.injEq] at hdone
      rw [← hdone]
      split
      · exact h
      · rename_i hidle
        have hakin := akin_placed page c state document
        have hplaced := h.placed hstate
        have hstate' : (page.placed c state document).component? c = some state := by
          rw [component?, hakin.slot]
          exact hstate
        obtain ⟨plan, hattuned, hhomed⟩ := hplaced.attuned
        obtain ⟨hrendered, horderly, hupholds, hstyles⟩ := hattuned.rendered hplaced.orderly
          ((Upholds.of_slot hakin.slot).follows hfollows) hhomed hplaced.styles hstate'
          (by simpa using hidle)
        refine Current.callHook ?_ c _ fun _ _ hedits => hedits.started
        exact hplaced.upheld hupholds horderly
          (hplaced.tidy.rendered hplaced.orderly hstate' (by simpa using hidle)) hrendered hstyles

theorem dismantle (h : page.Current reading document past) (hstate : page.component? c = some state)
    (hconnected : state.connected = true) :
    (page.dismantle c state).Current reading document past := by
  obtain ⟨plan, hattuned, hhomed⟩ := h.attuned
  have hempty : Emptied c page (page.dismantle c state) :=
    dismantle_emptied h.orderly (by rw [hstate]; rfl)
  have hself := hempty.self
  rw [resetComponent_eq hstate] at hself
  have hslot : ∀ i, i ≠ c → ((page.dismantle c state).component? i).isSome = true →
      (page.dismantle c state).slot i = page.slot i := by
    intro i hi hsome
    by_cases hinside : page.Inside c i
    · rw [component?, hempty.inside i hinside] at hsome
      cases hsome
    · exact hempty.other i hi hinside
  refine h.next (hempty.orderly hstate h.orderly) (h.tidy.dismantle h.orderly hstate hconnected)
    ⟨_, hattuned.dismantle h.orderly hstate hconnected, fun i state' hstate' hconnected' => ?_⟩
    (fun i state' hstate' => ?_) hempty.styles
  all_goals by_cases hi : i = c
  · subst hi
    rw [component?, hself] at hstate'
    cases hstate'
    cases hconnected'
  · have hsame := hslot i hi (by rw [hstate']; rfl)
    rw [component?, hsame] at hstate'
    exact (Function.update_of_ne hi _ _).trans (hhomed i state' hstate' hconnected')
  · subst hi
    rw [component?, hself] at hstate'
    cases hstate'
    refine ⟨state, hstate, rfl, fun name hname => ?_⟩
    rw [hself]
    exact Bindings.contains_clearEffects.trans hname
  · have hsame := hslot i hi (by rw [hstate']; rfl)
    rw [component?, hsame] at hstate'
    exact ⟨state', hstate', rfl, fun name hname => by rwa [hsame]⟩

theorem disconnect (h : page.Current reading document past)
    (hdone : page.disconnect c = .ok page') : page'.Current reading document past := by
  cases hstate : page.component? c with
  | none =>
      rw [Page.disconnect, hstate] at hdone
      cases hdone
  | some state =>
      rw [disconnect_eq hstate, Except.ok.injEq] at hdone
      rw [← hdone]
      split
      · rename_i hconnected
        have hwritten :=
          callHook_written h.orderly c Hooks.removed fun _ hedits => hedits.removed
        obtain ⟨fields, hfields⟩ := hwritten.component?_eq c
        rw [hstate] at hfields
        have hhook := h.callHook c (·.removed) fun _ _ hedits => hedits.removed
        have hstate' : (page.callHook c (·.removed)).component? c = some { state with fields } :=
          hfields
        have hdown := hhook.dismantle hstate' hconnected
        exact hdown
      · exact h

theorem mono (h : page.Current reading document past)
    (hpast : ∀ c definition fields, past c definition fields → past' c definition fields) :
    page.Current reading document past' where
  orderly := h.orderly
  tidy := h.tidy
  attuned := h.attuned.imp fun _ hattuned => hattuned.imp_left fun hold => hold.mono hpast
  bound := h.bound
  styles := h.styles

theorem forget (h : page.Current reading document past) (hstate : page.component? c = some state)
    (hidle : state.connected = false) (hpast : ∀ i, i ≠ c → ∀ definition fields,
      past i definition fields → past' i definition fields) :
    page.Current reading document past' where
  orderly := h.orderly
  tidy := h.tidy
  attuned := h.attuned.imp fun _ hattuned =>
    hattuned.imp_left fun hold => hold.forget h.orderly hstate hidle hpast
  bound := h.bound
  styles := h.styles

theorem serve (h : page.Current reading document past) (hfollows : page.Follows past)
    (hlenient : Past.Lenient past) (hawaits : page.Awaits [] fun _ => False) {request : Request}
    (hplain : request.Plain (Component.Native reading fun _ => True) document)
    (hunforced : request.Unforced) : (page.serve request).Current reading document past := by
  have horderly := (hawaits.serve request).orderly
  cases request with
  | define definition =>
      cases hdefine : page.define definition with
      | error e =>
          rw [Page.serve, hdefine]
          exact h
      | ok next =>
          rw [Page.serve, hdefine] at horderly ⊢
          exact h.define hplain hdefine horderly
  | create tag =>
      refine settle_of h fun next hdone => ?_
      cases hcreate : page.create tag with
      | error e =>
          rw [hcreate] at hdone
          cases hdone
      | ok made =>
          rw [hcreate] at hdone
          cases hdone
          exact h.create hcreate
  | connect c parent =>
      cases hplain
      exact settle_of h fun _ hdone => h.connect hfollows hdone
  | disconnect c => exact settle_of h fun _ hdone => h.disconnect hdone
  | set c field value => exact settle_of h fun _ hdone => h.set hdone
  | setHostAttribute c name value => exact settle_of h fun _ hdone => h.setHostAttribute hdone
  | markChanged c field => exact (current_respects c).mark page field h
  | dispatch node event => exact h.dispatch node event
  | mount f => exact hunforced.elim
  | unmount f => exact hunforced.elim
  | runFrame => exact (h.runFrame hfollows hlenient hawaits).1
  | runUntilIdle limit => exact h.runUntilIdle hfollows hlenient hawaits limit

end Current

/-! ### Runs -/

/-- A component had some fields before the requests were over. -/
def Had (styles : StyleAttacher) (requests : List Request) (c : InstanceId) (fields : Dict Json) :
    Prop :=
  ∃ earlier state, earlier <+: requests ∧ (after styles earlier).component? c = some state ∧
    state.fields = fields

/-- The fields that components without hooks had. Hooks write fields between requests, too. -/
def pastOf (styles : StyleAttacher) (requests : List Request) : Past :=
  fun c definition fields => definition.hooks = none → Had styles requests c fields

theorem pastOf_lenient (styles : StyleAttacher) (requests : List Request) :
    Past.Lenient (pastOf styles requests) := by
  intro c definition fields hhooks hnone
  rw [hnone] at hhooks
  cases hhooks

theorem start_current (reading : Blueprint → List Sketch) (past : Past) :
    (start .elements).Current reading (start .elements).document past where
  orderly := start_orderly .elements
  tidy := start_tidy reading _ .elements
  attuned := ⟨_, start_attuned reading past, fun c state hstate => by
    rw [component?, slot_start] at hstate
    cases hstate⟩
  bound c state hstate := by
    rw [component?, slot_start] at hstate
    cases hstate
  styles := rfl

theorem current_after {requests : List Request}
    (hplain : ∀ request ∈ requests,
      request.Plain (Component.Native reading fun _ => True) (start .elements).document)
    (hunforced : ∀ request ∈ requests, request.Unforced) :
    (after .elements requests).Current reading (start .elements).document
      (pastOf .elements requests) := by
  induction requests using List.reverseRecOn with
  | nil => exact start_current reading _
  | append_singleton requests request ih =>
      have hcurrent := ih (fun other hother => hplain other (List.mem_append_left _ hother))
        fun other hother => hunforced other (List.mem_append_left _ hother)
      have hlast : request ∈ requests ++ [request] :=
        List.mem_append_right _ (List.mem_singleton_self request)
      rw [after_append]
      refine (hcurrent.serve (fun c state hstate _ => ?_) (pastOf_lenient _ _)
        (awaits_after .elements requests) (hplain request hlast) (hunforced request hlast)).mono
          fun c definition fields hpast hhooks => ?_
      · exact ⟨requests, state, List.prefix_rfl, hstate, rfl⟩
      · obtain ⟨earlier, state, hprefix, hstate⟩ := hpast hhooks
        exact ⟨earlier, state, hprefix.trans (List.prefix_append _ _), hstate⟩

end Page

end LiveMarkup
