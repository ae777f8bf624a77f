import LiveMarkup.Proofs.Page.Mirror
import LiveMarkup.Proofs.Placement

/-!
Attributes of hosts follow properties. On every page that requests lead to, the attribute that reflects
a property of a connected component was written for the value of the property or reads as that value.
-/

namespace LiveMarkup.Page

variable {reading : Blueprint → List Sketch} {page page' : Page} {plan plan' : Plan}
  {document n : NodeId} {c i : InstanceId} {state state' mirror : ComponentState} {field : String}
  {value : Json} {loose loose' : InstanceId → Set String} {names : Set String}

/-! ### Hosts and what they hold -/

theorem Laid.host_ne (h : page.Laid reading plan) (hstate : page.component? c = some state)
    (hother : page.component? i = some state') (hne : i ≠ c) : state'.host ≠ state.host := by
  intro hhost
  have hrole := h.component_role hother
  rw [hhost, h.component_role hstate] at hrole
  cases hrole
  exact hne rfl

/-- A component keeps its host when hosts are spared. -/
theorem Laid.host_eq (h : page.Laid reading plan) (h' : page'.Laid reading plan')
    (hspares : Work.SparesHosts ⟨page, plan, []⟩ ⟨page', plan', []⟩)
    (hstate : page.component? c = some state) (hstate' : page'.component? c = some state') :
    state'.host = state.host ∧ page'.dom.content state.host = page.dom.content state.host := by
  obtain ⟨hlive, hrole, hcontent⟩ :=
    hspares state.host c (h.component c state hstate).host_live (h.component_role hstate)
  exact ⟨(h'.eq_host hlive hrole hstate').symm, hcontent⟩

theorem content_reflect_of_ne (hstate : page.component? c = some state) (hne : n ≠ state.host)
    (field : String) : (page.reflect c field).dom.content n = page.dom.content n := by
  rw [Page.reflect, hstate]
  dsimp only
  split
  · rfl
  · split
    · rfl
    · exact Dom.content_putAttribute_of_ne hne _ _

/-- A field that is reflected is not loose any more. -/
theorem mirrored_reflect (h : mirror.Mirrored (page.dom.content state.host) names)
    (hstate : page.component? c = some state) (hdefinition : mirror.definition = state.definition)
    (hfields : mirror.fields = state.fields) (hreflective : state.definition.Reflective)
    (field : String) :
    mirror.Mirrored ((page.reflect c field).dom.content state.host) (names \ {field}) := by
  rw [Page.reflect, hstate]
  dsimp only
  rw [← hdefinition] at hreflective ⊢
  split
  · rename_i hnone
    exact h.of_converter?_eq_none hnone
  · rename_i converter hconverter
    rw [← hfields]
    split
    · rename_i hsame
      exact h.ties hreflective hconverter (h.takes.puts_self hsame.symm) (Or.inl rfl)
    · exact h.ties hreflective hconverter (Dom.puts_putAttribute h.takes _ _) (Or.inl rfl)

/-! ### Pages that reflect properties -/

/-- A page at rest where properties are tied to the attributes that reflect them, but for those that
are `loose`. -/
structure Reflects (reading : Blueprint → List Sketch) (document : NodeId)
    (loose : InstanceId → Set String) (page : Page) : Prop where
  orderly : page.Orderly
  tidy : page.Tidy reading Component.Reflective document
  mirrored : ∀ c state, page.component? c = some state →
    state.Mirrored (page.dom.content state.host) (loose c)

namespace Reflects

theorem mono (h : page.Reflects reading document loose) (hloose : ∀ c, loose c ⊆ loose' c) :
    page.Reflects reading document loose' where
  orderly := h.orderly
  tidy := h.tidy
  mirrored c state hstate := (h.mirrored c state hstate).mono fun _ hname _ => hloose c hname

theorem next (h : page.Reflects reading document loose) (horderly : page'.Orderly)
    (htidy : page'.Tidy reading Component.Reflective document)
    (hback : ∀ c state', page'.component? c = some state' → ∃ state,
      page.component? c = some state ∧ state'.definition = state.definition ∧
        state'.fields = state.fields ∧ (state'.connected = true → state.connected = true) ∧
          page'.dom.content state'.host = page.dom.content state.host) :
    page'.Reflects reading document loose where
  orderly := horderly
  tidy := htidy
  mirrored c state' hstate' := by
    obtain ⟨state, hstate, hdefinition, hfields, hconnected, hcontent⟩ := hback c state' hstate'
    rw [hcontent]
    exact (h.mirrored c state hstate).congr hdefinition hfields hconnected

/-- Components and nodes stay. -/
theorem same (h : page.Reflects reading document loose) (horderly : page'.Orderly)
    (hidle : Idle page page') (hcomponents : ∀ c, page'.component? c = page.component? c) :
    page'.Reflects reading document loose := by
  refine h.next horderly (h.tidy.idle hidle) fun c state hstate => ?_
  rw [hcomponents] at hstate
  exact ⟨state, hstate, rfl, rfl, id, by rw [hidle.dom]⟩

theorem report (h : page.Reflects reading document loose) {notice : Notice}
    (hskips : notice.skips = false) : (page.report notice).Reflects reading document loose :=
  h.same (h.orderly.of_akin (akin_report page notice)) (idle_report page hskips) fun _ => rfl

/-- What a component does leaves the hosts alone. -/
theorem spared (h : page.Reflects reading document loose) (horderly : page'.Orderly)
    (htidy : page'.Tidy reading Component.Reflective document)
    (hspares : ∀ plan, page.Rested reading plan → ∃ plan', page'.Rested reading plan' ∧
      Work.SparesHosts ⟨page, plan, []⟩ ⟨page', plan', []⟩)
    (hback : ∀ c state', page'.component? c = some state' → ∃ state references,
      page.component? c = some state ∧ state' = { state with references }) :
    page'.Reflects reading document loose := by
  obtain ⟨plan, hrested⟩ := h.tidy.rested
  obtain ⟨plan', hrested', hspares⟩ := hspares plan hrested
  refine h.next horderly htidy fun c state' hstate' => ?_
  obtain ⟨state, references, hstate, rfl⟩ := hback c state' hstate'
  exact ⟨state, hstate, rfl, rfl, id,
    (hrested.busy.laid.host_eq hrested'.busy.laid hspares hstate hstate').2⟩

/-! ### Writing fields -/

theorem reflect (h : page.Reflects reading document loose) (c : InstanceId) (field : String) :
    (page.reflect c field).Reflects reading document
      (Function.update loose c (loose c \ {field})) where
  orderly := h.orderly.of_akin (akin_reflect page c field)
  tidy := h.tidy.reflect c field
  mirrored i state hstate := by
    rw [component?, (akin_reflect page c field).slot] at hstate
    by_cases hi : i = c
    · subst hi
      rw [Function.update_self]
      exact mirrored_reflect (h.mirrored i state hstate) hstate rfl rfl
        (h.tidy.made i state hstate).known field
    · rw [Function.update_of_ne hi]
      cases howner : page.component? c with
      | none =>
          rw [Page.reflect, howner]
          exact h.mirrored i state hstate
      | some owner =>
          obtain ⟨plan, hrested⟩ := h.tidy.rested
          rw [content_reflect_of_ne howner (hrested.busy.laid.host_ne howner hstate hi)]
          exact h.mirrored i state hstate

theorem putField (h : page.Reflects reading document loose) (c : InstanceId) (field : String)
    (value : Json) : ((page.putField c field value).markChanged c field).Reflects reading document
      (Function.update loose c (insert field (loose c))) where
  orderly := (markChanged_marked (putField_orderly h.orderly c field value) c field).orderly
    (putField_orderly h.orderly c field value)
  tidy := (h.tidy.idle (idle_mapComponent (fun state => ⟨_, state.references, rfl⟩) page c)).idle
    (idle_markChanged _ c field)
  mirrored i state hstate := by
    rw [component?_markChanged (putField_orderly h.orderly c field value), component?,
      slot_putField] at hstate
    rw [(idle_markChanged _ c field).dom]
    change state.Mirrored (page.dom.content state.host) _
    split at hstate
    · rename_i hi
      subst hi
      rw [Function.update_self]
      cases hkind : (page.slot i).kind with
      | component old =>
          have hold : page.component? i = some old := Instance.component?_of_kind hkind
          rw [Instance.mapComponent_of_component? hold] at hstate
          cases hstate
          exact (h.mirrored i old hold).insert field value
      | fragment _ | vacant =>
          simp [Instance.mapComponent, Instance.component?, hkind] at hstate
    · rename_i hi
      rw [Function.update_of_ne hi]
      exact h.mirrored i state hstate

/-- A field that is stored is reflected again. -/
theorem store (h : page.Reflects reading document (Function.update (fun _ => ∅) c {field}))
    (value : Json) : (page.store c field value).Reflects reading document fun _ => ∅ := by
  rw [store_eq]
  refine ((h.putField c field value).reflect c field).mono fun i => ?_
  by_cases hi : i = c
  · subst hi
    simp
  · simp [Function.update_of_ne hi]

end Reflects

theorem reflects_respects (c : InstanceId) :
    Respects (fun _ => False) c (Reflects reading document fun _ => ∅) where
  store _ _ value h := (h.mono fun _ => Set.empty_subset _).store value
  mark page field h := h.same ((markChanged_marked h.orderly c field).orderly h.orderly)
    (idle_markChanged page c field) (component?_markChanged h.orderly c field)
  edit _ _ hfalse _ := hfalse.elim
  note _ _ h := h.same (h.orderly.of_akin ⟨rfl, rfl, rfl, rfl, rfl, rfl, rfl, rfl⟩)
    (idle_of_calm (calm_of_slots rfl rfl rfl rfl rfl rfl rfl rfl) rfl rfl) fun _ => rfl
  overrun _ h := h.same (h.orderly.of_akin ⟨rfl, rfl, rfl, rfl, rfl, rfl, rfl, rfl⟩)
    (idle_of_calm (calm_of_slots rfl rfl rfl rfl rfl rfl rfl rfl) rfl rfl) fun _ => rfl
  scripts _ state h hstate := (h.tidy.made c state hstate).edits

namespace Reflects

theorem callHook (h : page.Reflects reading document fun _ => ∅) (c : InstanceId)
    (hook : Hooks → Script)
    (hhook : ∀ allowed hooks, Hooks.Edits allowed hooks → (hook hooks).Edits allowed) :
    (page.callHook c hook).Reflects reading document fun _ => ∅ :=
  callHook_respects (reflects_respects c) (hhook _) h

theorem set (h : page.Reflects reading document (Function.update (fun _ => ∅) c {field}))
    (hdone : page.set c field value = .ok page') : page'.Reflects reading document fun _ => ∅ := by
  unfold Page.set at hdone
  split at hdone
  · cases hdone
    exact write_respects_of_store (reflects_respects c) (h.store value)
  · cases hdone

/-- An attribute is set, whatever property it reflects. -/
theorem put (h : page.Reflects reading document fun _ => ∅) (hstate : page.component? c = some state)
    (name : String) (text : Option String) (names : Set String) (hnames : ∀ field,
      (state.definition.converter? field).isSome = true → Text.asciiLower field = name → field ∈ names) :
    (page.editDom (·.putAttribute state.host name text)).Reflects reading document
      (Function.update (fun _ => ∅) c names) where
  orderly := h.orderly.of_akin (akin_editDom page _)
  tidy := h.tidy.put hstate name text
  mirrored i other hother := by
    change page.component? i = some other at hother
    by_cases hi : i = c
    · subst hi
      rw [hstate, Option.some.injEq] at hother
      subst hother
      have hmirrored := h.mirrored i state hstate
      rw [Function.update_self]
      exact hmirrored.puts (Dom.puts_putAttribute hmirrored.takes name text) hnames
    · obtain ⟨plan, hrested⟩ := h.tidy.rested
      rw [Function.update_of_ne hi, editDom, Dom.content_putAttribute_of_ne
        (hrested.busy.laid.host_ne hstate hother hi)]
      exact h.mirrored i other hother

/-- A property that reads as its value from the attribute that was just set is tied to it. -/
theorem of_read (h : page.Reflects reading document (Function.update (fun _ => ∅) c {field}))
    (hstate : page.component? c = some state) {converter : Converter}
    (hconverter : state.definition.converter? field = some converter) {old : Json}
    (hold : state.fields.get? field = some old) (hsame : (old == converter.toValue
      (page.dom.attribute? state.host (Text.asciiLower field))) = true) :
    page.Reflects reading document fun _ => ∅ where
  orderly := h.orderly
  tidy := h.tidy
  mirrored i other hother := by
    have hmirrored := h.mirrored i other hother
    by_cases hi : i = c
    · subst hi
      rw [hstate, Option.some.injEq] at hother
      subst hother
      rw [Function.update_self] at hmirrored
      refine ⟨hmirrored.takes, fun name found _ hfound hshown => ?_⟩
      by_cases hname : name = field
      · subst hname
        rw [hconverter, Option.some.injEq] at hfound
        rw [← hfound, hold]
        exact Or.inr hsame
      · exact hmirrored.tied name found hname hfound hshown
    · rwa [Function.update_of_ne hi] at hmirrored

theorem setHostAttribute (h : page.Reflects reading document fun _ => ∅) {name : String}
    {text : Option String} (hdone : page.setHostAttribute c name text = .ok page') :
    page'.Reflects reading document fun _ => ∅ := by
  unfold Page.setHostAttribute at hdone
  split at hdone
  · cases hdone
  · rename_i state hstate
    dsimp only at hdone
    have hreflective := (h.tidy.made c state hstate).known
    have htakes := (h.mirrored c state hstate).takes
    split at hdone
    · cases hdone
      exact h
    · split at hdone
      · rename_i hnone
        cases hdone
        refine (h.put hstate (Text.asciiLower name) text ∅ fun field hsome heq => ?_).mono
          fun i => ?_
        · obtain ⟨converter, hconverter⟩ := Option.isSome_iff_exists.mp hsome
          exact absurd heq (hreflective.of_attributeProperty?_eq_none hnone hconverter)
        · rw [Function.update_eq_self]
      · rename_i property hproperty
        obtain ⟨hlower, hconverter, honly⟩ := hreflective.of_attributeProperty? hproperty
        have hput := h.put hstate (Text.asciiLower name) text {property.name} honly
        split at hdone
        · rename_i hnone
          have hfound := List.find?_some hproperty
          rw [hnone] at hfound
          cases hfound
        · rename_i converter hsome
          rw [hsome] at hconverter
          split at hdone
          · rename_i old hold
            split at hdone
            · rename_i hsame
              cases hdone
              have hputs := Dom.puts_putAttribute htakes (Text.asciiLower name) text
              have hfield : state.fields.get? property.name = some old := by
                change (page.component? c).bind _ = some old at hold
                rwa [hstate] at hold
              refine hput.of_read hstate hconverter hfield ?_
              rw [hlower, editDom, Dom.attribute?, hputs.attribute?, if_pos rfl]
              exact hsame
            · exact hput.set hdone
          · exact hput.set hdone

theorem dispatch (h : page.Reflects reading document fun _ => ∅) (node : NodeId) (event : String) :
    (page.dispatch node event).1.Reflects reading document fun _ => ∅ :=
  dispatch_respects (fun _ _ hskips hpage => hpage.report hskips) reflects_respects node event h

/-! ### Passes and mounts -/

theorem passing (h : page.Reflects reading document loose) {waited : InstanceId → Prop}
    (hpassing : Passing waited page page') : page'.Reflects reading document loose := by
  refine h.same hpassing.orderly hpassing.toIdle fun c => ?_
  obtain ⟨_, hslot⟩ := hpassing.slot c
  rw [component?, hslot]
  rfl

theorem runEffects (h : page.Reflects reading document loose)
    (hstate : page.component? c = some state) (hconnected : state.connected = true) :
    (page.runEffects c state.definition.blueprint.depth).Reflects reading document loose := by
  have hturn := runEffects_turn h.orderly hstate
  refine h.spared hturn.orderly (h.tidy.runEffects h.orderly hstate hconnected) (fun plan hrested => ?_)
    fun _ _ hstate' => hturn.turn.component?_back hstate'
  obtain ⟨plan', hrested', _, hcarries⟩ := hrested.runEffects h.orderly hstate hconnected
  exact ⟨plan', hrested', hcarries.hosts⟩

theorem runFrame (h : page.Reflects reading document fun _ => ∅)
    (hawaits : page.Awaits [] fun _ => False) :
    page.runFrame.1.Reflects reading document fun _ => ∅ :=
  runFrame_keeps (fun _ _ hpassing hpage => hpage.passing hpassing)
    (fun _ c _ hook hhook _ hpage => hpage.callHook c hook hhook)
    (fun _ _ _ _ _ hstate hconnected hpage => hpage.runEffects hstate hconnected) hawaits h

theorem runUntilIdle (h : page.Reflects reading document fun _ => ∅)
    (hawaits : page.Awaits [] fun _ => False) (limit : Nat) :
    (runUntilIdle limit page).1.Reflects reading document fun _ => ∅ := by
  induction limit generalizing page with
  | zero => exact h
  | succ limit ih =>
      rw [Page.runUntilIdle]
      split
      · exact ih (h.runFrame hawaits) hawaits.runFrame
      · exact h

theorem mount (h : page.Reflects reading document loose) (f : InstanceId) :
    (page.mount f).Reflects reading document loose :=
  h.spared (mount_turn h.orderly f).orderly (h.tidy.mount h.orderly f)
    (fun _ hrested => (hrested.mount h.orderly f).imp fun _ hspared => ⟨hspared.1, hspared.2.1⟩)
    fun _ _ hstate' => (mount_turn h.orderly f).turn.component?_back hstate'

theorem unmount (h : page.Reflects reading document loose) (f : InstanceId) :
    (page.unmount f).Reflects reading document loose := by
  have hturn := unmount_turn h.orderly f (page.Under f) .self
  exact h.spared hturn.orderly (h.tidy.unmount h.orderly f)
    (fun _ hrested => (hrested.unmount h.orderly f).imp fun _ hspared => ⟨hspared.1, hspared.2.1⟩)
    fun _ _ hstate' => hturn.turn.component?_back hstate'

/-! ### Components that come and go -/

theorem define (h : page.Reflects reading document loose) {definition : Component}
    (hnative : definition.Native reading Component.Reflective)
    (hdone : page.define definition = .ok page') (horderly : page'.Orderly) :
    page'.Reflects reading document loose := by
  refine h.next horderly (h.tidy.define hnative hdone) ?_
  unfold Page.define at hdone
  split at hdone
  · cases hdone
  · split at hdone
    · cases hdone
    · cases hdone
      exact fun c state hstate => ⟨state, hstate, rfl, rfl, id, rfl⟩

theorem create (h : page.Reflects reading document fun _ => ∅) {tag : String}
    (hdone : page.create tag = .ok (page', c)) : page'.Reflects reading document fun _ => ∅ := by
  have htidy := h.tidy.create h.orderly hdone
  cases hdefinition : page.definitions.get? tag with
  | none =>
      rw [Page.create, hdefinition] at hdone
      cases hdone
  | some definition =>
      rw [create_eq hdefinition] at hdone
      cases hdone
      obtain ⟨plan, hrested⟩ := h.tidy.rested
      have hvalid : page.dom.Valid := hrested.busy.laid.valid
      have hmade : Dom.Made (.element (tag.map Char.toLower) []) (page.dom.createElement tag).2
          page.dom (page.dom.createElement tag).1 := Dom.create_made hvalid _
      have hj := create_joins h.orderly definition (page.dom.createElement tag).1
        (page.dom.createElement tag).2
      have hdom : ({ page with dom := (page.dom.createElement tag).1 }.occupy
          (newComponent page.nextSlot definition (page.dom.createElement tag).2)).dom =
          (page.dom.createElement tag).1 := by
        unfold occupy
        split <;> rfl
      refine ⟨create_orderly h.orderly definition _ _, htidy, fun i state hstate => ?_⟩
      rw [hdom]
      by_cases hi : i = page.nextSlot
      · rw [component?, hi, hj.slot_self] at hstate
        cases hstate
        have hcontent : (page.dom.createElement tag).1.content (page.dom.createElement tag).2 =
            .element (tag.map Char.toLower) [] := by
          rw [Dom.content, hmade.node, if_pos rfl]
          rfl
        rw [hcontent]
        exact ComponentState.mirrored_defaults (h.tidy.declared tag definition hdefinition).known _ _
      · rw [component?, slot_of_joins hj rfl hi] at hstate
        have hne : state.host ≠ (page.dom.createElement tag).2 := by
          rintro heq
          have hlive := (hrested.busy.laid.component i state hstate).host_live
          rw [heq] at hlive
          exact hmade.fresh hlive
        rw [Dom.content, hmade.node, if_neg hne]
        exact h.mirrored i state hstate

end Reflects

theorem mirrored_foldl_reflect (h : mirror.Mirrored (page.dom.content state.host) names)
    (hstate : page.component? c = some state) (hdefinition : mirror.definition = state.definition)
    (hfields : mirror.fields = state.fields) (hreflective : state.definition.Reflective)
    (properties : List Property) :
    mirror.Mirrored ((properties.foldl (fun page p => page.reflect c p.name) page).dom.content
      state.host) (names \ {name | ∃ p ∈ properties, p.name = name}) := by
  induction properties generalizing page names with
  | nil => exact h.mono fun name hname _ => ⟨hname, by simp⟩
  | cons p rest ih =>
      have hstate' : (page.reflect c p.name).component? c = some state := by
        rwa [component?, (akin_reflect page c p.name).slot]
      refine (ih (mirrored_reflect h hstate hdefinition hfields hreflective p.name) hstate').mono
        fun name hname _ => ⟨hname.1.1, ?_⟩
      rintro ⟨q, hq, rfl⟩
      rcases List.mem_cons.mp hq with rfl | hq
      · exact hname.1.2 rfl
      · exact hname.2 ⟨q, hq, rfl⟩

namespace Reflects

/-- The host is put in its place, and forced properties are reflected. -/
theorem placed (h : page.Reflects reading document fun _ => ∅)
    (hstate : page.component? c = some state) :
    (page.placed c state document).Reflects reading document (fun _ => ∅) ∧
      { state with connected := true }.Mirrored
        ((page.placed c state document).dom.content state.host) ∅ := by
  obtain ⟨plan, hrested⟩ := h.tidy.rested
  have hplaced := hrested.busy.laid.place hstate
  rw [h.tidy.document] at hplaced
  have hmoved : (page.editDom (·.appendChild document state.host)).Reflects reading document
      fun _ => ∅ :=
    h.next (h.orderly.of_akin (akin_editDom page _)) (h.tidy.place hstate) fun i other hother =>
      ⟨other, hother, rfl, rfl, id, hplaced.content other.host⟩
  have hreflective := (h.tidy.made c state hstate).known
  have hreflect : ∀ (page : Page) (p : Property), page.Reflects reading document (fun _ => ∅) →
      (page.reflect c p.name).Reflects reading document fun _ => ∅ := by
    intro page p hpage
    refine (hpage.reflect c p.name).mono fun i => ?_
    rw [Set.empty_sdiff, Function.update_eq_self_iff.mpr rfl]
  refine ⟨foldl_respects (fun page p _ => hreflect page p) hmoved, ?_⟩
  -- Forced properties are all that need not be tied before.
  have hbefore : { state with connected := true }.Mirrored
      ((page.editDom (·.appendChild document state.host)).dom.content state.host)
      {name | ∃ converter, state.definition.converter? name = some converter ∧
        converter.force = true} := by
    have hmirrored := hmoved.mirrored c state hstate
    refine ⟨hmirrored.takes, fun name converter hname hconverter _ =>
      hmirrored.tied name converter (Set.notMem_empty name) hconverter (Or.inr ?_)⟩
    exact Bool.eq_false_iff.mpr fun hforce => hname ⟨converter, hconverter, hforce⟩
  refine (mirrored_foldl_reflect hbefore hstate rfl rfl hreflective
    state.definition.forcedProperties).mono fun name hname _ => ?_
  obtain ⟨⟨converter, hconverter, hforce⟩, hnone⟩ := hname
  exact absurd (hreflective.exists_forced hconverter hforce) hnone

theorem connect (h : page.Reflects reading document fun _ => ∅)
    (hdone : page.connect c document = .ok page') : page'.Reflects reading document fun _ => ∅ := by
  cases hstate : page.component? c with
  | none =>
      rw [Page.connect, hstate] at hdone
      cases hdone
  | some state =>
      rw [connect_eq hstate, Except.ok.injEq] at hdone
      rw [← hdone]
      split
      · exact h
      · rename_i hidle
        obtain ⟨hplaced, hmirror⟩ := h.placed hstate
        have hstate' : (page.placed c state document).component? c = some state := by
          rwa [component?, (akin_placed page c state document).slot]
        refine Reflects.callHook ?_ c _ fun _ _ hedits => hedits.started
        generalize page.placed c state document = middle at hplaced hmirror hstate'
        obtain ⟨plan, hrested⟩ := hplaced.tidy.rested
        obtain ⟨plan', hrendered, hspares, _⟩ :=
          hrested.rendered hplaced.orderly hstate' (by simpa using hidle)
        obtain ⟨horderly, _, _, hback⟩ := rendered_frame hplaced.orderly hstate'
        refine ⟨horderly, hplaced.tidy.rendered hplaced.orderly hstate' (by simpa using hidle),
          fun i other hother => ?_⟩
        obtain ⟨old, root, connected, references, hold, rfl, hsame⟩ := hback i other hother
        rw [(hrested.busy.laid.host_eq hrendered.busy.laid hspares hold hother).2]
        by_cases hi : i = c
        · subst hi
          rw [hstate', Option.some.injEq] at hold
          subst hold
          exact hmirror.congr rfl rfl fun _ => rfl
        · exact (hplaced.mirrored i old hold).congr rfl rfl fun hconnected => hsame hi ▸ hconnected

theorem dismantle (h : page.Reflects reading document fun _ => ∅)
    (hstate : page.component? c = some state) (hconnected : state.connected = true) :
    (page.dismantle c state).Reflects reading document fun _ => ∅ := by
  have hempty : Emptied c page (page.dismantle c state) :=
    dismantle_emptied h.orderly (by rw [hstate]; rfl)
  have htidy := h.tidy.dismantle h.orderly hstate hconnected
  obtain ⟨plan, hrested⟩ := h.tidy.rested
  obtain ⟨plan', hrested'⟩ := htidy.rested
  have hpruned := (hrested.busy.laid.pruned hstate hconnected h.orderly).1
  have hcontent : ∀ i other, (page.dismantle c state).component? i = some other →
      (page.dismantle c state).dom.content other.host = page.dom.content other.host :=
    fun i other hother => hpruned.content _ (hrested'.busy.laid.component i other hother).host_live
  refine h.next (hempty.orderly hstate h.orderly) htidy fun i other hother => ?_
  have hsame := hcontent i other hother
  by_cases hi : i = c
  · subst hi
    have hself := hempty.self
    rw [resetComponent_eq hstate] at hself
    rw [component?, hself] at hother
    cases hother
    exact ⟨state, hstate, rfl, rfl, fun hfalse => (by cases hfalse), hsame⟩
  · by_cases hinside : page.Inside c i
    · rw [component?, hempty.inside i hinside] at hother
      cases hother
    · rw [component?, hempty.other i hi hinside] at hother
      exact ⟨other, hother, rfl, rfl, id, hsame⟩

theorem disconnect (h : page.Reflects reading document fun _ => ∅)
    (hdone : page.disconnect c = .ok page') : page'.Reflects reading document fun _ => ∅ := by
  cases hstate : page.component? c with
  | none =>
      rw [Page.disconnect, hstate] at hdone
      cases hdone
  | some state =>
      rw [disconnect_eq hstate, Except.ok.injEq] at hdone
      rw [← hdone]
      split
      · rename_i hconnected
        have hwritten := callHook_written h.orderly c Hooks.removed fun _ hedits => hedits.removed
        obtain ⟨fields, hfields⟩ := hwritten.component?_eq c
        rw [hstate] at hfields
        have hhook := h.callHook c (·.removed) fun _ _ hedits => hedits.removed
        have hstate' : (page.callHook c (·.removed)).component? c = some { state with fields } :=
          hfields
        have hdown := hhook.dismantle hstate' hconnected
        exact hdown
      · exact h

/-! ### Runs -/

theorem serve (h : page.Reflects reading document fun _ => ∅)
    (hawaits : page.Awaits [] fun _ => False) {request : Request}
    (hplain : request.Plain (Component.Native reading Component.Reflective) document) :
    (page.serve request).Reflects reading document fun _ => ∅ := by
  have horderly := (hawaits.serve request).orderly
  cases request with
  | define definition =>
      cases hdefine : page.define definition with
      | error e =>
          rw [Page.serve, hdefine]
          exact h
      | ok next =>
          rw [Page.serve, hdefine] at horderly ⊢
          exact h.define hplain hdefine horderly
  | create tag =>
      refine settle_of h fun next hdone => ?_
      cases hcreate : page.create tag with
      | error e =>
          rw [hcreate] at hdone
          cases hdone
      | ok made =>
          rw [hcreate] at hdone
          cases hdone
          exact h.create hcreate
  | connect c parent =>
      cases hplain
      exact settle_of h fun _ hdone => h.connect hdone
  | disconnect c => exact settle_of h fun _ hdone => h.disconnect hdone
  | set c field value =>
      exact settle_of h fun _ hdone => (h.mono fun _ => Set.empty_subset _).set hdone
  | setHostAttribute c name text => exact settle_of h fun _ hdone => h.setHostAttribute hdone
  | markChanged c field => exact (reflects_respects c).mark page field h
  | dispatch node event => exact h.dispatch node event
  | mount f => exact h.mount f
  | unmount f => exact h.unmount f
  | runFrame => exact h.runFrame hawaits
  | runUntilIdle limit => exact h.runUntilIdle hawaits limit

end Reflects

theorem start_reflects (reading : Blueprint → List Sketch) (styles : StyleAttacher) :
    (start styles).Reflects reading (start styles).document fun _ => ∅ where
  orderly := start_orderly styles
  tidy := start_tidy reading _ styles
  mirrored c state hstate := by
    rw [component?, slot_start] at hstate
    cases hstate

theorem reflects_after {styles : StyleAttacher} {requests : List Request}
    (hplain : ∀ request ∈ requests,
      request.Plain (Component.Native reading Component.Reflective) (start styles).document) :
    (after styles requests).Reflects reading (start styles).document fun _ => ∅ := by
  induction requests using List.reverseRecOn with
  | nil => exact start_reflects reading styles
  | append_singleton requests request ih =>
      rw [after_append]
      exact (ih fun other hother => hplain other (List.mem_append_left _ hother)).serve
        (awaits_after styles requests)
        (hplain request (List.mem_append_right _ (List.mem_singleton_self request)))

section

variable {styles : StyleAttacher} {requests : List Request}
  (hplain : ∀ request ∈ requests, request.Plain
    (fun definition => definition.FromMarkup ∧ definition.Reflective) (start styles).document)
  {name : String} {converter : Converter}
  (hstate : (after styles requests).component? c = some state)
  (hconverter : state.definition.converter? name = some converter)
  (hshown : state.connected = true ∨ converter.force = false)

include hplain hstate hconverter hshown

/-- Whatever is asked of components that were read from markup and are connected under the document,
the attribute of a property was written for its value or reads as its value. -/
theorem ties_after :
    converter.Ties ((after styles requests).dom.attribute? state.host (Text.asciiLower name))
      ((state.fields.get? name).getD .null) := by
  obtain ⟨reading, hreading⟩ := exists_reading
  have hreflects : (after styles requests).Reflects reading (start styles).document fun _ => ∅ :=
    reflects_after fun request hrequest => (hplain request hrequest).imp fun definition hfrom =>
      ⟨hreading definition hfrom.1, hfrom.1.edits, hfrom.2⟩
  exact (hreflects.mirrored c state hstate).tied name converter (Set.notMem_empty name) hconverter
    hshown

/-- A text is at its attribute, whoever wrote it last. -/
theorem text_attribute_after (htype : converter.type = .string) :
    (after styles requests).dom.attribute? state.host (Text.asciiLower name) =
      converter.toAttribute ((state.fields.get? name).getD .null) :=
  (ties_after hplain hstate hconverter hshown).eq_of_string htype

/-- A flag is set just when its attribute is there and is not the word for false. -/
theorem flag_attribute_after (htype : converter.type = .boolean) :
    ((after styles requests).dom.attribute? state.host (Text.asciiLower name)).any (· ≠ "false") =
      ((state.fields.get? name).getD .null).isTruthy :=
  (ties_after hplain hstate hconverter hshown).any_of_boolean htype

end

/-- A meter with a number at its host. -/
def meter : Component :=
  (Component.ofMarkup "x-meter" "").addProperty "n" (.reflected .number .null)

/-- The meter is told a number and then, twice, a text that is none. -/
def misread : List Request :=
  [.define meter, .create "x-meter", .connect ⟨0⟩ ⟨0⟩, .setHostAttribute ⟨0⟩ "n" (some "5"),
    .setHostAttribute ⟨0⟩ "n" (some "abc"), .setHostAttribute ⟨0⟩ "n" (some "abc")]

theorem meter_reflective : meter.Reflective := by
  have hproperties : (Component.ofMarkup "x-meter" "").properties = .empty := by
    unfold Component.ofMarkup
    split <;> rfl
  have hreflective : (Component.ofMarkup "x-meter" "").Reflective := by
    unfold Component.ofMarkup
    split <;> exact Component.reflective_ofTemplate _ _
  refine hreflective.addProperty (by rw [hproperties]; rfl) fun _ other hother => ?_
  rw [Component.converter?, hproperties] at hother
  cases hother

theorem plain_misread : ∀ request ∈ misread, request.Plain
    (fun definition => definition.FromMarkup ∧ definition.Reflective) (start .elements).document := by
  have hmeter : meter.FromMarkup :=
    Component.FromMarkup.addProperty (.ofMarkup (by decide +kernel) "x-meter") "n" _
  intro request hrequest
  simp only [misread, List.mem_cons, List.not_mem_nil, or_false] at hrequest
  rcases hrequest with rfl | rfl | rfl | rfl | rfl | rfl
  · exact ⟨hmeter, meter_reflective⟩
  · trivial
  · rfl
  all_goals trivial

/-- A text that reads as the value that is there already stays at the host: the number is null, and
its attribute is not absent. -/
theorem ties_after_misread : ∃ state, (after .elements misread).component? ⟨0⟩ = some state ∧
    state.connected = true ∧ (after .elements misread).dom.attribute? state.host "n" = some "abc" ∧
      (⟨.number, false⟩ : Converter).Ties (some "abc") ((state.fields.get? "n").getD .null) ∧
        ((state.fields.get? "n").getD .null).isNull = true := by
  have hshown : ((after .elements misread).component? ⟨0⟩).any (fun state =>
      state.connected && state.definition.converter? "n" = some ⟨.number, false⟩ &&
        (after .elements misread).dom.attribute? state.host "n" = some "abc" &&
          ((state.fields.get? "n").getD .null).isNull) = true := by
    decide +kernel
  obtain ⟨state, hstate, hshown⟩ := (Option.any_eq_true ..).mp hshown
  simp only [Bool.and_eq_true, decide_eq_true_eq] at hshown
  obtain ⟨⟨⟨hconnected, hconverter⟩, htext⟩, hnull⟩ := hshown
  have hties := ties_after plain_misread hstate hconverter (Or.inl hconnected)
  rw [show Text.asciiLower "n" = "n" by decide +kernel, htext] at hties
  exact ⟨state, hstate, hconnected, htext, hties, hnull⟩

end LiveMarkup.Page
