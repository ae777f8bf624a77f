import LiveMarkup.Proofs.Page.Rest

/-!
The life of components on a page at rest: they are made, connected under the document and taken down
again, and every time the page comes to rest.
-/

namespace LiveMarkup.Page

open Relation (ReflTransGen)

variable {reading : Blueprint → List Sketch} {known : Component → Prop} {page page' : Page}
  {plan plan' : Plan} {n document root : NodeId} {c f j : InstanceId} {state : ComponentState}
  {inside : InstanceId → Prop}

/-! ### Taking a component down -/

theorem isMounted_eq_false (hdetached : page.isAttached f = false) : page.isMounted f = false := by
  cases hstate : page.fragment? f with
  | none =>
      rw [isMounted, hstate]
      rfl
  | some state =>
      rw [isMounted_of_fragment? hstate, ← Instance.isAttached_of_fragment? hstate]
      exact hdetached

/-- The slot of a fragment that is not mounted is emptied. -/
theorem Balanced.release (h : page.Balanced) (hdetached : page.isAttached f = false) :
    (page.release f).Balanced := by
  have hsame : (page.release f).stats = page.stats ∧ (page.release f).notices = page.notices := by
    unfold Page.release
    split <;> exact ⟨rfl, rfl⟩
  refine h.same (fun g => ?_) (by rw [hsame.1]) (by rw [hsame.1]) fun notice hmem => Or.inl ?_
  · rw [isMounted, fragment?_release]
    split
    · rename_i heq
      rw [heq, isMounted_eq_false hdetached]
      rfl
    · rw [isMounted]
  · rwa [hsame.2] at hmem

theorem Cut.balanced (hcut : Cut inside page page') (h : page.Balanced) : page'.Balanced := by
  cases hcut with
  | unmount _ => exact h.unmount _
  | @letGo f =>
      have hfragment : ∀ i : Instance, { i with children := [] }.fragment? = i.fragment? :=
        fun _ => rfl
      exact h.same (fun g => isMounted_congr (read_updateSlot Instance.fragment? hfragment page f g))
        rfl rfl fun _ hmem => Or.inl hmem
  | @drop f _ hdetached =>
      unfold Page.drop
      split
      · exact (h.calm (calm_editDom page _)).release hdetached
      · exact h.release hdetached

theorem Balanced.dismantle (h : page.Balanced) (horderly : page.Orderly) (c : InstanceId)
    (state : ComponentState) : (page.dismantle c state).Balanced := by
  have hretired : (page.retireAll c).Balanced := by
    have hcuts := retireAll_cuts horderly c
    generalize page.retireAll c = retired at hcuts ⊢
    induction hcuts with
    | refl => exact h
    | tail _ hcut ih => exact hcut.balanced ih
  have hfragment : ∀ i : Instance, (resetComponent i).fragment? = i.fragment? := by
    intro i
    cases hkind : i.kind <;>
      simp [resetComponent, Instance.mapBindings, Instance.mapComponent, Instance.fragment?, hkind]
  have hreset : ((page.retireAll c).updateSlot c resetComponent).Balanced :=
    hretired.same (fun g => isMounted_congr (read_updateSlot Instance.fragment? hfragment _ c g))
      rfl rfl fun _ hmem => Or.inl hmem
  have hclear : ∀ page : Page, Calm page (page.clearRoot state.host state.root) := by
    intro page
    unfold clearRoot
    split <;> exact calm_editDom page _
  have hqueue : ∀ page : Page, page.Balanced → { page with
      queue := page.queue.filter (· ≠ c)
      listeners := page.listeners.filter (·.component ≠ c) }.Balanced := fun _ hpage =>
    hpage.same (fun _ => rfl) rfl rfl fun _ hmem => Or.inl hmem
  exact (((hqueue _ hreset).calm (hclear _)).calm (calm_editDom _ _)).calm (calm_report _ rfl)

theorem Rested.home_eq (h : page.Rested reading plan) (hstate : page.component? c = some state)
    (hn : plan.home c = some n) : n = state.root := by
  obtain ⟨other, hother, hroot⟩ := h.home c n hn
  rw [hstate, Option.some.injEq] at hother
  rw [← hroot, hother]

theorem Rested.dismantle (h : page.Rested reading plan) (horderly : page.Orderly)
    (hstate : page.component? c = some state) (hconnected : state.connected = true) :
    (page.dismantle c state).Rested reading ⟨plan.role, Function.update plan.home c none⟩ := by
  have hempty : Emptied c page (page.dismantle c state) :=
    dismantle_emptied horderly (by rw [hstate]; rfl)
  have hlaid := h.busy.laid
  have hhome := fun n => h.home_eq hstate (n := n)
  refine ⟨⟨hlaid.dismantle hstate hconnected horderly hhome, (hempty.orderly hstate horderly).acyclic,
    fun o e he => ?_, fun _ hnone => absurd hnone List.not_mem_nil, List.Pairwise.nil⟩,
    h.balanced.dismantle horderly c state, fun i n hn => ?_⟩
  · obtain ⟨hne, hnot, hsame⟩ := hempty.held hstate he
    change ((page.dismantle c state).slot o).bindings.Holds e at he
    rw [hsame] at he
    have hbinds := h.busy.tied o e he
    refine hbinds.congr (hlaid.left_of_not_owns hstate hconnected horderly hbinds.1 ?_).1 rfl
    rintro ⟨i, hi, hunder⟩
    rw [hbinds.owner, (horderly.effect_owner o e he).1, Option.some.injEq] at hi
    subst hi
    exact hnot (Inside.of_under horderly hunder hne)
  · dsimp only at hn
    by_cases hi : i = c
    · rw [hi, Function.update_self] at hn
      cases hn
    · rw [Function.update_of_ne hi] at hn
      obtain ⟨other, hother, hroot⟩ := h.home i n hn
      refine ⟨other, ?_, hroot⟩
      rw [component?, hempty.other i hi]
      · exact hother
      · intro hinside
        rw [hinside.not_component horderly] at hother
        cases hother

theorem Tidy.dismantle (h : page.Tidy reading known document) (horderly : page.Orderly)
    (hstate : page.component? c = some state) (hconnected : state.connected = true) :
    (page.dismantle c state).Tidy reading known document := by
  obtain ⟨plan, hrested⟩ := h.rested
  have hempty : Emptied c page (page.dismantle c state) :=
    dismantle_emptied horderly (by rw [hstate]; rfl)
  refine h.next ⟨_, hrested.dismantle horderly hstate hconnected⟩ hempty.document hempty.definitions
    fun i state' hstate' => ?_
  by_cases hi : i = c
  · subst hi
    have hself := hempty.self
    rw [resetComponent_eq hstate] at hself
    rw [component?, hself] at hstate'
    cases hstate'
    exact ⟨state, hstate, rfl⟩
  · by_cases hinside : page.Inside c i
    · rw [component?, hempty.inside i hinside] at hstate'
      cases hstate'
    · rw [component?, hempty.other i hi hinside] at hstate'
      exact ⟨state', hstate', rfl⟩

theorem Tidy.disconnect (h : page.Tidy reading known document) (horderly : page.Orderly)
    (hdone : page.disconnect c = .ok page') : page'.Tidy reading known document := by
  cases hstate : page.component? c with
  | none =>
      rw [Page.disconnect, hstate] at hdone
      cases hdone
  | some state =>
      rw [disconnect_eq hstate, Except.ok.injEq] at hdone
      rw [← hdone]
      split
      · rename_i hconnected
        have hwritten := callHook_written horderly c Hooks.removed fun _ hedits => hedits.removed
        obtain ⟨fields, hfields⟩ := hwritten.component?_eq c
        rw [hstate] at hfields
        have hhook := h.callHook c (·.removed) fun _ _ hedits => hedits.removed
        have hstate' : (page.callHook c (·.removed)).component? c = some { state with fields } :=
          hfields
        have htidy := hhook.dismantle hwritten.orderly hstate' hconnected
        exact htidy
      · exact h

/-! ### Making and connecting a component -/

theorem Rested.create (h : page.Rested reading plan) (horderly : page.Orderly)
    {definition : Component} (hlegible : Legible reading definition) (tag : String) {dom : Dom}
    {host : NodeId} (hmade : page.dom.createElement tag = (dom, host)) :
    ({ page with dom }.occupy (newComponent page.nextSlot definition host)).Rested reading
      ⟨Function.update plan.role host (.host page.nextSlot), plan.home⟩ := by
  have hj := create_joins horderly definition dom host
  refine ⟨h.busy.create horderly hlegible tag hmade, h.balanced.joins hj rfl ?_ ?_ ?_,
    fun i n hn => ?_⟩
  · unfold occupy; split <;> rfl
  · unfold occupy; split <;> rfl
  · unfold occupy; split <;> exact fun _ hmem => Or.inl hmem
  · obtain ⟨state, hstate, hroot⟩ := h.home i n hn
    refine ⟨state, ?_, hroot⟩
    rw [component?, slot_of_joins hj rfl
      (hj.ne_of_not_vacant (Instance.not_vacant_of_component? hstate))]
    exact hstate

theorem Tidy.create (h : page.Tidy reading known document) (horderly : page.Orderly) {tag : String}
    (hdone : page.create tag = .ok (page', c)) : page'.Tidy reading known document := by
  cases hdefinition : page.definitions.get? tag with
  | none =>
      rw [Page.create, hdefinition] at hdone
      cases hdone
  | some definition =>
      rw [create_eq hdefinition] at hdone
      cases hdone
      obtain ⟨plan, hrested⟩ := h.rested
      have hnative := h.declared tag definition hdefinition
      have hj := create_joins horderly definition (page.dom.createElement tag).1
        (page.dom.createElement tag).2
      have hself := hj.slot_self
      have hother : ∀ i, i ≠ page.nextSlot → _ := fun i hi => slot_of_joins hj rfl hi
      refine ⟨⟨_, hrested.create horderly hnative.legible tag rfl⟩, ?_, ?_, ?_⟩
      · exact hj.document.trans h.document
      · rw [hj.definitions]
        exact h.declared
      · intro i state hstate
        by_cases hi : i = page.nextSlot
        · rw [component?, hi, hself] at hstate
          cases hstate
          exact hnative
        · rw [component?, hother i hi] at hstate
          exact h.made i state hstate

theorem Tidy.place (h : page.Tidy reading known document) (hstate : page.component? c = some state) :
    (page.editDom (·.appendChild document state.host)).Tidy reading known document :=
  h.calm (calm_editDom page _) fun _ hrested => hrested.calm (calm_editDom page _)
    (h.document ▸ hrested.busy.place hstate) rfl

theorem Tidy.placed (h : page.Tidy reading known document) (hstate : page.component? c = some state) :
    (page.placed c state document).Tidy reading known document :=
  foldl_respects (fun _ p _ hpage => hpage.reflect c p.name) (h.place hstate)

theorem component?_attach {made : Page} (hstate : made.component? c = some state) (root : NodeId)
    (i : InstanceId) : (made.attach c root).component? i =
      if i = c then some { state with root, connected := true } else made.component? i := by
  rw [component?, slot_attach hstate]
  split
  · rfl
  · rw [component?]

theorem Rested.attach (h : page.Rested reading plan) (hstate : page.component? c = some state)
    (hidle : state.connected = false) {made : Page} (hmade : page.makeRoot state = (made, root)) :
    ∃ plan', (made.attach c root).Rested reading plan' ∧
      Added (.shadow c) page.dom plan made.dom plan' := by
  obtain ⟨plan', hbusy, hadded⟩ := h.busy.attach hstate hidle hmade
  have hakin := akin_makeRoot page state
  have hcalm := calm_makeRoot page state
  rw [hmade] at hakin hcalm
  have hstate' : made.component? c = some state := by rwa [component?, hakin.slot]
  refine ⟨plan', ⟨hbusy, (h.balanced.calm hcalm).same (fun f => ?_) rfl rfl
    fun _ hmem => Or.inl hmem, fun i n hn => ?_⟩, hadded⟩
  · rw [isMounted, fragment?, slot_attach hstate']
    split
    · rename_i hf
      rw [hf, isMounted, fragment?, Instance.fragment?_of_component? hstate']
      rfl
    · rw [isMounted, fragment?]
  · rw [hadded.home] at hn
    obtain ⟨other, hother, hroot⟩ := h.home i n hn
    have hi : i ≠ c := by
      rintro rfl
      rw [h.busy.laid.home_of_idle hstate hidle] at hn
      cases hn
    rw [component?_attach hstate', if_neg hi, component?, hakin.slot]
    exact ⟨other, hother, hroot⟩

/-- The copy goes, and what was in it is written as it was. -/
theorem Laid.carries_rehome (h : page.Laid reading plan)
    (horderly : page.Orderly) (hstate : page.component? c = some state)
    (hconnected : state.connected = true) (hhome : plan.home c = some n)
    (hrole : plan.role n = .copy c) :
    Work.Carries c ⟨page, plan, []⟩ ⟨page.rehome n state.root,
      ⟨plan.role, Function.update plan.home c (some state.root)⟩, []⟩ := by
  have hdom := (h.rehomed hstate hconnected hhome hrole).1
  have hupholds : Upholds page (page.rehome n state.root) := .of_slot fun _ => rfl
  refine hupholds.carries h horderly.belongs (fun _ _ he => he)
    (fun x hx => Or.inl ⟨((hdom.live x).mp hx).1, rfl⟩) (fun x hx hinert => ?_) (fun _ => rfl)
    (fun x i hx hhost => ?_) (.of_nodes (.of_slot c fun _ => rfl) (fun x hx => ?_)
      fun x hx => ⟨((hdom.live x).mp hx.live).1, rfl⟩)
  · refine hdom.content x hx ?_
    rintro rfl
    rw [hrole] at hinert
    cases hinert
  · have hne : x ≠ n := by
      rintro rfl
      rw [show plan.role x = .host i from hhost] at hrole
      cases hrole
    exact ⟨(hdom.live x).mpr ⟨hx, hne⟩, hhost, hdom.content x hx hne⟩
  · have hne : x ≠ n := by
      rintro rfl
      exact hx.owner_ne (horderly.component_eq c state hstate).2 (congrArg Role.owner? hrole)
    exact ⟨(hdom.live x).mpr ⟨hx.live, hne⟩, rfl, hdom.content x hx.live hne⟩

/-- A component that is attached is at home in its root once it is rendered. -/
theorem Rested.render (h : page.Rested reading plan) (horderly : page.Orderly)
    (hstate : page.component? c = some state) (hconnected : state.connected = true)
    (hclean : (page.slot c).bindings.hasChanges = false) (hhome : plan.home c = none) :
    ∃ plan', (page.render c state.definition state.root).Rested reading plan' ∧
      plan'.home = Function.update plan.home c (some state.root) ∧
        Work.Carries c ⟨page, plan, []⟩ ⟨page.render c state.definition state.root, plan', []⟩ := by
  obtain ⟨dom, copy, hcopied⟩ : ∃ dom copy,
      state.definition.blueprint.instantiate page.dom = (dom, copy) := ⟨_, _, rfl⟩
  obtain ⟨drawn, hacts, hrender⟩ :=
    render_acts horderly hstate hconnected hclean hcopied state.root
  obtain ⟨plan₁, hbusy₁, hhome₁, hfresh, hsown⟩ := h.busy.sow hstate hconnected hhome hcopied
  obtain ⟨plan₂, hdrawn, hbalanced', hhome₂, hcarries⟩ := hacts.busy hbusy₁
    (h.balanced.calm (calm_dom page dom))
  have hhomes := hhome₂.trans hhome₁
  have hcopy : plan₂.home c = some copy.root := by
    rw [hhomes, Function.update_self]
  have hkept : ∀ i other, page.component? i = some other →
      ∃ references, drawn.component? i = some { other with references } := by
    have hturn := (render_turn horderly hstate hconnected hclean state.root).turn
    rw [hrender] at hturn
    exact fun i other hother => ((hturn.kept i).component_state other hother).1
  obtain ⟨references, hstate'⟩ := hkept c state hstate
  -- The copy is neither the host nor the root, which were there before it.
  have hrole : plan₂.role copy.root = .copy c := by
    have hdwells := hdrawn.laid.home c copy.root hcopy
    have hstands := h.busy.laid.component c state hstate
    rcases hdwells.role with hhost | hshadow | hrole
    · obtain ⟨⟨other, hother, hsame⟩, _⟩ := hdrawn.laid.fits_of_role hdwells.live hhost
      rw [hstate', Option.some.injEq] at hother
      subst hother
      exact absurd ((show state.host = copy.root from hsame) ▸ hstands.host_live) hfresh
    · obtain ⟨⟨other, hother, _, hsame⟩, _⟩ := hdrawn.laid.fits_of_role hdwells.live hshadow
      rw [hstate', Option.some.injEq] at hother
      subst hother
      exact absurd ((show state.root = copy.root from hsame) ▸ (hstands.root hconnected).1) hfresh
    · exact hrole
  have hsettled := hdrawn.settle hstate' hconnected hcopy hrole
  have hcarried : Work.Carries c ⟨_, _, []⟩ _ :=
    hsown.carries h.busy.laid horderly (horderly.component_eq c state hstate).2
  rw [List.append_nil] at hcarried
  have horderly' : drawn.Orderly :=
    (render_turn horderly hstate hconnected hclean state.root).orderly.of_akin (by
      rw [hrender]
      exact ⟨rfl, rfl, rfl, rfl, rfl, rfl, rfl, rfl⟩)
  have hrehomed := hdrawn.laid.carries_rehome horderly' hstate' hconnected hcopy hrole
  rw [hrender]
  refine ⟨_, ⟨hsettled, hbalanced'.calm (calm_editDom drawn _), fun i n hn => ?_⟩,
    by rw [hhomes, Function.update_idem], (hcarried.trans hcarries).trans hrehomed⟩
  dsimp only at hn
  by_cases hi : i = c
  · subst hi
    rw [Function.update_self, Option.some.injEq] at hn
    exact ⟨_, hstate', hn⟩
  · rw [Function.update_of_ne hi, hhomes, Function.update_of_ne hi] at hn
    obtain ⟨other, hother, hroot⟩ := h.home i n hn
    obtain ⟨_, hother'⟩ := hkept i other hother
    exact ⟨_, hother', hroot⟩

theorem Rested.dress (h : page.Rested reading plan) (hhome : plan.home c = some root)
    (sheets : List String) :
    ∃ plan', (page.editDom fun dom => page.styles.attach dom root sheets).Rested reading plan' ∧
      Added (.style c) page.dom plan (page.styles.attach page.dom root sheets) plan' := by
  obtain ⟨plan', hbusy, hadded⟩ := h.busy.attachStyles hhome page.styles sheets
  exact ⟨plan', h.calm (calm_editDom page _) hbusy hadded.home, hadded⟩

theorem Added.sparesHosts {role : Role} {agenda : List Errand}
    (h : Added role page.dom plan page'.dom plan') :
    Work.SparesHosts ⟨page, plan, agenda⟩ ⟨page', plan', agenda⟩ := by
  intro n i hn hrole
  obtain ⟨hlive, hsame, hcontent⟩ := h.old n hn
  exact ⟨hlive, hsame.trans hrole, hcontent⟩

/-- The nodes that are new belong to the component. -/
theorem Added.spares {role : Role} {agenda : List Errand}
    (h : Added role page.dom plan page'.dom plan') (hslots : SparesSlots c page page')
    (hrole : role.owner? = some c) (hself : (page'.slot c).component = c) :
    Work.Spares c ⟨page, plan, agenda⟩ ⟨page', plan', agenda⟩ := by
  refine .of_nodes hslots (fun n hn => h.old n hn.live) fun n hn => ?_
  by_cases hold : page.dom.Live n
  · exact ⟨hold, (h.old n hold).2.1⟩
  · exact absurd ((congrArg Role.owner? (h.new n hn.live hold)).trans hrole) (hn.owner_ne hself)

/-- A component that is placed is attached, rendered and dressed. -/
theorem Rested.rendered (h : page.Rested reading plan) (horderly : page.Orderly)
    (hstate : page.component? c = some state) (hidle : state.connected = false) :
    ∃ plan', (page.rendered c state).Rested reading plan' ∧
      Work.SparesHosts ⟨page, plan, []⟩ ⟨page.rendered c state, plan', []⟩ ∧
        Work.Spares c ⟨page, plan, []⟩ ⟨page.rendered c state, plan', []⟩ := by
  have hnone := h.busy.laid.home_of_idle hstate hidle
  obtain ⟨made, root, hmade⟩ : ∃ made root, page.makeRoot state = (made, root) := ⟨_, _, rfl⟩
  obtain ⟨hakin, hstate', hself, hclean⟩ := attach_ready hstate hmade
  have horderly' := attach_orderly hstate' (horderly.of_akin hakin) root
  obtain ⟨plan₁, hattached, hadded⟩ := h.attach hstate hidle hmade
  obtain ⟨plan₂, hrendered, hhome₂, hcarries⟩ :=
    hattached.render horderly' hself rfl hclean ((congrFun hadded.home c).trans hnone)
  have hhosts : Work.SparesHosts ⟨page, plan, []⟩ ⟨made.attach c root, plan₁, []⟩ :=
    Added.sparesHosts hadded
  have hcomponent := (horderly'.component_eq c _ hself).2
  have hspares : Work.Spares c ⟨page, plan, []⟩ ⟨made.attach c root, plan₁, []⟩ := by
    refine Added.spares hadded (.of_other (horderly.component_eq c state hstate).2 hcomponent
      fun i hi => ?_) rfl hcomponent
    rw [slot_attach hstate', if_neg hi, hakin.slot]
  have hhosts' := hhosts.trans hcarries.hosts
  have hspares' := hspares.trans hcarries.spares
  have hdrawn := (render_turn horderly' hself rfl hclean root).orderly
  have hdrawnState := (render_turn horderly' hself rfl hclean root).turn.kept c
  unfold Page.rendered
  rw [hmade]
  dsimp only at hrendered hhome₂ hhosts' hspares' hdrawn hdrawnState ⊢
  generalize (made.attach c root).render c state.definition root = drawn
    at hrendered hhosts' hspares' hdrawn hdrawnState ⊢
  obtain ⟨⟨_, hstate''⟩, _⟩ := hdrawnState.component_state _ hself
  obtain ⟨plan₃, hdressed, hadded'⟩ :=
    hrendered.dress ((congrFun hhome₂ c).trans (Function.update_self _ _ _)) state.definition.styles
  exact ⟨plan₃, hdressed.idle (idle_report _ rfl), hhosts'.trans (Added.sparesHosts hadded'),
    hspares'.trans (Added.spares hadded' (.of_slot c fun _ => rfl) rfl
      (hdrawn.component_eq c _ hstate'').2)⟩

/-- What rendering a component leaves alone: the others, and its own definition, host and fields. -/
theorem rendered_frame (horderly : page.Orderly) (hstate : page.component? c = some state) :
    (page.rendered c state).Orderly ∧ (page.rendered c state).document = page.document ∧
      (page.rendered c state).definitions = page.definitions ∧
      ∀ i state', (page.rendered c state).component? i = some state' → ∃ old root connected references,
        page.component? i = some old ∧ state' = { old with root, connected, references } ∧
          (i ≠ c → connected = old.connected) := by
  obtain ⟨made, root, hmade⟩ : ∃ made root, page.makeRoot state = (made, root) := ⟨_, _, rfl⟩
  obtain ⟨hakin, hstate', hself, hclean⟩ := attach_ready hstate hmade
  obtain ⟨hrendered, hturn, _⟩ := render_turn
    (attach_orderly hstate' (horderly.of_akin hakin) root) hself rfl hclean root
  unfold Page.rendered
  rw [hmade]
  dsimp only at hrendered hturn ⊢
  generalize (made.attach c root).render c state.definition root = drawn at hrendered hturn ⊢
  refine ⟨(hrendered.of_akin (akin_editDom _ _)).of_akin (akin_report _ _),
    hturn.document.trans hakin.document, hturn.definitions.trans hakin.definitions,
    fun i state' hstate'' => ?_⟩
  obtain ⟨old, references, hold, rfl⟩ := hturn.component?_back hstate''
  rw [component?_attach hstate'] at hold
  split at hold
  · rename_i hi
    cases hold
    exact ⟨state, root, true, references, hi ▸ hstate, rfl, fun hne => absurd hi hne⟩
  · rw [component?, hakin.slot] at hold
    exact ⟨old, old.root, old.connected, references, hold, rfl, fun _ => rfl⟩

theorem component?_rendered (horderly : page.Orderly) (hstate : page.component? c = some state) :
    ∃ root references, (page.rendered c state).component? c =
      some { state with root, references, connected := true } := by
  obtain ⟨made, root, hmade⟩ : ∃ made root, page.makeRoot state = (made, root) := ⟨_, _, rfl⟩
  obtain ⟨hakin, hstate', hself, hclean⟩ := attach_ready hstate hmade
  have hturn := (render_turn (attach_orderly hstate' (horderly.of_akin hakin) root) hself rfl hclean
    root).turn
  obtain ⟨⟨references, hrendered⟩, _⟩ := (hturn.kept c).component_state _ hself
  refine ⟨root, references, ?_⟩
  rw [Page.rendered, hmade]
  exact hrendered

theorem Tidy.rendered (h : page.Tidy reading known document) (horderly : page.Orderly)
    (hstate : page.component? c = some state) (hidle : state.connected = false) :
    (page.rendered c state).Tidy reading known document := by
  obtain ⟨plan, hrested⟩ := h.rested
  obtain ⟨plan', hrendered, _⟩ := hrested.rendered horderly hstate hidle
  obtain ⟨_, hdocument, hdefinitions, hback⟩ := rendered_frame horderly hstate
  refine h.next ⟨plan', hrendered⟩ hdocument hdefinitions fun i state' hstate' => ?_
  obtain ⟨old, _, _, _, hold, rfl, _⟩ := hback i state' hstate'
  exact ⟨old, hold, rfl⟩

theorem Tidy.connect (h : page.Tidy reading known document) (horderly : page.Orderly)
    (hdone : page.connect c document = .ok page') : page'.Tidy reading known document := by
  cases hstate : page.component? c with
  | none =>
      rw [Page.connect, hstate] at hdone
      cases hdone
  | some state =>
      rw [connect_eq hstate, Except.ok.injEq] at hdone
      rw [← hdone]
      split
      · exact h
      · rename_i hidle
        have hplaced := akin_placed page c state document
        refine Tidy.callHook ?_ c _ fun _ _ hedits => hedits.started
        refine (h.placed hstate).rendered (horderly.of_akin hplaced) ?_ (by simpa using hidle)
        rw [component?, hplaced.slot]
        exact hstate

/-! ### Requests -/

theorem Rested.declare (h : page.Rested reading plan) (definitions : Dict Component) :
    { page with definitions }.Rested reading plan where
  busy := h.busy.still ⟨⟨rfl, fun _ => .of_slot rfl⟩, fun _ state' hstate' => ⟨state', hstate', rfl⟩⟩
    (fun _ => rfl) (fun _ => rfl) (rewritten_of_eq rfl) (fun _ _ hsuits => hsuits)
    (fun _ _ he => Or.inl he) h.busy.ready h.busy.apart
  balanced := h.balanced.same (fun _ => rfl) rfl rfl fun _ hmem => Or.inl hmem
  home := h.home

theorem Tidy.define (h : page.Tidy reading known document) {definition : Component}
    (hnative : definition.Native reading known) (hdone : page.define definition = .ok page') :
    page'.Tidy reading known document := by
  unfold Page.define at hdone
  split at hdone
  · cases hdone
  · split at hdone
    · cases hdone
    · cases hdone
      have hnext : { page with
          definitions := page.definitions.insert definition.tag definition }.Tidy reading known document := by
        refine ⟨h.rested.imp fun _ hrested => hrested.declare _, h.document,
          fun tag other hother => ?_, h.made⟩
        rw [Dict.get?_insert] at hother
        split at hother
        · cases hother
          exact hnative
        · exact h.declared tag other hother
      exact hnext.idle (idle_report _ rfl)

theorem Tidy.serve (h : page.Tidy reading known document) (hawaits : page.Awaits [] fun _ => False)
    {request : Request} (hplain : request.Plain (Component.Native reading known) document) :
    (page.serve request).Tidy reading known document := by
  have horderly := hawaits.orderly
  cases request with
  | define definition => exact settle_of h fun _ hdone => h.define hplain hdone
  | create tag =>
      refine settle_of h fun next hdone => ?_
      cases hcreate : page.create tag with
      | error e =>
          rw [hcreate] at hdone
          cases hdone
      | ok made =>
          rw [hcreate] at hdone
          cases hdone
          exact h.create horderly hcreate
  | connect c parent =>
      cases hplain
      exact settle_of h fun _ hdone => h.connect horderly hdone
  | disconnect c => exact settle_of h fun _ hdone => h.disconnect horderly hdone
  | set c field value => exact settle_of h fun _ hdone => h.set hdone
  | setHostAttribute c name value => exact settle_of h fun _ hdone => h.setHostAttribute hdone
  | markChanged c field => exact h.idle (idle_markChanged page c field)
  | dispatch node event => exact h.dispatch node event
  | mount f => exact h.mount horderly f
  | unmount f => exact h.unmount horderly f
  | runFrame => exact h.runFrame hawaits
  | runUntilIdle limit => exact h.runUntilIdle hawaits limit

end LiveMarkup.Page
