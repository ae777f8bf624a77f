import LiveMarkup.Proofs.Page.Acts

/-!
The form of an instance is its place and its kind, whatever is registered with it, waits in it or is
stored in its fields. Most of what happens to a page leaves all forms alone.
-/

namespace LiveMarkup

/-- The kind of an instance, without what a component stores. -/
def Kind.bare : Kind → Kind
  | .component state => .component { state with fields := .empty, references := .empty }
  | .fragment state => .fragment state
  | .vacant => .vacant

namespace Instance

variable {i i' : Instance}

def form (i : Instance) : Instance :=
  ⟨i.parent, i.component, .empty, [], false, i.kind.bare⟩

theorem isVacant_form (i : Instance) : i.form.isVacant = i.isVacant := by
  unfold form isVacant
  cases i.kind <;> rfl

theorem fragment?_form (i : Instance) : i.form.fragment? = i.fragment? := by
  unfold form fragment?
  cases i.kind <;> rfl

theorem component?_form (i : Instance) : i.form.component? =
    i.component?.map ({ · with fields := .empty, references := .empty }) := by
  unfold form component?
  cases i.kind <;> rfl

theorem form_mapBindings (f : Bindings → Bindings) (i : Instance) :
    (i.mapBindings f).form = i.form :=
  rfl

theorem form_mapComponent {f : ComponentState → ComponentState}
    (hf : ∀ state, ∃ fields references, f state = { state with fields, references })
    (i : Instance) : (i.mapComponent f).form = i.form := by
  unfold mapComponent
  cases hkind : i.kind with
  | component state =>
      obtain ⟨fields, references, heq⟩ := hf state
      simp [form, hkind, Kind.bare, heq]
  | fragment state => simp
  | vacant => simp

section SameForm

variable (h : i'.form = i.form)

include h

theorem parent_eq_of_form : i'.parent = i.parent :=
  (congrArg (fun x : Instance => x.parent) h : i'.form.parent = i.form.parent)

theorem component_eq_of_form : i'.component = i.component :=
  (congrArg (fun x : Instance => x.component) h : i'.form.component = i.form.component)

theorem isVacant_eq_of_form : i'.isVacant = i.isVacant := by
  rw [← isVacant_form, h, isVacant_form]

theorem fragment?_eq_of_form : i'.fragment? = i.fragment? := by
  rw [← fragment?_form, h, fragment?_form]

theorem component?_of_form {state : ComponentState} (hstate : i.component? = some state) :
    ∃ fields references, i'.component? = some { state with fields, references } := by
  have hsame : i'.form.component? = i.form.component? := by rw [h]
  rw [component?_form, component?_form, hstate] at hsame
  obtain ⟨state', hstate', heq⟩ := Option.map_eq_some_iff.mp hsame
  refine ⟨state'.fields, state'.references, ?_⟩
  obtain ⟨_, _, _, _, _, _⟩ := state'
  obtain ⟨_, _, _, _, _, _⟩ := state
  simp_all

end SameForm

end Instance

namespace Page

variable {page page' page'' base : Page} {id j owner : InstanceId}

/-- Nothing has happened to the forms of instances and to what is counted of fragments; no mount has
skipped its fragment. -/
structure Calm (page page' : Page) : Prop where
  form : ∀ j, (page'.slot j).form = (page.slot j).form
  document : page'.document = page.document
  definitions : page'.definitions = page.definitions
  styles : page'.styles = page.styles
  listeners : page'.listeners = page.listeners
  mounts : page'.stats.mounts = page.stats.mounts
  unmounts : page'.stats.unmounts = page.stats.unmounts
  notices : ∀ notice ∈ page'.notices, notice ∈ page.notices ∨ notice.skips = false

namespace Calm

theorem refl (page : Page) : Calm page page :=
  ⟨fun _ => rfl, rfl, rfl, rfl, rfl, rfl, rfl, fun _ h => Or.inl h⟩

theorem trans (h : Calm page page') (h' : Calm page' page'') : Calm page page'' where
  form j := (h'.form j).trans (h.form j)
  document := h'.document.trans h.document
  definitions := h'.definitions.trans h.definitions
  styles := h'.styles.trans h.styles
  listeners := h'.listeners.trans h.listeners
  mounts := h'.mounts.trans h.mounts
  unmounts := h'.unmounts.trans h.unmounts
  notices notice hmem := by
    rcases h'.notices notice hmem with hmem | hskips
    · exact h.notices notice hmem
    · exact Or.inr hskips

theorem foldl {β : Type} {f : Page → β → Page} (hf : ∀ page x, Calm page (f page x))
    (items : List β) (page : Page) : Calm page (items.foldl f page) := by
  induction items generalizing page with
  | nil => exact .refl page
  | cons x rest ih => exact (hf page x).trans (ih _)

theorem up (h : Calm page page') (j : InstanceId) : page'.up j = page.up j :=
  Instance.parent_eq_of_form (h.form j)

theorem component (h : Calm page page') (j : InstanceId) :
    (page'.slot j).component = (page.slot j).component :=
  Instance.component_eq_of_form (h.form j)

theorem isVacant (h : Calm page page') (j : InstanceId) :
    (page'.slot j).isVacant = (page.slot j).isVacant :=
  Instance.isVacant_eq_of_form (h.form j)

theorem fragment? (h : Calm page page') (j : InstanceId) : page'.fragment? j = page.fragment? j :=
  Instance.fragment?_eq_of_form (h.form j)

end Calm

/-- What is not in the slots may change, notices and the counts of mounts aside. -/
theorem calm_of_slots (hslots : page'.slots = page.slots) (hdocument : page'.document = page.document)
    (hdefinitions : page'.definitions = page.definitions)
    (hstyles : page'.styles = page.styles) (hlisteners : page'.listeners = page.listeners)
    (hmounts : page'.stats.mounts = page.stats.mounts)
    (hunmounts : page'.stats.unmounts = page.stats.unmounts)
    (hnotices : page'.notices = page.notices) : Calm page page' := by
  refine ⟨fun j => ?_, hdocument, hdefinitions, hstyles, hlisteners, hmounts, hunmounts, ?_⟩
  · rw [slot, hslots, slot]
  · rw [hnotices]
    exact fun _ h => Or.inl h

theorem calm_report (page : Page) {notice : Notice} (h : notice.skips = false) :
    Calm page (page.report notice) where
  form _ := rfl
  document := rfl
  definitions := rfl
  styles := rfl
  listeners := rfl
  mounts := rfl
  unmounts := rfl
  notices other hmem := by
    rcases Array.mem_push.mp hmem with hmem | rfl
    · exact Or.inl hmem
    · exact Or.inr h

theorem calm_editDom (page : Page) (change : Dom → Dom) : Calm page (page.editDom change) :=
  calm_of_slots rfl rfl rfl rfl rfl rfl rfl rfl

theorem calm_dom (page : Page) (dom : Dom) : Calm page { page with dom } :=
  calm_of_slots rfl rfl rfl rfl rfl rfl rfl rfl

theorem calm_updateSlot {f : Instance → Instance} (hf : ∀ i, (f i).form = i.form) (page : Page)
    (id : InstanceId) : Calm page (page.updateSlot id f) :=
  ⟨read_updateSlot Instance.form hf page id, rfl, rfl, rfl, rfl, rfl, rfl, fun _ h => Or.inl h⟩

theorem calm_mapBindings (page : Page) (id : InstanceId) (f : Bindings → Bindings) :
    Calm page (page.updateSlot id (·.mapBindings f)) :=
  calm_updateSlot (Instance.form_mapBindings f) page id

theorem calm_evaluate (page : Page) (owner : InstanceId) (i : Interpolation) :
    Calm page (page.evaluate owner i).2 := by
  unfold evaluate
  split
  · exact .refl page
  · exact calm_report page rfl

theorem calm_counted (page : Page) (e : Effect) : Calm page (page.counted e) :=
  ⟨fun _ => rfl, rfl, rfl, rfl, rfl, rfl, rfl, fun _ h => Or.inl h⟩

theorem calm_checked (page : Page) (e : Effect) (guard : Interpolation) :
    Calm page (page.checked e guard).2 :=
  (calm_counted page e).trans (calm_evaluate _ _ _)

theorem calm_enroll (owner : InstanceId) (e : Effect) (page : Page) (field : String) :
    Calm page (page.enroll owner e field) := by
  unfold enroll
  split
  · exact calm_mapBindings page owner _
  · exact .refl page

theorem calm_enrolled (page : Page) (fields : Names) (e : Effect) :
    Calm page (page.enrolled fields e) := by
  have heffects : Calm page { page with effects := page.effects + 1 } :=
    calm_of_slots rfl rfl rfl rfl rfl rfl rfl rfl
  exact heffects.trans (.foldl (calm_enroll e.owner e) fields _)

theorem calm_writeText (page : Page) (node : NodeId) (s : Option String) :
    Calm page (page.writeText node s) := by
  cases s with
  | some s => exact calm_editDom page (·.setTextContent node s)
  | none => exact .refl page

theorem calm_writeAttribute (page : Page) (node : NodeId) (name : String) (outcome : Outcome) :
    Calm page (page.writeAttribute node name outcome) := by
  cases outcome with
  | true => exact calm_editDom page (·.setAttribute node name "")
  | text s => exact calm_editDom page (·.setAttribute node name s)
  | falsy => exact calm_editDom page (·.eraseAttribute node name)

/-- An effect that writes to its node does nothing else. -/
theorem calm_runEffect (mount : InstanceId → Page → Page) (page : Page) {e : Effect}
    (hwrites : e.task.writes = true) : Calm page (runEffect mount page e) := by
  have hevaluated := fun i => (calm_counted page e).trans (calm_evaluate _ e.owner i)
  unfold runEffect
  cases htask : e.task with
  | writeText i | writeUpper i => exact (hevaluated i).trans (calm_writeText _ _ _)
  | writeAttribute name i => exact (hevaluated i).trans (calm_writeAttribute _ _ _ _)
  | guardFragment guard | mountFragment =>
      rw [htask] at hwrites
      cases hwrites

theorem calm_placeAnchor (page : Page) (node : NodeId) : Calm page (page.placeAnchor node).1 := by
  unfold placeAnchor
  dsimp only
  split <;> exact calm_editDom page fun _ => _

theorem calm_reportMismatch (page : Page) (index : Nat) (directive : Directive Blueprint)
    (node : NodeId) : Calm page (page.reportMismatch index directive node) := by
  unfold reportMismatch
  split
  · exact .refl page
  · exact calm_report page rfl

/-! ### Idle changes -/

/-- The document is what it was, and no effect is registered anew. -/
structure Idle (page page' : Page) : Prop extends Calm page page' where
  dom : page'.dom = page.dom
  held : ∀ j e, (page'.slot j).bindings.Holds e → (page.slot j).bindings.Holds e

theorem Idle.refl (page : Page) : Idle page page :=
  ⟨.refl page, rfl, fun _ _ h => h⟩

theorem Idle.trans (h : Idle page page') (h' : Idle page' page'') : Idle page page'' :=
  ⟨h.toCalm.trans h'.toCalm, h'.dom.trans h.dom, fun j e he => h.held j e (h'.held j e he)⟩

theorem idle_of_calm (hcalm : Calm page page') (hslots : page'.slots = page.slots)
    (hdom : page'.dom = page.dom) : Idle page page' := by
  refine ⟨hcalm, hdom, fun j e he => ?_⟩
  rwa [slot, hslots] at he

theorem idle_report (page : Page) {notice : Notice} (h : notice.skips = false) :
    Idle page (page.report notice) :=
  idle_of_calm (calm_report page h) rfl rfl

theorem idle_queue (page : Page) (queue : List InstanceId) : Idle page { page with queue } :=
  idle_of_calm (calm_of_slots rfl rfl rfl rfl rfl rfl rfl rfl) rfl rfl

theorem idle_updateSlot {f : Instance → Instance} (hform : ∀ i, (f i).form = i.form)
    (hheld : ∀ i e, (f i).bindings.Holds e ↔ i.bindings.Holds e) (page : Page) (id : InstanceId) :
    Idle page (page.updateSlot id f) := by
  refine ⟨calm_updateSlot hform page id, rfl, fun j e he => ?_⟩
  have hread : ∀ i, (f i).bindings.Holds = i.bindings.Holds := fun i =>
    funext fun e => propext (hheld i e)
  rwa [read_updateSlot (·.bindings.Holds) hread page id j] at he

theorem idle_scheduled (page : Page) (id : InstanceId) (scheduled : Bool) :
    Idle page (page.updateSlot id ({ · with scheduled })) := by
  have hform : ∀ i : Instance, { i with scheduled }.form = i.form := fun _ => rfl
  exact idle_updateSlot hform (fun _ _ => Iff.rfl) page id

theorem idle_requestPass (page : Page) (id : InstanceId) : Idle page (page.requestPass id) := by
  unfold requestPass
  split
  · split
    · exact .refl page
    · exact ((idle_scheduled page id true).trans (idle_queue _ _)).trans (idle_report _ rfl)
  · exact .refl page

theorem idle_markAt (field : String) (page : Page) (id : InstanceId) :
    Idle page (markAt field page id) := by
  unfold markAt
  split
  · have hheld : ∀ (i : Instance) e, (i.mapBindings (·.mark field)).bindings.Holds e ↔
        i.bindings.Holds e := fun _ _ => Bindings.holds_mark
    refine (idle_updateSlot (Instance.form_mapBindings _) hheld page id).trans ?_
    unfold schedule
    split
    · exact idle_requestPass _ _
    · exact (idle_scheduled _ id true).trans (idle_requestPass _ _)
    · exact .refl _
  · exact .refl page

theorem idle_markChanged (page : Page) (id : InstanceId) (field : String) :
    Idle page (page.markChanged id field) := by
  unfold markChanged
  generalize page.family id = family
  induction family generalizing page with
  | nil => exact .refl page
  | cons i rest ih => exact (idle_markAt field page i).trans (ih _)

/-- What a component stores may be anything. -/
theorem idle_mapComponent {f : ComponentState → ComponentState}
    (hf : ∀ state, ∃ fields references, f state = { state with fields, references }) (page : Page)
    (id : InstanceId) : Idle page (page.updateSlot id (·.mapComponent f)) := by
  refine idle_updateSlot (Instance.form_mapComponent hf) (fun i e => ?_) page id
  unfold Instance.mapComponent
  split <;> rfl

theorem idle_setReference (page : Page) (owner : InstanceId) (name : String) (node : NodeId) :
    Idle page (page.setReference owner name node) :=
  idle_mapComponent (fun state => ⟨state.fields, _, rfl⟩) page _

/-! ### Scripts -/

theorem calm_reflect (page : Page) (id : InstanceId) (field : String) :
    Calm page (page.reflect id field) :=
  reflect_keeps (fun _ _ _ _ => calm_editDom page _) (.refl page) field

theorem calm_store (page : Page) (id : InstanceId) (field : String) (value : Json) :
    Calm page (page.store id field value) :=
  ((idle_mapComponent (fun state => ⟨_, state.references, rfl⟩) page id).toCalm.trans
    (idle_markChanged _ id field).toCalm).trans (calm_reflect _ id field)

/-- What holds after every calm change is kept by scripts. -/
theorem calm_respects {P : Page → Prop} {allowed : (Dom → Dom) → Prop} {id : InstanceId}
    (hcalm : ∀ page page', Calm page page' → P page → P page')
    (hscripts : ∀ page state, P page → page.component? id = some state →
      state.definition.Edits allowed) : Respects allowed id P where
  store page field value := hcalm page _ (calm_store page id field value)
  mark page field := hcalm page _ (idle_markChanged page id field).toCalm
  edit page change _ := hcalm page _ (calm_editDom page change)
  note page _ := hcalm page _ (calm_of_slots rfl rfl rfl rfl rfl rfl rfl rfl)
  overrun page := hcalm page _ (calm_of_slots rfl rfl rfl rfl rfl rfl rfl rfl)
  scripts := hscripts

/-! ### Passes -/

theorem idle_begin (page : Page) (id : InstanceId) : Idle page (page.begin id) :=
  idle_scheduled page id false

/-- Components that `waited` wait or do not wait any more, and nothing else happens to slots and
nodes. -/
structure Passing (waited : InstanceId → Prop) (page page' : Page) : Prop
    extends Idle page page' where
  orderly : page'.Orderly
  slot : ∀ j, ∃ scheduled, page'.slot j = { page.slot j with scheduled }
  other : ∀ j, ¬ waited j → page'.slot j = page.slot j

theorem Passing.mono {waited waited' : InstanceId → Prop} (h : Passing waited page page')
    (hsub : ∀ j, waited j → waited' j) : Passing waited' page page' :=
  { h with other := fun j hj => h.other j fun hwaited => hj (hsub j hwaited) }

theorem passing_begin (h : page.Orderly) (id : InstanceId) :
    Passing (· = id) page (page.begin id) := by
  refine ⟨idle_begin page id, begin_orderly h id, fun j => ?_, fun j hj => ?_⟩
  · rw [slot_begin]
    split
    · exact ⟨_, rfl⟩
    · exact ⟨_, rfl⟩
  · rw [slot_begin, if_neg hj]

theorem passing_started (h : page.Orderly) (id : InstanceId) :
    Passing (· = id) page ({ page.begin id with stats.passes := page.stats.passes + 1 }.report
      (.passStarted id.number)) := by
  have hbegin := passing_begin h id
  have hstats : Idle (page.begin id)
      { page.begin id with stats.passes := page.stats.passes + 1 } :=
    ⟨calm_of_slots rfl rfl rfl rfl rfl rfl rfl rfl, rfl, fun _ _ he => he⟩
  exact ⟨(hbegin.toIdle.trans hstats).trans (idle_report _ rfl),
    hbegin.orderly.of_akin ((akin_stats _ _).trans (akin_report _ _)), hbegin.slot, hbegin.other⟩

/-- What is kept when nothing is registered or written and when effects and hooks run is kept by a
pass. -/
theorem runPass_keeps {P : Page → Prop} {rest : List InstanceId} {busy : InstanceId → Prop}
    (hpassing : ∀ page page', Passing (· = id) page page' → P page → P page')
    (hhook : ∀ page (hook : Hooks → Script), (∀ allowed hooks, Hooks.Edits allowed hooks →
      (hook hooks).Edits allowed) → page.Orderly → P page → P (page.callHook id hook))
    (heffects : ∀ page state, page.Orderly → page.component? id = some state →
      state.connected = true → P page →
        P (page.runEffects id state.definition.blueprint.depth))
    (h : page.Awaits (id :: rest) busy) (hpage : P page) : P (page.runPass id) := by
  by_cases hdone : ∀ state, page.component? id = some state → state.connected = false
  · rw [runPass_of_idle hdone]
    exact hpassing page _ (passing_begin h.orderly id) hpage
  · push Not at hdone
    obtain ⟨state, hstate, hconnected⟩ := hdone
    have hconnected : state.connected = true := by simpa using hconnected
    have hstarted := passing_started h.orderly id
    have hopened : P (page.opened id) :=
      hhook _ (·.beforeUpdate) (fun _ _ hedits => hedits.beforeUpdate) hstarted.orderly
        (hpassing page _ hstarted hpage)
    obtain ⟨fields, hstate'⟩ := component?_opened h.orderly hstate
    have horderly := h.opened.orderly
    rw [runPass_of_connected hstate hconnected, closed_eq hstate]
    refine hhook _ (·.afterUpdate) (fun _ _ hedits => hedits.afterUpdate)
      (runEffects_turn horderly hstate').orderly ?_
    exact heffects _ { state with fields } horderly hstate' hconnected hopened

theorem runFrame_keeps {P : Page → Prop} {busy : InstanceId → Prop}
    (hpassing : ∀ page page', Passing (· ∈ base.queue) page page' → P page → P page')
    (hhook : ∀ page, ∀ id ∈ base.queue, ∀ hook : Hooks → Script, (∀ allowed hooks,
      Hooks.Edits allowed hooks → (hook hooks).Edits allowed) → page.Orderly → P page →
        P (page.callHook id hook))
    (heffects : ∀ page, ∀ id ∈ base.queue, ∀ state, page.Orderly →
      page.component? id = some state → state.connected = true → P page →
        P (page.runEffects id state.definition.blueprint.depth))
    (h : base.Awaits [] busy) (hpage : P base) : P base.runFrame.1 := by
  have hpasses : ∀ (ids : List InstanceId) (page : Page), ids ⊆ base.queue →
      page.Awaits ids busy → P page → P (ids.foldl runPass page) := by
    intro ids
    induction ids with
    | nil => exact fun _ _ _ hpage => hpage
    | cons id rest ih =>
        intro page hids hawaits hpage
        have hid := hids List.mem_cons_self
        exact ih _ (fun x hx => hids (List.mem_cons_of_mem _ hx)) hawaits.runPass
          (runPass_keeps
            (fun page page' hstep => hpassing page page' (hstep.mono fun _ hj => hj ▸ hid))
            (fun page => hhook page id hid) (fun page => heffects page id hid) hawaits hpage)
  have htaken : Passing (· ∈ base.queue) base { base with queue := [] } :=
    ⟨idle_queue base [], h.takeQueue.orderly, fun _ => ⟨_, rfl⟩, fun _ _ => rfl⟩
  exact hpasses base.queue _ (fun _ hx => hx) h.takeQueue (hpassing base _ htaken hpage)

end Page

end LiveMarkup
