import LiveMarkup.Proofs.Page.Marking

/-!
What scripts may change of the row of slots: fields of components, what is dirty and what waits.
-/

namespace LiveMarkup

namespace Instance

variable {i i' : Instance}

theorem mapFields_of_not_component (h : i.component? = none) (fields : Dict Json) :
    i.mapComponent ({ · with fields }) = i := by
  unfold component? at h
  unfold mapComponent
  split <;> simp_all

theorem exists_mapFields_eq (i : Instance) : ∃ fields, i.mapComponent ({ · with fields }) = i := by
  cases hkind : i.kind with
  | component state =>
      refine ⟨state.fields, ?_⟩
      rw [mapComponent_of_component? (component?_of_kind hkind), ← hkind]
  | fragment state => exact ⟨.empty, mapFields_of_not_component (by rw [component?, hkind]) _⟩
  | vacant => exact ⟨.empty, mapFields_of_not_component (by rw [component?, hkind]) _⟩

theorem mapFields_mapFields (i : Instance) (fields fields' : Dict Json) :
    (i.mapComponent ({ · with fields })).mapComponent ({ · with fields := fields' }) =
      i.mapComponent ({ · with fields := fields' }) := by
  cases hkind : i.kind with
  | component state =>
      rw [mapComponent_of_component? (component?_of_kind hkind),
        mapComponent_of_component? (component?_of_kind hkind),
        mapComponent_of_component? (component?_of_kind rfl)]
  | fragment state => rw [mapFields_of_not_component (by rw [component?, hkind]) fields]
  | vacant => rw [mapFields_of_not_component (by rw [component?, hkind]) fields]

theorem fit_mapFields_iff (i : Instance) (fields : Dict Json) :
    (i.mapComponent ({ · with fields })).Fit ↔ i.Fit := by
  constructor
  · intro h
    obtain ⟨old, hold⟩ := exists_mapFields_eq i
    have hback := h.mapComponent (f := ({ · with fields := old })) fun _ => rfl
    rwa [mapFields_mapFields, hold] at hback
  · exact fun h => h.mapComponent fun _ => rfl

theorem mapFields_record (i : Instance) (fields : Dict Json) (bindings : Bindings)
    (scheduled : Bool) :
    Instance.mapComponent ({ · with fields }) { i with bindings, scheduled } =
      { i.mapComponent ({ · with fields }) with bindings, scheduled } := by
  unfold mapComponent
  dsimp only
  split <;> rfl

theorem bindings_mapComponent (i : Instance) (f : ComponentState → ComponentState) :
    (i.mapComponent f).bindings = i.bindings := by
  unfold mapComponent
  split <;> rfl

theorem scheduled_mapComponent (i : Instance) (f : ComponentState → ComponentState) :
    (i.mapComponent f).scheduled = i.scheduled := by
  unfold mapComponent
  split <;> rfl

theorem isVacant_mapComponent (i : Instance) (f : ComponentState → ComponentState) :
    (i.mapComponent f).isVacant = i.isVacant := by
  unfold mapComponent
  split
  · rename_i state hkind
    simp [isVacant, hkind]
  · rfl

theorem Stained.mapFields (h : i.Stained i') (fields : Dict Json) :
    (i.mapComponent ({ · with fields })).Stained (i'.mapComponent ({ · with fields })) := by
  obtain ⟨bindings, scheduled, hrecord⟩ := h.record
  refine ⟨⟨bindings, scheduled, by rw [hrecord, mapFields_record]⟩, ?_, ?_, ?_, ?_, ?_, ?_, ?_⟩
  · intro field e
    rw [bindings_mapComponent, bindings_mapComponent]
    exact h.registers field e
  · intro field
    rw [bindings_mapComponent, bindings_mapComponent]
    exact h.contains field
  · intro field
    rw [bindings_mapComponent, bindings_mapComponent]
    exact h.effects field
  · rw [bindings_mapComponent, bindings_mapComponent]
    exact h.dirty
  · rw [scheduled_mapComponent, scheduled_mapComponent]
    exact h.scheduled
  · rw [isVacant_mapComponent]
    intro hvacant
    rw [h.vacant hvacant]
  · rw [fit_mapFields_iff, fit_mapFields_iff]
    exact h.fit

end Instance

namespace Page

variable {page page' page'' : Page} {id j : InstanceId} {field : String}

/-! ### Storing a value -/

theorem akin_reflect (page : Page) (id : InstanceId) (field : String) :
    Akin page (page.reflect id field) :=
  reflect_keeps (fun _ _ _ _ => akin_editDom page _) (.refl page) field

/-- The fields of a component, before a new value is marked. -/
def putField (page : Page) (id : InstanceId) (field : String) (value : Json) : Page :=
  page.updateSlot id
    (·.mapComponent fun state => { state with fields := state.fields.insert field value })

theorem store_eq (page : Page) (id : InstanceId) (field : String) (value : Json) :
    page.store id field value =
      ((page.putField id field value).markChanged id field).reflect id field := rfl

theorem slot_putField (page : Page) (id j : InstanceId) (field : String) (value : Json) :
    (page.putField id field value).slot j =
      if j = id then (page.slot j).mapComponent fun state =>
        { state with fields := state.fields.insert field value }
      else page.slot j := by
  by_cases heq : j = id
  · rw [if_pos heq, heq, putField, slot_updateSlot_self _ rfl]
  · rw [if_neg heq, putField, slot_updateSlot_of_ne heq]

theorem putField_orderly (h : page.Orderly) (id : InstanceId) (field : String) (value : Json) :
    (page.putField id field value).Orderly := by
  have hslot := slot_putField page id id field value
  rw [if_pos rfl] at hslot
  refine h.retouch (retouch_updateSlot page id _) ?_ ?_ ?_
  · rw [hslot]
    exact .mapComponent _ fun _ => rfl
  · rw [hslot]
    exact (h.fit id).mapComponent fun _ => rfl
  · intro e he
    change ((page.putField id field value).slot id).bindings.Holds e at he
    rw [hslot, Instance.mapComponent] at he
    split at he <;> exact he

theorem listeners_reflect (page : Page) (id : InstanceId) (field : String) :
    (page.reflect id field).listeners = page.listeners :=
  reflect_keeps (P := fun other => other.listeners = page.listeners) (fun _ _ _ _ => rfl) rfl field

/-! ### Scripts -/

/-- What scripts may change: fields of components, what is dirty, what waits and the document. -/
structure Written (page page' : Page) : Prop where
  orderly : page'.Orderly
  size : page'.slots.size = page.slots.size
  free : page'.free = page.free
  effects : page'.effects = page.effects
  ran : page'.ran = page.ran
  definitions : page'.definitions = page.definitions
  document : page'.document = page.document
  styles : page'.styles = page.styles
  listeners : page'.listeners = page.listeners
  slot : ∀ j, ∃ fields, ((page.slot j).mapComponent ({ · with fields })).Stained (page'.slot j)

namespace Written

theorem of_marked (h : page.Orderly) (hmarked : Marked page page') : Written page page' := by
  refine ⟨hmarked.orderly h, hmarked.size, hmarked.free, hmarked.effects, hmarked.ran,
    hmarked.definitions, hmarked.document, hmarked.styles, hmarked.listeners, ?_⟩
  intro j
  obtain ⟨fields, hfields⟩ := Instance.exists_mapFields_eq (page.slot j)
  exact ⟨fields, by rw [hfields]; exact hmarked.slot j⟩

theorem refl (h : page.Orderly) : Written page page :=
  of_marked h (.refl page)

theorem trans (h : Written page page') (h' : Written page' page'') : Written page page'' := by
  refine ⟨h'.orderly, h'.size.trans h.size, h'.free.trans h.free, h'.effects.trans h.effects,
    h'.ran.trans h.ran, h'.definitions.trans h.definitions, h'.document.trans h.document,
    h'.styles.trans h.styles, h'.listeners.trans h.listeners, ?_⟩
  intro j
  obtain ⟨_, hfirst⟩ := h.slot j
  obtain ⟨fields, hlast⟩ := h'.slot j
  refine ⟨fields, ?_⟩
  have hmapped := hfirst.mapFields fields
  rw [Instance.mapFields_mapFields] at hmapped
  exact hmapped.trans hlast

theorem of_akin (h : page.Orderly) (hakin : Akin page page')
    (hlisteners : page'.listeners = page.listeners) : Written page page' := by
  refine ⟨h.of_akin hakin, by rw [hakin.slots], hakin.free, hakin.effects, hakin.ran,
    hakin.definitions, hakin.document, hakin.styles, hlisteners, ?_⟩
  intro j
  obtain ⟨fields, hfields⟩ := Instance.exists_mapFields_eq (page.slot j)
  exact ⟨fields, by rw [hfields, hakin.slot j]; exact .refl _⟩

theorem store (h : page.Orderly) (id : InstanceId) (field : String) (value : Json) :
    Written page (page.store id field value) := by
  have hput := putField_orderly h id field value
  have hfirst : Written page (page.putField id field value) := by
    refine ⟨hput, size_updateSlot page id _, rfl, rfl, rfl, rfl, rfl, rfl, rfl, ?_⟩
    intro j
    rw [slot_putField]
    split
    · cases hstate : (page.slot j).component? with
      | none =>
          refine ⟨.empty, ?_⟩
          rw [Instance.mapFields_of_not_component hstate]
          rw [show ((page.slot j).mapComponent fun state =>
            { state with fields := state.fields.insert field value }) = page.slot j from ?_]
          · exact .refl _
          · unfold Instance.component? at hstate
            unfold Instance.mapComponent
            split <;> simp_all
      | some state =>
          refine ⟨state.fields.insert field value, ?_⟩
          rw [Instance.mapComponent_of_component? hstate,
            Instance.mapComponent_of_component? hstate]
          exact .refl _
    · obtain ⟨fields, hfields⟩ := Instance.exists_mapFields_eq (page.slot j)
      exact ⟨fields, by rw [hfields]; exact .refl _⟩
  have hmark := of_marked hput (markChanged_marked hput id field)
  exact (hfirst.trans hmark).trans
    (of_akin hmark.orderly (akin_reflect _ id field) (listeners_reflect _ id field))

section

variable (h : Written page page')

include h

theorem up_eq : page'.up = page.up := by
  funext j
  obtain ⟨fields, hstained⟩ := h.slot j
  obtain ⟨_, _, hslot⟩ := hstained.record
  rw [up, hslot]
  unfold Instance.mapComponent
  split <;> rfl

theorem component?_eq (j : InstanceId) :
    ∃ fields, page'.component? j = (page.component? j).map ({ · with fields }) := by
  obtain ⟨fields, hstained⟩ := h.slot j
  obtain ⟨_, _, hslot⟩ := hstained.record
  refine ⟨fields, ?_⟩
  rw [component?, hslot, component?]
  cases hkind : (page.slot j).kind with
  | component state =>
      rw [Instance.mapComponent_of_component? (Instance.component?_of_kind hkind)]
      simp [Instance.component?, hkind]
  | fragment state =>
      rw [Instance.mapFields_of_not_component (by rw [Instance.component?, hkind])]
      simp [Instance.component?, hkind]
  | vacant =>
      rw [Instance.mapFields_of_not_component (by rw [Instance.component?, hkind])]
      simp [Instance.component?, hkind]

theorem isVacant_eq (j : InstanceId) : (page'.slot j).isVacant = (page.slot j).isVacant := by
  obtain ⟨fields, hstained⟩ := h.slot j
  obtain ⟨_, _, hslot⟩ := hstained.record
  rw [hslot, ← Instance.isVacant_mapComponent (page.slot j) ({ · with fields })]
  rfl

theorem contains_eq (j : InstanceId) (field : String) :
    (page'.slot j).bindings.contains field = (page.slot j).bindings.contains field := by
  obtain ⟨fields, hstained⟩ := h.slot j
  rw [hstained.contains, Instance.bindings_mapComponent]

theorem registers_iff (j : InstanceId) (field : String) (e : Effect) :
    (page'.slot j).bindings.Registers field e ↔ (page.slot j).bindings.Registers field e := by
  obtain ⟨fields, hstained⟩ := h.slot j
  rw [hstained.registers, Instance.bindings_mapComponent]

end

end Written

theorem written_respects (id : InstanceId) :
    Respects (fun _ => True) id (Written page) where
  store _ field value h := h.trans (.store h.orderly id field value)
  mark _ field h := h.trans (.of_marked h.orderly (markChanged_marked h.orderly id field))
  edit next change _ h := h.trans (.of_akin h.orderly (akin_editDom next change) rfl)
  note _ _ h := h.trans (.of_akin h.orderly ⟨rfl, rfl, rfl, rfl, rfl, rfl, rfl, rfl⟩ rfl)
  overrun _ h := h.trans (.of_akin h.orderly ⟨rfl, rfl, rfl, rfl, rfl, rfl, rfl, rfl⟩ rfl)
  scripts _ state _ _ := state.definition.edits_true

theorem callHook_written (h : page.Orderly) (id : InstanceId) (hook : Hooks → Script)
    (hhook : ∀ hooks : Hooks, hooks.Edits (fun _ => True) → (hook hooks).Edits fun _ => True) :
    Written page (page.callHook id hook) :=
  callHook_respects (written_respects id) hhook (.refl h)

end Page

end LiveMarkup
