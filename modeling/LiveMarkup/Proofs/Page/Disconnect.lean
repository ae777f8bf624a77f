import LiveMarkup.Proofs.Page.Retire

/-!
Disconnecting a component empties the slots of all its fragments and takes the component out of the
queue.
-/

namespace LiveMarkup.Page

variable {page page' page'' : Page} {f g id j p : InstanceId} {busy : InstanceId → Prop}

/-- `j` is a fragment that lies in `id`. -/
def Inside (page : Page) (id j : InstanceId) : Prop :=
  ∃ f ∈ (page.slot id).children, page.Under f j

theorem Inside.under (h : page.Orderly) (hj : page.Inside id j) : page.Under id j := by
  obtain ⟨f, hf, hfj⟩ := hj
  exact (h.under_of_child hf).trans hfj

theorem not_inside_self (h : page.Orderly) (id : InstanceId) : ¬ page.Inside id id := by
  rintro ⟨f, hf, hunder⟩
  exact h.not_under_child hf hunder

theorem Inside.not_component (h : page.Orderly) (hj : page.Inside id j) :
    page.component? j = none := by
  obtain ⟨f, hf, hfj⟩ := hj
  obtain ⟨p, hp⟩ : ∃ p, page.up j = some p := by
    rcases hfj.cases_up with rfl | ⟨p, hp, _⟩
    · exact ⟨id, (h.mem_children id j).mp hf⟩
    · exact ⟨p, hp⟩
  obtain ⟨state, hstate⟩ := h.fragment_of_up hp
  exact Instance.component?_of_fragment? hstate

theorem Inside.not_vacant (h : page.Orderly) (hj : page.Inside id j) :
    (page.slot j).isVacant = false := by
  obtain ⟨f, hf, hfj⟩ := hj
  rcases hfj.cases_up with rfl | ⟨p, hp, _⟩
  · exact h.not_vacant_of_mem_children hf
  · exact (h.not_vacant_of_up hp).1

/-- A component is left with its host and its fields. -/
structure Emptied (id : InstanceId) (page page' : Page) : Prop where
  size : page'.slots.size = page.slots.size
  queue : page'.queue = page.queue.filter (· ≠ id)
  effects : page'.effects = page.effects
  ran : page'.ran = page.ran
  definitions : page'.definitions = page.definitions
  document : page'.document = page.document
  styles : page'.styles = page.styles
  self : page'.slot id = resetComponent { page.slot id with children := [] }
  inside : ∀ j, page.Inside id j → page'.slot j = .alone j .vacant
  other : ∀ j, j ≠ id → ¬ page.Inside id j → page'.slot j = page.slot j
  free : ∃ freed, page'.free = freed ++ page.free ∧ freed.Nodup ∧ ∀ j, j ∈ freed ↔ page.Inside id j

theorem resetComponent_eq {i : Instance} {state : ComponentState}
    (h : i.component? = some state) :
    resetComponent { i with children := [] } =
      ⟨i.parent, i.component, i.bindings.clearEffects, [], false,
        .component { state with references := .empty, connected := false, root := state.host }⟩ := by
  have hkind := Instance.kind_of_component? h
  simp only [resetComponent, Instance.mapBindings, Instance.mapComponent, hkind]

/-- `j` is neither the component nor inside it, and it is left as it was. -/
structure Spared (id : InstanceId) (page page' : Page) (j : InstanceId) : Prop where
  ne : j ≠ id
  outside : ¬ page.Inside id j
  slot : page'.slot j = page.slot j

namespace Emptied

theorem slot_cases (hempty : Emptied id page page') (j : InstanceId) :
    j = id ∨ (page.Inside id j ∧ page'.slot j = .alone j .vacant) ∨ Spared id page page' j := by
  by_cases hid : j = id
  · exact Or.inl hid
  · by_cases hin : page.Inside id j
    · exact Or.inr (Or.inl ⟨hin, hempty.inside j hin⟩)
    · exact Or.inr (Or.inr ⟨hid, hin, hempty.other j hid hin⟩)

section Slots

variable {state : ComponentState} (hstate : page.component? id = some state)
  (hempty : Emptied id page page')

include hstate hempty

theorem slot_self : page'.slot id =
    ⟨(page.slot id).parent, (page.slot id).component, (page.slot id).bindings.clearEffects, [],
      false,
      .component { state with references := .empty, connected := false, root := state.host }⟩ :=
  hempty.self.trans (resetComponent_eq hstate)

/-- Effects are left only where nothing has been emptied. -/
theorem held {e : Effect} (he : (page'.slot j).bindings.Holds e) : Spared id page page' j := by
  rcases hempty.slot_cases j with rfl | ⟨_, hvacant⟩ | hspared
  · rw [hempty.slot_self hstate] at he
    exact absurd he Bindings.not_holds_clearEffects
  · rw [hvacant] at he
    exact absurd he Bindings.not_holds_empty
  · exact hspared

theorem spared_of_fragment {fragment : FragmentState} (hj : page'.fragment? j = some fragment) :
    Spared id page page' j := by
  rcases hempty.slot_cases j with rfl | ⟨_, hvacant⟩ | hspared
  · rw [fragment?, hempty.slot_self hstate] at hj
    cases hj
  · rw [fragment?, hvacant] at hj
    cases hj
  · exact hspared

/-- An instance that lies in another one now did so before, and both were left alone. -/
theorem spared_of_parent (h : page.Orderly) (hup : (page'.slot j).parent = some p) :
    Spared id page page' j ∧ Spared id page page' p := by
  rcases hempty.slot_cases j with rfl | ⟨_, hvacant⟩ | hj
  · rw [hempty.slot_self hstate, (h.component_eq j state hstate).1] at hup
    cases hup
  · rw [hvacant] at hup
    cases hup
  · refine ⟨hj, ?_⟩
    rw [hj.slot] at hup
    rcases hempty.slot_cases p with rfl | ⟨⟨g, hg, hgp⟩, _⟩ | hp
    · exact absurd ⟨j, (h.mem_children p j).mpr hup, .self⟩ hj.outside
    · exact absurd ⟨g, hg, .step hup hgp⟩ hj.outside
    · exact hp

theorem spared_of_child (h : page.Orderly) (hchild : j ∈ (page'.slot p).children) :
    Spared id page page' j ∧ Spared id page page' p := by
  rcases hempty.slot_cases p with rfl | ⟨_, hvacant⟩ | hp
  · rw [hempty.slot_self hstate] at hchild
    cases hchild
  · rw [hvacant] at hchild
    cases hchild
  · refine ⟨?_, hp⟩
    rw [hp.slot] at hchild
    have hup := (h.mem_children p j).mp hchild
    rcases hempty.slot_cases j with rfl | ⟨⟨g, hg, hgj⟩, _⟩ | hj
    · rw [(h.component_eq j state hstate).1] at hup
      cases hup
    · by_cases heq : j = g
      · subst heq
        rw [(h.mem_children id j).mp hg] at hup
        cases hup
        exact absurd rfl hp.ne
      · exact absurd ⟨g, hg, hgj.above_up heq hup⟩ hp.outside
    · exact hj

theorem isVacant_iff (h : page.Orderly) : (page'.slot j).isVacant = true ↔
    (page.slot j).isVacant = true ∨ page.Inside id j := by
  rcases hempty.slot_cases j with rfl | ⟨hin, hvacant⟩ | hj
  · rw [hempty.slot_self hstate, Instance.not_vacant_of_component? hstate]
    simp [Instance.isVacant, not_inside_self h j]
  · simp [hvacant, Instance.alone, Instance.isVacant, hin]
  · simp [hj.slot, hj.outside]

/-- A slot in use is the component's own or it was left alone. -/
theorem eq_or_spared (hj : (page'.slot j).isVacant = false) : j = id ∨ Spared id page page' j := by
  rcases hempty.slot_cases j with rfl | ⟨_, hvacant⟩ | hspared
  · exact Or.inl rfl
  · rw [hvacant] at hj
    cases hj
  · exact Or.inr hspared

theorem wired (h : page.Wired) : page'.Wired where
  effect_owner j e he := by
    rw [(hempty.held hstate he).slot] at he
    rw [hempty.effects]
    exact h.effect_owner j e he
  effect_id j k e e' he he' := by
    rw [(hempty.held hstate he).slot] at he
    rw [(hempty.held hstate he').slot] at he'
    exact h.effect_id j k e e' he he'
  effect_fragment j e f he hf := by
    have hsame := (hempty.held hstate he).slot
    rw [hsame] at he ⊢
    exact h.effect_fragment j e f he hf
  effect_guard j e e' f he he' := by
    have hsame := (hempty.held hstate he).slot
    rw [hsame] at he he'
    exact h.effect_guard j e e' f he he'
  ran_made := by
    rw [hempty.ran, hempty.effects]
    exact h.ran_made

theorem free_fit (h : page.Orderly) : page'.free.Nodup ∧
    ∀ j, j ∈ page'.free ↔ j.number < page'.slots.size ∧ (page'.slot j).isVacant = true := by
  obtain ⟨freed, hfree, hnodup, hmem⟩ := hempty.free
  have hused : ∀ j, page.Inside id j → (page.slot j).isVacant = false :=
    fun _ hin => hin.not_vacant h
  rw [hfree]
  refine ⟨List.nodup_append.mpr ⟨hnodup, h.free_nodup, ?_⟩, ?_⟩
  · rintro x hx y hy rfl
    have hold := ((h.mem_free x).mp hy).2
    rw [hused x ((hmem x).mp hx)] at hold
    cases hold
  · intro j
    rw [List.mem_append, hmem, h.mem_free, hempty.size, hempty.isVacant_iff hstate h]
    constructor
    · rintro (hin | ⟨hlt, hold⟩)
      · exact ⟨lt_size_of_not_vacant (hused j hin), Or.inr hin⟩
      · exact ⟨hlt, Or.inl hold⟩
    · rintro ⟨hlt, hold | hin⟩
      · exact Or.inr ⟨hlt, hold⟩
      · exact Or.inl hin

theorem fit (h : page.Orderly) (j : InstanceId) : (page'.slot j).Fit := by
  rcases hempty.slot_cases j with rfl | ⟨_, hvacant⟩ | hj
  · rw [hempty.slot_self hstate]
    refine ⟨?_, ?_⟩
    · rintro fragment ⟨⟩
    · rintro other ⟨⟩ _
      exact ⟨rfl, rfl, fun _ => Bindings.not_holds_clearEffects⟩
  · rw [hvacant]
    exact ⟨fun _ hfalse _ => (by cases hfalse), fun _ hfalse _ => (by cases hfalse)⟩
  · rw [hj.slot]
    exact h.fit j

theorem belongs (h : page.Orderly) (hj : (page'.slot j).isVacant = false) :
    (page'.component? (page'.slot j).component).isSome = true := by
  have hold : (page.slot j).isVacant = false ∧
      (page'.slot j).component = (page.slot j).component := by
    rcases hempty.eq_or_spared hstate hj with rfl | hspared
    · rw [hempty.slot_self hstate]
      exact ⟨Instance.not_vacant_of_component? hstate, rfl⟩
    · rw [← hspared.slot]
      exact ⟨hj, rfl⟩
  have hbelongs := h.belongs j hold.1
  rw [hold.2]
  rcases hempty.slot_cases (page.slot j).component with heq | ⟨hin, _⟩ | hspared
  · rw [heq, component?, hempty.slot_self hstate]
    rfl
  · rw [hin.not_component h] at hbelongs
    cases hbelongs
  · rwa [component?, hspared.slot]

theorem orderly (h : page.Orderly) : page'.Orderly where
  toWired := hempty.wired hstate h.toWired
  free_nodup := (hempty.free_fit hstate h).1
  mem_free := (hempty.free_fit hstate h).2
  vacant_eq j hj := by
    rcases hempty.slot_cases j with rfl | ⟨_, hvacant⟩ | hspared
    · rw [hempty.slot_self hstate] at hj
      cases hj
    · exact hvacant
    · rw [hspared.slot] at hj ⊢
      exact h.vacant_eq j hj
  fit := hempty.fit hstate h
  component_eq j other hother := by
    rcases hempty.slot_cases j with rfl | ⟨_, hvacant⟩ | hspared
    · rw [hempty.slot_self hstate]
      exact h.component_eq j state hstate
    · rw [component?, hvacant] at hother
      cases hother
    · rw [component?, hspared.slot] at hother
      rw [hspared.slot]
      exact h.component_eq j other hother
  fragment_parent j fragment hfragment := by
    have hspared := hempty.spared_of_fragment hstate hfragment
    rw [fragment?, hspared.slot] at hfragment
    rw [hspared.slot]
    exact h.fragment_parent j fragment hfragment
  mem_children p j := by
    constructor
    · intro hchild
      obtain ⟨hj, hp⟩ := hempty.spared_of_child hstate h hchild
      rw [hp.slot] at hchild
      rw [hj.slot]
      exact (h.mem_children p j).mp hchild
    · intro hup
      obtain ⟨hj, hp⟩ := hempty.spared_of_parent hstate h hup
      rw [hj.slot] at hup
      rw [hp.slot]
      exact (h.mem_children p j).mpr hup
  children_nodup p := by
    rcases hempty.slot_cases p with rfl | ⟨_, hvacant⟩ | hspared
    · rw [hempty.slot_self hstate]
      exact List.nodup_nil
    · rw [hvacant]
      exact List.nodup_nil
    · rw [hspared.slot]
      exact h.children_nodup p
  nests p j hup := by
    obtain ⟨hj, hp⟩ := hempty.spared_of_parent hstate h hup
    rw [hj.slot] at hup
    rw [hj.slot, hp.slot]
    exact h.nests p j hup
  component_up p j hup := by
    obtain ⟨hj, hp⟩ := hempty.spared_of_parent hstate h hup
    rw [hj.slot] at hup
    rw [hj.slot, hp.slot]
    exact h.component_up p j hup
  belongs j hj := hempty.belongs hstate h hj

end Slots

end Emptied

/-- What lies in another component is left alone, and so is all that is around it. -/
theorem Emptied.elsewhere (h : page.Orderly) {state : ComponentState}
    (hstate : page.component? id = some state) (hempty : Emptied id page page')
    {c : InstanceId} {other : ComponentState} (hother : page.component? c = some other)
    (hne : c ≠ id) :
    (∀ i, page'.Under c i ↔ page.Under c i) ∧
      ∀ i, page.Under c i → page'.slot i = page.slot i := by
  have hown : (page.slot id).component = id := (h.component_eq id state hstate).2
  have hcown : (page.slot c).component = c := (h.component_eq c other hother).2
  have hsame : ∀ i, page.Under c i → page'.slot i = page.slot i := by
    intro i hi
    have hci := (h.component_of_under hi).trans hcown
    refine hempty.other i ?_ ?_
    · rintro rfl
      exact hne (hci.symm.trans hown)
    · intro hin
      exact hne (hci.symm.trans ((h.component_of_under (hin.under h)).trans hown))
  refine ⟨?_, hsame⟩
  intro i
  constructor
  · intro hi
    refine hi.congr fun m hm hmc => ?_
    have hmslot : page'.slot m = page.slot m := by
      have horderly := hempty.orderly hstate h
      have hcslot := hsame c .self
      refine hempty.other m ?_ ?_
      · rintro rfl
        have hcm := horderly.component_of_under hm
        rw [hcslot, hcown, hempty.self, resetComponent_eq hstate] at hcm
        exact hne (hcm.symm.trans hown)
      · intro hin
        refine hmc (hm.eq_of_up_none ?_).symm
        rw [up, hempty.inside m hin]
        rfl
    rw [up, up, hmslot]
  · intro hi
    exact hi.congr fun m hm _ => by rw [up, up, hsame m hm]

theorem Emptied.awaits (h : page.Awaits [] busy) {state : ComponentState}
    (hstate : page.component? id = some state) (hempty : Emptied id page page') :
    page'.Awaits [] busy := by
  have hself := hempty.slot_self hstate
  refine ⟨hempty.orderly hstate h.orderly, ?_, ?_, ?_, ?_⟩
  · intro j hfragment hchanges
    obtain ⟨fragment, hsome⟩ := Option.isSome_iff_exists.mp hfragment
    have hsame := (hempty.spared_of_fragment hstate hsome).slot
    rw [fragment?, hsame] at hfragment
    rw [hsame] at hchanges ⊢
    exact h.diligent j hfragment hchanges
  · have hnodup := h.nodup
    rw [List.append_nil] at hnodup ⊢
    rw [hempty.queue]
    exact hnodup.filter _
  · intro j
    have hmem := h.mem_iff j
    rw [List.append_nil] at hmem ⊢
    rw [hempty.queue, List.mem_filter, hmem]
    rcases hempty.slot_cases j with rfl | ⟨hin, hvacant⟩ | hspared
    · rw [hself]
      simp
    · rw [hin.not_component h.orderly, component?, hvacant]
      simp [Instance.component?, Instance.alone]
    · rw [component?, component?, hspared.slot]
      simp [hspared.ne]
  · intro j hcomponent hattached hbusy hdirty
    rcases hempty.slot_cases j with rfl | ⟨_, hvacant⟩ | hspared
    · rw [isAttached, hself] at hattached
      cases hattached
    · rw [component?, hvacant] at hcomponent
      cases hcomponent
    · rw [component?, hspared.slot] at hcomponent
      rw [isAttached, hspared.slot] at hattached
      rw [hspared.slot]
      obtain ⟨other, hother⟩ := Option.isSome_iff_exists.mp hcomponent
      obtain ⟨hunder, hslot⟩ := hempty.elsewhere h.orderly hstate hother hspared.ne
      refine h.prompt j hcomponent hattached hbusy fun hquiet => hdirty fun o ho => ?_
      have hjo := (hunder o).mp ho.1
      rw [hslot o hjo]
      -- What is shown above `o` still lies above it, and is shown as it was.
      refine hquiet o ⟨hjo, fun i hji hio => ?_⟩
      have hio' : page'.Under i o :=
        hio.congr fun m hm _ => by rw [up, up, hslot m (hji.trans hm)]
      have hattached := ho.2 i ((hunder i).mpr hji) hio'
      rwa [isAttached, hslot i hji] at hattached

/-! ### The operation -/

/-- A component lets go of its fragments, which are retired then. -/
def retireAll (page : Page) (id : InstanceId) : Page :=
  (page.slot id).children.foldl retire (page.updateSlot id ({ · with children := [] }))

theorem slot_letGo (page : Page) (id j : InstanceId) :
    (page.updateSlot id ({ · with children := [] })).slot j =
      if j = id then { page.slot j with children := [] } else page.slot j := by
  by_cases heq : j = id
  · rw [if_pos heq, heq, slot_updateSlot_self _ rfl]
  · rw [if_neg heq, slot_updateSlot_of_ne heq]

theorem retireAll_cleared (h : page.Orderly) (id : InstanceId) :
    Cleared (page.Inside id) (page.updateSlot id ({ · with children := [] }))
      (page.retireAll id) := by
  refine foldl_retire_cleared h (fun _ hx => hx) (h.children_nodup id) ?_
    (size_updateSlot page id _) ?_
  · intro next f hf hsize hrooted
    exact retire_cleared h hsize (h.not_vacant_of_mem_children hf) hrooted
  · intro f hf j hfj
    rw [slot_letGo, if_neg]
    rintro rfl
    exact h.not_under_child hf hfj

theorem akin_clearRoot (page : Page) (host root : NodeId) :
    Akin page (page.clearRoot host root) := by
  unfold clearRoot
  split <;> exact akin_editDom page _

/-- The slots and the queue once a component is disconnected. -/
theorem retireAll_emptied (h : page.Orderly) {state : ComponentState}
    (hstate : page.component? id = some state)
    (hakin : Akin { (page.retireAll id).updateSlot id resetComponent with
      queue := page.queue.filter (· ≠ id) } page') : Emptied id page page' := by
  have hcleared := retireAll_cleared h id
  have hnot := not_inside_self h id
  have hloose : (page.retireAll id).slot id = { page.slot id with children := [] } := by
    rw [hcleared.other id hnot, slot_letGo, if_pos rfl]
  have hlt : id.number < (page.retireAll id).slots.size := by
    rw [hcleared.size, size_updateSlot]
    exact lt_size_of_not_vacant (Instance.not_vacant_of_component? hstate)
  have hslot : ∀ j, page'.slot j =
      if j = id then resetComponent ((page.retireAll id).slot j)
      else (page.retireAll id).slot j := by
    intro j
    rw [hakin.slot j]
    exact slot_updateSlot hlt resetComponent j
  refine ⟨?_, hakin.queue, hakin.effects.trans hcleared.effects, hakin.ran.trans hcleared.ran,
    hakin.definitions.trans hcleared.definitions, hakin.document.trans hcleared.document,
    hakin.styles.trans hcleared.styles, ?_, ?_, ?_, ?_⟩
  · rw [hakin.slots]
    exact (size_updateSlot _ id _).trans (hcleared.size.trans (size_updateSlot page id _))
  · rw [hslot, if_pos rfl, hloose]
  · intro j hj
    rw [hslot, if_neg, hcleared.emptied j hj]
    rintro rfl
    exact hnot hj
  · intro j hne hj
    rw [hslot, if_neg hne, hcleared.other j hj, slot_letGo, if_neg hne]
  · obtain ⟨freed, hfree, hnodup, hmem⟩ := hcleared.free
    exact ⟨freed, hakin.free.trans hfree, hnodup, hmem⟩

/-- What is left of the document and the listeners when a component is torn down. -/
def dismantle (page : Page) (id : InstanceId) (state : ComponentState) : Page :=
  let page := (page.retireAll id).updateSlot id resetComponent
  let page := { page with
    queue := page.queue.filter (· ≠ id)
    listeners := page.listeners.filter (·.component ≠ id) }
  let page := page.clearRoot state.host state.root
  (page.editDom fun dom => (dom.detach state.host).1).report (.disconnected id.number)

theorem disconnect_eq {state : ComponentState} (hstate : page.component? id = some state) :
    page.disconnect id =
      .ok (if state.connected then (page.callHook id (·.removed)).dismantle id state else page) := by
  rw [disconnect]
  split
  · rename_i hnone
    rw [hstate] at hnone
    cases hnone
  · rename_i other hother
    rw [hstate] at hother
    cases hother
    cases state.connected <;> rfl

theorem dismantle_emptied (h : page.Orderly) {state : ComponentState}
    (hstate : (page.component? id).isSome = true) :
    Emptied id page (page.dismantle id state) := by
  obtain ⟨other, hother⟩ := Option.isSome_iff_exists.mp hstate
  refine retireAll_emptied h hother ?_
  have hqueue : (page.retireAll id).queue = page.queue := (retireAll_cleared h id).queue
  refine Akin.trans ?_ ((akin_clearRoot _ _ _).trans ((akin_editDom _ _).trans (akin_report _ _)))
  refine ⟨rfl, rfl, ?_, rfl, rfl, rfl, rfl, rfl⟩
  change (page.retireAll id).queue.filter (· ≠ id) = page.queue.filter (· ≠ id)
  rw [hqueue]

theorem Awaits.disconnect (h : page.Awaits [] busy) (hdone : page.disconnect id = .ok page') :
    page'.Awaits [] busy := by
  cases hstate : page.component? id with
  | none =>
      rw [Page.disconnect, hstate] at hdone
      cases hdone
  | some state =>
      rw [disconnect_eq hstate] at hdone
      cases hdone
      split
      · have hhook := h.callHook id Hooks.removed fun _ hedits => hedits.removed
        obtain ⟨fields, hfields⟩ := (callHook_written h.orderly id Hooks.removed
          fun _ hedits => hedits.removed).component?_eq id
        rw [hstate] at hfields
        exact (dismantle_emptied hhook.orderly (by rw [hfields]; rfl)).awaits hhook hfields
      · exact h

end LiveMarkup.Page
