import LiveMarkup.Proofs.Page.Written

/-!
Who waits for a pass. A component waits when it is scheduled, it is connected then, and it does wait
when something that it shows is dirty. Within a frame the components whose pass is still to come wait
as well, and the one whose pass is running need not.
-/

namespace LiveMarkup.Page

variable {page page' page'' : Page} {inside : InstanceId → Prop} {rest : List InstanceId}
  {busy : InstanceId → Prop} {a c f g id j o : InstanceId} {field : String}

/-- `rest` are the components whose pass is still to come in this frame; a `busy` one may be dirty
without waiting. -/
structure Awaits (rest : List InstanceId) (busy : InstanceId → Prop) (page : Page) : Prop where
  orderly : page.Orderly
  diligent : page.Diligent
  nodup : (page.queue ++ rest).Nodup
  mem_iff : ∀ id, id ∈ page.queue ++ rest ↔
    (page.component? id).isSome = true ∧ (page.slot id).scheduled = true
  prompt : ∀ id, (page.component? id).isSome = true → page.isAttached id = true →
    ¬ busy id → ¬ page.Quiet id → (page.slot id).scheduled = true

/-- Only a connected component waits. -/
theorem connected_of_scheduled (h : page.Orderly)
    (hcomponent : (page.component? id).isSome = true)
    (hscheduled : (page.slot id).scheduled = true) :
    ∃ state, page.component? id = some state ∧ state.connected = true := by
  obtain ⟨state, hstate⟩ := Option.isSome_iff_exists.mp hcomponent
  refine ⟨state, hstate, ?_⟩
  by_contra hconnected
  rw [Bool.not_eq_true] at hconnected
  have hidle := ((h.fit id).disconnected state hstate hconnected).2.1
  rw [hscheduled] at hidle
  cases hidle

/-! ### Changes that have nothing to do with waiting -/

/-- The same instances are attached, dirty and scheduled, in the same places. -/
structure Steady (page page' : Page) : Prop where
  queue : page'.queue = page.queue
  up : page'.up = page.up
  bindings : ∀ j, (page'.slot j).bindings = (page.slot j).bindings
  scheduled : ∀ j, (page'.slot j).scheduled = (page.slot j).scheduled
  attached : ∀ j, page'.isAttached j = page.isAttached j
  component : ∀ j, (page'.component? j).isSome = (page.component? j).isSome
  fragment : ∀ j, (page'.fragment? j).isSome = (page.fragment? j).isSome

theorem Steady.of_akin (h : Akin page page') : Steady page page' where
  queue := h.queue
  up := by
    funext j
    rw [Page.up, h.slot j]
    rfl
  bindings j := by rw [h.slot j]
  scheduled j := by rw [h.slot j]
  attached j := by rw [isAttached, h.slot j]; rfl
  component j := by rw [component?, h.slot j]; rfl
  fragment j := by rw [fragment?, h.slot j]; rfl

theorem Steady.shownFrom_iff (h : Steady page page') :
    page'.ShownFrom a id ↔ page.ShownFrom a id := by
  simp only [ShownFrom, Under, h.up, h.attached]

theorem Awaits.of_steady (h : page.Awaits rest busy) (horderly : page'.Orderly)
    (hsteady : Steady page page') : page'.Awaits rest busy where
  orderly := horderly
  diligent id hfragment hchanges := by
    rw [hsteady.fragment] at hfragment
    rw [hsteady.bindings] at hchanges
    rw [hsteady.scheduled]
    exact h.diligent id hfragment hchanges
  nodup := by
    rw [hsteady.queue]
    exact h.nodup
  mem_iff id := by
    rw [hsteady.queue, hsteady.component, hsteady.scheduled]
    exact h.mem_iff id
  prompt id hcomponent hattached hbusy hquiet := by
    rw [hsteady.component] at hcomponent
    rw [hsteady.attached] at hattached
    rw [hsteady.scheduled]
    refine h.prompt id hcomponent hattached hbusy fun hold => hquiet fun o ho => ?_
    rw [hsteady.bindings]
    exact hold o (hsteady.shownFrom_iff.mp ho)

theorem Awaits.of_akin (h : page.Awaits rest busy) (hakin : Akin page page') :
    page'.Awaits rest busy :=
  h.of_steady (h.orderly.of_akin hakin) (.of_akin hakin)

/-! ### Marks -/

theorem component_of_shownFrom (h : page.Orderly) (hc : (page.component? c).isSome = true)
    (hshown : page.ShownFrom c o) : (page.slot o).component = c := by
  obtain ⟨state, hstate⟩ := Option.isSome_iff_exists.mp hc
  rw [h.component_of_under hshown.1, (h.component_eq c state hstate).2]

/-- A mark makes one family dirty, and a fragment that is dirty then waits. -/
theorem Awaits.dye (h : page.Awaits rest busy) (hdyed : Dyed field j page page') :
    page'.Awaits rest (fun id => busy id ∨ id = (page.slot j).component) where
  orderly := hdyed.marked.orderly h.orderly
  diligent id hfragment hchanges := by
    rw [hdyed.marked.fragment?_eq] at hfragment
    rw [hdyed.slot id] at hchanges ⊢
    split
    · rename_i heq
      simp only [show (page.slot id).fragment?.isSome = true from hfragment, Bool.or_true]
    · rename_i hne
      rw [if_neg hne] at hchanges
      exact h.diligent id hfragment hchanges
  nodup := by
    rw [hdyed.queue]
    exact h.nodup
  mem_iff id := by
    rw [hdyed.queue, h.mem_iff id, hdyed.marked.component?_eq, hdyed.slot id]
    refine and_congr_right fun hcomponent => ?_
    split
    · obtain ⟨state, hstate⟩ := Option.isSome_iff_exists.mp hcomponent
      simp [Instance.fragment?_of_component? hstate]
    · rfl
  prompt id hcomponent hattached hbusy hquiet := by
    rw [hdyed.marked.component?_eq] at hcomponent
    rw [hdyed.marked.isAttached_eq] at hattached
    rw [not_or] at hbusy
    have hscheduled := h.prompt id hcomponent hattached hbusy.1 fun hold => hquiet ?_
    · exact (hdyed.marked.slot id).scheduled hscheduled
    · intro o ho
      have ho := hdyed.marked.shownFrom_iff.mp ho
      rw [hdyed.slot o, if_neg]
      · exact hold o ho
      · rintro rfl
        exact hbusy.2 (component_of_shownFrom h.orderly hcomponent ho).symm

/-- Once it is asked a component is no exception any more. -/
theorem Awaits.requestPass (h : page.Awaits rest (fun id => busy id ∨ id = c)) :
    (page.requestPass c).Awaits rest busy := by
  have hmarked := requestPass_marked page c
  have hbindings := bindings_requestPass page c
  have hquiet : ∀ id, (page.requestPass c).Quiet id ↔ page.Quiet id := by
    intro id
    simp only [Quiet, hmarked.shownFrom_iff, hbindings]
  have hprompt : ∀ id, (page.component? id).isSome = true → page.isAttached id = true →
      ¬ busy id → ¬ page.Quiet id → ((page.requestPass c).slot id).scheduled = true := by
    intro id hcomponent hattached hbusy hdirty
    by_cases heq : id = c
    · subst heq
      obtain ⟨state, hstate⟩ := Option.isSome_iff_exists.mp hcomponent
      refine scheduled_requestPass hstate ?_
      rwa [← Instance.isAttached_of_component? hstate]
    · exact (hmarked.slot id).scheduled (h.prompt id hcomponent hattached (by simp [hbusy, heq]) hdirty)
  refine ⟨hmarked.orderly h.orderly, ?_, ?_, ?_, ?_⟩
  · intro id hfragment hchanges
    rw [hmarked.fragment?_eq] at hfragment
    rw [hbindings] at hchanges
    exact (hmarked.slot id).scheduled (h.diligent id hfragment hchanges)
  · rcases requestPass_cases page c with hrequested | ⟨heq, _⟩
    · have hnot : c ∉ page.queue ++ rest := by
        rw [h.mem_iff, hrequested.scheduled]
        simp
      have hnodup := h.nodup
      rw [List.mem_append, not_or] at hnot
      rw [hrequested.queue, List.append_assoc, List.nodup_append]
      rw [List.nodup_append] at hnodup
      refine ⟨hnodup.1, List.nodup_cons.mpr ⟨hnot.2, hnodup.2.1⟩, ?_⟩
      rintro x hx y hy rfl
      rcases List.mem_cons.mp hy with rfl | hy
      · exact hnot.1 hx
      · exact hnodup.2.2 x hx x hy rfl
    · rw [heq]
      exact h.nodup
  · intro id
    rcases requestPass_cases page c with hrequested | ⟨heq, _⟩
    · obtain ⟨state, hstate, _⟩ := hrequested.connected
      have hmem := h.mem_iff id
      rw [List.mem_append] at hmem
      rw [hrequested.queue, List.append_assoc, List.mem_append, List.mem_append,
        List.mem_singleton, hmarked.component?_eq, hrequested.slot id]
      by_cases hid : id = c
      · subst hid
        simp [hstate]
      · rw [if_neg hid, ← hmem]
        simp [hid]
    · rw [heq]
      exact h.mem_iff id
  · intro id hcomponent hattached hbusy hdirty
    rw [hmarked.component?_eq] at hcomponent
    rw [hmarked.isAttached_eq] at hattached
    rw [hquiet] at hdirty
    exact hprompt id hcomponent hattached hbusy hdirty

theorem Awaits.markAt (h : page.Awaits rest busy) (field : String) (id : InstanceId) :
    (Page.markAt field page id).Awaits rest busy := by
  rcases markAt_cases h.orderly field id with ⟨_, next, hdyed, heq⟩ | ⟨_, heq⟩
  · rw [heq]
    exact (h.dye hdyed).requestPass
  · rw [heq]
    exact h

theorem Awaits.markChanged (h : page.Awaits rest busy) (id : InstanceId) (field : String) :
    (page.markChanged id field).Awaits rest busy :=
  foldl_respects (fun _ j _ hpage => hpage.markAt field j) h

/-! ### Scripts -/

theorem putField_steady (page : Page) (id : InstanceId) (field : String) (value : Json) :
    Steady page (page.putField id field value) := by
  have hslot : ∀ {β : Type} (read : Instance → β),
      (∀ i, read (i.mapComponent fun state =>
        { state with fields := state.fields.insert field value }) = read i) →
        ∀ j, read ((page.putField id field value).slot j) = read (page.slot j) := by
    intro β read hread j
    rw [slot_putField]
    split
    · exact hread _
    · rfl
  refine ⟨rfl, funext (hslot (·.parent) ?_), hslot (·.bindings) ?_, hslot (·.scheduled) ?_,
    hslot (·.isAttached) ?_, hslot (·.component?.isSome) ?_, hslot (·.fragment?.isSome) ?_⟩ <;>
  · intro i
    unfold Instance.mapComponent
    split
    · rename_i heq
      simp [Instance.isAttached, Instance.component?, Instance.fragment?, heq]
    · rfl

theorem Awaits.store (h : page.Awaits rest busy) (id : InstanceId) (field : String)
    (value : Json) : (page.store id field value).Awaits rest busy := by
  have hput := h.of_steady (putField_orderly h.orderly id field value)
    (putField_steady page id field value)
  exact (hput.markChanged id field).of_akin (akin_reflect _ id field)

theorem awaits_respects (id : InstanceId) :
    Respects (fun _ => True) id (Awaits rest busy) where
  store _ field value h := h.store id field value
  mark _ field h := h.markChanged id field
  edit page change _ h := h.of_akin (akin_editDom page change)
  note _ _ h := h.of_akin ⟨rfl, rfl, rfl, rfl, rfl, rfl, rfl, rfl⟩
  overrun _ h := h.of_akin ⟨rfl, rfl, rfl, rfl, rfl, rfl, rfl, rfl⟩
  scripts _ state _ _ := state.definition.edits_true

theorem Awaits.callHook (h : page.Awaits rest busy) (id : InstanceId) (hook : Hooks → Script)
    (hhook : ∀ hooks : Hooks, hooks.Edits (fun _ => True) → (hook hooks).Edits fun _ => True) :
    (page.callHook id hook).Awaits rest busy :=
  callHook_respects (awaits_respects id) hhook h

/-! ### Mounting -/

theorem Awaits.mono {busy' : InstanceId → Prop} (h : page.Awaits rest busy)
    (hsub : ∀ id, busy id → busy' id) : page.Awaits rest busy' :=
  { h with prompt := fun id hcomponent hattached hbusy =>
      h.prompt id hcomponent hattached fun hold => hbusy (hsub id hold) }

theorem component_of_turn (hturn : Turn inside page page') (id : InstanceId) :
    (page'.component? id).isSome = (page.component? id).isSome ∧
      ((page.component? id).isSome = true → (page'.slot id).scheduled = (page.slot id).scheduled) := by
  have hkept := hturn.kept id
  cases hkind : (page.slot id).kind with
  | component state =>
      have hstate := Instance.component?_of_kind hkind
      obtain ⟨⟨_, hstate'⟩, hscheduled⟩ := hkept.component_state state hstate
      rw [component?, component?, hstate, hstate']
      exact ⟨rfl, fun _ => hscheduled⟩
  | fragment state =>
      have hstate := Instance.fragment?_of_kind hkind
      obtain ⟨_, _, hstate', _⟩ := hkept.fragment_state state hstate
      rw [component?, component?, Instance.component?_of_fragment? hstate,
        Instance.component?_of_fragment? hstate']
      exact ⟨rfl, fun hfalse => by cases hfalse⟩
  | vacant =>
      have hnone : page.component? id = none := by rw [component?, Instance.component?, hkind]
      rw [hnone]
      refine ⟨?_, fun hfalse => by cases hfalse⟩
      rcases hkept.born (Instance.isVacant_iff.mpr hkind) with hvacant | ⟨state, hstate⟩
      · rw [component?, Instance.component?, Instance.isVacant_iff.mp hvacant]
      · rw [component?, Instance.component?_of_fragment? hstate]

/-- A component is no exception any more after a turn that leaves it quiet. -/
theorem Awaits.of_turn {runs : List EffectId}
    (h : page.Awaits rest (fun id => busy id ∨ id = a))
    (hturn : OrderlyTurn (page.Under a) runs page page') (hquiet : page'.Quiet a) :
    page'.Awaits rest busy := by
  refine ⟨hturn.orderly, h.diligent.of_turn h.orderly hturn.turn, ?_, ?_, ?_⟩
  · rw [hturn.turn.queue]
    exact h.nodup
  · intro id
    obtain ⟨hsome, hscheduled⟩ := component_of_turn hturn.turn id
    rw [hturn.turn.queue, h.mem_iff id, hsome]
    exact and_congr_right fun hcomponent => by rw [hscheduled hcomponent]
  · intro id hcomponent hattached hbusy hdirty
    obtain ⟨hsome, hscheduled⟩ := component_of_turn hturn.turn id
    rw [hsome] at hcomponent
    rw [hscheduled hcomponent]
    obtain ⟨state, hstate⟩ := Option.isSome_iff_exists.mp hcomponent
    have hvacant := Instance.not_vacant_of_component? hstate
    have hne : id ≠ a := by
      rintro rfl
      exact hdirty hquiet
    have hnot : ¬ page.Under a id := fun hunder =>
      hne (hunder.eq_of_up_none (h.orderly.component_eq id state hstate).1).symm
    rw [hturn.turn.isAttached_eq hvacant hnot] at hattached
    refine h.prompt id hcomponent hattached (by simp [hbusy, hne]) fun hold => hdirty ?_
    intro o ho
    cases ho' : (page.slot o).isVacant with
    | true => exact clean_of_vacant h.orderly hturn.turn ho'
    | false =>
        by_cases hao : page.Under a o
        · have hao' := (hturn.turn.under_iff h.orderly ho').mpr hao
          have hida : page'.Under id a := by
            rcases hao'.linear ho.1 with hai | hia
            · exact absurd ((hturn.turn.under_iff h.orderly hvacant).mp hai) hnot
            · exact hia
          exact hquiet o (ho.in_child hida hao')
        · refine clean_of_clean hturn.turn (hold o ⟨(hturn.turn.under_iff h.orderly ho').mp ho.1, ?_⟩)
          intro i hidi hio
          have hi := h.orderly.not_vacant_of_under hio ho'
          rw [← hturn.turn.isAttached_eq hi fun hai => hao (hai.trans hio)]
          exact ho.2 i ((hturn.turn.under_iff h.orderly hi).mpr hidi)
            ((hturn.turn.under_iff h.orderly ho').mpr hio)

theorem Awaits.mount (h : page.Awaits rest busy) (id : InstanceId) :
    (page.mount id).Awaits rest busy := by
  rcases mount_quiet h.orderly h.diligent id with hakin | hquiet
  · exact h.of_akin hakin
  · exact (h.mono fun _ => Or.inl).of_turn (mount_turn h.orderly id) hquiet

theorem Awaits.unmount (h : page.Awaits rest busy) (id : InstanceId) :
    (page.unmount id).Awaits rest busy := by
  cases hstate : page.fragment? id with
  | none => rwa [unmount_of_fragment?_eq_none hstate]
  | some state =>
      refine (h.mono fun _ => Or.inl).of_turn
        (unmount_turn h.orderly id (page.Under id) .self) fun o ho => ?_
      have hattached := ho.attached_top
      rw [isAttached_unmount hstate] at hattached
      cases hattached

end LiveMarkup.Page
