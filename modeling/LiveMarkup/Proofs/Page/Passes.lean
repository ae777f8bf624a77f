import LiveMarkup.Proofs.Page.Queue

/-!
Passes and frames keep who waits: a pass takes its component out of the wait, its hook may ask for
the next pass, and its effects leave nothing dirty that the component shows.
-/

namespace LiveMarkup.Page

variable {page page' : Page} {rest : List InstanceId} {busy : InstanceId → Prop}
  {c id : InstanceId}

/-- A pass begins: its component does not wait any more. -/
def begin (page : Page) (id : InstanceId) : Page :=
  page.updateSlot id ({ · with scheduled := false })

theorem slot_begin (page : Page) (id j : InstanceId) :
    (page.begin id).slot j =
      if j = id then { page.slot j with scheduled := false } else page.slot j := by
  by_cases heq : j = id
  · rw [if_pos heq, heq, begin, slot_updateSlot_self _ rfl]
  · rw [if_neg heq, begin, slot_updateSlot_of_ne heq]

theorem begin_orderly (h : page.Orderly) (id : InstanceId) : (page.begin id).Orderly := by
  cases hvacant : (page.slot id).isVacant with
  | true =>
      refine h.of_akin ⟨?_, rfl, rfl, rfl, rfl, rfl, rfl, rfl⟩
      refine Array.ext (size_updateSlot page id _) ?_
      intro i hi hi'
      have hslot := slot_begin page id ⟨i⟩
      have hempty : ∀ j, (page.slot j).isVacant = true →
          { page.slot j with scheduled := false } = page.slot j := by
        intro j hj
        rw [h.vacant_eq j hj]
        rfl
      have hsame : (page.begin id).slot ⟨i⟩ = page.slot ⟨i⟩ := by
        rw [hslot]
        split
        · rename_i heq
          exact hempty _ (heq ▸ hvacant)
        · rfl
      simpa [slot, Array.getElem?_eq_getElem hi, Array.getElem?_eq_getElem hi'] using hsame
  | false =>
      have hslot := slot_begin page id id
      rw [if_pos rfl] at hslot
      refine h.retouch (retouch_updateSlot page id _) ?_ ?_ ?_
      · rw [hslot]
        exact .record hvacant _ _
      · rw [hslot]
        refine ⟨?_, ?_⟩
        · intro state hstate hroot
          obtain ⟨hbindings, hchildren, _, hattached⟩ := (h.fit id).unmounted state hstate hroot
          exact ⟨hbindings, hchildren, rfl, hattached⟩
        · intro state hstate hconnected
          obtain ⟨hchildren, _, hholds⟩ := (h.fit id).disconnected state hstate hconnected
          exact ⟨hchildren, rfl, hholds⟩
      · intro e he
        rwa [hslot] at he

theorem Awaits.begin (h : page.Awaits (c :: rest) busy) :
    (page.begin c).Awaits rest (fun id => busy id ∨ id = c) := by
  have hparts : ∀ j, ((page.begin c).slot j).bindings = (page.slot j).bindings ∧
      (page.begin c).up j = page.up j ∧
      (page.begin c).isAttached j = page.isAttached j ∧
      (page.begin c).component? j = page.component? j ∧
      (page.begin c).fragment? j = page.fragment? j := by
    intro j
    simp only [up, isAttached, component?, fragment?, slot_begin]
    split <;> exact ⟨rfl, rfl, rfl, rfl, rfl⟩
  have hup : (page.begin c).up = page.up := funext fun j => (hparts j).2.1
  have hc := (h.mem_iff c).mp (List.mem_append_right _ List.mem_cons_self)
  have hnodup := h.nodup
  rw [List.nodup_append, List.nodup_cons] at hnodup
  obtain ⟨hqueue, ⟨hcrest, hrest⟩, hdisjoint⟩ := hnodup
  have hnot : c ∉ page.queue ++ rest := by
    rw [List.mem_append, not_or]
    exact ⟨fun hmem => hdisjoint c hmem c List.mem_cons_self rfl, hcrest⟩
  refine ⟨begin_orderly h.orderly c, ?_, ?_, ?_, ?_⟩
  · intro id hfragment hchanges
    rw [(hparts id).2.2.2.2] at hfragment
    rw [(hparts id).1] at hchanges
    rw [slot_begin, if_neg]
    · exact h.diligent id hfragment hchanges
    · rintro rfl
      obtain ⟨state, hstate⟩ := Option.isSome_iff_exists.mp hc.1
      rw [fragment?, Instance.fragment?_of_component? hstate] at hfragment
      cases hfragment
  · exact List.nodup_append.mpr
      ⟨hqueue, hrest, fun x hx y hy => hdisjoint x hx y (List.mem_cons_of_mem _ hy)⟩
  · intro id
    change id ∈ page.queue ++ rest ↔ _
    rw [(hparts id).2.2.2.1, slot_begin]
    by_cases heq : id = c
    · subst heq
      simp [hnot]
    · rw [if_neg heq, ← h.mem_iff id]
      simp [heq]
  · intro id hcomponent hattached hbusy hdirty
    rw [(hparts id).2.2.2.1] at hcomponent
    rw [(hparts id).2.2.1] at hattached
    rw [not_or] at hbusy
    rw [slot_begin, if_neg hbusy.2]
    refine h.prompt id hcomponent hattached hbusy.1 fun hold => hdirty fun o ho => ?_
    rw [(hparts o).1]
    refine hold o ?_
    simpa only [ShownFrom, Under, hup, fun j => (hparts j).2.2.1] using ho

/-- The pass of a component that is not attached is no pass. -/
theorem Awaits.of_idle (h : page.Awaits rest (fun id => busy id ∨ id = c))
    (hidle : ∀ state, page.component? c = some state → state.connected = false) :
    page.Awaits rest busy where
  orderly := h.orderly
  diligent := h.diligent
  nodup := h.nodup
  mem_iff := h.mem_iff
  prompt id hcomponent hattached hbusy hdirty := by
    refine h.prompt id hcomponent hattached ?_ hdirty
    rw [not_or]
    refine ⟨hbusy, ?_⟩
    rintro rfl
    obtain ⟨state, hstate⟩ := Option.isSome_iff_exists.mp hcomponent
    rw [isAttached, Instance.isAttached_of_component? hstate, hidle state hstate] at hattached
    cases hattached

/-- The state in which the effects of a pass run: the pass has begun and its first hook is done. -/
def opened (page : Page) (id : InstanceId) : Page :=
  ({ page.begin id with stats.passes := page.stats.passes + 1 }.report
    (.passStarted id.number)).callHook id (·.beforeUpdate)

/-- The state after the effects of a pass. -/
def closed (page : Page) (id : InstanceId) : Page :=
  match page.component? id with
  | some state => (page.opened id).runEffects id state.definition.blueprint.depth
  | none => page

theorem closed_eq {state : ComponentState} (hstate : page.component? id = some state) :
    page.closed id = (page.opened id).runEffects id state.definition.blueprint.depth := by
  rw [closed, hstate]

theorem component?_begin (page : Page) (id j : InstanceId) :
    (page.begin id).component? j = page.component? j := by
  rw [component?, slot_begin]
  split <;> rfl

theorem runPass_of_connected {state : ComponentState} (hstate : page.component? id = some state)
    (hconnected : state.connected = true) :
    page.runPass id = (page.closed id).callHook id (·.afterUpdate) := by
  have hbegin : (page.updateSlot id ({ · with scheduled := false })).component? id = some state :=
    (component?_begin page id id).trans hstate
  rw [runPass]
  dsimp only
  rw [hbegin]
  dsimp only
  rw [if_neg (by simp [hconnected]), closed_eq hstate]
  rfl

theorem runPass_of_idle
    (hidle : ∀ state, page.component? id = some state → state.connected = false) :
    page.runPass id = page.begin id := by
  have hbegin : (page.updateSlot id ({ · with scheduled := false })).component? id =
      page.component? id := component?_begin page id id
  rw [runPass]
  dsimp only
  rw [hbegin]
  split
  · rfl
  · rename_i state hstate
    rw [hidle state hstate]
    rfl

theorem opened_written (h : page.Orderly) (c : InstanceId) :
    Written (page.begin c) (page.opened c) := by
  have hakin : Akin (page.begin c)
      ({ page.begin c with stats.passes := page.stats.passes + 1 }.report
        (.passStarted c.number)) :=
    (akin_stats _ _).trans (akin_report _ _)
  have hbegin := begin_orderly h c
  exact (Written.of_akin hbegin hakin rfl).trans
    (callHook_written (hbegin.of_akin hakin) c Hooks.beforeUpdate fun _ hedits => hedits.beforeUpdate)

/-- Hooks leave a connected component connected. -/
theorem component?_opened (h : page.Orderly) {state : ComponentState}
    (hstate : page.component? id = some state) :
    ∃ fields, (page.opened id).component? id = some { state with fields } := by
  obtain ⟨fields, hfields⟩ := (opened_written h id).component?_eq id
  rw [component?_begin, hstate] at hfields
  exact ⟨fields, hfields⟩

theorem Awaits.opened (h : page.Awaits (c :: rest) busy) :
    (page.opened c).Awaits rest (fun id => busy id ∨ id = c) := by
  refine Awaits.callHook ?_ c Hooks.beforeUpdate fun _ hedits => hedits.beforeUpdate
  exact h.begin.of_akin ((akin_stats _ _).trans (akin_report _ _))

theorem Awaits.closed (h : page.Awaits (c :: rest) busy) {state : ComponentState}
    (hstate : page.component? c = some state) (hconnected : state.connected = true) :
    (page.closed c).Awaits rest busy := by
  rw [closed_eq hstate]
  have hopened := h.opened
  obtain ⟨fields, hstate'⟩ := component?_opened h.orderly hstate
  have hturn := runEffects_turn hopened.orderly hstate'
  have hswept := runEffects_swept hopened.orderly hopened.diligent hstate' hconnected
  exact hopened.of_turn hturn hswept.clean

theorem Awaits.runPass (h : page.Awaits (c :: rest) busy) : (page.runPass c).Awaits rest busy := by
  by_cases hidle : ∀ state, page.component? c = some state → state.connected = false
  · rw [runPass_of_idle hidle]
    refine h.begin.of_idle fun state hstate => hidle state ?_
    rwa [component?_begin] at hstate
  · push Not at hidle
    obtain ⟨state, hstate, hconnected⟩ := hidle
    have hconnected : state.connected = true := by simpa using hconnected
    rw [runPass_of_connected hstate hconnected]
    exact (h.closed hstate hconnected).callHook c Hooks.afterUpdate fun _ hedits =>
      hedits.afterUpdate

theorem Awaits.foldl_runPass (h : page.Awaits rest busy) :
    (rest.foldl Page.runPass page).Awaits [] busy := by
  induction rest generalizing page with
  | nil => exact h
  | cons c rest ih => exact ih h.runPass

/-- A frame takes the queue; what waited in it waits for its pass. -/
theorem Awaits.takeQueue (h : page.Awaits [] busy) :
    { page with queue := [] }.Awaits page.queue busy where
  orderly := h.orderly.alter (h.orderly.toWired.of_held (le_refl _) (fun _ hn => Or.inl hn)
    (fun _ _ he => he) fun _ _ hx => hx) rfl rfl (fun _ => .refl _) h.orderly.fit
  diligent := h.diligent
  nodup := by simpa using h.nodup
  mem_iff id := by
    have hmem := h.mem_iff id
    rw [List.append_nil] at hmem
    exact hmem
  prompt := h.prompt

theorem Awaits.runFrame (h : page.Awaits [] busy) : page.runFrame.1.Awaits [] busy :=
  h.takeQueue.foldl_runPass

theorem Awaits.runUntilIdle (h : page.Awaits [] busy) (limit : Nat) :
    (runUntilIdle limit page).1.Awaits [] busy := by
  induction limit generalizing page with
  | zero => exact h
  | succ limit ih =>
      rw [Page.runUntilIdle]
      split
      · exact ih h.runFrame
      · exact h

end LiveMarkup.Page
