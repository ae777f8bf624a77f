import LiveMarkup.Proofs.Page.Request

/-!
The frame queue. Whatever is asked of a page, its queue names each waiting component once, and every
component that shows something dirty waits.
-/

namespace LiveMarkup.Page

variable {page : Page}

/-- What the queue, the schedule flags and the dirty bindings of a page have to do with each other.
-/
structure Tracked (page : Page) : Prop where
  queue_nodup : page.queue.Nodup
  mem_queue : ∀ id, id ∈ page.queue ↔
    (page.component? id).isSome = true ∧ (page.slot id).scheduled = true
  connected : ∀ id ∈ page.queue, ∃ state,
    page.component? id = some state ∧ state.connected = true
  fragment_scheduled : ∀ f, (page.fragment? f).isSome = true →
    (page.slot f).bindings.hasChanges = true → (page.slot f).scheduled = true
  dirty_component : ∀ c state, page.component? c = some state → state.connected = true →
    (page.slot c).bindings.hasChanges = true → c ∈ page.queue
  dirty_fragment : ∀ c state f, page.component? c = some state → state.connected = true →
    f ∈ page.family c → (page.fragment? f).isSome = true →
    (page.slot f).bindings.hasChanges = true → (∀ i ∈ page.path f, page.isAttached i = true) →
    c ∈ page.queue

/-- What lies on the path of a shown fragment is attached. -/
theorem shownFrom_of_path (h : page.Orderly) {c f : InstanceId}
    (hf : (page.slot f).isVacant = false) (hfamily : f ∈ page.family c)
    (hpath : ∀ i ∈ page.path f, page.isAttached i = true) : page.ShownFrom c f :=
  ⟨(mem_family_iff h hf).mp hfamily, fun i _ hi => hpath i ((mem_path_iff h hf).mpr hi)⟩

theorem Awaits.tracked (h : page.Awaits [] fun _ => False) : page.Tracked := by
  have hmem : ∀ id, id ∈ page.queue ↔
      (page.component? id).isSome = true ∧ (page.slot id).scheduled = true := by
    intro id
    rw [← h.mem_iff id, List.append_nil]
  have hdirty : ∀ c state o, page.component? c = some state → state.connected = true →
      page.ShownFrom c o → (page.slot o).bindings.hasChanges = true → c ∈ page.queue := by
    intro c state o hstate hconnected hshown hchanges
    have hcomponent : (page.component? c).isSome = true := by rw [hstate]; rfl
    have hattached : page.isAttached c = true :=
      (Instance.isAttached_of_component? hstate).trans hconnected
    refine (hmem c).mpr ⟨hcomponent, h.prompt c hcomponent hattached id fun hquiet => ?_⟩
    rw [hquiet o hshown] at hchanges
    cases hchanges
  refine ⟨?_, hmem, ?_, h.diligent, ?_, ?_⟩
  · have hnodup := h.nodup
    rwa [List.append_nil] at hnodup
  · intro id hid
    obtain ⟨hcomponent, hscheduled⟩ := (hmem id).mp hid
    exact connected_of_scheduled h.orderly hcomponent hscheduled
  · intro c state hstate hconnected hchanges
    refine hdirty c state c hstate hconnected (shownFrom_self ?_ h.orderly) hchanges
    exact (Instance.isAttached_of_component? hstate).trans hconnected
  · intro c state f hstate hconnected hfamily hfragment hchanges hpath
    obtain ⟨_, hf⟩ := Option.isSome_iff_exists.mp hfragment
    exact hdirty c state f hstate hconnected
      (shownFrom_of_path h.orderly (Instance.not_vacant_of_fragment? hf) hfamily hpath) hchanges

theorem tracked_after (styles : StyleAttacher) (requests : List Request) :
    (after styles requests).Tracked :=
  (awaits_after styles requests).tracked

end LiveMarkup.Page
