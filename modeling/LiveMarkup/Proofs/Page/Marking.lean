import LiveMarkup.Page.Mark
import LiveMarkup.Proofs.Page.Sweep

/-!
What marking a field does: the field becomes dirty wherever it is bound in a family, and the
component of the family waits for a pass if something became dirty.
-/

namespace LiveMarkup

namespace Instance

variable {i i' i'' : Instance} {field : String}

/-- Only what is dirty and whether it waits may differ. -/
structure Stained (i i' : Instance) : Prop where
  record : ∃ bindings scheduled, i' = { i with bindings, scheduled }
  registers : ∀ field e, i'.bindings.Registers field e ↔ i.bindings.Registers field e
  contains : ∀ field, i'.bindings.contains field = i.bindings.contains field
  effects : ∀ field, i'.bindings.effects? field = i.bindings.effects? field
  dirty : i.bindings.hasChanges = true → i'.bindings.hasChanges = true
  scheduled : i.scheduled = true → i'.scheduled = true
  vacant : i.isVacant = true → i' = i
  fit : i.Fit → i'.Fit

namespace Stained

theorem refl (i : Instance) : Stained i i :=
  ⟨⟨_, _, rfl⟩, fun _ _ => Iff.rfl, fun _ => rfl, fun _ => rfl, id, id, fun _ => rfl, id⟩

theorem trans (h : Stained i i') (h' : Stained i' i'') : Stained i i'' := by
  refine ⟨?_, ?_, ?_, ?_, fun hi => h'.dirty (h.dirty hi),
    fun hi => h'.scheduled (h.scheduled hi), ?_, fun hfit => h'.fit (h.fit hfit)⟩
  · obtain ⟨_, _, rfl⟩ := h.record
    obtain ⟨bindings, scheduled, rfl⟩ := h'.record
    exact ⟨bindings, scheduled, rfl⟩
  · exact fun field e => (h'.registers field e).trans (h.registers field e)
  · exact fun field => (h'.contains field).trans (h.contains field)
  · exact fun field => (h'.effects field).trans (h.effects field)
  · intro hi
    rw [h'.vacant (by rwa [h.vacant hi]), h.vacant hi]

theorem holds_iff (h : Stained i i') (e : Effect) : i'.bindings.Holds e ↔ i.bindings.Holds e := by
  simp only [Bindings.Holds, h.registers]

/-- A component that is asked to wait is connected. -/
theorem wait {state : ComponentState} (hstate : i.component? = some state)
    (hconnected : state.connected = true) : Stained i { i with scheduled := true } where
  record := ⟨_, _, rfl⟩
  registers _ _ := Iff.rfl
  contains _ := rfl
  effects _ := rfl
  dirty := id
  scheduled _ := rfl
  vacant hi := by
    rw [not_vacant_of_component? hstate] at hi
    cases hi
  fit _ := by
    refine ⟨?_, ?_⟩
    · intro fragment hfragment
      rw [component?_of_fragment? (show i.fragment? = some fragment from hfragment)] at hstate
      cases hstate
    · intro other hother hnot
      rw [show i.component? = some other from hother] at hstate
      cases hstate
      rw [hconnected] at hnot
      cases hnot

/-- A field that is bound becomes dirty; a fragment waits then. -/
theorem mark (hi : i.isVacant = false) (hcontains : i.bindings.contains field = true)
    {scheduled : Bool} (hscheduled : scheduled = i.scheduled ∨
      (scheduled = true ∧ i.component? = none)) :
    Stained i { i with bindings := i.bindings.mark field, scheduled } where
  record := ⟨_, _, rfl⟩
  registers _ _ := Bindings.registers_mark
  contains _ := Bindings.contains_mark
  effects _ := Bindings.effects?_mark
  dirty _ := Bindings.hasChanges_mark_of_contains hcontains
  scheduled hold := by
    rcases hscheduled with rfl | ⟨rfl, _⟩
    · exact hold
    · rfl
  vacant hvacant := by
    rw [hi] at hvacant
    cases hvacant
  fit hfit := by
    refine ⟨?_, ?_⟩
    · intro state hstate hroot
      obtain ⟨hempty, _⟩ := hfit.unmounted state hstate hroot
      rw [hempty] at hcontains
      cases hcontains
    · intro state hstate hconnected
      obtain ⟨hchildren, hold, hholds⟩ := hfit.disconnected state hstate hconnected
      refine ⟨hchildren, ?_, fun e he => hholds e (Bindings.holds_mark.mp he)⟩
      rcases hscheduled with rfl | ⟨_, hnone⟩
      · exact hold
      · rw [show i.component? = some state from hstate] at hnone
        cases hnone

end Stained

end Instance

namespace Page

variable {page page' page'' : Page} {a f g id j o : InstanceId} {field : String}

/-- Only what is dirty, what waits and the queue may differ. -/
structure Marked (page page' : Page) : Prop where
  dom : page'.dom = page.dom
  size : page'.slots.size = page.slots.size
  free : page'.free = page.free
  effects : page'.effects = page.effects
  ran : page'.ran = page.ran
  definitions : page'.definitions = page.definitions
  document : page'.document = page.document
  styles : page'.styles = page.styles
  listeners : page'.listeners = page.listeners
  slot : ∀ j, (page.slot j).Stained (page'.slot j)

namespace Marked

theorem refl (page : Page) : Marked page page :=
  ⟨rfl, rfl, rfl, rfl, rfl, rfl, rfl, rfl, rfl, fun _ => .refl _⟩

theorem trans (h : Marked page page') (h' : Marked page' page'') : Marked page page'' :=
  ⟨h'.dom.trans h.dom, h'.size.trans h.size, h'.free.trans h.free,
    h'.effects.trans h.effects, h'.ran.trans h.ran, h'.definitions.trans h.definitions,
    h'.document.trans h.document, h'.styles.trans h.styles, h'.listeners.trans h.listeners,
    fun j => (h.slot j).trans (h'.slot j)⟩

section

variable (h : Marked page page')

include h

theorem up_eq : page'.up = page.up := by
  funext j
  obtain ⟨_, _, hslot⟩ := (h.slot j).record
  rw [up, hslot]
  rfl

theorem component?_eq (j : InstanceId) : page'.component? j = page.component? j := by
  obtain ⟨_, _, hslot⟩ := (h.slot j).record
  rw [component?, hslot]
  rfl

theorem fragment?_eq (j : InstanceId) : page'.fragment? j = page.fragment? j := by
  obtain ⟨_, _, hslot⟩ := (h.slot j).record
  rw [fragment?, hslot]
  rfl

theorem isAttached_eq (j : InstanceId) : page'.isAttached j = page.isAttached j := by
  obtain ⟨_, _, hslot⟩ := (h.slot j).record
  rw [isAttached, hslot]
  rfl

theorem component_eq (j : InstanceId) : (page'.slot j).component = (page.slot j).component := by
  obtain ⟨_, _, hslot⟩ := (h.slot j).record
  rw [hslot]

theorem children_eq (j : InstanceId) : (page'.slot j).children = (page.slot j).children := by
  obtain ⟨_, _, hslot⟩ := (h.slot j).record
  rw [hslot]

theorem shownFrom_iff : page'.ShownFrom a id ↔ page.ShownFrom a id := by
  simp only [ShownFrom, Under, h.up_eq, h.isAttached_eq]

theorem orderly (hpage : page.Orderly) : page'.Orderly := by
  refine hpage.alter ?_ h.size h.free ?_ fun j => (h.slot j).fit (hpage.fit j)
  · refine hpage.toWired.of_held (le_of_eq h.effects.symm) ?_ ?_ ?_
    · exact fun n hn => Or.inl (h.ran ▸ hn)
    · exact fun j e he => ((h.slot j).holds_iff e).mp he
    · exact fun j => by rw [h.children_eq j]; exact fun _ hx => hx
  · intro j
    obtain ⟨_, _, hslot⟩ := (h.slot j).record
    refine ⟨?_, ?_, ?_, ?_, ?_, (h.slot j).vacant⟩ <;> rw [hslot] <;> rfl

end

theorem foldl {β : Type} {step : Page → β → Page}
    (hstep : ∀ page x, page.Orderly → Marked page (step page x)) (items : List β)
    (h : page.Orderly) : Marked page (items.foldl step page) := by
  induction items generalizing page with
  | nil => exact refl page
  | cons x rest ih =>
      have hfirst := hstep page x h
      exact hfirst.trans (ih (hfirst.orderly h))

end Marked

/-! ### Asking for a pass -/

/-- A component is asked to wait and comes last in the queue. -/
structure Requested (id : InstanceId) (page page' : Page) : Prop where
  connected : ∃ state, page.component? id = some state ∧ state.connected = true
  scheduled : (page.slot id).scheduled = false
  queue : page'.queue = page.queue ++ [id]
  slot : ∀ j, page'.slot j =
    if j = id then { page.slot j with scheduled := true } else page.slot j
  marked : Marked page page'

theorem requestPass_cases (page : Page) (id : InstanceId) :
    Requested id page (page.requestPass id) ∨
      (page.requestPass id = page ∧ ∀ state, page.component? id = some state →
        state.connected = true → (page.slot id).scheduled = true) := by
  unfold requestPass
  cases hstate : page.component? id with
  | none => exact Or.inr ⟨rfl, fun _ hfalse => by cases hfalse⟩
  | some state =>
      dsimp only
      split
      · rename_i hbusy
        refine Or.inr ⟨rfl, ?_⟩
        rintro other ⟨⟩ hconnected
        simpa [hconnected] using hbusy
      · rename_i hidle
        simp only [Bool.or_eq_true, Bool.not_eq_true', not_or, Bool.not_eq_true,
          Bool.not_eq_false] at hidle
        have hslot : ∀ j, (page.updateSlot id ({ · with scheduled := true })).slot j =
            if j = id then { page.slot j with scheduled := true } else page.slot j :=
          slot_updateSlot (lt_size_of_not_vacant (Instance.not_vacant_of_component? hstate)) _
        refine Or.inl ⟨⟨state, hstate, hidle.2⟩, hidle.1, rfl, hslot, ?_⟩
        refine ⟨rfl, size_updateSlot page id _, rfl, rfl, rfl, rfl, rfl, rfl, rfl, ?_⟩
        intro j
        change (page.slot j).Stained ((page.updateSlot id ({ · with scheduled := true })).slot j)
        rw [hslot j]
        split
        · rename_i heq
          subst heq
          exact .wait hstate hidle.2
        · exact .refl _

theorem requestPass_marked (page : Page) (id : InstanceId) : Marked page (page.requestPass id) := by
  rcases requestPass_cases page id with h | ⟨h, _⟩
  · exact h.marked
  · rw [h]
    exact .refl page

/-- After it was asked a connected component waits. -/
theorem scheduled_requestPass {state : ComponentState} (hstate : page.component? id = some state)
    (hconnected : state.connected = true) :
    ((page.requestPass id).slot id).scheduled = true := by
  rcases requestPass_cases page id with h | ⟨h, hscheduled⟩
  · rw [h.slot, if_pos rfl]
  · rw [h]
    exact hscheduled state hstate hconnected

theorem bindings_requestPass (page : Page) (id j : InstanceId) :
    ((page.requestPass id).slot j).bindings = (page.slot j).bindings := by
  rcases requestPass_cases page id with h | ⟨h, _⟩
  · rw [h.slot]
    split <;> rfl
  · rw [h]

/-! ### Marking one instance -/

/-- A field is marked at one instance, before its component is asked. -/
structure Dyed (field : String) (id : InstanceId) (page page' : Page) : Prop where
  slot : ∀ j, page'.slot j =
    if j = id then
      { page.slot j with
        bindings := (page.slot j).bindings.mark field
        scheduled := (page.slot j).scheduled || (page.slot j).fragment?.isSome }
    else page.slot j
  queue : page'.queue = page.queue
  rest : { page with slots := page'.slots } = page'
  marked : Marked page page'

theorem not_vacant_of_contains (h : page.Orderly)
    (hcontains : (page.slot id).bindings.contains field = true) :
    (page.slot id).isVacant = false := by
  by_contra hvacant
  rw [Bool.not_eq_false] at hvacant
  rw [h.vacant_eq id hvacant] at hcontains
  cases hcontains

theorem markAt_cases (h : page.Orderly) (field : String) (id : InstanceId) :
    ((page.slot id).bindings.contains field = true ∧ ∃ next, Dyed field id page next ∧
        markAt field page id = next.requestPass (page.slot id).component) ∨
      ((page.slot id).bindings.contains field = false ∧ markAt field page id = page) := by
  cases hcontains : (page.slot id).bindings.contains field with
  | false => exact Or.inr ⟨rfl, by rw [markAt, hcontains]; rfl⟩
  | true =>
      have hvacant := not_vacant_of_contains h hcontains
      have hlt := lt_size_of_not_vacant hvacant
      have hdyed : ∀ next : Page, { page with slots := next.slots } = next →
          next.slots.size = page.slots.size →
          (∀ j, next.slot j =
            if j = id then
              { page.slot j with
                bindings := (page.slot j).bindings.mark field
                scheduled := (page.slot j).scheduled || (page.slot j).fragment?.isSome }
            else page.slot j) → Dyed field id page next := by
        intro next hnext hsize hslot
        obtain ⟨slots, rfl⟩ : ∃ slots, next = { page with slots } := ⟨_, hnext.symm⟩
        refine ⟨hslot, rfl, rfl, rfl, hsize, rfl, rfl, rfl, rfl, rfl, rfl, rfl, ?_⟩
        intro j
        rw [hslot j]
        split
        · rename_i heq
          subst heq
          refine .mark hvacant hcontains ?_
          cases hfragment : (page.slot j).fragment? with
          | none => exact Or.inl (by simp)
          | some state => exact Or.inr ⟨by simp, Instance.component?_of_fragment? hfragment⟩
        · exact .refl _
      have hfirst := slot_updateSlot hlt (·.mapBindings (·.mark field))
      refine Or.inl ⟨rfl, ?_⟩
      rw [markAt, hcontains, if_pos rfl, schedule, hfirst id, if_pos rfl]
      cases hkind : (page.slot id).kind with
      | component state =>
          have hstate := Instance.component?_of_kind hkind
          simp only [Instance.mapBindings, hkind]
          refine ⟨page.updateSlot id (·.mapBindings (·.mark field)),
            hdyed _ rfl (size_updateSlot page id _) ?_, ?_⟩
          · intro j
            rw [hfirst j]
            split
            · rename_i heq
              subst heq
              simp [Instance.mapBindings, Instance.fragment?_of_component? hstate]
            · rfl
          · rw [(h.component_eq id state hstate).2]
            rfl
      | fragment state =>
          have hstate := Instance.fragment?_of_kind hkind
          simp only [Instance.mapBindings, hkind]
          refine ⟨(page.updateSlot id (·.mapBindings (·.mark field))).updateSlot id
            ({ · with scheduled := true }), hdyed _ rfl (by simp) ?_, rfl⟩
          intro j
          rw [slot_updateSlot (by simpa using hlt), hfirst j]
          split
          · rename_i heq
            subst heq
            simp [Instance.mapBindings, hstate]
          · rfl
      | vacant =>
          rw [Instance.isVacant_iff.mpr hkind] at hvacant
          cases hvacant

theorem markAt_marked (h : page.Orderly) (field : String) (id : InstanceId) :
    Marked page (markAt field page id) := by
  rcases markAt_cases h field id with ⟨_, next, hdyed, heq⟩ | ⟨_, heq⟩
  · rw [heq]
    exact hdyed.marked.trans (requestPass_marked next _)
  · rw [heq]
    exact .refl page

theorem markChanged_marked (h : page.Orderly) (id : InstanceId) (field : String) :
    Marked page (page.markChanged id field) :=
  .foldl (fun _ j hpage => markAt_marked hpage field j) _ h

theorem component?_markChanged (h : page.Orderly) (id : InstanceId) (field : String)
    (j : InstanceId) : (page.markChanged id field).component? j = page.component? j := by
  obtain ⟨_, _, hrecord⟩ := ((markChanged_marked h id field).slot j).record
  rw [component?, hrecord]
  rfl

end Page

end LiveMarkup
