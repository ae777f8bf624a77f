import LiveMarkup.Proofs.Page.Turn

/-!
How the row of slots is kept in order when one slot is written to, when an instance registers an
effect and when an instance is made.
-/

namespace LiveMarkup

namespace Instance

variable {i i' : Instance}

/-- Two states of one slot that do not differ in its place among the instances. -/
structure Alike (i i' : Instance) : Prop where
  parent : i'.parent = i.parent
  component : i'.component = i.component
  children : i'.children = i.children
  blueprint : i'.blueprint? = i.blueprint?
  isComponent : i'.component?.isSome = i.component?.isSome
  vacant : i.isVacant = true → i' = i

namespace Alike

theorem refl (i : Instance) : Alike i i :=
  ⟨rfl, rfl, rfl, rfl, rfl, fun _ => rfl⟩

theorem isVacant_eq (h : Alike i i') : i'.isVacant = i.isVacant := by
  cases hi : i.isVacant with
  | true => rw [h.vacant hi, hi]
  | false =>
      have hsome : i.blueprint?.isSome = true := by
        unfold blueprint?
        unfold isVacant at hi
        split <;> simp_all
      obtain ⟨blueprint, hblueprint⟩ := Option.isSome_iff_exists.mp hsome
      exact not_vacant_of_blueprint? (h.blueprint.trans hblueprint)

theorem exists_component (h : Alike i i') {state : ComponentState}
    (hstate : i'.component? = some state) : ∃ state, i.component? = some state := by
  apply Option.isSome_iff_exists.mp
  rw [← h.isComponent, hstate]
  rfl

theorem exists_fragment (h : Alike i i') {state : FragmentState}
    (hstate : i'.fragment? = some state) : ∃ state, i.fragment? = some state := by
  cases hkind : i.kind with
  | component old =>
      have hnone := h.isComponent
      rw [component?_of_fragment? hstate, component?_of_kind hkind] at hnone
      cases hnone
  | fragment old => exact ⟨old, fragment?_of_kind hkind⟩
  | vacant =>
      rw [h.vacant (isVacant_iff.mpr hkind), fragment?, hkind] at hstate
      cases hstate

theorem mapFragment (i : Instance) {f : FragmentState → FragmentState}
    (hf : ∀ state, (f state).blueprint = state.blueprint) : Alike i (i.mapFragment f) := by
  cases hkind : i.kind with
  | component state =>
      rw [Instance.mapFragment, hkind]
      exact .refl i
  | fragment state =>
      rw [mapFragment_of_fragment? (fragment?_of_kind hkind)]
      refine ⟨rfl, rfl, rfl, ?_, ?_, ?_⟩
      · simp only [blueprint?, hkind, hf]
      · simp only [component?, hkind]
      · simp [isVacant, hkind]
  | vacant =>
      rw [Instance.mapFragment, hkind]
      exact .refl i

theorem mapComponent (i : Instance) {f : ComponentState → ComponentState}
    (hf : ∀ state, (f state).definition = state.definition) : Alike i (i.mapComponent f) := by
  cases hkind : i.kind with
  | component state =>
      rw [mapComponent_of_component? (component?_of_kind hkind)]
      refine ⟨rfl, rfl, rfl, ?_, ?_, ?_⟩
      · simp only [blueprint?, hkind, hf]
      · simp [component?, hkind]
      · simp [isVacant, hkind]
  | fragment state =>
      rw [Instance.mapComponent, hkind]
      exact .refl i
  | vacant =>
      rw [Instance.mapComponent, hkind]
      exact .refl i

theorem record (hi : i.isVacant = false) (bindings : Bindings) (scheduled : Bool) :
    Alike i { i with bindings, scheduled } := by
  refine ⟨rfl, rfl, rfl, rfl, rfl, ?_⟩
  rw [hi]
  intro h
  cases h

end Alike

/-- A fragment that is mounted or unmounted, and keeps its element. -/
theorem Kept.mapFragment (limit : Nat) (i : Instance) {f : FragmentState → FragmentState}
    (hf : ∀ state, f state = { state with root := (f state).root, attached := (f state).attached })
    (hroot : ∀ state node, i.fragment? = some state → state.root = some node →
      (f state).root = some node) : Kept limit i (i.mapFragment f) := by
  cases hkind : i.kind with
  | component state =>
      rw [Instance.mapFragment, hkind]
      exact .refl limit i
  | fragment state =>
      have hstate := fragment?_of_kind hkind
      rw [mapFragment_of_fragment? hstate]
      refine { refl limit i with component_state := ?_, fragment_state := ?_, born := ?_ }
      · intro old hold
        rw [component?_of_fragment? hstate] at hold
        cases hold
      · intro old hold
        rw [hstate] at hold
        cases hold
        exact ⟨_, _, congrArg some (hf state), fun node => hroot state node hstate⟩
      · intro hi
        rw [isVacant_iff, hkind] at hi
        cases hi
  | vacant =>
      rw [Instance.mapFragment, hkind]
      exact .refl limit i

/-- A component that gets a reference. -/
theorem Kept.mapReferences (limit : Nat) (i : Instance) (f : Dict NodeId → Dict NodeId) :
    Kept limit i (i.mapComponent fun state =>
      { state with references := f state.references }) := by
  cases hkind : i.kind with
  | component state =>
      have hstate := component?_of_kind hkind
      rw [mapComponent_of_component? hstate]
      refine { refl limit i with component_state := ?_, fragment_state := ?_, born := ?_ }
      · intro old hold
        rw [hstate] at hold
        cases hold
        exact ⟨⟨f state.references, rfl⟩, rfl⟩
      · intro old hold
        rw [component?_of_fragment? hold] at hstate
        cases hstate
      · intro hi
        rw [isVacant_iff, hkind] at hi
        cases hi
  | fragment state =>
      rw [Instance.mapComponent, hkind]
      exact .refl limit i
  | vacant =>
      rw [Instance.mapComponent, hkind]
      exact .refl limit i

theorem core_mapReferences (i : Instance) (f : Dict NodeId → Dict NodeId) :
    (i.mapComponent fun state => { state with references := f state.references }).core =
      i.core := by
  cases hkind : i.kind with
  | component state =>
      rw [mapComponent_of_component? (component?_of_kind hkind)]
      simp only [core, Instance.mapComponent, hkind]
  | fragment state => rw [Instance.mapComponent, hkind]
  | vacant => rw [Instance.mapComponent, hkind]

/-- An instance whose changes are taken; a fragment stops waiting then. -/
theorem Kept.clearChanges (limit : Nat) (i : Instance) {scheduled : Bool}
    (hscheduled : scheduled = i.scheduled ∨ (i.fragment?.isSome = true ∧ scheduled = false)) :
    Kept limit i { i with bindings := i.bindings.clearChanges, scheduled } where
  same _ := ⟨rfl, rfl⟩
  children := List.prefix_refl _
  contains field h := by simpa using h
  registers field e h := by simpa using h
  registered field e h := Or.inl (by simpa using h)
  due e h := by
    have hchanges := Bindings.hasChanges_of_mem_due h
    simp at hchanges
  changes h := by simp at h
  scheduled h := by
    rcases hscheduled with heq | ⟨_, heq⟩
    · exact heq ▸ h
    · simp [heq] at h
  settled h := by simp at h
  component_state state hstate := by
    refine ⟨⟨state.references, hstate⟩, ?_⟩
    rcases hscheduled with heq | ⟨hfragment, _⟩
    · exact heq
    · rw [fragment?_of_component? hstate] at hfragment
      cases hfragment
  fragment_state state hstate := ⟨state.root, state.attached, hstate, fun _ h => h⟩
  born hi := Or.inl hi

/-- A fragment with an element may be mounted or not. -/
theorem Fit.of_root {state : FragmentState} {root : NodeId} (h : i.fragment? = some state)
    (hroot : state.root = some root) : i.Fit where
  unmounted old hold hnone := by
    rw [h] at hold
    cases hold
    rw [hroot] at hnone
    cases hnone
  disconnected old hold := by
    rw [component?_of_fragment? h] at hold
    cases hold

/-- A mounted fragment or one that was mounted, or a connected component. -/
structure Rendered (i : Instance) : Prop where
  root : ∀ state, i.fragment? = some state → state.root ≠ none
  connected : ∀ state, i.component? = some state → state.connected = true

theorem Fit.of_rendered (h : i.Rendered) {bindings : Bindings} {children : List InstanceId} :
    Fit { i with bindings, children } where
  unmounted state hstate hnone := absurd hnone (h.root state hstate)
  disconnected state hstate hconnected := by
    have hold := h.connected state hstate
    rw [hconnected] at hold
    cases hold

theorem Fit.mapComponent (h : i.Fit) {f : ComponentState → ComponentState}
    (hf : ∀ state, (f state).connected = state.connected) : Fit (i.mapComponent f) := by
  cases hkind : i.kind with
  | component state =>
      have hstate := component?_of_kind hkind
      rw [mapComponent_of_component? hstate]
      refine ⟨?_, ?_⟩
      · rintro old ⟨⟩
      · rintro old ⟨⟩ hconnected
        exact h.disconnected state hstate ((hf state).symm.trans hconnected)
  | fragment state =>
      rw [Instance.mapComponent, hkind]
      exact h
  | vacant =>
      rw [Instance.mapComponent, hkind]
      exact h

theorem Fit.clearChanges (h : i.Fit) {scheduled : Bool}
    (hscheduled : scheduled = true → i.scheduled = true) :
    Fit { i with bindings := i.bindings.clearChanges, scheduled } where
  unmounted state hstate hroot := by
    obtain ⟨hbindings, hchildren, hold, hattached⟩ := h.unmounted state hstate hroot
    refine ⟨?_, hchildren, ?_, hattached⟩
    · simp only [hbindings]
      rfl
    · exact Bool.eq_false_iff.mpr fun hnew => by simp [hscheduled hnew] at hold
  disconnected state hstate hconnected := by
    obtain ⟨hchildren, hold, hholds⟩ := h.disconnected state hstate hconnected
    refine ⟨hchildren, ?_, fun e he => hholds e (by simpa using he)⟩
    exact Bool.eq_false_iff.mpr fun hnew => by simp [hscheduled hnew] at hold

end Instance

namespace Page

variable {page page' page'' : Page} {inside : InstanceId → Prop} {a f id owner : InstanceId}

/-! ### One slot is written to -/

/-- At most the slot `id` differs. -/
structure Retouch (id : InstanceId) (page page' : Page) : Prop where
  size : page'.slots.size = page.slots.size
  free : page'.free = page.free
  queue : page'.queue = page.queue
  effects : page'.effects = page.effects
  ran : page'.ran = page.ran
  definitions : page'.definitions = page.definitions
  document : page'.document = page.document
  styles : page'.styles = page.styles
  other : ∀ j, j ≠ id → page'.slot j = page.slot j

theorem retouch_updateSlot (page : Page) (id : InstanceId) (f : Instance → Instance) :
    Retouch id page (page.updateSlot id f) :=
  ⟨size_updateSlot page id f, rfl, rfl, rfl, rfl, rfl, rfl, rfl,
    fun _ hne => slot_updateSlot_of_ne hne f⟩

namespace Retouch

theorem of_akin (id : InstanceId) (h : Akin page page') : Retouch id page page' :=
  ⟨by rw [h.slots], h.free, h.queue, h.effects, h.ran, h.definitions, h.document, h.styles,
    fun j _ => h.slot j⟩

theorem trans (h : Retouch id page page') (h' : Retouch id page' page'') :
    Retouch id page page'' :=
  ⟨h'.size.trans h.size, h'.free.trans h.free, h'.queue.trans h.queue,
    h'.effects.trans h.effects, h'.ran.trans h.ran, h'.definitions.trans h.definitions,
    h'.document.trans h.document, h'.styles.trans h.styles,
    fun j hne => (h'.other j hne).trans (h.other j hne)⟩

theorem turn (h : Retouch id page page') (hinside : inside id)
    (hkept : (page.slot id).Kept page.effects (page'.slot id))
    (hchildren : (page'.slot id).children = (page.slot id).children) : Turn inside page page' where
  size_le := le_of_eq h.size.symm
  queue := h.queue
  definitions := h.definitions
  document := h.document
  styles := h.styles
  effects_le := le_of_eq h.effects.symm
  kept j := by
    by_cases heq : j = id
    · exact heq ▸ hkept
    · rw [h.other j heq]
      exact .refl _ _
  new_child j f hf := by
    by_cases heq : j = id
    · rw [heq, hchildren] at hf
      exact Or.inl (heq ▸ hf)
    · rw [h.other j heq] at hf
      exact Or.inl hf
  outside j _ hnot := by
    rw [h.other j fun heq => hnot (heq ▸ hinside)]

end Retouch

/-- What is registered stays in order when nothing is registered anew. -/
theorem Wired.of_held (h : page.Wired) (heffects : page.effects ≤ page'.effects)
    (hran : ∀ n ∈ page'.ran, n ∈ page.ran ∨ n.number ≤ page'.effects)
    (hheld : ∀ j e, (page'.slot j).bindings.Holds e → (page.slot j).bindings.Holds e)
    (hchildren : ∀ j, (page.slot j).children ⊆ (page'.slot j).children) : page'.Wired where
  effect_owner j e he := by
    obtain ⟨howner, hle⟩ := h.effect_owner j e (hheld j e he)
    exact ⟨howner, le_trans hle heffects⟩
  effect_id j k e e' he he' := h.effect_id j k e e' (hheld j e he) (hheld k e' he')
  effect_fragment j e f he hf := hchildren j (h.effect_fragment j e f (hheld j e he) hf)
  effect_guard j e e' f he he' := h.effect_guard j e e' f (hheld j e he) (hheld j e' he')
  ran_made n hn := by
    rcases hran n hn with hn | hn
    · exact le_trans (h.ran_made n hn) heffects
    · exact hn

/-- Instances that keep their places stay in order. -/
theorem Orderly.alter (h : page.Orderly) (hwired : page'.Wired)
    (hsize : page'.slots.size = page.slots.size) (hfree : page'.free = page.free)
    (halike : ∀ j, (page.slot j).Alike (page'.slot j)) (hfit : ∀ j, (page'.slot j).Fit) :
    page'.Orderly where
  toWired := hwired
  free_nodup := hfree ▸ h.free_nodup
  mem_free j := by
    rw [hfree, hsize, (halike j).isVacant_eq]
    exact h.mem_free j
  vacant_eq j hj := by
    rw [(halike j).isVacant_eq] at hj
    rw [(halike j).vacant hj, h.vacant_eq j hj]
  fit := hfit
  component_eq j state hstate := by
    obtain ⟨old, hold⟩ := (halike j).exists_component hstate
    rw [(halike j).parent, (halike j).component]
    exact h.component_eq j old hold
  fragment_parent j state hstate := by
    obtain ⟨old, hold⟩ := (halike j).exists_fragment hstate
    rw [(halike j).parent]
    exact h.fragment_parent j old hold
  mem_children p j := by
    rw [(halike p).children, (halike j).parent]
    exact h.mem_children p j
  children_nodup p := by
    rw [(halike p).children]
    exact h.children_nodup p
  nests p j hp := by
    rw [(halike j).parent] at hp
    rw [(halike j).blueprint, (halike p).blueprint]
    exact h.nests p j hp
  component_up p j hp := by
    rw [(halike j).parent] at hp
    rw [(halike j).component, (halike p).component]
    exact h.component_up p j hp
  belongs j hj := by
    rw [(halike j).isVacant_eq] at hj
    rw [(halike j).component, component?, (halike _).isComponent]
    exact h.belongs j hj

theorem Orderly.of_akin (h : page.Orderly) (hakin : Akin page page') : page'.Orderly := by
  refine h.alter ?_ (by rw [hakin.slots]) hakin.free ?_ ?_
  · refine h.toWired.of_held (le_of_eq hakin.effects.symm) ?_ ?_ ?_
    · exact fun n hn => Or.inl (hakin.ran ▸ hn)
    · exact fun j e he => hakin.slot j ▸ he
    · exact fun j => by rw [hakin.slot j]; exact fun _ hx => hx
  · intro j
    rw [hakin.slot j]
    exact .refl _
  · intro j
    rw [hakin.slot j]
    exact h.fit j

theorem Orderly.retouch (h : page.Orderly) (hr : Retouch id page page')
    (halike : (page.slot id).Alike (page'.slot id)) (hfit : (page'.slot id).Fit)
    (hheld : ∀ e, (page'.slot id).bindings.Holds e → (page.slot id).bindings.Holds e) :
    page'.Orderly := by
  have hall : ∀ j, (page.slot j).Alike (page'.slot j) := by
    intro j
    by_cases heq : j = id
    · exact heq ▸ halike
    · rw [hr.other j heq]
      exact .refl _
  refine h.alter ?_ hr.size hr.free hall ?_
  · refine h.toWired.of_held (le_of_eq hr.effects.symm) ?_ ?_ ?_
    · exact fun n hn => Or.inl (hr.ran ▸ hn)
    · intro j e he
      by_cases heq : j = id
      · exact heq ▸ hheld e (heq ▸ he)
      · rwa [hr.other j heq] at he
    · exact fun j => by rw [(hall j).children]; exact fun _ hx => hx
  · intro j
    by_cases heq : j = id
    · exact heq ▸ hfit
    · rw [hr.other j heq]
      exact h.fit j

namespace OrderlyTurn

variable {runs : List EffectId}

theorem of_akin (h : page.Orderly) (inside : InstanceId → Prop) (hakin : Akin page page') :
    OrderlyTurn inside [] page page' where
  orderly := h.of_akin hakin
  turn := .of_akin inside hakin
  tally n := tally_congr hakin.ran hakin.effects (isDue_congr (fun j => by rw [hakin.slot j]) n)

theorem refl (h : page.Orderly) (inside : InstanceId → Prop) : OrderlyTurn inside [] page page :=
  of_akin h inside (.refl page)

theorem trans_akin (h : OrderlyTurn inside runs page page') (hakin : Akin page' page'') :
    OrderlyTurn inside runs page page'' := by
  have hlast := of_akin h.orderly (fun _ => False) hakin
  simpa using h.trans hlast fun _ _ hfalse => hfalse.elim

theorem akin_trans (hpage : page.Orderly) (hakin : Akin page page')
    (h : OrderlyTurn inside runs page' page'') : OrderlyTurn inside runs page page'' :=
  (of_akin hpage inside hakin).trans h fun _ _ hin => hin

/-- A fragment is mounted or unmounted. -/
theorem of_mapFragment (h : page.Orderly) (hr : Retouch id page page') {state : FragmentState}
    (hstate : page.fragment? id = some state) {f : FragmentState → FragmentState} {root : NodeId}
    (hslot : page'.slot id = (page.slot id).mapFragment f)
    (hf : ∀ state, f state = { state with root := (f state).root, attached := (f state).attached })
    (hroot : (f state).root = some root)
    (hkeep : ∀ node, state.root = some node → node = root) (hinside : inside id) :
    OrderlyTurn inside [] page page' := by
  have hblueprint : ∀ state, (f state).blueprint = state.blueprint := by
    intro state
    rw [hf state]
  have hmap := Instance.mapFragment_of_fragment? hstate f
  have hbindings : (page'.slot id).bindings = (page.slot id).bindings := by rw [hslot, hmap]
  have hkept : (page.slot id).Kept page.effects (page'.slot id) := by
    rw [hslot]
    refine .mapFragment _ _ hf ?_
    intro old node hold hnode
    rw [show page.fragment? id = _ from hold] at hstate
    cases hstate
    rw [hroot, hkeep node hnode]
  refine ⟨h.retouch hr ?_ ?_ ?_, hr.turn hinside hkept ?_, ?_⟩
  · rw [hslot]
    exact .mapFragment _ hblueprint
  · have hstate' : (page'.slot id).fragment? = some (f state) := by
      rw [hslot, hmap, Instance.fragment?_of_kind rfl]
    exact .of_root hstate' hroot
  · intro e he
    rwa [hbindings] at he
  · rw [hslot, hmap]
  · intro n
    rw [List.count_nil, Nat.add_zero]
    refine tally_congr hr.ran hr.effects (isDue_congr ?_ n)
    intro j
    by_cases heq : j = id
    · rw [heq, hbindings]
    · rw [hr.other j heq]

end OrderlyTurn

/-! ### Mounting and unmounting -/

theorem retouch_setMounted (page : Page) (id : InstanceId) (root : NodeId) :
    Retouch id page (page.setMounted id root) :=
  (retouch_updateSlot page id _).trans (.of_akin id (akin_stats _ _))

theorem slot_setMounted (page : Page) (hid : (page.slot id).isVacant = false) (root : NodeId) :
    (page.setMounted id root).slot id =
      (page.slot id).mapFragment ({ · with root := some root, attached := true }) :=
  slot_updateSlot_of_lt (lt_size_of_not_vacant hid) _

/-- What does not tell a mounted fragment from one that is not is kept. -/
theorem read_unmount {β : Type} (read : Instance → β)
    (hread : ∀ i, read (i.mapFragment ({ · with attached := false })) = read i) (page : Page)
    (id j : InstanceId) : read ((page.unmount id).slot j) = read (page.slot j) := by
  unfold unmount
  split
  · split
    · rfl
    · dsimp only
      split
      · exact read_updateSlot read hread (page.editDom _) id j
      · exact read_updateSlot read hread page id j
  · rfl

theorem bindings_mapFragment (i : Instance) (f : FragmentState → FragmentState) :
    (i.mapFragment f).bindings = i.bindings := by
  unfold Instance.mapFragment
  split <;> rfl

theorem bindings_setMounted (page : Page) (id j : InstanceId) (root : NodeId) :
    ((page.setMounted id root).slot j).bindings = (page.slot j).bindings :=
  read_updateSlot (·.bindings) (fun _ => bindings_mapFragment _ _) page id j

theorem bindings_unmount (page : Page) (id j : InstanceId) :
    ((page.unmount id).slot j).bindings = (page.slot j).bindings :=
  read_unmount (·.bindings) (fun _ => bindings_mapFragment _ _) page id j

theorem unmount_of_fragment?_eq_none (h : page.fragment? id = none) : page.unmount id = page := by
  rw [unmount, h]

theorem isAttached_unmount {state : FragmentState} (h : page.fragment? id = some state) :
    (page.unmount id).isAttached id = false := by
  have hattached : page.isAttached id = state.attached := Instance.isAttached_of_fragment? h
  have hlt := lt_size_of_not_vacant (Instance.not_vacant_of_fragment? h)
  have hmounted : ∀ next : Page, next.slots = page.slots →
      (next.updateSlot id (·.mapFragment ({ · with attached := false }))).isAttached id = false := by
    intro next hnext
    have hslot : next.slot id = page.slot id := by rw [slot, slot, hnext]
    rw [isAttached, slot_updateSlot_of_lt (by rw [hnext]; exact hlt), hslot,
      Instance.mapFragment_of_fragment? h]
    rfl
  unfold unmount
  rw [h]
  dsimp only
  split
  · rename_i hnot
    rw [hattached]
    simpa using hnot
  · split
    · exact hmounted (page.editDom _) rfl
    · exact hmounted page rfl

theorem setMounted_turn (h : page.Orderly) {state : FragmentState}
    (hstate : page.fragment? id = some state) {root : NodeId}
    (hkeep : ∀ node, state.root = some node → node = root) (hinside : inside id) :
    OrderlyTurn inside [] page (page.setMounted id root) :=
  .of_mapFragment h (retouch_setMounted page id root) hstate
    (slot_setMounted page (Instance.not_vacant_of_fragment? hstate) root) (fun _ => rfl) rfl hkeep
    hinside

theorem unmount_turn (h : page.Orderly) (id : InstanceId) (inside : InstanceId → Prop)
    (hinside : inside id) :
    OrderlyTurn inside [] page (page.unmount id) := by
  unfold unmount
  cases hstate : page.fragment? id with
  | none => exact .refl h inside
  | some state =>
      simp only
      split
      · exact .refl h inside
      · rename_i hattached
        cases hroot : state.root with
        | none =>
            obtain ⟨_, _, _, hdetached⟩ := (h.fit id).unmounted state hstate hroot
            simp [hdetached] at hattached
        | some root =>
            have hsame : Akin page (page.editDom fun dom => (dom.detach root).1) :=
              akin_editDom page _
            have hlt : id.number < page.slots.size :=
              lt_size_of_not_vacant (Instance.not_vacant_of_fragment? hstate)
            refine .of_mapFragment h ?_ hstate (slot_updateSlot_of_lt hlt _) (fun _ => rfl) hroot
              (fun node hnode => by rw [hroot] at hnode; cases hnode; rfl) hinside
            exact ((Retouch.of_akin id hsame).trans (retouch_updateSlot _ id _)).trans
              (.of_akin id ((akin_stats _ _).trans (akin_report _ _)))

/-! ### Taking the changes of an instance -/

section Drain

variable {scheduled : Bool}

theorem drain_orderly (h : page.Orderly) (hid : (page.slot id).isVacant = false)
    (hr : Retouch id page page')
    (hslot : page'.slot id =
      { page.slot id with bindings := (page.slot id).bindings.clearChanges, scheduled })
    (hscheduled : scheduled = true → (page.slot id).scheduled = true) : page'.Orderly := by
  refine h.retouch hr ?_ ?_ ?_
  · rw [hslot]
    exact .record hid _ _
  · rw [hslot]
    exact (h.fit id).clearChanges hscheduled
  · intro e he
    rw [hslot] at he
    simpa using he

theorem drain_turn (hr : Retouch id page page')
    (hslot : page'.slot id =
      { page.slot id with bindings := (page.slot id).bindings.clearChanges, scheduled })
    (hscheduled : scheduled = (page.slot id).scheduled ∨
      ((page.fragment? id).isSome = true ∧ scheduled = false)) (hinside : inside id) :
    Turn inside page page' := by
  refine hr.turn hinside ?_ ?_
  · rw [hslot]
    exact .clearChanges _ _ hscheduled
  · rw [hslot]

/-- The effects that are taken are no longer due. -/
theorem drain_tally (h : page.Orderly) (hr : Retouch id page page')
    (hslot : page'.slot id =
      { page.slot id with bindings := (page.slot id).bindings.clearChanges, scheduled })
    {seen : List EffectId} (hseen : ∀ e ∈ (page.slot id).bindings.due, e.id ∉ seen) (n : EffectId) :
    page'.tally n +
        ((Bindings.unseen seen (page.slot id).bindings.due).map (·.id)).count n =
      page.tally n := by
  have hclean : ∀ e, e ∉ (page'.slot id).bindings.due := by
    intro e he
    rw [hslot] at he
    have hchanges := Bindings.hasChanges_of_mem_due he
    simp at hchanges
  have hmem : n ∈ (Bindings.unseen seen (page.slot id).bindings.due).map (·.id) ↔
      ∃ e ∈ (page.slot id).bindings.due, e.id = n := by
    rw [List.mem_map]
    constructor
    · rintro ⟨e, he, rfl⟩
      exact ⟨e, (Bindings.mem_unseen he).1, rfl⟩
    · rintro ⟨e, he, rfl⟩
      exact Bindings.exists_mem_unseen he (hseen e he)
  have hdue' : page'.IsDue n ↔ ∃ j, j ≠ id ∧ ∃ e ∈ (page.slot j).bindings.due, e.id = n := by
    constructor
    · rintro ⟨j, e, he, hn⟩
      by_cases heq : j = id
      · exact absurd (heq ▸ he) (hclean e)
      · exact ⟨j, heq, e, hr.other j heq ▸ he, hn⟩
    · rintro ⟨j, hne, e, he, hn⟩
      exact ⟨j, e, (hr.other j hne).symm ▸ he, hn⟩
  have hnodup := Bindings.nodup_unseen seen (page.slot id).bindings.due
  unfold tally
  rw [hr.ran, hr.effects]
  by_cases hhere : ∃ e ∈ (page.slot id).bindings.due, e.id = n
  · obtain ⟨e, he, hn⟩ := hhere
    have hdue : page.IsDue n := ⟨id, e, he, hn⟩
    have hnot : ¬ page'.IsDue n := by
      rw [hdue']
      rintro ⟨j, hne, e', he', hn'⟩
      have hholds := Bindings.holds_of_mem_due he
      have hholds' := Bindings.holds_of_mem_due he'
      have hsame := h.effect_id j id e' e hholds' hholds (hn'.trans hn.symm)
      subst hsame
      exact hne ((h.effect_owner j e' hholds').1.symm.trans (h.effect_owner id e' hholds).1)
    rw [if_pos hdue, if_neg hnot, List.count_eq_one_of_mem hnodup (hmem.mpr ⟨e, he, hn⟩)]
    omega
  · have hiff : page'.IsDue n ↔ page.IsDue n := by
      rw [hdue']
      constructor
      · rintro ⟨j, _, e, he, hn⟩
        exact ⟨j, e, he, hn⟩
      · rintro ⟨j, e, he, hn⟩
        refine ⟨j, ?_, e, he, hn⟩
        rintro rfl
        exact hhere ⟨e, he, hn⟩
    rw [List.count_eq_zero_of_not_mem fun hn => hhere (hmem.mp hn)]
    by_cases hdue : page.IsDue n
    · rw [if_pos hdue, if_pos (hiff.mpr hdue)]
      rfl
    · rw [if_neg hdue, if_neg (mt hiff.mp hdue)]
      rfl

end Drain

end Page

end LiveMarkup
