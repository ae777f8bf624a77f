import LiveMarkup.Proofs.Page.Chores

/-!
What running effects and mounting fragments may do to the row of slots. Instances stay where they
are and keep what is registered with them, nothing becomes dirty, and new instances are clean
fragments. `Turn` says so, together with the part of the page that may change.
-/

namespace LiveMarkup

namespace Instance

variable {i i' i'' : Instance} {limit limit' : Nat}

/-- An instance without the references of its component. -/
def core (i : Instance) : Instance :=
  i.mapComponent ({ · with references := .empty })

@[simp]
theorem parent_core (i : Instance) : i.core.parent = i.parent := by
  unfold core mapComponent
  split <;> rfl

@[simp]
theorem component_core (i : Instance) : i.core.component = i.component := by
  unfold core mapComponent
  split <;> rfl

@[simp]
theorem children_core (i : Instance) : i.core.children = i.children := by
  unfold core mapComponent
  split <;> rfl

@[simp]
theorem bindings_core (i : Instance) : i.core.bindings = i.bindings := by
  unfold core mapComponent
  split <;> rfl

@[simp]
theorem scheduled_core (i : Instance) : i.core.scheduled = i.scheduled := by
  unfold core mapComponent
  split <;> rfl

@[simp]
theorem isAttached_core (i : Instance) : i.core.isAttached = i.isAttached := by
  unfold core mapComponent
  split
  · rename_i state heq
    simp only [isAttached, heq]
  · rfl

@[simp]
theorem fragment?_core (i : Instance) : i.core.fragment? = i.fragment? := by
  unfold core mapComponent
  split
  · rename_i state heq
    simp only [fragment?, heq]
  · rfl

/-- What a turn keeps of one instance. Effects numbered up to `limit` are the ones that were there
before. -/
structure Kept (limit : Nat) (i i' : Instance) : Prop where
  same : i.isVacant = false → i'.parent = i.parent ∧ i'.component = i.component
  children : i.children <+: i'.children
  contains : ∀ field, i.bindings.contains field = true → i'.bindings.contains field = true
  registers : ∀ field e, i.bindings.Registers field e → i'.bindings.Registers field e
  registered : ∀ field e, i'.bindings.Registers field e →
    i.bindings.Registers field e ∨ limit < e.id.number
  due : ∀ e, e ∈ i'.bindings.due → e ∈ i.bindings.due
  changes : i'.bindings.hasChanges = true → i.bindings.hasChanges = true
  scheduled : i'.scheduled = true → i.scheduled = true
  /-- Only an instance without changes left stops waiting. -/
  settled : i'.bindings.hasChanges = true → i'.scheduled = i.scheduled
  component_state : ∀ state, i.component? = some state →
    (∃ references, i'.component? = some { state with references }) ∧ i'.scheduled = i.scheduled
  fragment_state : ∀ state, i.fragment? = some state → ∃ root attached,
    i'.fragment? = some { state with root, attached } ∧
      ∀ node, state.root = some node → root = some node
  born : i.isVacant = true → i'.isVacant = true ∨ ∃ state, i'.fragment? = some state

namespace Kept

theorem refl (limit : Nat) (i : Instance) : Kept limit i i where
  same _ := ⟨rfl, rfl⟩
  children := List.prefix_refl _
  contains _ h := h
  registers _ _ h := h
  registered _ _ h := Or.inl h
  due _ h := h
  changes h := h
  scheduled h := h
  settled _ := rfl
  component_state state h := ⟨⟨state.references, h⟩, rfl⟩
  fragment_state state h := ⟨state.root, state.attached, h, fun _ h => h⟩
  born h := Or.inl h

theorem not_vacant (h : Kept limit i i') (hi : i.isVacant = false) : i'.isVacant = false := by
  cases hkind : i.kind with
  | component state =>
      obtain ⟨⟨_, hstate⟩, _⟩ := h.component_state state (component?_of_kind hkind)
      exact not_vacant_of_component? hstate
  | fragment state =>
      obtain ⟨_, _, hstate, _⟩ := h.fragment_state state (fragment?_of_kind hkind)
      exact not_vacant_of_fragment? hstate
  | vacant =>
      rw [isVacant_iff.mpr hkind] at hi
      cases hi

theorem blueprint? (h : Kept limit i i') (hi : i.isVacant = false) :
    i'.blueprint? = i.blueprint? := by
  cases hkind : i.kind with
  | component state =>
      obtain ⟨⟨_, hstate⟩, _⟩ := h.component_state state (component?_of_kind hkind)
      rw [blueprint?_of_component? hstate, blueprint?_of_component? (component?_of_kind hkind)]
  | fragment state =>
      obtain ⟨_, _, hstate, _⟩ := h.fragment_state state (fragment?_of_kind hkind)
      rw [blueprint?_of_fragment? hstate, blueprint?_of_fragment? (fragment?_of_kind hkind)]
  | vacant =>
      rw [isVacant_iff.mpr hkind] at hi
      cases hi

theorem holds (h : Kept limit i i') {e : Effect} (he : i.bindings.Holds e) :
    i'.bindings.Holds e := by
  obtain ⟨field, he⟩ := he
  exact ⟨field, h.registers field e he⟩

theorem trans (h : Kept limit i i') (h' : Kept limit' i' i'') (hle : limit ≤ limit') :
    Kept limit i i'' where
  same hi :=
    ⟨(h'.same (h.not_vacant hi)).1.trans (h.same hi).1,
      (h'.same (h.not_vacant hi)).2.trans (h.same hi).2⟩
  children := h.children.trans h'.children
  contains field hfield := h'.contains field (h.contains field hfield)
  registers field e he := h'.registers field e (h.registers field e he)
  registered field e he := by
    rcases h'.registered field e he with he | hlt
    · exact h.registered field e he
    · exact Or.inr (Nat.lt_of_le_of_lt hle hlt)
  due e he := h.due e (h'.due e he)
  changes hchanges := h.changes (h'.changes hchanges)
  scheduled hscheduled := h.scheduled (h'.scheduled hscheduled)
  settled hchanges := (h'.settled hchanges).trans (h.settled (h'.changes hchanges))
  component_state state hstate := by
    obtain ⟨⟨references, hstate'⟩, hscheduled⟩ := h.component_state state hstate
    obtain ⟨⟨references', hstate''⟩, hscheduled'⟩ := h'.component_state _ hstate'
    exact ⟨⟨references', hstate''⟩, hscheduled'.trans hscheduled⟩
  fragment_state state hstate := by
    obtain ⟨root, attached, hstate', hroot⟩ := h.fragment_state state hstate
    obtain ⟨root', attached', hstate'', hroot'⟩ := h'.fragment_state _ hstate'
    exact ⟨root', attached', hstate'', fun node hnode => hroot' node (hroot node hnode)⟩
  born hi := by
    rcases h.born hi with hi' | ⟨state, hstate⟩
    · exact h'.born hi'
    · obtain ⟨_, _, hstate', _⟩ := h'.fragment_state state hstate
      exact Or.inr ⟨_, hstate'⟩

end Kept

end Instance

namespace Page

variable {page page' page'' : Page} {inside inside' : InstanceId → Prop} {a f id : InstanceId}

/-- What effects and mounts do; of the instances that are there, only the ones `inside` change,
references aside. -/
structure Turn (inside : InstanceId → Prop) (page page' : Page) : Prop where
  size_le : page.slots.size ≤ page'.slots.size
  queue : page'.queue = page.queue
  definitions : page'.definitions = page.definitions
  document : page'.document = page.document
  styles : page'.styles = page.styles
  effects_le : page.effects ≤ page'.effects
  kept : ∀ id, (page.slot id).Kept page.effects (page'.slot id)
  new_child : ∀ id f, f ∈ (page'.slot id).children →
    f ∈ (page.slot id).children ∨ (page.slot f).isVacant = true
  outside : ∀ id, (page.slot id).isVacant = false → ¬ inside id →
    (page'.slot id).core = (page.slot id).core

namespace Turn

theorem of_akin (inside : InstanceId → Prop) (h : Akin page page') : Turn inside page page' where
  size_le := by rw [h.slots]
  queue := h.queue
  definitions := h.definitions
  document := h.document
  styles := h.styles
  effects_le := by rw [h.effects]
  kept id := by
    rw [h.slot id]
    exact .refl _ _
  new_child id f hf := by
    rw [h.slot id] at hf
    exact Or.inl hf
  outside id _ _ := by rw [h.slot id]

theorem refl (inside : InstanceId → Prop) (page : Page) : Turn inside page page :=
  of_akin inside (.refl page)

theorem mono (h : Turn inside page page')
    (hsub : ∀ id, (page.slot id).isVacant = false → inside id → inside' id) :
    Turn inside' page page' :=
  { h with outside := fun id hid hnot => h.outside id hid fun hin => hnot (hsub id hid hin) }

theorem trans (h : Turn inside page page') (h' : Turn inside' page' page'')
    (hsub : ∀ id, (page.slot id).isVacant = false → inside' id → inside id) :
    Turn inside page page'' where
  size_le := le_trans h.size_le h'.size_le
  queue := h'.queue.trans h.queue
  definitions := h'.definitions.trans h.definitions
  document := h'.document.trans h.document
  styles := h'.styles.trans h.styles
  effects_le := le_trans h.effects_le h'.effects_le
  kept id := (h.kept id).trans (h'.kept id) h.effects_le
  new_child id f hf := by
    rcases h'.new_child id f hf with hf | hvacant
    · exact h.new_child id f hf
    · cases hf : (page.slot f).isVacant with
      | true => exact Or.inr rfl
      | false =>
          rw [(h.kept f).not_vacant hf] at hvacant
          cases hvacant
  outside id hid hnot := by
    rw [h'.outside id ((h.kept id).not_vacant hid) fun hin => hnot (hsub id hid hin)]
    exact h.outside id hid hnot

theorem up_eq (h : Turn inside page page') (hid : (page.slot id).isVacant = false) :
    page'.up id = page.up id :=
  ((h.kept id).same hid).1

/-- What lay in an instance still lies in it, and nothing that was elsewhere. -/
theorem under_iff (h : Turn inside page page') (hpage : page.Orderly)
    (hid : (page.slot id).isVacant = false) : page'.Under a id ↔ page.Under a id := by
  constructor
  · intro hunder
    induction hunder with
    | self => exact .self
    | step hup _ ih =>
        rw [h.up_eq hid] at hup
        exact .step hup (ih (hpage.not_vacant_of_up hup).2)
  · intro hunder
    induction hunder with
    | self => exact .self
    | step hup _ ih =>
        exact .step ((h.up_eq hid).trans hup) (ih (hpage.not_vacant_of_up hup).2)

theorem rank_eq (h : Turn inside page page') (hid : (page.slot id).isVacant = false) :
    (page'.slot id).rank = (page.slot id).rank := by
  rw [Instance.rank, Instance.rank, (h.kept id).blueprint? hid]

theorem isAttached_eq (h : Turn inside page page') (hid : (page.slot id).isVacant = false)
    (hnot : ¬ inside id) : page'.isAttached id = page.isAttached id := by
  rw [isAttached, ← Instance.isAttached_core, h.outside id hid hnot, Instance.isAttached_core]
  rfl

theorem bindings_eq (h : Turn inside page page') (hid : (page.slot id).isVacant = false)
    (hnot : ¬ inside id) : (page'.slot id).bindings = (page.slot id).bindings := by
  rw [← Instance.bindings_core, h.outside id hid hnot, Instance.bindings_core]

end Turn

/-! ### Counting runs -/

def IsDue (page : Page) (n : EffectId) : Prop :=
  ∃ id, ∃ e ∈ (page.slot id).bindings.due, e.id = n

open Classical in
/-- How often an effect ran, counting the run that it is due for and, as long as it is not made, its
first one. -/
noncomputable def tally (page : Page) (n : EffectId) : Nat :=
  page.ran.count n + (if page.IsDue n then 1 else 0) + if page.effects < n.number then 1 else 0

theorem tally_congr (hran : page'.ran = page.ran) (heffects : page'.effects = page.effects)
    {n : EffectId} (hdue : page'.IsDue n ↔ page.IsDue n) : page'.tally n = page.tally n := by
  rw [tally, tally, hran, heffects]
  by_cases h : page.IsDue n
  · rw [if_pos h, if_pos (hdue.mpr h)]
  · rw [if_neg h, if_neg (mt hdue.mp h)]

theorem isDue_congr (hslot : ∀ id, (page'.slot id).bindings = (page.slot id).bindings)
    (n : EffectId) : page'.IsDue n ↔ page.IsDue n := by
  simp only [IsDue, hslot]

/-- A turn that leaves the instances in order and runs the effects `runs`, besides the ones that
were due and are not any more and the first runs of the ones it makes. -/
structure OrderlyTurn (inside : InstanceId → Prop) (runs : List EffectId) (page page' : Page) :
    Prop where
  orderly : page'.Orderly
  turn : Turn inside page page'
  tally : ∀ n, page'.tally n = page.tally n + runs.count n

namespace OrderlyTurn

variable {runs runs' : List EffectId}

theorem trans (h : OrderlyTurn inside runs page page')
    (h' : OrderlyTurn inside' runs' page' page'')
    (hsub : ∀ id, (page.slot id).isVacant = false → inside' id → inside id) :
    OrderlyTurn inside (runs ++ runs') page page'' where
  orderly := h'.orderly
  turn := h.turn.trans h'.turn hsub
  tally n := by
    rw [h'.tally, h.tally, List.count_append, Nat.add_assoc]

theorem mono (h : OrderlyTurn inside runs page page')
    (hsub : ∀ id, (page.slot id).isVacant = false → inside id → inside' id) :
    OrderlyTurn inside' runs page page' :=
  { h with turn := h.turn.mono hsub }

/-- Turns inside one instance, one after the other. -/
theorem trans_under (hpage : page.Orderly) (h : OrderlyTurn (page.Under a) runs page page')
    (h' : OrderlyTurn (page'.Under a) runs' page' page'') :
    OrderlyTurn (page.Under a) (runs ++ runs') page page'' :=
  h.trans h' fun _ hid => (h.turn.under_iff hpage hid).mp

end OrderlyTurn

end Page

end LiveMarkup
