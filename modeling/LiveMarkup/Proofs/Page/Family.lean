import LiveMarkup.Page.Mount
import LiveMarkup.Proofs.Page.Slots

/-!
The families of a page: every fragment lies in the instance that made it, and goes back to one
component. `Orderly` is what all operations keep of the row of slots: links between instances agree,
the free slots are the vacant ones, a fragment renders a directive of the template around it, and
effects stay with the instance that registered them.
-/

namespace LiveMarkup

/-! ### Templates within templates -/

namespace Blueprint

/-- A template holds another one as a directive. -/
def Nests (outer inner : Blueprint) : Prop :=
  ∃ definition ∈ outer.definitions, ∃ directive,
    definition.directive = some directive ∧ directive.blueprint = inner

theorem depthOf_le_depthOfAll {definition : NodeDefinition Blueprint}
    {definitions : List (NodeDefinition Blueprint)} (h : definition ∈ definitions) :
    depthOf definition ≤ depthOfAll definitions := by
  induction definitions with
  | nil => simp at h
  | cons head rest ih =>
      rw [depthOfAll]
      rcases List.mem_cons.mp h with rfl | h
      · exact le_max_left _ _
      · exact le_trans (ih h) (le_max_right _ _)

theorem depthOf_eq_of_directive {definition : NodeDefinition Blueprint}
    {directive : Directive Blueprint} (h : definition.directive = some directive) :
    depthOf definition = directive.blueprint.depth := by
  obtain ⟨_, _, _, _, _, _, _⟩ := definition
  obtain ⟨_, _, _, _⟩ := directive
  simp only at h
  subst h
  rw [depthOf, depthOfDirective?, depthOfDirective]

theorem Nests.depth_lt {outer inner : Blueprint} (h : outer.Nests inner) :
    inner.depth < outer.depth := by
  obtain ⟨definition, hmem, directive, hdirective, rfl⟩ := h
  obtain ⟨_, _, definitions⟩ := outer
  rw [depth, ← depthOf_eq_of_directive hdirective]
  exact Nat.lt_succ_of_le (depthOf_le_depthOfAll hmem)

end Blueprint

namespace Instance

/-- The template that an instance renders. -/
def blueprint? (i : Instance) : Option Blueprint :=
  match i.kind with
  | .component state => some state.definition.blueprint
  | .fragment state => some state.blueprint
  | .vacant => none

/-- How deep directives are nested in the template of an instance. -/
def rank (i : Instance) : Nat :=
  match i.blueprint? with
  | some blueprint => blueprint.depth
  | none => 0

theorem rank_of_blueprint? {i : Instance} {blueprint : Blueprint}
    (h : i.blueprint? = some blueprint) : i.rank = blueprint.depth := by
  rw [rank, h]

theorem blueprint?_of_fragment? {i : Instance} {state : FragmentState}
    (h : i.fragment? = some state) : i.blueprint? = some state.blueprint := by
  rw [blueprint?, kind_of_fragment? h]

theorem blueprint?_of_component? {i : Instance} {state : ComponentState}
    (h : i.component? = some state) : i.blueprint? = some state.definition.blueprint := by
  rw [blueprint?, kind_of_component? h]

theorem not_vacant_of_blueprint? {i : Instance} {blueprint : Blueprint}
    (h : i.blueprint? = some blueprint) : i.isVacant = false := by
  unfold blueprint? at h
  unfold isVacant
  split at h <;> simp_all

/-- An instance that renders nothing has nothing but its fields. -/
structure Fit (i : Instance) : Prop where
  unmounted : ∀ state, i.fragment? = some state → state.root = none →
    i.bindings = .empty ∧ i.children = [] ∧ i.scheduled = false ∧ state.attached = false
  disconnected : ∀ state, i.component? = some state → state.connected = false →
    i.children = [] ∧ i.scheduled = false ∧ ∀ e, ¬ i.bindings.Holds e

end Instance

namespace Page

variable {page : Page} {a f g id p : InstanceId}

/-- The instance around an instance. -/
def up (page : Page) (id : InstanceId) : Option InstanceId :=
  (page.slot id).parent

/-- `id` is `a` or lies in it. -/
abbrev Under (page : Page) (a id : InstanceId) : Prop :=
  Above page.up a id

/-- What instances have registered. -/
structure Wired (page : Page) : Prop where
  effect_owner : ∀ id e, (page.slot id).bindings.Holds e →
    e.owner = id ∧ e.id.number ≤ page.effects
  effect_id : ∀ id id' e e', (page.slot id).bindings.Holds e →
    (page.slot id').bindings.Holds e' → e.id = e'.id → e = e'
  effect_fragment : ∀ id e f, (page.slot id).bindings.Holds e → e.fragment = some f →
    f ∈ (page.slot id).children
  /-- A fragment is mounted by one effect. -/
  effect_guard : ∀ id e e' f, (page.slot id).bindings.Holds e → (page.slot id).bindings.Holds e' →
    e.fragment = some f → e'.fragment = some f → e = e'
  ran_made : ∀ n ∈ page.ran, n.number ≤ page.effects

structure Orderly (page : Page) : Prop extends Wired page where
  free_nodup : page.free.Nodup
  mem_free : ∀ id, id ∈ page.free ↔ id.number < page.slots.size ∧ (page.slot id).isVacant = true
  vacant_eq : ∀ id, (page.slot id).isVacant = true → page.slot id = .alone id .vacant
  fit : ∀ id, (page.slot id).Fit
  component_eq : ∀ id state, page.component? id = some state →
    (page.slot id).parent = none ∧ (page.slot id).component = id
  fragment_parent : ∀ id state, page.fragment? id = some state →
    ∃ p, (page.slot id).parent = some p
  mem_children : ∀ p id, id ∈ (page.slot p).children ↔ (page.slot id).parent = some p
  children_nodup : ∀ p, (page.slot p).children.Nodup
  nests : ∀ p id, (page.slot id).parent = some p → ∃ outer inner,
    (page.slot p).blueprint? = some outer ∧ (page.slot id).blueprint? = some inner ∧
      outer.Nests inner
  component_up : ∀ p id, (page.slot id).parent = some p →
    (page.slot id).component = (page.slot p).component
  belongs : ∀ id, (page.slot id).isVacant = false →
    (page.component? (page.slot id).component).isSome = true

namespace Orderly

theorem free_lt (h : page.Orderly) : ∀ id ∈ page.free, id.number < page.slots.size :=
  fun id hmem => ((h.mem_free id).mp hmem).1

theorem rank_lt (h : page.Orderly) (hup : page.up id = some p) :
    (page.slot id).rank < (page.slot p).rank := by
  obtain ⟨outer, inner, houter, hinner, hnests⟩ := h.nests p id hup
  rw [Instance.rank_of_blueprint? houter, Instance.rank_of_blueprint? hinner]
  exact hnests.depth_lt

theorem acyclic (h : page.Orderly) : Acyclic page.up :=
  acyclic_of_rank (fun id => (page.slot id).rank) fun _ _ hup => h.rank_lt hup

theorem not_vacant_of_up (h : page.Orderly) (hup : page.up id = some p) :
    (page.slot id).isVacant = false ∧ (page.slot p).isVacant = false := by
  obtain ⟨outer, inner, houter, hinner, _⟩ := h.nests p id hup
  exact ⟨Instance.not_vacant_of_blueprint? hinner, Instance.not_vacant_of_blueprint? houter⟩

theorem bounded (h : page.Orderly) : Bounded page.up InstanceId.number page.slots.size where
  injective := InstanceId.number_injective
  lower hup := lt_size_of_not_vacant (h.not_vacant_of_up hup).1
  upper hup := lt_size_of_not_vacant (h.not_vacant_of_up hup).2

theorem not_vacant_of_mem_children (h : page.Orderly) (hmem : f ∈ (page.slot p).children) :
    (page.slot f).isVacant = false :=
  (h.not_vacant_of_up ((h.mem_children p f).mp hmem)).1

/-- What lies in an instance is a fragment. -/
theorem fragment_of_up (h : page.Orderly) (hup : page.up id = some p) :
    ∃ state, page.fragment? id = some state := by
  have hvacant := (h.not_vacant_of_up hup).1
  cases hkind : (page.slot id).kind with
  | component state =>
      have hcomponent : page.component? id = some state := Instance.component?_of_kind hkind
      rw [up, (h.component_eq id state hcomponent).1] at hup
      cases hup
  | fragment state => exact ⟨state, Instance.fragment?_of_kind hkind⟩
  | vacant =>
      rw [Instance.isVacant_iff.mpr hkind] at hvacant
      cases hvacant

theorem not_vacant_of_under (h : page.Orderly) (hunder : page.Under a id)
    (hid : (page.slot id).isVacant = false) : (page.slot a).isVacant = false := by
  induction hunder with
  | self => exact hid
  | step hup _ ih => exact ih (h.not_vacant_of_up hup).2

theorem component_of_under (h : page.Orderly) (hunder : page.Under a id) :
    (page.slot id).component = (page.slot a).component := by
  induction hunder with
  | self => rfl
  | step hup _ ih => exact (h.component_up _ _ hup).trans ih

/-- Two fragments in one instance have nothing in common. -/
theorem eq_of_under_children (h : page.Orderly) (hf : f ∈ (page.slot p).children)
    (hg : g ∈ (page.slot p).children) (hfi : page.Under f id) (hgi : page.Under g id) : f = g :=
  h.acyclic.eq_of_siblings ((h.mem_children p f).mp hf) ((h.mem_children p g).mp hg) hfi hgi

theorem not_under_child (h : page.Orderly) (hf : f ∈ (page.slot p).children) :
    ¬ page.Under f p :=
  h.acyclic f p ((h.mem_children p f).mp hf)

end Orderly

/-- What lies in an instance is the instance or lies in one of its children. -/
theorem under_cases (h : page.Orderly) (hunder : page.Under a id) :
    id = a ∨ ∃ f ∈ (page.slot a).children, page.Under f id := by
  induction hunder with
  | self => exact Or.inl rfl
  | @step m q hup _ ih =>
      rcases ih with rfl | ⟨f, hf, hfq⟩
      · exact Or.inr ⟨m, (h.mem_children _ m).mpr hup, .self⟩
      · exact Or.inr ⟨f, hf, .step hup hfq⟩

theorem Orderly.under_of_child (h : page.Orderly) (hf : f ∈ (page.slot p).children) :
    page.Under p f :=
  .of_up ((h.mem_children p f).mp hf)

/-! ### The walks over a family -/

theorem climb_eq_lineage (page : Page) (steps : Nat) (id : InstanceId) :
    page.climb steps id = lineage page.up steps id := by
  induction steps generalizing id with
  | zero => rfl
  | succ steps ih =>
      rw [climb, lineage, up]
      cases (page.slot id).parent with
      | none => rfl
      | some p => simp only [ih]

theorem mem_path_iff (h : page.Orderly) (hid : (page.slot id).isVacant = false) :
    a ∈ page.path id ↔ page.Under a id := by
  rw [path, climb_eq_lineage]
  exact h.bounded.mem_lineage_iff h.acyclic (lt_size_of_not_vacant hid)

theorem path_eq (h : page.Orderly) (hid : (page.slot id).isVacant = false) :
    page.path id = id :: match page.up id with
      | some p => page.path p
      | none => [] := by
  simp only [path, climb_eq_lineage]
  rw [h.bounded.lineage_eq h.acyclic (lt_size_of_not_vacant hid)]
  cases page.up id <;> rfl

theorem under_of_mem_descend (h : page.Orderly) {depth : Nat} (hmem : id ∈ page.descend depth a) :
    page.Under a id := by
  induction depth generalizing a with
  | zero =>
      rw [descend, List.mem_singleton] at hmem
      exact hmem ▸ .self
  | succ depth ih =>
      rw [descend, List.mem_cons, List.mem_flatMap] at hmem
      rcases hmem with rfl | ⟨f, hf, hmem⟩
      · exact .self
      · exact (h.under_of_child hf).trans (ih hmem)

theorem mem_descend_of_lineage (h : page.Orderly) {depth : Nat}
    (hmem : a ∈ lineage page.up (depth + 1) id) : id ∈ page.descend depth a := by
  -- The path from `a` down to `id` grows at its lower end, the walk at its upper one.
  have hgrow : ∀ {depth : Nat} {a f id : InstanceId}, f ∈ (page.slot a).children →
      id ∈ page.descend depth f → id ∈ page.descend (depth + 1) a := by
    intro depth a f id hf hid
    rw [descend]
    exact List.mem_cons_of_mem _ (List.mem_flatMap.mpr ⟨f, hf, hid⟩)
  have hlower : ∀ {depth : Nat} {a p id : InstanceId}, page.up id = some p →
      p ∈ page.descend depth a → id ∈ page.descend (depth + 1) a := by
    intro depth
    induction depth with
    | zero =>
        intro a p id hup hp
        rw [descend, List.mem_singleton] at hp
        subst hp
        refine hgrow ((h.mem_children p id).mpr hup) ?_
        rw [descend]
        exact List.mem_singleton_self id
    | succ depth ih =>
        intro a p id hup hp
        rw [descend, List.mem_cons, List.mem_flatMap] at hp
        rcases hp with rfl | ⟨f, hf, hp⟩
        · refine hgrow ((h.mem_children p id).mpr hup) ?_
          cases depth <;> simp [descend]
        · exact hgrow hf (ih hup hp)
  induction depth generalizing id with
  | zero =>
      have heq : a = id := by
        rw [lineage] at hmem
        cases hup : page.up id with
        | none => simpa [hup] using hmem
        | some p => simpa [hup, lineage] using hmem
      subst heq
      rw [descend]
      exact List.mem_singleton_self a
  | succ depth ih =>
      rw [lineage, List.mem_cons] at hmem
      rcases hmem with rfl | hmem
      · simp [descend]
      · cases hup : page.up id with
        | none => simp [hup] at hmem
        | some p => exact hlower hup (ih (by simpa [hup] using hmem))

theorem mem_family_iff (h : page.Orderly) (hid : (page.slot id).isVacant = false) :
    id ∈ page.family a ↔ page.Under a id := by
  constructor
  · exact under_of_mem_descend h
  · intro hunder
    have hlt := lt_size_of_not_vacant hid
    refine mem_descend_of_lineage h ?_
    rw [h.bounded.lineage_add h.acyclic hlt]
    exact (h.bounded.mem_lineage_iff h.acyclic hlt).mpr hunder

end Page

end LiveMarkup
