import LiveMarkup.Page.Lifecycle
import LiveMarkup.Proofs.Page.Register

/-!
New instances: a component of its own, or a fragment that an instance gets as its last child.
-/

namespace LiveMarkup.Page

variable {page page' : Page} {inside : InstanceId → Prop} {i : Instance} {id j p : InstanceId}

/-- `i` comes into the empty slot `id`. -/
structure Joins (id : InstanceId) (i : Instance) (page page' : Page) : Prop where
  queue : page'.queue = page.queue
  effects : page'.effects = page.effects
  ran : page'.ran = page.ran
  definitions : page'.definitions = page.definitions
  document : page'.document = page.document
  styles : page'.styles = page.styles
  vacant : (page.slot id).isVacant = true
  lt_size : ∀ j : InstanceId,
    j.number < page'.slots.size ↔ j.number < page.slots.size ∨ j = id
  free_nodup : page'.free.Nodup
  mem_free : ∀ j, j ∈ page'.free ↔ j ∈ page.free ∧ j ≠ id
  slot_self : page'.slot id = i
  slot_other : ∀ j, j ≠ id → page'.slot j =
    { page.slot j with children :=
        if i.parent = some j then (page.slot j).children ++ [id] else (page.slot j).children }

/-- An instance fit for the slot `id`: nothing lies in it, it has nothing registered, and its
template is the next one inside that of its parent, which is rendered. -/
structure Newcomer (page : Page) (id : InstanceId) (i : Instance) : Prop where
  not_vacant : i.isVacant = false
  children : i.children = []
  not_holds : ∀ e, ¬ i.bindings.Holds e
  fit : i.Fit
  component_eq : ∀ state, i.component? = some state → i.parent = none ∧ i.component = id
  fragment_parent : ∀ state, i.fragment? = some state → ∃ p, i.parent = some p
  nests : ∀ p, i.parent = some p → ∃ outer inner, (page.slot p).blueprint? = some outer ∧
    i.blueprint? = some inner ∧ outer.Nests inner
  component_up : ∀ p, i.parent = some p → i.component = (page.slot p).component
  rendered : ∀ p, i.parent = some p → (page.slot p).Rendered

theorem nextSlot_vacant (h : page.Orderly) : (page.slot page.nextSlot).isVacant = true := by
  unfold nextSlot
  cases hfree : page.free with
  | nil => exact isVacant_of_size_le (le_refl _)
  | cons id rest => exact ((h.mem_free id).mp (by rw [hfree]; exact List.mem_cons_self)).2

theorem lt_size_occupy (h : page.Orderly) (i : Instance) (j : InstanceId) :
    j.number < (page.occupy i).slots.size ↔ j.number < page.slots.size ∨ j = page.nextSlot := by
  unfold occupy nextSlot
  cases hfree : page.free with
  | nil =>
      simp only [Array.size_push]
      constructor
      · intro hj
        by_cases hlt : j.number < page.slots.size
        · exact Or.inl hlt
        · refine Or.inr (InstanceId.number_injective ?_)
          simp only
          omega
      · rintro (hj | rfl)
        · omega
        · exact Nat.lt_succ_self _
  | cons id rest =>
      simp only [Array.size_setIfInBounds]
      constructor
      · exact Or.inl
      · rintro (hj | rfl)
        · exact hj
        · exact h.free_lt j (by rw [hfree]; exact List.mem_cons_self)

theorem free_occupy (h : page.Orderly) (i : Instance) :
    (page.occupy i).free.Nodup ∧
      ∀ j, j ∈ (page.occupy i).free ↔ j ∈ page.free ∧ j ≠ page.nextSlot := by
  have hnodup := h.free_nodup
  unfold occupy nextSlot
  cases hfree : page.free with
  | nil => simp
  | cons id rest =>
      rw [hfree, List.nodup_cons] at hnodup
      refine ⟨hnodup.2, ?_⟩
      intro j
      rw [List.mem_cons]
      constructor
      · intro hj
        refine ⟨Or.inr hj, ?_⟩
        rintro rfl
        exact hnodup.1 hj
      · rintro ⟨rfl | hj, hne⟩
        · exact absurd rfl hne
        · exact hj

theorem occupy_joins (page : Page) (i : Instance) (h : page.Orderly) (hparent : i.parent = none) :
    Joins page.nextSlot i page (page.occupy i) := by
  obtain ⟨hnodup, hmem⟩ := free_occupy h i
  have hakin : ∀ {β : Type} (read : Page → β),
      (∀ slots free, read { page with slots, free } = read page) →
        read (page.occupy i) = read page := by
    intro β read hread
    unfold occupy
    split
    · exact hread _ _
    · exact hread _ _
  refine ⟨hakin (·.queue) fun _ _ => rfl, hakin (·.effects) fun _ _ => rfl,
    hakin (·.ran) fun _ _ => rfl, hakin (·.definitions) fun _ _ => rfl,
    hakin (·.document) fun _ _ => rfl, hakin (·.styles) fun _ _ => rfl, nextSlot_vacant h,
    lt_size_occupy h i, hnodup, hmem, ?_, ?_⟩
  · rw [slot_occupy h.free_lt, if_pos rfl]
  · intro j hne
    rw [slot_occupy h.free_lt, if_neg hne, hparent]
    rfl

theorem createFragment_joins (h : page.Orderly) (hp : (page.slot p).isVacant = false)
    (blueprint : Blueprint) (anchor : NodeId) (locals : Dict Expr.Value) :
    Joins page.nextSlot
      ⟨some p, (page.slot p).component, .empty, [], false,
        .fragment ⟨blueprint, anchor, none, false, locals⟩⟩
      page (page.createFragment p blueprint anchor locals).1 := by
  obtain ⟨hnodup, hmem⟩ := free_occupy h ⟨some p, (page.slot p).component, .empty, [], false,
    .fragment ⟨blueprint, anchor, none, false, locals⟩⟩
  have hvacant := nextSlot_vacant h
  have hne : p ≠ page.nextSlot := by
    rintro rfl
    rw [hp] at hvacant
    cases hvacant
  have hoccupy := slot_occupy h.free_lt ⟨some p, (page.slot p).component, .empty, [], false,
    .fragment ⟨blueprint, anchor, none, false, locals⟩⟩
  have hlt := lt_size_occupy h ⟨some p, (page.slot p).component, .empty, [], false,
    .fragment ⟨blueprint, anchor, none, false, locals⟩⟩
  have hakin : ∀ {β : Type} (read : Page → β),
      (∀ slots free, read { page with slots, free } = read page) →
        read (page.createFragment p blueprint anchor locals).1 = read page := by
    intro β read hread
    unfold createFragment occupy updateSlot
    cases page.free with
    | nil => exact hread _ _
    | cons id rest => exact hread _ _
  refine ⟨hakin (·.queue) fun _ _ => rfl, hakin (·.effects) fun _ _ => rfl,
    hakin (·.ran) fun _ _ => rfl, hakin (·.definitions) fun _ _ => rfl,
    hakin (·.document) fun _ _ => rfl, hakin (·.styles) fun _ _ => rfl, hvacant, ?_, hnodup,
    hmem, ?_, ?_⟩
  · intro j
    rw [← hlt j]
    simp [createFragment]
  · rw [createFragment, slot_updateSlot_of_ne (Ne.symm hne), hoccupy, if_pos rfl]
  · intro j hj
    by_cases heq : j = p
    · subst heq
      have hbound := (hlt j).mpr (Or.inl (lt_size_of_not_vacant hp))
      rw [createFragment, slot_updateSlot_of_lt hbound, hoccupy, if_neg hj, if_pos rfl]
    · rw [createFragment, slot_updateSlot_of_ne heq, hoccupy, if_neg hj, if_neg]
      exact fun hsome => heq (Option.some.inj hsome).symm

theorem Joins.of_akin (hj : Joins id i page page') {base : Page} (hakin : Akin base page) :
    Joins id i base page' where
  queue := hj.queue.trans hakin.queue
  effects := hj.effects.trans hakin.effects
  ran := hj.ran.trans hakin.ran
  definitions := hj.definitions.trans hakin.definitions
  document := hj.document.trans hakin.document
  styles := hj.styles.trans hakin.styles
  vacant := by rw [← hakin.slot]; exact hj.vacant
  lt_size j := by rw [hj.lt_size, hakin.slots]
  free_nodup := hj.free_nodup
  mem_free j := by rw [hj.mem_free, hakin.free]
  slot_self := hj.slot_self
  slot_other j hne := by rw [hj.slot_other j hne, hakin.slot]

namespace Joins

variable (hj : Joins id i page page')

include hj

theorem ne_of_not_vacant (hp : (page.slot p).isVacant = false) : p ≠ id := by
  rintro rfl
  rw [hj.vacant] at hp
  cases hp

theorem bindings_other (hne : p ≠ id) : (page'.slot p).bindings = (page.slot p).bindings := by
  rw [hj.slot_other p hne]

theorem up_other (hne : p ≠ id) : page'.up p = page.up p := by
  rw [up, hj.slot_other p hne]
  rfl

theorem blueprint?_other (hne : p ≠ id) :
    (page'.slot p).blueprint? = (page.slot p).blueprint? := by
  rw [hj.slot_other p hne]
  rfl

theorem held (hholds : ∀ e, ¬ i.bindings.Holds e) {e : Effect}
    (he : (page'.slot p).bindings.Holds e) : (page.slot p).bindings.Holds e := by
  by_cases heq : p = id
  · subst heq
    rw [hj.slot_self] at he
    exact absurd he (hholds e)
  · rwa [hj.bindings_other heq] at he

theorem size_le : page.slots.size ≤ page'.slots.size := by
  by_contra hlt
  have hlast := (hj.lt_size ⟨page'.slots.size⟩).mpr (Or.inl (by simp only; omega))
  exact Nat.lt_irrefl _ hlast

theorem children_subset : (page.slot p).children ⊆ (page'.slot p).children ∨ p = id := by
  by_cases heq : p = id
  · exact Or.inr heq
  · refine Or.inl ?_
    rw [hj.slot_other p heq]
    simp only
    split
    · exact List.subset_append_left _ _
    · exact fun _ hx => hx

end Joins

theorem Newcomer.parent_not_vacant (hi : page.Newcomer id i) (hp : i.parent = some p) :
    (page.slot p).isVacant = false := by
  obtain ⟨outer, _, houter, _⟩ := hi.nests p hp
  exact Instance.not_vacant_of_blueprint? houter

namespace Joins

section Newcomer

variable (hj : Joins id i page page') (h : page.Orderly) (hi : page.Newcomer id i)

include hj h

theorem not_child (p : InstanceId) : id ∉ (page.slot p).children := by
  intro hmem
  have hvacant := h.not_vacant_of_mem_children hmem
  rw [hj.vacant] at hvacant
  cases hvacant

theorem ne_of_up (hup : page.up j = some p) : j ≠ id ∧ p ≠ id :=
  ⟨hj.ne_of_not_vacant (h.not_vacant_of_up hup).1, hj.ne_of_not_vacant (h.not_vacant_of_up hup).2⟩

/-- What lies in an instance now is new there or did so before. -/
theorem cases_up (hup : page'.up j = some p) :
    (j = id ∧ i.parent = some p) ∨ (j ≠ id ∧ p ≠ id ∧ page.up j = some p) := by
  by_cases heq : j = id
  · rw [heq, up, hj.slot_self] at hup
    exact Or.inl ⟨heq, hup⟩
  · rw [hj.up_other heq] at hup
    exact Or.inr ⟨heq, (hj.ne_of_up h hup).2, hup⟩

include hi

theorem wired : page'.Wired where
  effect_owner j e he := by
    rw [hj.effects]
    exact h.effect_owner j e (hj.held hi.not_holds he)
  effect_id j k e e' he he' :=
    h.effect_id j k e e' (hj.held hi.not_holds he) (hj.held hi.not_holds he')
  effect_fragment j e f he hf := by
    have hold := hj.held hi.not_holds he
    rcases hj.children_subset (p := j) with hsub | rfl
    · exact hsub (h.effect_fragment j e f hold hf)
    · rw [h.vacant_eq j hj.vacant] at hold
      exact absurd hold Bindings.not_holds_empty
  effect_guard j e e' f he he' :=
    h.effect_guard j e e' f (hj.held hi.not_holds he) (hj.held hi.not_holds he')
  ran_made n hn := by
    rw [hj.effects]
    exact h.ran_made n (hj.ran ▸ hn)

theorem mem_free_iff (j : InstanceId) :
    j ∈ page'.free ↔ j.number < page'.slots.size ∧ (page'.slot j).isVacant = true := by
  rw [hj.mem_free, h.mem_free, hj.lt_size]
  by_cases heq : j = id
  · subst heq
    simp [hj.slot_self, hi.not_vacant]
  · have hsame : (page'.slot j).isVacant = (page.slot j).isVacant := by
      rw [hj.slot_other j heq]
      rfl
    simp [heq, hsame]

theorem vacant_eq (hvacant : (page'.slot j).isVacant = true) : page'.slot j = .alone j .vacant := by
  by_cases heq : j = id
  · rw [heq, hj.slot_self, hi.not_vacant] at hvacant
    cases hvacant
  · rw [hj.slot_other j heq] at hvacant ⊢
    have hold : page.slot j = .alone j .vacant := h.vacant_eq j hvacant
    rw [if_neg, hold]
    intro hsome
    have hused := hi.parent_not_vacant hsome
    rw [hold] at hused
    cases hused

theorem fit (j : InstanceId) : (page'.slot j).Fit := by
  by_cases heq : j = id
  · rw [heq, hj.slot_self]
    exact hi.fit
  · rw [hj.slot_other j heq]
    split
    · exact .of_rendered (hi.rendered j ‹_›)
    · exact h.fit j

theorem mem_children (p j : InstanceId) : j ∈ (page'.slot p).children ↔ page'.up j = some p := by
  by_cases hp : p = id
  · rw [hp, hj.slot_self, hi.children]
    constructor
    · intro hmem
      cases hmem
    · intro hup
      rcases hj.cases_up h hup with ⟨_, hsome⟩ | ⟨_, hne, _⟩
      · have hused := hi.parent_not_vacant hsome
        rw [hj.vacant] at hused
        cases hused
      · exact absurd rfl hne
  · rw [hj.slot_other p hp]
    by_cases heq : j = id
    · rw [heq, up, hj.slot_self]
      split
      · rename_i hsome
        simp [hsome]
      · rename_i hsome
        simp [hsome, hj.not_child h p]
    · rw [hj.up_other heq]
      have hold := h.mem_children p j
      split
      · simp [heq, hold, up]
      · exact hold

theorem children_nodup (p : InstanceId) : (page'.slot p).children.Nodup := by
  by_cases hp : p = id
  · rw [hp, hj.slot_self, hi.children]
    exact List.nodup_nil
  · rw [hj.slot_other p hp]
    split
    · refine List.nodup_append.mpr ⟨h.children_nodup p, List.nodup_singleton id, ?_⟩
      intro j hmem k hk
      rw [List.mem_singleton] at hk
      rintro rfl
      exact hj.not_child h p (hk ▸ hmem)
    · exact h.children_nodup p

theorem nests (hup : page'.up j = some p) : ∃ outer inner,
    (page'.slot p).blueprint? = some outer ∧ (page'.slot j).blueprint? = some inner ∧
      outer.Nests inner := by
  rcases hj.cases_up h hup with ⟨rfl, hsome⟩ | ⟨heq, hp, hold⟩
  · rw [hj.slot_self, hj.blueprint?_other (hj.ne_of_not_vacant (hi.parent_not_vacant hsome))]
    exact hi.nests p hsome
  · rw [hj.blueprint?_other heq, hj.blueprint?_other hp]
    exact h.nests p j hold

theorem component_up (hup : page'.up j = some p) :
    (page'.slot j).component = (page'.slot p).component := by
  rcases hj.cases_up h hup with ⟨rfl, hsome⟩ | ⟨heq, hp, hold⟩
  · rw [hj.slot_self, hj.slot_other p (hj.ne_of_not_vacant (hi.parent_not_vacant hsome))]
    exact hi.component_up p hsome
  · rw [hj.slot_other j heq, hj.slot_other p hp]
    exact h.component_up p j hold

omit hi in
/-- The component of an instance that was there before still is one. -/
theorem belongs_other (hvj : (page.slot j).isVacant = false) :
    (page'.component? (page.slot j).component).isSome = true := by
  have hold := h.belongs j hvj
  obtain ⟨state, hstate⟩ := Option.isSome_iff_exists.mp hold
  rw [component?, hj.slot_other _
    (hj.ne_of_not_vacant (Instance.not_vacant_of_component? hstate))]
  exact hold

theorem belongs_self : (page'.component? i.component).isSome = true := by
  cases hkind : i.kind with
  | component state =>
      have hstate := Instance.component?_of_kind hkind
      rw [(hi.component_eq state hstate).2, component?, hj.slot_self, hstate]
      rfl
  | fragment state =>
      obtain ⟨p, hsome⟩ := hi.fragment_parent state (Instance.fragment?_of_kind hkind)
      rw [hi.component_up p hsome]
      exact hj.belongs_other h (hi.parent_not_vacant hsome)
  | vacant =>
      have hused := hi.not_vacant
      rw [Instance.isVacant_iff.mpr hkind] at hused
      cases hused

theorem orderly : page'.Orderly where
  toWired := hj.wired h hi
  free_nodup := hj.free_nodup
  mem_free := hj.mem_free_iff h hi
  vacant_eq _ := hj.vacant_eq h hi
  fit := hj.fit h hi
  component_eq j state hstate := by
    by_cases heq : j = id
    · rw [component?, heq, hj.slot_self] at hstate
      rw [heq, hj.slot_self]
      exact hi.component_eq state hstate
    · rw [component?, hj.slot_other j heq] at hstate
      rw [hj.slot_other j heq]
      exact h.component_eq j state hstate
  fragment_parent j state hstate := by
    by_cases heq : j = id
    · rw [fragment?, heq, hj.slot_self] at hstate
      rw [heq, hj.slot_self]
      exact hi.fragment_parent state hstate
    · rw [fragment?, hj.slot_other j heq] at hstate
      rw [hj.slot_other j heq]
      exact h.fragment_parent j state hstate
  mem_children := hj.mem_children h hi
  children_nodup := hj.children_nodup h hi
  nests _ _ := hj.nests h hi
  component_up _ _ := hj.component_up h hi
  belongs j hvj := by
    by_cases heq : j = id
    · rw [heq, hj.slot_self]
      exact hj.belongs_self h hi
    · rw [hj.slot_other j heq] at hvj ⊢
      exact hj.belongs_other h hvj

end Newcomer

end Joins

/-- An empty slot may become a fragment that has nothing registered. -/
theorem kept_of_vacant {limit : Nat} (hholds : ∀ e, ¬ i.bindings.Holds e)
    (hclean : i.bindings.hasChanges = false) (hscheduled : i.scheduled = false)
    (hfragment : ∃ state, i.fragment? = some state) :
    Instance.Kept limit (.alone id .vacant) i where
  same := by rintro ⟨⟩
  children := List.nil_prefix
  contains := by rintro field ⟨⟩
  registers field e he := absurd ⟨field, he⟩ Bindings.not_holds_empty
  registered field e he := absurd ⟨field, he⟩ (hholds e)
  due e he := absurd (Bindings.holds_of_mem_due he) (hholds e)
  changes hchanges := by
    rw [hclean] at hchanges
    cases hchanges
  scheduled hwaits := by
    rw [hscheduled] at hwaits
    cases hwaits
  settled hchanges := by
    rw [hclean] at hchanges
    cases hchanges
  component_state := by rintro state ⟨⟩
  fragment_state := by rintro state ⟨⟩
  born _ := Or.inr hfragment

theorem Joins.turn (h : page.Orderly) (hj : Joins id i page page')
    (hholds : ∀ e, ¬ i.bindings.Holds e) (hclean : i.bindings.hasChanges = false)
    (hchildren : i.children = []) (hscheduled : i.scheduled = false)
    (hfragment : ∃ state, i.fragment? = some state) (hinside : ∀ p, i.parent = some p → inside p) :
    Turn inside page page' where
  size_le := hj.size_le
  queue := hj.queue
  definitions := hj.definitions
  document := hj.document
  styles := hj.styles
  effects_le := le_of_eq hj.effects.symm
  kept j := by
    by_cases heq : j = id
    · subst heq
      rw [h.vacant_eq j hj.vacant, hj.slot_self]
      exact kept_of_vacant hholds hclean hscheduled hfragment
    · rw [hj.slot_other j heq]
      refine { Instance.Kept.refl page.effects (page.slot j) with children := ?_ }
      simp only
      split
      · exact List.prefix_append _ _
      · exact List.prefix_refl _
  new_child j f hf := by
    by_cases heq : j = id
    · rw [heq, hj.slot_self, hchildren] at hf
      cases hf
    · rw [hj.slot_other j heq] at hf
      simp only at hf
      split at hf
      · rcases List.mem_append.mp hf with hf | hf
        · exact Or.inl hf
        · rw [List.mem_singleton.mp hf]
          exact Or.inr hj.vacant
      · exact Or.inl hf
  outside j hvj hnot := by
    rw [hj.slot_other j (hj.ne_of_not_vacant hvj), if_neg]
    exact fun hsome => hnot (hinside j hsome)

theorem createFragment_turn (h : page.Orderly) {outer blueprint : Blueprint}
    (houter : (page.slot p).blueprint? = some outer) (hnests : outer.Nests blueprint)
    (hrendered : (page.slot p).Rendered) (anchor : NodeId) (locals : Dict Expr.Value)
    (inside : InstanceId → Prop) (hinside : inside p) :
    OrderlyTurn inside [] page (page.createFragment p blueprint anchor locals).1 := by
  have hp := Instance.not_vacant_of_blueprint? houter
  have hj := createFragment_joins h hp blueprint anchor locals
  refine ⟨?_, ?_, ?_⟩
  · refine hj.orderly h ⟨rfl, rfl, fun e => Bindings.not_holds_empty, ⟨?_, ?_⟩, ?_, ?_, ?_, ?_, ?_⟩
    · rintro state ⟨⟩ _
      exact ⟨rfl, rfl, rfl, rfl⟩
    · rintro state ⟨⟩
    · rintro state ⟨⟩
    · exact fun _ _ => ⟨p, rfl⟩
    · rintro q ⟨⟩
      exact ⟨outer, blueprint, houter, rfl, hnests⟩
    · rintro q ⟨⟩
      rfl
    · rintro q ⟨⟩
      exact hrendered
  · refine hj.turn h (fun e => Bindings.not_holds_empty) rfl rfl rfl ⟨_, rfl⟩ ?_
    rintro q ⟨⟩
    exact hinside
  · intro n
    rw [List.count_nil, Nat.add_zero]
    refine tally_congr hj.ran hj.effects (isDue_congr ?_ n)
    intro j
    by_cases heq : j = page.nextSlot
    · rw [heq, hj.slot_self, h.vacant_eq _ hj.vacant]
      rfl
    · exact hj.bindings_other heq

end LiveMarkup.Page
