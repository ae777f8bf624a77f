import LiveMarkup.Proofs.Page.Listening

/-!
The row of slots. Slots are used again under the same numbers, so nothing may go on naming an
instance that is gone. Whatever is asked of a page, the free slots are the empty ones, fragments lie
in families under one component, and nothing that a page holds on to names an empty slot.
-/

namespace LiveMarkup.Page

variable {page : Page}

/-- What the slots of a page have to do with each other, and what may name a slot. -/
structure Consistent (page : Page) : Prop where
  free_nodup : page.free.Nodup
  mem_free : ∀ id, id ∈ page.free ↔ id.number < page.slots.size ∧ (page.slot id).isVacant = true
  /-- A fragment is once among the children of the instance around it, and nowhere else. -/
  listed_once : ∀ f, (page.fragment? f).isSome = true → ∃ p, (page.slot f).parent = some p ∧
    (page.slot p).isVacant = false ∧ ∀ q, (page.slot q).children.count f = if q = p then 1 else 0
  /-- What an instance lists is a fragment that names it. -/
  child_parent : ∀ p f, f ∈ (page.slot p).children →
    (page.fragment? f).isSome = true ∧ (page.slot f).parent = some p
  component_parent : ∀ c, (page.component? c).isSome = true → (page.slot c).parent = none
  /-- The way up from an instance ends at the component that it goes back to. -/
  belongs : ∀ id, (page.slot id).isVacant = false → ∃ c, (page.component? c).isSome = true ∧
    page.Under c id ∧ (page.path id).getLast? = some c ∧ (page.slot id).component = c
  disconnected_childless : ∀ c state, page.component? c = some state → state.connected = false →
    (page.slot c).children = []
  children_live : ∀ p, ∀ f ∈ (page.slot p).children, (page.slot f).isVacant = false
  queue_live : ∀ id ∈ page.queue, (page.slot id).isVacant = false
  listener_live : ∀ l ∈ page.listeners,
    (page.slot l.component).isVacant = false ∧ (page.slot l.scope).isVacant = false
  effect_live : ∀ id e, (page.slot id).bindings.Holds e →
    (page.slot e.owner).isVacant = false ∧
      ∀ f, e.fragment = some f → (page.slot f).isVacant = false

/-- Climbing from an instance ends at its component. -/
theorem Orderly.ends_at_component (h : page.Orderly) {id : InstanceId}
    (hid : (page.slot id).isVacant = false) :
    ∃ c, (page.component? c).isSome = true ∧ page.Under c id ∧
      (page.path id).getLast? = some c ∧ (page.slot id).component = c := by
  induction hlength : (page.path id).length generalizing id with
  | zero =>
      rw [path_eq h hid] at hlength
      cases hlength
  | succ length ih =>
      have hpath := path_eq h hid
      cases hkind : (page.slot id).kind with
      | component state =>
          have hstate : page.component? id = some state := Instance.component?_of_kind hkind
          obtain ⟨hparent, hself⟩ := h.component_eq id state hstate
          have hup : page.up id = none := hparent
          rw [hup] at hpath
          exact ⟨id, by rw [hstate]; rfl, .self, by rw [hpath]; rfl, hself⟩
      | fragment state =>
          obtain ⟨p, hp⟩ := h.fragment_parent id state (Instance.fragment?_of_kind hkind)
          have hup : page.up id = some p := hp
          have hvacant := (h.not_vacant_of_up hup).2
          rw [hup] at hpath
          rw [hpath, List.length_cons, Nat.succ_inj] at hlength
          obtain ⟨c, hcomponent, hunder, hlast, hbelongs⟩ := ih hvacant hlength
          refine ⟨c, hcomponent, .step hup hunder, ?_, (h.component_up p id hp).trans hbelongs⟩
          rw [hpath, List.getLast?_cons, hlast]
          rfl
      | vacant =>
          rw [Instance.isVacant_iff.mpr hkind] at hid
          cases hid

theorem Orderly.listed_once (h : page.Orderly) {f : InstanceId}
    (hf : (page.fragment? f).isSome = true) : ∃ p, (page.slot f).parent = some p ∧
      (page.slot p).isVacant = false ∧
        ∀ q, (page.slot q).children.count f = if q = p then 1 else 0 := by
  obtain ⟨state, hstate⟩ := Option.isSome_iff_exists.mp hf
  obtain ⟨p, hp⟩ := h.fragment_parent f state hstate
  refine ⟨p, hp, (h.not_vacant_of_up hp).2, fun q => ?_⟩
  split
  · rename_i heq
    rw [heq]
    exact List.count_eq_one_of_mem (h.children_nodup p) ((h.mem_children p f).mpr hp)
  · rename_i hne
    refine List.count_eq_zero.mpr fun hmem => hne ?_
    have hq := (h.mem_children q f).mp hmem
    rw [hp, Option.some.injEq] at hq
    exact hq.symm

theorem Awaits.consistent (h : page.Awaits [] fun _ => False) (hheard : page.Heard) :
    page.Consistent := by
  have horderly := h.orderly
  have hcomponent : ∀ {c}, (page.component? c).isSome = true → (page.slot c).isVacant = false := by
    intro c hc
    obtain ⟨state, hstate⟩ := Option.isSome_iff_exists.mp hc
    exact Instance.not_vacant_of_component? hstate
  have hchild : ∀ p, ∀ f ∈ (page.slot p).children, (page.slot f).isVacant = false :=
    fun p f hf => horderly.not_vacant_of_mem_children hf
  refine ⟨horderly.free_nodup, horderly.mem_free, fun f hf => horderly.listed_once hf, ?_, ?_,
    fun id hid => horderly.ends_at_component hid, ?_, hchild, ?_, ?_, ?_⟩
  · intro p f hf
    have hp := (horderly.mem_children p f).mp hf
    obtain ⟨state, hstate⟩ := horderly.fragment_of_up hp
    exact ⟨by rw [hstate]; rfl, hp⟩
  · intro c hc
    obtain ⟨state, hstate⟩ := Option.isSome_iff_exists.mp hc
    exact (horderly.component_eq c state hstate).1
  · intro c state hstate hconnected
    exact ((horderly.fit c).disconnected state hstate hconnected).1
  · intro id hid
    exact hcomponent ((h.mem_iff id).mp (List.mem_append_left _ hid)).1
  · intro l hl
    obtain ⟨hscope, hsame, _⟩ := hheard l hl
    have hc := horderly.belongs l.scope hscope
    rw [hsame] at hc
    exact ⟨hcomponent hc, hscope⟩
  · intro id e he
    have howner := (horderly.effect_owner id e he).1
    refine ⟨?_, fun f hf => hchild id f (horderly.effect_fragment id e f he hf)⟩
    rw [howner]
    refine Bool.eq_false_iff.mpr fun hvacant => ?_
    rw [horderly.vacant_eq id hvacant] at he
    exact Bindings.not_holds_empty he

/-- The slots are consistent whatever was asked of a page. -/
theorem consistent_after (styles : StyleAttacher) (requests : List Request) :
    (after styles requests).Consistent :=
  (awaits_after styles requests).consistent (heard_after styles requests)

end LiveMarkup.Page
