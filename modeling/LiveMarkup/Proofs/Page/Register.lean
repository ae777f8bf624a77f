import LiveMarkup.Page.Wire
import LiveMarkup.Proofs.Page.Upkeep

/-!
How an instance registers an effect, and how an instance gets a new fragment.
-/

namespace LiveMarkup.Page

variable {page page' : Page} {inside : InstanceId → Prop} {a f id owner : InstanceId}

/-! ### Paths -/

theorem climb_congr (hparent : ∀ j, (page'.slot j).parent = (page.slot j).parent) (steps : Nat)
    (id : InstanceId) : page'.climb steps id = page.climb steps id := by
  induction steps generalizing id with
  | zero => rfl
  | succ steps ih =>
      rw [climb, climb, hparent]
      cases (page.slot id).parent with
      | none => rfl
      | some p => simp only [ih]

theorem path_congr (hsize : page'.slots.size = page.slots.size)
    (hparent : ∀ j, (page'.slot j).parent = (page.slot j).parent) (id : InstanceId) :
    page'.path id = page.path id := by
  rw [path, path, hsize, climb_congr hparent]

theorem mem_path_self (hid : (page.slot id).isVacant = false) : id ∈ page.path id := by
  have hlt := lt_size_of_not_vacant hid
  obtain ⟨n, hn⟩ : ∃ n, page.slots.size = n + 1 := ⟨page.slots.size - 1, by omega⟩
  rw [path, hn, climb]
  exact List.mem_cons_self

theorem resolves_of_contains (hid : (page.slot id).isVacant = false) {field : String}
    (h : (page.slot id).bindings.contains field = true) : page.resolves id field = true :=
  List.any_eq_true.mpr ⟨id, mem_path_self hid, h⟩

/-! ### Registering an effect -/

/-- Registers an effect under one field. -/
def enroll (owner : InstanceId) (e : Effect) (page : Page) (field : String) : Page :=
  if page.resolves owner field then
    page.updateSlot owner (·.mapBindings fun b => (b.ensure field).add field e)
  else page

/-- The effect that is made next. -/
def newEffect (page : Page) (owner : InstanceId) (node : NodeId) (fragment : Option InstanceId)
    (task : Task) : Effect :=
  ⟨⟨page.effects + 1⟩, owner, node, fragment, task⟩

/-- An effect is made and registered. -/
def enrolled (page : Page) (fields : Names) (e : Effect) : Page :=
  fields.foldl (enroll e.owner e) { page with effects := page.effects + 1 }

theorem install_eq (mount : InstanceId → Page → Page) (page : Page) (owner : InstanceId)
    (fields : Names) (node : NodeId) (fragment : Option InstanceId) (task : Task) :
    page.install mount owner fields node fragment task =
      runEffect mount (page.enrolled fields (page.newEffect owner node fragment task))
        (page.newEffect owner node fragment task) := rfl

/-- The owner of an effect before and after it is registered under some fields. -/
structure Enrolled (owner : InstanceId) (e : Effect) (fields : Names) (page page' : Page) :
    Prop where
  retouch : Retouch owner page page'
  slot : page'.slot owner = { page.slot owner with bindings := (page'.slot owner).bindings }
  contains : ∀ field, (page.slot owner).bindings.contains field = true →
    (page'.slot owner).bindings.contains field = true
  registers : ∀ field x, (page'.slot owner).bindings.Registers field x ↔
    (page.slot owner).bindings.Registers field x ∨
      (x = e ∧ field ∈ fields ∧ page.resolves owner field = true)
  hasChanges : (page'.slot owner).bindings.hasChanges = (page.slot owner).bindings.hasChanges
  resolves : ∀ field, page'.resolves owner field = page.resolves owner field

theorem enroll_resolves (howner : (page.slot owner).isVacant = false) (e : Effect)
    (field other : String) :
    (page.enroll owner e field).resolves owner other = page.resolves owner other := by
  unfold enroll
  split
  · rename_i hresolves
    have hslot : ∀ j, (page.updateSlot owner
        (·.mapBindings fun b => (b.ensure field).add field e)).slot j =
          if j = owner then (page.slot j).mapBindings fun b => (b.ensure field).add field e
          else page.slot j :=
      slot_updateSlot (lt_size_of_not_vacant howner) _
    have hpath : (page.updateSlot owner
        (·.mapBindings fun b => (b.ensure field).add field e)).path owner = page.path owner := by
      refine path_congr (size_updateSlot page owner _) ?_ owner
      intro j
      rw [hslot j]
      split <;> rfl
    by_cases hsame : other = field
    · subst hsame
      rw [hresolves]
      refine List.any_eq_true.mpr ⟨owner, ?_, ?_⟩
      · rw [hpath]
        exact mem_path_self howner
      · rw [hslot owner, if_pos rfl]
        simp only [Instance.mapBindings, Bindings.contains_add]
        exact Bindings.contains_ensure.mpr (Or.inl rfl)
    · have hcontains : ∀ j, ((page.updateSlot owner
          (·.mapBindings fun b => (b.ensure field).add field e)).slot j).bindings.contains other =
            (page.slot j).bindings.contains other := by
        intro j
        rw [hslot j]
        split
        · rw [Bool.eq_iff_iff, Instance.mapBindings, Bindings.contains_add,
            Bindings.contains_ensure]
          simp [hsame]
        · rfl
      simp only [resolves, hpath, hcontains]
  · rfl

theorem enroll_enrolled (howner : (page.slot owner).isVacant = false) (e : Effect)
    (field : String) : Enrolled owner e [field] page (page.enroll owner e field) := by
  have hresolves := enroll_resolves howner e field
  unfold enroll at hresolves ⊢
  split
  · rename_i hfield
    have hslot := slot_updateSlot_of_lt (lt_size_of_not_vacant howner)
      (·.mapBindings fun b => (b.ensure field).add field e)
    refine ⟨retouch_updateSlot page owner _, ?_, ?_, ?_, ?_, ?_⟩
    · rw [hslot]
      rfl
    · intro other hother
      rw [hslot]
      simp only [Instance.mapBindings, Bindings.contains_add]
      exact Bindings.contains_ensure.mpr (Or.inr hother)
    · intro other x
      rw [hslot]
      simp only [Instance.mapBindings, Bindings.registers_ensure_add, List.mem_singleton]
      constructor
      · rintro (h | ⟨rfl, rfl⟩)
        · exact Or.inl h
        · exact Or.inr ⟨rfl, rfl, hfield⟩
      · rintro (h | ⟨rfl, rfl, _⟩)
        · exact Or.inl h
        · exact Or.inr ⟨rfl, rfl⟩
    · rw [hslot]
      simp [Instance.mapBindings]
    · simpa only [hfield, ↓reduceIte] using hresolves
  · rename_i hfield
    refine ⟨.of_akin owner (.refl page), rfl, fun _ h => h, ?_, rfl, fun _ => rfl⟩
    intro other x
    constructor
    · exact Or.inl
    · rintro (h | ⟨_, hmem, hother⟩)
      · exact h
      · rw [List.mem_singleton] at hmem
        exact absurd (hmem ▸ hother) hfield

theorem Enrolled.not_vacant {e : Effect} {fields : Names} (h : Enrolled owner e fields page page')
    (howner : (page.slot owner).isVacant = false) : (page'.slot owner).isVacant = false := by
  rw [h.slot]
  exact howner

theorem foldl_enroll_enrolled (page : Page) (owner : InstanceId)
    (howner : (page.slot owner).isVacant = false) (e : Effect) (fields : Names) :
    Enrolled owner e fields page (fields.foldl (enroll owner e) page) := by
  induction fields generalizing page with
  | nil =>
      refine ⟨.of_akin owner (.refl page), rfl, fun _ h => h, ?_, rfl, fun _ => rfl⟩
      intro field x
      simp
  | cons field rest ih =>
      have hfirst := enroll_enrolled howner e field
      have hrest := ih _ (hfirst.not_vacant howner)
      rw [List.foldl_cons]
      refine ⟨hfirst.retouch.trans hrest.retouch, ?_, ?_, ?_, ?_, ?_⟩
      · rw [hrest.slot, hfirst.slot]
      · exact fun other hother => hrest.contains other (hfirst.contains other hother)
      · intro other x
        rw [hrest.registers, hfirst.registers, hfirst.resolves, List.mem_singleton, List.mem_cons]
        tauto
      · rw [hrest.hasChanges, hfirst.hasChanges]
      · exact fun other => (hrest.resolves other).trans (hfirst.resolves other)

theorem rendered_orderly (h : page.Orderly) (hwired : page'.Wired)
    (hsize : page'.slots.size = page.slots.size) (hfree : page'.free = page.free)
    (hother : ∀ j, j ≠ owner → page'.slot j = page.slot j)
    (hslot : page'.slot owner = { page.slot owner with bindings := (page'.slot owner).bindings })
    (howner : (page.slot owner).isVacant = false) (hrendered : (page.slot owner).Rendered) :
    page'.Orderly := by
  refine h.alter hwired hsize hfree ?_ ?_
  · intro j
    by_cases heq : j = owner
    · rw [heq, hslot]
      exact .record howner _ _
    · rw [hother j heq]
      exact .refl _
  · intro j
    by_cases heq : j = owner
    · rw [heq, hslot]
      exact .of_rendered hrendered
    · rw [hother j heq]
      exact h.fit j

/-- An effect that is made and registered. -/
theorem enroll_orderly (h : page.Orderly) {e : Effect} {fields : Names}
    (henrolled : Enrolled owner e fields { page with effects := page.effects + 1 } page')
    (hid : e.id = ⟨page.effects + 1⟩) (heowner : e.owner = owner)
    (howner : (page.slot owner).isVacant = false) (hrendered : (page.slot owner).Rendered)
    (hfragment : ∀ f, e.fragment = some f → f ∈ (page.slot owner).children ∧
      ∀ x, (page.slot owner).bindings.Holds x → x.fragment ≠ some f) : page'.Orderly := by
  have hslot : page'.slot owner =
      { page.slot owner with bindings := (page'.slot owner).bindings } := henrolled.slot
  have hother : ∀ j, j ≠ owner → page'.slot j = page.slot j := henrolled.retouch.other
  have heffects : page'.effects = page.effects + 1 := henrolled.retouch.effects
  have hheld : ∀ j x, (page'.slot j).bindings.Holds x →
      (page.slot j).bindings.Holds x ∨ (j = owner ∧ x = e) := by
    rintro j x ⟨field, hx⟩
    by_cases heq : j = owner
    · subst heq
      rcases (henrolled.registers field x).mp hx with hx | ⟨rfl, _⟩
      · exact Or.inl ⟨field, hx⟩
      · exact Or.inr ⟨rfl, rfl⟩
    · rw [hother j heq] at hx
      exact Or.inl ⟨field, hx⟩
  have hchildren : ∀ j, (page'.slot j).children = (page.slot j).children := by
    intro j
    by_cases heq : j = owner
    · rw [heq, hslot]
    · rw [hother j heq]
  -- The number of `e` is new, so it is the number of no other effect.
  have hnew : ∀ j x, (page.slot j).bindings.Holds x → x.id ≠ e.id := by
    intro j x hx heq
    have hle := (h.effect_owner j x hx).2
    rw [heq, hid] at hle
    exact Nat.not_succ_le_self _ hle
  refine rendered_orderly h ?_ henrolled.retouch.size henrolled.retouch.free hother hslot howner
    hrendered
  refine ⟨?_, ?_, ?_, ?_, ?_⟩
  · intro j x hx
    rcases hheld j x hx with hx | ⟨rfl, rfl⟩
    · obtain ⟨hown, hle⟩ := h.effect_owner j x hx
      exact ⟨hown, by omega⟩
    · exact ⟨heowner, by rw [hid, heffects]⟩
  · intro j k x x' hx hx' heq
    rcases hheld j x hx with hx | ⟨_, hxe⟩
    · rcases hheld k x' hx' with hx' | ⟨_, hxe'⟩
      · exact h.effect_id j k x x' hx hx' heq
      · exact absurd (hxe' ▸ heq) (hnew j x hx)
    · rcases hheld k x' hx' with hx' | ⟨_, hxe'⟩
      · exact absurd (hxe ▸ heq).symm (hnew k x' hx')
      · rw [hxe, hxe']
  · intro j x f hx hf
    rw [hchildren]
    rcases hheld j x hx with hx | ⟨rfl, rfl⟩
    · exact h.effect_fragment j x f hx hf
    · exact (hfragment f hf).1
  · intro j x x' f hx hx' hf hf'
    rcases hheld j x hx with hx | ⟨rfl, rfl⟩
    · rcases hheld j x' hx' with hx' | ⟨rfl, rfl⟩
      · exact h.effect_guard j x x' f hx hx' hf hf'
      · exact absurd hf ((hfragment f hf').2 x hx)
    · rcases hheld _ x' hx' with hx' | ⟨_, rfl⟩
      · exact absurd hf' ((hfragment f hf).2 x' hx')
      · rfl
  · intro n hn
    have hran : page'.ran = page.ran := henrolled.retouch.ran
    have hle := h.ran_made n (hran ▸ hn)
    omega

theorem enroll_turn {e : Effect} {fields : Names}
    (henrolled : Enrolled owner e fields { page with effects := page.effects + 1 } page')
    (hid : e.id = ⟨page.effects + 1⟩) (hclean : (page.slot owner).bindings.hasChanges = false)
    (hinside : inside owner) : Turn inside page page' where
  size_le := le_of_eq henrolled.retouch.size.symm
  queue := henrolled.retouch.queue
  definitions := henrolled.retouch.definitions
  document := henrolled.retouch.document
  styles := henrolled.retouch.styles
  effects_le := by
    have heffects : page'.effects = page.effects + 1 := henrolled.retouch.effects
    omega
  kept j := by
    by_cases heq : j = owner
    · have hslot : page'.slot owner =
          { page.slot owner with bindings := (page'.slot owner).bindings } := henrolled.slot
      have hclean' : (page'.slot owner).bindings.hasChanges = false :=
        henrolled.hasChanges.trans hclean
      subst heq
      refine ⟨?_, ?_, henrolled.contains, ?_, ?_, ?_, ?_, ?_, ?_, ?_, ?_, ?_⟩
      · rw [hslot]
        exact fun _ => ⟨rfl, rfl⟩
      · rw [hslot]
      · exact fun field x hx => (henrolled.registers field x).mpr (Or.inl hx)
      · intro field x hx
        rcases (henrolled.registers field x).mp hx with hx | ⟨rfl, _⟩
        · exact Or.inl hx
        · rw [hid]
          exact Or.inr (Nat.lt_succ_self _)
      · intro x hx
        rw [Bindings.hasChanges_of_mem_due hx] at hclean'
        cases hclean'
      · rw [hclean']
        intro h
        cases h
      · rw [hslot]
        exact id
      · rw [hslot]
        exact fun _ => rfl
      · rw [hslot]
        exact fun state hstate => ⟨⟨state.references, hstate⟩, rfl⟩
      · rw [hslot]
        exact fun state hstate => ⟨state.root, state.attached, hstate, fun _ h => h⟩
      · rw [hslot]
        exact Or.inl
    · have hother : page'.slot j = page.slot j := henrolled.retouch.other j heq
      rw [hother]
      exact .refl _ _
  new_child j f hf := by
    have hchildren : (page'.slot j).children = (page.slot j).children := by
      by_cases heq : j = owner
      · rw [heq, henrolled.slot]
        rfl
      · rw [henrolled.retouch.other j heq]
        rfl
    exact Or.inl (hchildren ▸ hf)
  outside j _ hnot := by
    have hother : page'.slot j = page.slot j :=
      henrolled.retouch.other j fun heq => hnot (heq ▸ hinside)
    rw [hother]

/-- The effect was counted for its first run, which it has still to make. -/
theorem enroll_tally {e : Effect} {fields : Names}
    (henrolled : Enrolled owner e fields { page with effects := page.effects + 1 } page')
    (hid : e.id = ⟨page.effects + 1⟩) (hclean : (page.slot owner).bindings.hasChanges = false)
    (n : EffectId) : page'.tally n + [e.id].count n = page.tally n := by
  have hdue : page'.IsDue n ↔ page.IsDue n := by
    have hnone : ∀ b : Bindings, b.hasChanges = false → ∀ x, x ∉ b.due := by
      intro b hb x hx
      rw [Bindings.hasChanges_of_mem_due hx] at hb
      cases hb
    have hother : ∀ j, j ≠ owner → page'.slot j = page.slot j := henrolled.retouch.other
    constructor
    · rintro ⟨j, x, hx, hn⟩
      by_cases heq : j = owner
      · exact absurd (heq ▸ hx) (hnone _ (henrolled.hasChanges.trans hclean) x)
      · exact ⟨j, x, hother j heq ▸ hx, hn⟩
    · rintro ⟨j, x, hx, hn⟩
      by_cases heq : j = owner
      · exact absurd (heq ▸ hx) (hnone _ hclean x)
      · exact ⟨j, x, (hother j heq).symm ▸ hx, hn⟩
  have hran : page'.ran = page.ran := henrolled.retouch.ran
  have heffects : page'.effects = page.effects + 1 := henrolled.retouch.effects
  have hunmade : (if page.effects + 1 < n.number then 1 else 0) + [e.id].count n =
      if page.effects < n.number then 1 else 0 := by
    rw [hid, List.count_singleton]
    obtain ⟨number⟩ := n
    simp only [beq_iff_eq, EffectId.mk.injEq]
    split_ifs <;> omega
  unfold tally
  rw [hran, heffects, ← hunmade]
  by_cases hn : page.IsDue n
  · rw [if_pos hn, if_pos (hdue.mpr hn)]
    omega
  · rw [if_neg hn, if_neg (mt hdue.mp hn)]
    omega

end LiveMarkup.Page
