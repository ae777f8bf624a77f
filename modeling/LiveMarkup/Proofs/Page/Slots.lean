import LiveMarkup.Page.Reaction
import LiveMarkup.Proofs.Page.Script

/-!
What a slot holds after each way to write to one, and the changes of a page that leave its slots
alone.
-/

namespace LiveMarkup

theorem InstanceId.number_injective : Function.Injective InstanceId.number := by
  rintro ⟨m⟩ ⟨n⟩ rfl
  rfl

namespace Instance

variable {i : Instance}

theorem isVacant_eq_false_iff : i.isVacant = false ↔ i.kind ≠ .vacant := by
  unfold isVacant
  split <;> simp_all

theorem isVacant_iff : i.isVacant = true ↔ i.kind = .vacant := by
  unfold isVacant
  split <;> simp_all

theorem not_vacant_of_component? {state : ComponentState} (h : i.component? = some state) :
    i.isVacant = false := by
  unfold component? at h
  unfold isVacant
  split at h <;> simp_all

theorem not_vacant_of_fragment? {state : FragmentState} (h : i.fragment? = some state) :
    i.isVacant = false := by
  unfold fragment? at h
  unfold isVacant
  split at h <;> simp_all

theorem kind_of_component? {state : ComponentState} (h : i.component? = some state) :
    i.kind = .component state := by
  unfold component? at h
  split at h <;> simp_all

theorem kind_of_fragment? {state : FragmentState} (h : i.fragment? = some state) :
    i.kind = .fragment state := by
  unfold fragment? at h
  split at h <;> simp_all

theorem component?_of_kind {state : ComponentState} (h : i.kind = .component state) :
    i.component? = some state := by
  rw [component?, h]

theorem fragment?_of_kind {state : FragmentState} (h : i.kind = .fragment state) :
    i.fragment? = some state := by
  rw [fragment?, h]

theorem fragment?_of_component? {state : ComponentState} (h : i.component? = some state) :
    i.fragment? = none := by
  rw [fragment?, kind_of_component? h]

theorem component?_of_fragment? {state : FragmentState} (h : i.fragment? = some state) :
    i.component? = none := by
  rw [component?, kind_of_fragment? h]

theorem isAttached_of_component? {state : ComponentState} (h : i.component? = some state) :
    i.isAttached = state.connected := by
  rw [isAttached, kind_of_component? h]

theorem isAttached_of_fragment? {state : FragmentState} (h : i.fragment? = some state) :
    i.isAttached = state.attached := by
  rw [isAttached, kind_of_fragment? h]

theorem not_vacant_of_isAttached (h : i.isAttached = true) : i.isVacant = false := by
  rw [isVacant_eq_false_iff]
  intro hvacant
  rw [isAttached, hvacant] at h
  cases h

theorem mapComponent_of_component? {state : ComponentState} (h : i.component? = some state)
    (f : ComponentState → ComponentState) :
    i.mapComponent f = { i with kind := .component (f state) } := by
  rw [mapComponent, kind_of_component? h]

theorem mapFragment_of_fragment? {state : FragmentState} (h : i.fragment? = some state)
    (f : FragmentState → FragmentState) :
    i.mapFragment f = { i with kind := .fragment (f state) } := by
  rw [mapFragment, kind_of_fragment? h]

end Instance

namespace Page

variable {page : Page} {id j : InstanceId}

/-! ### Reading a slot -/

theorem slot_of_size_le (h : page.slots.size ≤ id.number) : page.slot id = .alone id .vacant := by
  rw [slot, Array.getElem?_eq_none h, Option.getD_none]

theorem isVacant_of_size_le (h : page.slots.size ≤ id.number) : (page.slot id).isVacant = true := by
  rw [slot_of_size_le h]
  rfl

theorem lt_size_of_not_vacant (h : (page.slot id).isVacant = false) :
    id.number < page.slots.size := by
  by_contra hle
  rw [isVacant_of_size_le (Nat.le_of_not_lt hle)] at h
  cases h

/-- The slots of two pages are the same, and so is everything that instances are counted by. -/
structure Akin (page page' : Page) : Prop where
  slots : page'.slots = page.slots
  free : page'.free = page.free
  queue : page'.queue = page.queue
  effects : page'.effects = page.effects
  ran : page'.ran = page.ran
  definitions : page'.definitions = page.definitions
  document : page'.document = page.document
  styles : page'.styles = page.styles

namespace Akin

variable {page' page'' : Page}

theorem refl (page : Page) : Akin page page :=
  ⟨rfl, rfl, rfl, rfl, rfl, rfl, rfl, rfl⟩

theorem trans (h : Akin page page') (h' : Akin page' page'') : Akin page page'' :=
  ⟨h'.slots.trans h.slots, h'.free.trans h.free, h'.queue.trans h.queue,
    h'.effects.trans h.effects, h'.ran.trans h.ran, h'.definitions.trans h.definitions,
    h'.document.trans h.document, h'.styles.trans h.styles⟩

theorem slot (h : Akin page page') (id : InstanceId) : page'.slot id = page.slot id := by
  rw [Page.slot, Page.slot, h.slots]

theorem foldl {β : Type} {f : Page → β → Page} (hf : ∀ page x, Akin page (f page x))
    (items : List β) (page : Page) : Akin page (items.foldl f page) := by
  induction items generalizing page with
  | nil => exact refl page
  | cons x rest ih => exact (hf page x).trans (ih (f page x))

end Akin

theorem akin_report (page : Page) (notice : Notice) : Akin page (page.report notice) :=
  ⟨rfl, rfl, rfl, rfl, rfl, rfl, rfl, rfl⟩

theorem akin_editDom (page : Page) (change : Dom → Dom) : Akin page (page.editDom change) :=
  ⟨rfl, rfl, rfl, rfl, rfl, rfl, rfl, rfl⟩

theorem akin_dom (page : Page) (dom : Dom) : Akin page { page with dom } :=
  ⟨rfl, rfl, rfl, rfl, rfl, rfl, rfl, rfl⟩

theorem akin_listeners (page : Page) (listeners : List Listener) :
    Akin page { page with listeners } :=
  ⟨rfl, rfl, rfl, rfl, rfl, rfl, rfl, rfl⟩

theorem akin_stats (page : Page) (stats : Stats) : Akin page { page with stats } :=
  ⟨rfl, rfl, rfl, rfl, rfl, rfl, rfl, rfl⟩

theorem akin_evaluate (page : Page) (owner : InstanceId) (i : Interpolation) :
    Akin page (page.evaluate owner i).2 := by
  unfold evaluate
  split
  · exact .refl page
  · exact akin_report page _

theorem akin_writeText (page : Page) (node : NodeId) (s : Option String) :
    Akin page (page.writeText node s) := by
  cases s with
  | none => exact .refl page
  | some s => exact akin_editDom page (·.setTextContent node s)

theorem akin_writeAttribute (page : Page) (node : NodeId) (name : String) (outcome : Outcome) :
    Akin page (page.writeAttribute node name outcome) := by
  cases outcome <;> exact ⟨rfl, rfl, rfl, rfl, rfl, rfl, rfl, rfl⟩

/-! ### Writing to a slot -/

@[simp]
theorem size_updateSlot (page : Page) (id : InstanceId) (f : Instance → Instance) :
    (page.updateSlot id f).slots.size = page.slots.size := by
  simp [updateSlot]

theorem slot_updateSlot_of_lt (h : id.number < page.slots.size) (f : Instance → Instance) :
    (page.updateSlot id f).slot id = f (page.slot id) := by
  simp [slot, updateSlot, Array.getElem?_modify, Array.getElem?_eq_getElem h]

theorem slot_updateSlot_of_ne (h : j ≠ id) (f : Instance → Instance) :
    (page.updateSlot id f).slot j = page.slot j := by
  have hne : id.number ≠ j.number := fun heq => h (InstanceId.number_injective heq).symm
  simp [slot, updateSlot, Array.getElem?_modify, hne]

theorem slot_updateSlot (h : id.number < page.slots.size) (f : Instance → Instance)
    (j : InstanceId) :
    (page.updateSlot id f).slot j = if j = id then f (page.slot j) else page.slot j := by
  by_cases heq : j = id
  · subst heq
    rw [if_pos rfl, slot_updateSlot_of_lt h]
  · rw [if_neg heq, slot_updateSlot_of_ne heq]

/-- The slot an update hits is the one it was meant for, or there is no such slot. -/
theorem slot_updateSlot_self (f : Instance → Instance)
    (hf : f (.alone id .vacant) = .alone id .vacant) :
    (page.updateSlot id f).slot id = f (page.slot id) := by
  by_cases h : id.number < page.slots.size
  · exact slot_updateSlot_of_lt h f
  · have hle := Nat.le_of_not_lt h
    rw [slot_of_size_le hle, slot_of_size_le (by simpa using hle), hf]

/-- What an update leaves alone is the same in every slot. -/
theorem read_updateSlot {β : Type} (read : Instance → β) {f : Instance → Instance}
    (hread : ∀ i, read (f i) = read i) (page : Page) (id j : InstanceId) :
    read ((page.updateSlot id f).slot j) = read (page.slot j) := by
  by_cases heq : j = id
  · subst heq
    by_cases hlt : j.number < page.slots.size
    · rw [slot_updateSlot_of_lt hlt, hread]
    · have hle := Nat.le_of_not_lt hlt
      rw [slot_of_size_le hle, slot_of_size_le (by simpa using hle)]
  · rw [slot_updateSlot_of_ne heq]

theorem slot_occupy (hfree : ∀ id ∈ page.free, id.number < page.slots.size) (i : Instance)
    (j : InstanceId) :
    (page.occupy i).slot j = if j = page.nextSlot then i else page.slot j := by
  unfold occupy nextSlot
  cases hlist : page.free with
  | nil =>
      simp only [slot, Array.getElem?_push]
      by_cases heq : j = ⟨page.slots.size⟩
      · subst heq
        simp
      · have hne : j.number ≠ page.slots.size := fun h => heq (InstanceId.number_injective h)
        simp [heq, hne]
  | cons id rest =>
      have hlt : id.number < page.slots.size := hfree id (by rw [hlist]; exact List.mem_cons_self)
      simp only [slot, Array.getElem?_setIfInBounds]
      by_cases heq : j = id
      · subst heq
        simp [hlt]
      · have hne : id.number ≠ j.number := fun h => heq (InstanceId.number_injective h).symm
        simp [heq, hne]

end Page

end LiveMarkup
