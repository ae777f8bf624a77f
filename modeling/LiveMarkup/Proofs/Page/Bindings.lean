import LiveMarkup.Page.Bindings
import LiveMarkup.Proofs.Template.Sketched

/-!
What the operations of a table of bindings do, in terms of the fields it has, the effects that are
registered under them and the effects that are due.
-/

namespace LiveMarkup

namespace Dict

variable {α β : Type}

theorem contains_iff (d : Dict α) (name : String) :
    d.contains name = true ↔ ∃ value, (name, value) ∈ d.entries := by
  obtain ⟨entries⟩ := d
  unfold contains get?
  induction entries with
  | nil => simp
  | cons entry rest ih =>
      obtain ⟨key, value⟩ := entry
      rw [lookup_cons_eq_if]
      by_cases h : name = key
      · simp only [h, ↓reduceIte, Option.isSome_some, true_iff]
        exact ⟨value, List.mem_cons_self⟩
      · simp only [h, ↓reduceIte, ih, List.mem_cons, Prod.mk.injEq, false_and, false_or]

theorem mem_of_get? {d : Dict α} {name : String} {value : α} (h : d.get? name = some value) : (name, value) ∈ d.entries := by
  obtain ⟨entries⟩ := d
  change entries.lookup name = some value at h
  induction entries with
  | nil => cases h
  | cons entry rest ih =>
      obtain ⟨key, old⟩ := entry
      rw [lookup_cons_eq_if] at h
      split at h
      · rename_i heq
        cases h
        rw [heq]
        exact List.mem_cons_self
      · exact List.mem_cons_of_mem _ (ih h)

theorem get?_mapValues (f : α → β) (d : Dict α) (name : String) :
    (d.mapValues f).get? name = (d.get? name).map f := by
  obtain ⟨entries⟩ := d
  change (entries.map fun entry => (entry.1, f entry.2)).lookup name = (entries.lookup name).map f
  induction entries with
  | nil => rfl
  | cons entry rest ih =>
      rw [List.map_cons, lookup_cons_eq_if, lookup_cons_eq_if, ih]
      split <;> rfl

theorem get?_modify (f : α → α) (d : Dict α) (name other : String) :
    (d.modify other f).get? name = if name = other then (d.get? name).map f else d.get? name := by
  obtain ⟨entries⟩ := d
  change (entries.map fun entry => (entry.1, if entry.1 = other then f entry.2 else entry.2)).lookup
    name = if name = other then (entries.lookup name).map f else entries.lookup name
  induction entries with
  | nil => simp
  | cons entry rest ih =>
      rw [List.map_cons, lookup_cons_eq_if, lookup_cons_eq_if, ih]
      by_cases hname : name = entry.1
      · rw [if_pos hname, if_pos hname, ← hname]
        split <;> rfl
      · rw [if_neg hname, if_neg hname]

/-- A new name brings one entry and leaves the others. -/
theorem mem_insertEntry_of_new {name : String} {value : α} {entries : List (String × α)}
    (hnew : ∀ old, (name, old) ∉ entries) {entry : String × α} :
    entry ∈ insertEntry name value entries ↔ entry = (name, value) ∨ entry ∈ entries := by
  induction entries with
  | nil => simp [insertEntry]
  | cons head rest ih =>
      obtain ⟨key, old⟩ := head
      have hkey : name ≠ key := by
        rintro rfl
        exact hnew old List.mem_cons_self
      have hrest : ∀ old, (name, old) ∉ rest :=
        fun old hmem => hnew old (List.mem_cons_of_mem _ hmem)
      rw [insertEntry, if_neg hkey]
      split
      · rw [List.mem_cons]
      · rw [List.mem_cons, ih hrest, List.mem_cons]
        tauto

end Dict

namespace Bindings

variable {b : Bindings} {field other : String} {e added : Effect}

/-- An effect is registered under a field. -/
def Registers (b : Bindings) (field : String) (e : Effect) : Prop :=
  ∃ binding, (field, binding) ∈ b.fields.entries ∧ e ∈ binding.effects

/-- An effect is registered under some field. -/
def Holds (b : Bindings) (e : Effect) : Prop :=
  ∃ field, b.Registers field e

theorem contains_iff : b.contains field = true ↔ ∃ binding, (field, binding) ∈ b.fields.entries :=
  Dict.contains_iff b.fields field

theorem mem_due :
    e ∈ b.due ↔ ∃ field binding,
      (field, binding) ∈ b.fields.entries ∧ binding.changed = true ∧ e ∈ binding.effects := by
  unfold due Dict.values
  simp only [List.mem_flatMap, List.mem_filter, List.mem_map]
  constructor
  · rintro ⟨binding, ⟨⟨entry, hmem, rfl⟩, hchanged⟩, he⟩
    exact ⟨entry.1, entry.2, hmem, hchanged, he⟩
  · rintro ⟨field, binding, hmem, hchanged, he⟩
    exact ⟨binding, ⟨⟨(field, binding), hmem, rfl⟩, hchanged⟩, he⟩

theorem hasChanges_iff :
    b.hasChanges = true ↔
      ∃ field binding, (field, binding) ∈ b.fields.entries ∧ binding.changed = true := by
  unfold hasChanges Dict.values
  simp only [List.any_eq_true, List.mem_map]
  constructor
  · rintro ⟨binding, ⟨entry, hmem, rfl⟩, hchanged⟩
    exact ⟨entry.1, entry.2, hmem, hchanged⟩
  · rintro ⟨field, binding, hmem, hchanged⟩
    exact ⟨binding, ⟨(field, binding), hmem, rfl⟩, hchanged⟩

theorem holds_of_mem_due (h : e ∈ b.due) : b.Holds e := by
  obtain ⟨field, binding, hmem, _, he⟩ := mem_due.mp h
  exact ⟨field, binding, hmem, he⟩

theorem hasChanges_of_mem_due (h : e ∈ b.due) : b.hasChanges = true := by
  obtain ⟨field, binding, hmem, hchanged, _⟩ := mem_due.mp h
  exact hasChanges_iff.mpr ⟨field, binding, hmem, hchanged⟩

theorem Registers.contains (h : b.Registers field e) : b.contains field = true := by
  obtain ⟨binding, hmem, _⟩ := h
  exact contains_iff.mpr ⟨binding, hmem⟩

/-! ### The empty table -/

theorem not_holds_empty : ¬ empty.Holds e := by
  rintro ⟨field, binding, hmem, _⟩
  simp [empty, Dict.empty] at hmem

/-! ### Entries that are changed in place -/

theorem mem_entries_map (f : String → Binding → Binding) {entries : List (String × Binding)}
    {binding : Binding} :
    (field, binding) ∈ entries.map (fun entry => (entry.1, f entry.1 entry.2)) ↔
      ∃ old, (field, old) ∈ entries ∧ f field old = binding := by
  simp only [List.mem_map, Prod.mk.injEq, Prod.exists]
  constructor
  · rintro ⟨name, old, hmem, rfl, rfl⟩
    exact ⟨old, hmem, rfl⟩
  · rintro ⟨old, hmem, rfl⟩
    exact ⟨field, old, hmem, rfl, rfl⟩

theorem mem_modify (f : Binding → Binding) {binding : Binding} :
    (field, binding) ∈ (b.fields.modify other f).entries ↔
      ∃ old, (field, old) ∈ b.fields.entries ∧ (if field = other then f old else old) = binding :=
  mem_entries_map fun name old => if name = other then f old else old

theorem mem_mapValues (f : Binding → Binding) {binding : Binding} :
    (field, binding) ∈ (b.fields.mapValues f).entries ↔
      ∃ old, (field, old) ∈ b.fields.entries ∧ f old = binding :=
  mem_entries_map fun _ old => f old

/-! ### Marking -/

@[simp]
theorem contains_mark : (b.mark other).contains field = b.contains field := by
  rw [Bool.eq_iff_iff, contains_iff, contains_iff]
  simp only [mark, mem_modify]
  constructor
  · rintro ⟨_, old, hmem, _⟩
    exact ⟨old, hmem⟩
  · rintro ⟨old, hmem⟩
    exact ⟨_, old, hmem, rfl⟩

@[simp]
theorem registers_mark : (b.mark other).Registers field e ↔ b.Registers field e := by
  simp only [Registers, mark, mem_modify]
  constructor
  · rintro ⟨_, ⟨old, hmem, rfl⟩, he⟩
    exact ⟨old, hmem, by split at he <;> exact he⟩
  · rintro ⟨old, hmem, he⟩
    exact ⟨_, ⟨old, hmem, rfl⟩, by split <;> exact he⟩

@[simp]
theorem holds_mark : (b.mark other).Holds e ↔ b.Holds e := by
  simp only [Holds, registers_mark]

theorem mem_due_mark : e ∈ (b.mark other).due ↔ e ∈ b.due ∨ b.Registers other e := by
  simp only [mem_due, mark, mem_modify, Registers]
  constructor
  · rintro ⟨field, _, ⟨old, hmem, rfl⟩, hchanged, he⟩
    by_cases heq : field = other
    · subst heq
      simp only [↓reduceIte] at he
      exact Or.inr ⟨old, hmem, he⟩
    · simp only [heq, ↓reduceIte] at hchanged he
      exact Or.inl ⟨field, old, hmem, hchanged, he⟩
  · rintro (⟨field, old, hmem, hchanged, he⟩ | ⟨old, hmem, he⟩)
    · refine ⟨field, _, ⟨old, hmem, rfl⟩, ?_, ?_⟩
      · split <;> simp [hchanged]
      · split <;> exact he
    · exact ⟨other, _, ⟨old, hmem, rfl⟩, by simp, by simpa using he⟩

theorem hasChanges_mark_of_contains (h : b.contains other = true) :
    (b.mark other).hasChanges = true := by
  obtain ⟨old, hmem⟩ := contains_iff.mp h
  refine hasChanges_iff.mpr ⟨other, { old with changed := true }, ?_, rfl⟩
  rw [mark, mem_modify]
  exact ⟨old, hmem, by simp⟩

/-! ### Clearing -/

@[simp]
theorem contains_clearChanges : b.clearChanges.contains field = b.contains field := by
  rw [Bool.eq_iff_iff, contains_iff, contains_iff]
  simp only [clearChanges, mem_mapValues]
  constructor
  · rintro ⟨_, old, hmem, _⟩
    exact ⟨old, hmem⟩
  · rintro ⟨old, hmem⟩
    exact ⟨_, old, hmem, rfl⟩

@[simp]
theorem registers_clearChanges : b.clearChanges.Registers field e ↔ b.Registers field e := by
  simp only [Registers, clearChanges, mem_mapValues]
  constructor
  · rintro ⟨_, ⟨old, hmem, rfl⟩, he⟩
    exact ⟨old, hmem, he⟩
  · rintro ⟨old, hmem, he⟩
    exact ⟨_, ⟨old, hmem, rfl⟩, he⟩

@[simp]
theorem holds_clearChanges : b.clearChanges.Holds e ↔ b.Holds e := by
  simp only [Holds, registers_clearChanges]

@[simp]
theorem hasChanges_clearChanges : b.clearChanges.hasChanges = false := by
  rw [Bool.eq_false_iff, ne_eq, hasChanges_iff]
  rintro ⟨field, binding, hmem, hchanged⟩
  rw [clearChanges, mem_mapValues] at hmem
  obtain ⟨old, _, rfl⟩ := hmem
  cases hchanged

@[simp]
theorem contains_clearEffects : b.clearEffects.contains field = b.contains field := by
  rw [Bool.eq_iff_iff, contains_iff, contains_iff]
  simp only [clearEffects, mem_mapValues]
  constructor
  · rintro ⟨_, old, hmem, _⟩
    exact ⟨old, hmem⟩
  · rintro ⟨old, hmem⟩
    exact ⟨_, old, hmem, rfl⟩

theorem not_holds_clearEffects : ¬ b.clearEffects.Holds e := by
  rintro ⟨field, binding, hmem, he⟩
  rw [clearEffects, mem_mapValues] at hmem
  obtain ⟨old, _, rfl⟩ := hmem
  simp at he

@[simp]
theorem hasChanges_clearEffects : b.clearEffects.hasChanges = false := by
  rw [Bool.eq_false_iff, ne_eq, hasChanges_iff]
  rintro ⟨field, binding, hmem, hchanged⟩
  rw [clearEffects, mem_mapValues] at hmem
  obtain ⟨old, _, rfl⟩ := hmem
  cases hchanged

/-! ### Binding a field and adding an effect -/

theorem mem_ensure {binding : Binding} :
    (field, binding) ∈ (b.ensure other).fields.entries ↔
      (field, binding) ∈ b.fields.entries ∨
        (b.contains other = false ∧ field = other ∧ binding = ⟨false, []⟩) := by
  unfold ensure
  by_cases h : b.contains other = true
  · simp [h]
  · rw [Bool.not_eq_true] at h
    rw [h]
    simp only [Bool.false_eq_true, ↓reduceIte, true_and]
    have hnew : ∀ old, (other, old) ∉ b.fields.entries := by
      intro old hmem
      rw [contains_iff.mpr ⟨old, hmem⟩] at h
      cases h
    rw [Dict.insert, Dict.mem_insertEntry_of_new hnew, Prod.mk.injEq]
    tauto

theorem contains_ensure :
    (b.ensure other).contains field = true ↔ field = other ∨ b.contains field = true := by
  simp only [contains_iff, mem_ensure]
  constructor
  · rintro ⟨binding, hmem | ⟨_, rfl, _⟩⟩
    · exact Or.inr ⟨binding, hmem⟩
    · exact Or.inl rfl
  · rintro (rfl | ⟨binding, hmem⟩)
    · by_cases h : b.contains field = true
      · obtain ⟨binding, hmem⟩ := contains_iff.mp h
        exact ⟨binding, Or.inl hmem⟩
      · exact ⟨_, Or.inr ⟨Bool.not_eq_true _ ▸ h, rfl, rfl⟩⟩
    · exact ⟨binding, Or.inl hmem⟩

@[simp]
theorem registers_ensure : (b.ensure other).Registers field e ↔ b.Registers field e := by
  simp only [Registers, mem_ensure]
  constructor
  · rintro ⟨binding, hmem | ⟨_, _, rfl⟩, he⟩
    · exact ⟨binding, hmem, he⟩
    · simp at he
  · rintro ⟨binding, hmem, he⟩
    exact ⟨binding, Or.inl hmem, he⟩

@[simp]
theorem hasChanges_ensure : (b.ensure other).hasChanges = b.hasChanges := by
  rw [Bool.eq_iff_iff, hasChanges_iff, hasChanges_iff]
  simp only [mem_ensure]
  constructor
  · rintro ⟨field, binding, hmem | ⟨_, _, rfl⟩, hchanged⟩
    · exact ⟨field, binding, hmem, hchanged⟩
    · cases hchanged
  · rintro ⟨field, binding, hmem, hchanged⟩
    exact ⟨field, binding, Or.inl hmem, hchanged⟩

@[simp]
theorem contains_add : (b.add other added).contains field = b.contains field := by
  rw [Bool.eq_iff_iff, contains_iff, contains_iff]
  simp only [add, mem_modify]
  constructor
  · rintro ⟨_, old, hmem, _⟩
    exact ⟨old, hmem⟩
  · rintro ⟨old, hmem⟩
    exact ⟨_, old, hmem, rfl⟩

theorem registers_add :
    (b.add other added).Registers field e ↔
      b.Registers field e ∨ (b.contains other = true ∧ field = other ∧ e = added) := by
  simp only [Registers, add, mem_modify, contains_iff]
  constructor
  · rintro ⟨_, ⟨old, hmem, rfl⟩, he⟩
    by_cases heq : field = other
    · subst heq
      simp only [↓reduceIte, List.mem_append, List.mem_singleton] at he
      rcases he with he | rfl
      · exact Or.inl ⟨old, hmem, he⟩
      · exact Or.inr ⟨⟨old, hmem⟩, rfl, rfl⟩
    · simp only [heq, ↓reduceIte] at he
      exact Or.inl ⟨old, hmem, he⟩
  · rintro (⟨old, hmem, he⟩ | ⟨⟨old, hmem⟩, rfl, rfl⟩)
    · exact ⟨_, ⟨old, hmem, rfl⟩, by split <;> simp [he]⟩
    · exact ⟨_, ⟨old, hmem, rfl⟩, by simp⟩

@[simp]
theorem hasChanges_add : (b.add other added).hasChanges = b.hasChanges := by
  rw [Bool.eq_iff_iff, hasChanges_iff, hasChanges_iff]
  simp only [add, mem_modify]
  constructor
  · rintro ⟨field, _, ⟨old, hmem, rfl⟩, hchanged⟩
    exact ⟨field, old, hmem, by split at hchanged <;> exact hchanged⟩
  · rintro ⟨field, old, hmem, hchanged⟩
    exact ⟨field, _, ⟨old, hmem, rfl⟩, by split <;> exact hchanged⟩

theorem registers_ensure_add :
    ((b.ensure other).add other added).Registers field e ↔
      b.Registers field e ∨ (field = other ∧ e = added) := by
  have hcontains : (b.ensure other).contains other = true := contains_ensure.mpr (Or.inl rfl)
  simp [registers_add, hcontains]

/-! ### The effects of a field -/

/-- The effects that are registered under a field, in their order; none for a field without entry. -/
def effects? (b : Bindings) (field : String) : Option (List Effect) :=
  (b.fields.get? field).map (·.effects)

theorem isSome_effects? (b : Bindings) (field : String) :
    (b.effects? field).isSome = b.contains field :=
  Option.isSome_map

theorem registers_of_mem_effects? {effects : List Effect} (h : b.effects? field = some effects)
    (he : e ∈ effects) : b.Registers field e := by
  obtain ⟨binding, hbinding, rfl⟩ := Option.map_eq_some_iff.mp h
  exact ⟨binding, Dict.mem_of_get? hbinding, he⟩

theorem effects?_of_not_contains (h : b.contains field = false) : b.effects? field = none := by
  rw [← Option.not_isSome_iff_eq_none, isSome_effects?, h]
  exact Bool.false_ne_true

theorem getD_effects?_of_not_holds (h : ∀ e, ¬ b.Holds e) : (b.effects? field).getD [] = [] := by
  cases heffects : b.effects? field with
  | none => rfl
  | some effects =>
      exact List.eq_nil_iff_forall_not_mem.mpr fun e he =>
        h e ⟨field, registers_of_mem_effects? heffects he⟩

@[simp]
theorem effects?_mark : (b.mark other).effects? field = b.effects? field := by
  rw [effects?, mark, Dict.get?_modify, effects?]
  split
  · cases b.fields.get? field <;> rfl
  · rfl

@[simp]
theorem effects?_clearChanges : b.clearChanges.effects? field = b.effects? field := by
  rw [effects?, clearChanges, Dict.get?_mapValues, effects?]
  cases b.fields.get? field <;> rfl

theorem effects?_ensure_add : ((b.ensure other).add other added).effects? field =
    if field = other then some ((b.effects? field).getD [] ++ [added]) else b.effects? field := by
  have hensure : (b.ensure other).effects? field =
      if field = other then some ((b.effects? field).getD []) else b.effects? field := by
    unfold ensure
    split
    · rename_i hcontains
      split
      · rename_i heq
        rw [heq]
        rw [← isSome_effects?] at hcontains
        obtain ⟨effects, heffects⟩ := Option.isSome_iff_exists.mp hcontains
        rw [heffects]
        rfl
      · rfl
    · rename_i hcontains
      rw [effects?, Dict.get?_insert]
      split
      · rename_i heq
        rw [heq, effects?_of_not_contains (Bool.eq_false_iff.mpr hcontains)]
        rfl
      · rfl
  rw [effects?, add, Dict.get?_modify]
  split
  · rename_i heq
    rw [if_pos heq] at hensure
    obtain ⟨binding, hbinding, heffects⟩ := Option.map_eq_some_iff.mp hensure
    rw [hbinding, Option.map_some, Option.map_some, heffects]
  · rename_i hne
    rw [if_neg hne] at hensure
    exact hensure

/-! ### Draining -/

theorem mem_unseen {seen : List EffectId} {effects : List Effect} (h : e ∈ unseen seen effects) :
    e ∈ effects ∧ e.id ∉ seen := by
  induction effects generalizing seen with
  | nil => simp [unseen] at h
  | cons head rest ih =>
      rw [unseen] at h
      split at h
      · exact ⟨List.mem_cons_of_mem _ (ih h).1, (ih h).2⟩
      · rename_i hhead
        rcases List.mem_cons.mp h with rfl | h
        · exact ⟨List.mem_cons_self, by simpa using hhead⟩
        · exact ⟨List.mem_cons_of_mem _ (ih h).1,
            fun hmem => (ih h).2 (List.mem_cons_of_mem _ hmem)⟩

theorem exists_mem_unseen {seen : List EffectId} {effects : List Effect} (he : e ∈ effects)
    (hseen : e.id ∉ seen) : ∃ other ∈ unseen seen effects, other.id = e.id := by
  induction effects generalizing seen with
  | nil => simp at he
  | cons head rest ih =>
      rw [unseen]
      rcases List.mem_cons.mp he with rfl | he
      · rw [if_neg (by simpa using hseen)]
        exact ⟨e, List.mem_cons_self, rfl⟩
      · split
        · exact ih he hseen
        · by_cases heq : head.id = e.id
          · exact ⟨head, List.mem_cons_self, heq⟩
          · have hseen' : e.id ∉ head.id :: seen := by simpa [Ne.symm heq] using hseen
            obtain ⟨other, hmem, hid⟩ := ih he hseen'
            exact ⟨other, List.mem_cons_of_mem _ hmem, hid⟩

theorem nodup_unseen (seen : List EffectId) (effects : List Effect) :
    ((unseen seen effects).map (·.id)).Nodup := by
  induction effects generalizing seen with
  | nil => simp [unseen]
  | cons head rest ih =>
      rw [unseen]
      split
      · exact ih seen
      · rw [List.map_cons, List.nodup_cons]
        refine ⟨?_, ih _⟩
        rw [List.mem_map]
        rintro ⟨other, hmem, hid⟩
        exact (mem_unseen hmem).2 (hid ▸ List.mem_cons_self)

end Bindings

end LiveMarkup
