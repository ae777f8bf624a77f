import LiveMarkup.Proofs.Page.Bindings
import LiveMarkup.Proofs.Template.SelfReferences

/-!
# Draining

A table of bindings after any history. What is bound, marked and registered there is what the history
says (`after_records`): a mark was made when the field was bound and not taken away since, and the
effects of a field are those added since it was bound and since effects were last dropped, in their
order. Main result: draining hands out every effect of a marked field that was not seen, once, where it
comes first, and leaves nothing marked (`drains_once`).
-/

namespace LiveMarkup

/-- An entry is put at the place of its name. -/
theorem Dict.keys_insertEntry {α : Type} (name : String) (value : α)
    (entries : List (String × α)) :
    (insertEntry name value entries).map Prod.fst = Names.insert name (entries.map Prod.fst) := by
  induction entries with
  | nil => rfl
  | cons entry rest ih =>
      obtain ⟨key, old⟩ := entry
      rw [insertEntry, List.map_cons, Names.insert]
      split
      · rename_i heq
        rw [List.map_cons, heq]
      · split
        · rfl
        · rw [List.map_cons, ih]

namespace Bindings

variable {b : Bindings} {field : String} {e : Effect} {seen : List EffectId} {due : List Effect}

/-- A field is marked as changed. -/
def Dirty (b : Bindings) (field : String) : Prop :=
  ∃ binding, (field, binding) ∈ b.fields.entries ∧ binding.changed = true

/-- The names of the fields, each with its effects. -/
def registered (b : Bindings) : List (String × List Effect) :=
  b.fields.entries.map fun entry => (entry.1, entry.2.effects)

/-! ### Histories -/

/-- What is done to a table. -/
inductive Operation where
  | ensure (field : String)
  | add (field : String) (e : Effect)
  | mark (field : String)
  | drain (seen : List EffectId)
  | clearChanges
  | clearEffects

namespace Operation

/-- Whether every mark is taken away. -/
def Cleans : Operation → Prop
  | drain _ | clearChanges | clearEffects => True
  | ensure _ | add _ _ | mark _ => False

/-- In a history, a field was marked when it was bound, and no marks were taken away later. -/
def Marked (field : String) (history : List Operation) : Prop :=
  ∃ before later, history = before ++ .mark field :: later ∧ .ensure field ∈ before ∧
    ∀ op ∈ later, ¬ op.Cleans

theorem not_marked_nil : ¬ Marked field [] := by
  rintro ⟨before, later, hsplit, -⟩
  simp at hsplit

theorem marked_concat {last : Operation} {history : List Operation} :
    Marked field (history ++ [last]) ↔
      (last = .mark field ∧ .ensure field ∈ history) ∨
        (Marked field history ∧ ¬ last.Cleans) := by
  constructor
  · rintro ⟨before, later, hsplit, hbound, hlater⟩
    rcases later.eq_nil_or_concat' with rfl | ⟨init, other, rfl⟩
    · obtain ⟨rfl, hlast⟩ := List.append_inj' hsplit rfl
      exact Or.inl ⟨List.singleton_inj.mp hlast, hbound⟩
    · rw [← List.cons_append, ← List.append_assoc] at hsplit
      obtain ⟨rfl, hlast⟩ := List.append_inj' hsplit rfl
      obtain rfl := List.singleton_inj.mp hlast
      exact Or.inr ⟨⟨before, init, rfl, hbound, fun x hx => hlater x (List.mem_append_left _ hx)⟩,
        hlater last (by simp)⟩
  · rintro (⟨rfl, hbound⟩ | ⟨⟨before, later, rfl, hbound, hlater⟩, hlast⟩)
    · exact ⟨history, [], rfl, hbound, by simp⟩
    · refine ⟨before, later ++ [last], by simp, hbound, fun x hx => ?_⟩
      rcases List.mem_append.mp hx with hx | hx
      · exact hlater x hx
      · exact List.mem_singleton.mp hx ▸ hlast

def binds (field : String) : Operation → Bool
  | ensure other => other = field
  | add _ _ | mark _ | drain _ | clearChanges | clearEffects => false

/-- Whether the effects of all fields are dropped. -/
def drops : Operation → Bool
  | clearEffects => true
  | ensure _ | add _ _ | mark _ | drain _ | clearChanges => false

/-- The effect that is added to a field. -/
def added? (field : String) : Operation → Option Effect
  | add other e => if field = other then some e else none
  | ensure _ | mark _ | drain _ | clearChanges | clearEffects => none

/-- The effects that a history adds to a field once it is bound, since effects were last dropped. -/
def addedTo (field : String) (history : List Operation) : List Effect :=
  ((history.dropWhile fun op => !op.binds field).rtakeWhile fun op => !op.drops).filterMap
    (added? field)

theorem binds_iff {op : Operation} : op.binds field = true ↔ op = .ensure field := by
  cases op <;> simp [binds]

theorem dropWhile_eq_nil_iff_not_bound {history : List Operation} :
    (history.dropWhile fun op => !op.binds field) = [] ↔ .ensure field ∉ history := by
  simp only [List.dropWhile_eq_nil_iff, Bool.not_eq_true', Bool.eq_false_iff, ne_eq, binds_iff]
  exact ⟨fun h hmem => h _ hmem rfl, fun h op hop heq => h (heq ▸ hop)⟩

theorem addedTo_concat {history : List Operation} (h : .ensure field ∈ history) (last : Operation) :
    addedTo field (history ++ [last]) =
      if last.drops then [] else addedTo field history ++ (last.added? field).toList := by
  have hbound : ¬ (history.dropWhile fun op => !op.binds field).isEmpty = true :=
    mt (dropWhile_eq_nil_iff_not_bound.mp ∘ List.isEmpty_iff.mp) (not_not_intro h)
  rw [addedTo, List.dropWhile_append, if_neg hbound, List.rtakeWhile_concat]
  cases last.drops with
  | true => rfl
  | false =>
      rw [Bool.not_false, if_pos rfl, if_neg Bool.false_ne_true, List.filterMap_append, addedTo]
      cases hadded : last.added? field <;> simp [hadded]

/-- An operation adds nothing to a field that was not bound before. -/
theorem addedTo_concat_of_not_bound {history : List Operation} (h : .ensure field ∉ history)
    (last : Operation) : addedTo field (history ++ [last]) = [] := by
  rw [addedTo, List.dropWhile_append, dropWhile_eq_nil_iff_not_bound.mpr h]
  cases last with
  | ensure other =>
      by_cases heq : other = field <;> simp [binds, heq, List.rtakeWhile, drops, added?]
  | add | mark | drain | clearChanges | clearEffects => rfl

end Operation

def perform (b : Bindings) : Operation → Bindings
  | .ensure field => b.ensure field
  | .add field e => b.add field e
  | .mark field => b.mark field
  | .drain seen => (b.drain seen).1
  | .clearChanges => b.clearChanges
  | .clearEffects => b.clearEffects

/-- The table that a history leads to. -/
def after (history : List Operation) : Bindings :=
  history.foldl perform empty

theorem after_concat (history : List Operation) (op : Operation) :
    after (history ++ [op]) = (after history).perform op := by
  simp [after]

/-! ### What one operation does -/

theorem contains_perform {op : Operation} :
    (b.perform op).contains field = true ↔ op = .ensure field ∨ b.contains field = true := by
  cases op with
  | ensure other => rw [perform, contains_ensure, Operation.ensure.injEq, eq_comm]
  | add | mark | drain | clearChanges | clearEffects => simp [perform, drain]

theorem not_dirty_mapValues {f : Binding → Binding} (hf : ∀ old, (f old).changed = false) :
    ¬ (Bindings.mk (b.fields.mapValues f)).Dirty field := by
  rintro ⟨binding, hmem, hchanged⟩
  obtain ⟨old, -, rfl⟩ := (mem_mapValues f).mp hmem
  rw [hf] at hchanged
  cases hchanged

theorem dirty_perform {op : Operation} : (b.perform op).Dirty field ↔
    (op = .mark field ∧ b.contains field = true) ∨ (b.Dirty field ∧ ¬ op.Cleans) := by
  cases op with
  | ensure other =>
      simp only [perform, Dirty, mem_ensure, Operation.Cleans]
      constructor
      · rintro ⟨binding, hmem | ⟨-, -, rfl⟩, hchanged⟩
        · exact Or.inr ⟨⟨binding, hmem, hchanged⟩, id⟩
        · cases hchanged
      · rintro (⟨hop, -⟩ | ⟨⟨binding, hmem, hchanged⟩, -⟩)
        · cases hop
        · exact ⟨binding, Or.inl hmem, hchanged⟩
  | add other added =>
      simp only [perform, Dirty, add, mem_modify, Operation.Cleans]
      constructor
      · rintro ⟨_, ⟨old, hmem, rfl⟩, hchanged⟩
        exact Or.inr ⟨⟨old, hmem, by split at hchanged <;> exact hchanged⟩, id⟩
      · rintro (⟨hop, -⟩ | ⟨⟨old, hmem, hchanged⟩, -⟩)
        · cases hop
        · exact ⟨_, ⟨old, hmem, rfl⟩, by split <;> exact hchanged⟩
  | mark other =>
      simp only [perform, Dirty, mark, mem_modify, contains_iff, Operation.Cleans]
      constructor
      · rintro ⟨_, ⟨old, hmem, rfl⟩, hchanged⟩
        by_cases heq : field = other
        · exact Or.inl ⟨by rw [heq], old, hmem⟩
        · rw [if_neg heq] at hchanged
          exact Or.inr ⟨⟨old, hmem, hchanged⟩, id⟩
      · rintro (⟨hop, old, hmem⟩ | ⟨⟨old, hmem, hchanged⟩, -⟩)
        · cases hop
          exact ⟨_, ⟨old, hmem, rfl⟩, by simp⟩
        · exact ⟨_, ⟨old, hmem, rfl⟩, by split <;> simp [hchanged]⟩
  | drain | clearChanges =>
      have hclean : ¬ b.clearChanges.Dirty field := not_dirty_mapValues fun _ => rfl
      simp [perform, drain, Operation.Cleans, hclean]
  | clearEffects =>
      have hclean : ¬ b.clearEffects.Dirty field := not_dirty_mapValues fun _ => rfl
      simp [perform, Operation.Cleans, hclean]

/-- A binding keeps its effects and gets the one that is added to its field, or all are dropped; a new
one has none. -/
theorem effects_perform {op : Operation} {binding : Binding}
    (h : (field, binding) ∈ (b.perform op).fields.entries) :
    (∃ old, (field, old) ∈ b.fields.entries ∧
        binding.effects = if op.drops then [] else old.effects ++ (op.added? field).toList) ∨
      (b.contains field = false ∧ binding.effects = []) := by
  cases op with
  | ensure other =>
      rw [perform, mem_ensure] at h
      rcases h with hmem | ⟨hnew, rfl, rfl⟩
      · exact Or.inl ⟨binding, hmem, by simp [Operation.drops, Operation.added?]⟩
      · exact Or.inr ⟨hnew, rfl⟩
  | add other added =>
      rw [perform, add, mem_modify] at h
      obtain ⟨old, hmem, rfl⟩ := h
      refine Or.inl ⟨old, hmem, ?_⟩
      by_cases heq : field = other <;> simp [heq, Operation.drops, Operation.added?]
  | mark other =>
      rw [perform, mark, mem_modify] at h
      obtain ⟨old, hmem, rfl⟩ := h
      refine Or.inl ⟨old, hmem, ?_⟩
      by_cases heq : field = other <;> simp [heq, Operation.drops, Operation.added?]
  | drain | clearChanges | clearEffects =>
      rw [perform] at h
      obtain ⟨old, hmem, rfl⟩ := (mem_mapValues _).mp h
      exact Or.inl ⟨old, hmem, by simp [Operation.drops, Operation.added?]⟩

theorem keys_perform (b : Bindings) (op : Operation) :
    (b.perform op).fields.keys = b.fields.keys ∨
      ∃ name, (b.perform op).fields.keys = Names.insert name b.fields.keys := by
  cases op with
  | ensure name =>
      rw [perform, ensure]
      split
      · exact Or.inl rfl
      · exact Or.inr ⟨name, Dict.keys_insertEntry name _ _⟩
  | add | mark => exact Or.inl (by simp [perform, add, mark, Dict.keys, Dict.modify])
  | drain | clearChanges | clearEffects =>
      exact Or.inl (by simp [perform, drain, clearChanges, clearEffects, Dict.keys, Dict.mapValues])

/-! ### What a history leads to -/

theorem contains_after (history : List Operation) :
    (after history).contains field = true ↔ .ensure field ∈ history := by
  induction history using List.reverseRecOn with
  | nil => simp [after, empty, contains, Dict.contains]
  | append_singleton history op ih =>
      rw [after_concat, contains_perform, ih, List.mem_append, List.mem_singleton, eq_comm, or_comm]

theorem dirty_after (history : List Operation) :
    (after history).Dirty field ↔ Operation.Marked field history := by
  induction history using List.reverseRecOn with
  | nil => simp [after, empty, Dirty, Dict.empty, Operation.not_marked_nil]
  | append_singleton history op ih =>
      rw [after_concat, dirty_perform, ih, contains_after, Operation.marked_concat]

theorem effects_after {binding : Binding} (history : List Operation)
    (h : (field, binding) ∈ (after history).fields.entries) :
    binding.effects = Operation.addedTo field history := by
  induction history using List.reverseRecOn generalizing binding with
  | nil => cases h
  | append_singleton history op ih =>
      rw [after_concat] at h
      rcases effects_perform h with ⟨old, hmem, heffects⟩ | ⟨hnew, heffects⟩
      · have hbound := (contains_after history).mp (contains_iff.mpr ⟨old, hmem⟩)
        rw [heffects, Operation.addedTo_concat hbound, ih hmem]
      · have hnot : .ensure field ∉ history := by
          rw [← contains_after, hnew]
          exact Bool.false_ne_true
        rw [heffects, Operation.addedTo_concat_of_not_bound hnot]

theorem ascending_after (history : List Operation) :
    Names.Ascending (after history).fields.keys := by
  induction history using List.reverseRecOn with
  | nil => exact Names.ascending_nil
  | append_singleton history op ih =>
      rw [after_concat]
      rcases keys_perform (after history) op with hkeys | ⟨name, hkeys⟩
      · exact hkeys ▸ ih
      · exact hkeys ▸ ih.insert name

/-- A table holds what a history says. -/
structure Records (b : Bindings) (history : List Operation) : Prop where
  bound : ∀ field, b.contains field = true ↔ .ensure field ∈ history
  ascending : Names.Ascending b.fields.keys
  dirty : ∀ field, b.Dirty field ↔ Operation.Marked field history
  registered : b.registered =
    b.fields.keys.map fun field => (field, Operation.addedTo field history)

theorem after_records (history : List Operation) : (after history).Records history where
  bound _ := contains_after history
  ascending := ascending_after history
  dirty _ := dirty_after history
  registered := by
    rw [registered, Dict.keys, List.map_map]
    exact List.map_congr_left fun entry hentry =>
      congrArg (Prod.mk entry.1) (effects_after history hentry)

/-! ### Draining -/

/-- A name has one binding, so what is due is registered under a dirty field. -/
theorem mem_due_iff_dirty (h : Names.Ascending b.fields.keys) :
    e ∈ b.due ↔ ∃ field, b.Dirty field ∧ b.Registers field e := by
  rw [mem_due]
  constructor
  · rintro ⟨field, binding, hmem, hchanged, he⟩
    exact ⟨field, ⟨binding, hmem, hchanged⟩, binding, hmem, he⟩
  · rintro ⟨field, ⟨binding, hmem, hchanged⟩, other, hother, he⟩
    have hnodup : (b.fields.entries.map Prod.fst).Nodup := h.imp ne_of_lt
    have hentry := List.inj_on_of_nodup_map hnodup hmem hother rfl
    obtain rfl := (Prod.mk.inj hentry).2
    exact ⟨field, binding, hmem, hchanged, he⟩

/-- `e` comes in a list behind `before`, and no effect with its id comes earlier. -/
structure First (due before : List Effect) (e : Effect) : Prop where
  at_place : before ++ [e] <+: due
  earlier : ∀ other ∈ before, other.id ≠ e.id

theorem First.cons {before : List Effect} {head : Effect} (h : First due before e)
    (hne : head.id ≠ e.id) : First (head :: due) (head :: before) e where
  at_place := List.cons_prefix_cons.mpr ⟨rfl, h.at_place⟩
  earlier := List.forall_mem_cons.mpr ⟨hne, h.earlier⟩

theorem first_head (e : Effect) (due : List Effect) : First (e :: due) [] e where
  at_place := List.cons_prefix_cons.mpr ⟨rfl, List.nil_prefix⟩
  earlier := List.forall_mem_nil _

theorem mem_unseen_iff : e ∈ unseen seen due ↔ e.id ∉ seen ∧ ∃ before, First due before e := by
  constructor
  · intro he
    refine ⟨(mem_unseen he).2, ?_⟩
    induction due generalizing seen with
    | nil => cases he
    | cons head rest ih =>
        rw [unseen] at he
        split at he
        · rename_i hhead
          obtain ⟨before, hfirst⟩ := ih he
          refine ⟨head :: before, hfirst.cons fun heq => (mem_unseen he).2 (heq ▸ ?_)⟩
          exact List.contains_iff_mem.mp hhead
        · rcases List.mem_cons.mp he with rfl | he
          · exact ⟨[], first_head e rest⟩
          · obtain ⟨before, hfirst⟩ := ih he
            exact ⟨head :: before, hfirst.cons fun heq =>
              (mem_unseen he).2 (heq ▸ List.mem_cons_self)⟩
  · rintro ⟨hseen, before, hfirst⟩
    induction due generalizing seen before with
    | nil => simpa using hfirst.at_place
    | cons head rest ih =>
        rw [unseen]
        cases before with
        | nil =>
            obtain rfl := (List.cons_prefix_cons.mp hfirst.at_place).1
            rw [if_neg (by simpa using hseen)]
            exact List.mem_cons_self
        | cons other before =>
            obtain ⟨rfl, hplace⟩ := List.cons_prefix_cons.mp hfirst.at_place
            obtain ⟨hne, hearlier⟩ := List.forall_mem_cons.mp hfirst.earlier
            split
            · exact ih hseen before ⟨hplace, hearlier⟩
            · refine List.mem_cons_of_mem _ (ih ?_ before ⟨hplace, hearlier⟩)
              simpa [Ne.symm hne] using hseen

/-- What is handed out stands in the order of first places. -/
theorem pairwise_unseen (seen : List EffectId) (due : List Effect) :
    (unseen seen due).Pairwise fun a b => ∃ before between,
      First due before a ∧ First due (before ++ a :: between) b := by
  induction due generalizing seen with
  | nil => exact List.Pairwise.nil
  | cons head rest ih =>
      have hlift : ∀ {seen : List EffectId}, head.id ∈ seen →
          (unseen seen rest).Pairwise fun a b => ∃ before between,
            First (head :: rest) before a ∧ First (head :: rest) (before ++ a :: between) b := by
        intro seen hhead
        refine (ih seen).imp_of_mem fun {a b} ha hb hab => ?_
        obtain ⟨before, between, hfirst, hnext⟩ := hab
        exact ⟨head :: before, between,
          hfirst.cons fun heq => (mem_unseen ha).2 (heq ▸ hhead),
          hnext.cons fun heq => (mem_unseen hb).2 (heq ▸ hhead)⟩
      rw [unseen]
      split
      · rename_i hhead
        exact hlift (List.contains_iff_mem.mp hhead)
      · refine List.pairwise_cons.mpr ⟨fun b hb => ?_, hlift List.mem_cons_self⟩
        obtain ⟨hseen, between, hfirst⟩ := mem_unseen_iff.mp hb
        exact ⟨[], between, first_head head rest,
          hfirst.cons fun heq => hseen (heq ▸ List.mem_cons_self)⟩

/-- What a drain hands out of a table and what it leaves. Effects are told apart by their ids. -/
structure DrainsOnce (b : Bindings) (seen : List EffectId) (b' : Bindings) (seen' : List EffectId)
    (effects : List Effect) : Prop where
  due : ∀ e, e ∈ b.due ↔ ∃ field, b.Dirty field ∧ b.Registers field e
  ids : ∀ id, id ∈ effects.map (·.id) ↔ id ∉ seen ∧
    ∃ field e, b.Dirty field ∧ b.Registers field e ∧ e.id = id
  once : (effects.map (·.id)).Nodup
  first : ∀ e, e ∈ effects ↔ e.id ∉ seen ∧ ∃ before, First b.due before e
  ordered : effects.Pairwise fun a c => ∃ before between,
    First b.due before a ∧ First b.due (before ++ a :: between) c
  seen : ∀ id, id ∈ seen' ↔ id ∈ seen ∨ id ∈ effects.map (·.id)
  clean : ∀ field, ¬ b'.Dirty field
  registered : b'.registered = b.registered

theorem drain_drainsOnce (h : Names.Ascending b.fields.keys) (seen : List EffectId) :
    b.DrainsOnce seen (b.drain seen).1 (b.drain seen).2.1 (b.drain seen).2.2 where
  due _ := mem_due_iff_dirty h
  ids id := by
    rw [List.mem_map]
    constructor
    · rintro ⟨e, he, rfl⟩
      obtain ⟨hmem, hseen⟩ := mem_unseen he
      obtain ⟨field, hdirty, hregisters⟩ := (mem_due_iff_dirty h).mp hmem
      exact ⟨hseen, field, e, hdirty, hregisters, rfl⟩
    · rintro ⟨hseen, field, e, hdirty, hregisters, rfl⟩
      exact exists_mem_unseen ((mem_due_iff_dirty h).mpr ⟨field, hdirty, hregisters⟩) hseen
  once := nodup_unseen seen b.due
  first _ := mem_unseen_iff
  ordered := pairwise_unseen seen b.due
  seen _ := List.mem_append
  clean field hdirty := by
    have hperformed : (b.perform (.drain seen)).Dirty field := hdirty
    obtain ⟨hop, -⟩ | ⟨-, hnot⟩ := dirty_perform.mp hperformed
    · cases hop
    · exact hnot trivial
  registered := by
    simp [registered, drain, clearChanges, Dict.mapValues]

/-- After any history, draining hands out exactly the effects that were not seen and are registered under
a dirty field, each once and in the order in which they come first, and nothing else changes than that
no field is dirty; and bound, dirty and registered is what the history says. -/
theorem drains_once (history : List Operation) (seen : List EffectId) :
    (after history).Records history ∧
      (after history).DrainsOnce seen ((after history).drain seen).1
        ((after history).drain seen).2.1 ((after history).drain seen).2.2 :=
  ⟨after_records history, drain_drainsOnce (ascending_after history) seen⟩

example :
    let e := fun n => (⟨⟨n⟩, ⟨0⟩, ⟨0⟩, none, .mountFragment⟩ : Effect)
    ((after [.ensure "b", .ensure "a", .add "b" (e 2), .add "b" (e 1), .add "a" (e 1), .mark "b",
      .mark "a"]).drain []).2.2.map (·.id) = [⟨1⟩, ⟨2⟩] := by
  decide +kernel

end Bindings

end LiveMarkup
