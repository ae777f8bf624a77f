/-!
Values by name, in the order of the names. `get?_insert` says what a write changes.
-/

namespace LiveMarkup

/-- Entries in strictly ascending order of their names. -/
structure Dict (α : Type) where
  entries : List (String × α)

namespace Dict

variable {α β : Type}

def empty : Dict α :=
  ⟨[]⟩

instance : Inhabited (Dict α) :=
  ⟨empty⟩

/-- Puts an entry at its place, over an entry of the same name. -/
def insertEntry (name : String) (value : α) : List (String × α) → List (String × α)
  | [] => [(name, value)]
  | (other, old) :: rest =>
    if name = other then (name, value) :: rest
    else if name < other then (name, value) :: (other, old) :: rest
    else (other, old) :: insertEntry name value rest

def insert (d : Dict α) (name : String) (value : α) : Dict α :=
  ⟨insertEntry name value d.entries⟩

def get? (d : Dict α) (name : String) : Option α :=
  d.entries.lookup name

def contains (d : Dict α) (name : String) : Bool :=
  (d.get? name).isSome

/-- Later entries win over earlier ones of the same name. -/
def ofList (entries : List (String × α)) : Dict α :=
  entries.foldl (fun d (name, value) => d.insert name value) empty

def keys (d : Dict α) : List String :=
  d.entries.map Prod.fst

def values (d : Dict α) : List α :=
  d.entries.map Prod.snd

def size (d : Dict α) : Nat :=
  d.entries.length

def isEmpty (d : Dict α) : Bool :=
  d.entries.isEmpty

def mapValues (f : α → β) (d : Dict α) : Dict β :=
  ⟨d.entries.map fun (name, value) => (name, f value)⟩

/-- Changes the value under a name that is present. -/
def modify (d : Dict α) (name : String) (f : α → α) : Dict α :=
  ⟨d.entries.map fun (other, value) => (other, if other = name then f value else value)⟩

theorem lookup_cons_eq_if (name key : String) (value : α) (rest : List (String × α)) :
    ((key, value) :: rest).lookup name = if name = key then some value else rest.lookup name := by
  by_cases h : name = key
  · simp [h]
  · have : (name == key) = false := by simp [h]
    simp [List.lookup_cons, h, this]

theorem lookup_insertEntry (name other : String) (value : α) (entries : List (String × α)) :
    (insertEntry name value entries).lookup other =
      if other = name then some value else entries.lookup other := by
  induction entries with
  | nil => simp [insertEntry, lookup_cons_eq_if]
  | cons entry rest ih =>
    obtain ⟨key, old⟩ := entry
    unfold insertEntry
    split
    · subst_vars
      simp only [lookup_cons_eq_if]
      split <;> rfl
    · split
      · simp only [lookup_cons_eq_if]
      · simp only [lookup_cons_eq_if, ih]
        by_cases h : other = key
        · subst h
          rename_i hne _
          simp [Ne.symm hne]
        · simp [h]

@[simp]
theorem get?_empty (name : String) : (empty : Dict α).get? name = none := rfl

theorem get?_insert (d : Dict α) (name other : String) (value : α) :
    (d.insert name value).get? other = if other = name then some value else d.get? other :=
  lookup_insertEntry name other value d.entries

theorem length_insertEntry {name : String} {entries : List (String × α)}
    (h : entries.lookup name = none) (value : α) :
    (insertEntry name value entries).length = entries.length + 1 := by
  induction entries with
  | nil => rfl
  | cons entry rest ih =>
    obtain ⟨key, old⟩ := entry
    rw [lookup_cons_eq_if] at h
    unfold insertEntry
    split
    · rename_i heq
      rw [if_pos heq] at h
      cases h
    · rename_i hne
      rw [if_neg hne] at h
      split
      · rfl
      · rw [List.length_cons, ih h, List.length_cons]

theorem size_insert {d : Dict α} {name : String} (h : d.get? name = none) (value : α) :
    (d.insert name value).size = d.size + 1 :=
  length_insertEntry h value

end Dict

/-- Names in ascending order, each once. -/
abbrev Names := List String

/-- Puts a name at its place unless it is there. -/
def Names.insert (name : String) : Names → Names
  | [] => [name]
  | other :: rest =>
    if name = other then other :: rest
    else if name < other then name :: other :: rest
    else other :: Names.insert name rest

def Names.union (names : Names) (more : List String) : Names :=
  more.foldl (fun all name => all.insert name) names

theorem Names.mem_insert {name other : String} {names : Names} :
    other ∈ Names.insert name names ↔ other = name ∨ other ∈ names := by
  induction names with
  | nil => simp [Names.insert]
  | cons head rest ih =>
    unfold Names.insert
    split
    · subst_vars
      simp
    · split
      · simp
      · simp only [List.mem_cons, ih]
        exact ⟨fun h => h.elim (fun h => .inr (.inl h)) (·.elim .inl fun h => .inr (.inr h)),
          fun h => h.elim (fun h => .inr (.inl h)) (·.elim .inl fun h => .inr (.inr h))⟩

theorem Names.mem_union {name : String} {names : Names} {more : List String} :
    name ∈ names.union more ↔ name ∈ names ∨ name ∈ more := by
  induction more generalizing names with
  | nil => simp [Names.union]
  | cons head rest ih =>
    have : names.union (head :: rest) = (names.insert head).union rest := rfl
    rw [this, ih, Names.mem_insert]
    simp only [List.mem_cons]
    exact ⟨fun h => h.elim (·.elim (fun h => .inr (.inl h)) .inl) fun h => .inr (.inr h),
      fun h => h.elim (fun h => .inl (.inr h)) (·.elim (fun h => .inl (.inl h)) .inr)⟩

end LiveMarkup
