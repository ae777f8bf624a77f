import LiveMarkup.Proofs.PassRuns
import Mathlib.Data.String.Basic

/-!
Writes between two frames coalesce. What a row of writes leaves is the last value of every field, a
mark wherever one of the fields is bound and one request for a pass, so that neither the order nor
the number of the writes matters.
-/

namespace LiveMarkup

/-! ### The fields -/

namespace Dict

variable {α : Type} {name : String} {value : α} {latest latest' : List (String × α)}

theorem insertEntry_insertEntry (name : String) (old value : α) (entries : List (String × α)) :
    insertEntry name value (insertEntry name old entries) = insertEntry name value entries := by
  induction entries with
  | nil => simp [insertEntry]
  | cons entry rest ih =>
      obtain ⟨key, kept⟩ := entry
      by_cases heq : name = key
      · simp [insertEntry, heq]
      · by_cases hlt : name < key
        · simp [insertEntry, heq, hlt]
        · simp [insertEntry, heq, hlt, ih]

theorem insertEntry_comm {name other : String} (hne : name ≠ other) (value otherValue : α)
    (entries : List (String × α)) :
    insertEntry name value (insertEntry other otherValue entries) =
      insertEntry other otherValue (insertEntry name value entries) := by
  induction entries with
  | nil =>
      rcases lt_trichotomy name other with hlt | heq | hlt
      · simp [insertEntry, hne, hne.symm, hlt, lt_asymm hlt]
      · exact absurd heq hne
      · simp [insertEntry, hne, hne.symm, hlt, lt_asymm hlt]
  | cons entry rest ih =>
      obtain ⟨key, kept⟩ := entry
      grind [insertEntry]

theorem insert_insert (d : Dict α) (name : String) (old value : α) :
    (d.insert name old).insert name value = d.insert name value :=
  congrArg mk (insertEntry_insertEntry name old value d.entries)

theorem insert_comm {name other : String} (hne : name ≠ other) (d : Dict α)
    (value otherValue : α) :
    (d.insert other otherValue).insert name value = (d.insert name value).insert other otherValue :=
  congrArg mk (insertEntry_comm hne value otherValue d.entries)

/-- The entries written to a dictionary, the latest one in front. -/
def overlay (d : Dict α) (latest : List (String × α)) : Dict α :=
  latest.foldr (fun entry d => d.insert entry.1 entry.2) d

theorem overlay_cons (d : Dict α) (entry : String × α) (latest : List (String × α)) :
    d.overlay (entry :: latest) = (d.overlay latest).insert entry.1 entry.2 := rfl

/-- A write hides the earlier ones of its name. -/
theorem insert_overlay (d : Dict α) (name : String) (value : α) (latest : List (String × α)) :
    (d.overlay latest).insert name value =
      (d.overlay (latest.filter (·.1 ≠ name))).insert name value := by
  induction latest with
  | nil => rfl
  | cons entry rest ih =>
      by_cases heq : entry.1 = name
      · rw [List.filter_cons_of_neg (by simpa using heq), overlay_cons, heq, insert_insert, ih]
      · rw [List.filter_cons_of_pos (by simpa using heq), overlay_cons, overlay_cons,
          insert_comm (Ne.symm heq), insert_comm (Ne.symm heq), ih]

/-- The latest write of a name may be taken for the latest of all. -/
theorem overlay_of_lookup (d : Dict α) (h : latest.lookup name = some value) :
    d.overlay latest = (d.overlay (latest.filter (·.1 ≠ name))).insert name value := by
  induction latest with
  | nil => cases h
  | cons entry rest ih =>
      obtain ⟨key, kept⟩ := entry
      rw [lookup_cons_eq_if] at h
      by_cases heq : name = key
      · subst heq
        rw [if_pos rfl, Option.some.injEq] at h
        rw [List.filter_cons_of_neg (by simp), overlay_cons, h, insert_overlay]
      · rw [if_neg heq] at h
        rw [List.filter_cons_of_pos (by simpa using Ne.symm heq), overlay_cons, overlay_cons, ih h,
          insert_comm (Ne.symm heq)]

theorem lookup_filter (name field : String) (entries : List (String × α)) :
    (entries.filter (·.1 ≠ name)).lookup field =
      if field = name then none else entries.lookup field := by
  induction entries with
  | nil => simp
  | cons entry rest ih =>
      obtain ⟨key, value⟩ := entry
      by_cases heq : key = name
      · subst heq
        rw [List.filter_cons_of_neg (by simp), lookup_cons_eq_if, ih]
        split <;> simp_all
      · rw [List.filter_cons_of_pos (by simpa using heq), lookup_cons_eq_if, lookup_cons_eq_if, ih]
        by_cases hfield : field = key
        · simp [hfield, heq]
        · simp [hfield]

/-- Written entries leave what the latest ones of each name leave. -/
theorem overlay_congr (d : Dict α)
    (h : ∀ field, latest.lookup field = latest'.lookup field) :
    d.overlay latest = d.overlay latest' := by
  induction hlength : latest.length using Nat.strong_induction_on generalizing latest latest' with
  | _ n ih =>
      cases latest with
      | nil =>
          cases latest' with
          | nil => rfl
          | cons entry rest =>
              obtain ⟨name, value⟩ := entry
              simpa using h name
      | cons entry rest =>
          obtain ⟨name, value⟩ := entry
          have hlast : ((name, value) :: rest).lookup name = some value := by simp
          rw [overlay_of_lookup d hlast, overlay_of_lookup d ((h name).symm.trans hlast)]
          refine congrArg (fun d => d.insert name value) (ih _ ?_ ?_ rfl)
          · rw [← hlength, List.filter_cons_of_neg (by simp)]
            exact Nat.lt_succ_of_le (List.length_filter_le _ rest)
          · intro field
            rw [lookup_filter, lookup_filter, h]

end Dict

/-- The value that the last of some writes gives to a field. -/
def lastWrite (writes : List (String × Json)) (field : String) : Option Json :=
  writes.reverse.lookup field

theorem mem_fields_iff (writes : List (String × Json)) (field : String) :
    field ∈ writes.map Prod.fst ↔ (lastWrite writes field).isSome = true := by
  rw [lastWrite, ← not_iff_not, Bool.not_eq_true, Option.isSome_eq_false_iff,
    Option.isNone_iff_eq_none, List.lookup_eq_none_iff]
  simp only [List.mem_map, not_exists, not_and, List.mem_reverse, bne_iff_ne]
  exact forall₂_congr fun _ _ => ne_comm

/-! ### Marks -/

namespace Bindings

variable {b : Bindings} {p q : String → Bool}

/-- Marks every bound field among some. -/
def markAll (b : Bindings) (p : String → Bool) : Bindings :=
  ⟨⟨b.fields.entries.map fun entry =>
    (entry.1, { entry.2 with changed := entry.2.changed || p entry.1 })⟩⟩

/-- Whether one of some fields is bound. -/
def binds (b : Bindings) (p : String → Bool) : Bool :=
  b.fields.entries.any fun entry => p entry.1

theorem binds_iff : b.binds p = true ↔ ∃ field, b.contains field = true ∧ p field = true := by
  simp only [binds, List.any_eq_true, contains_iff]
  constructor
  · rintro ⟨⟨field, binding⟩, hmem, hp⟩
    exact ⟨field, ⟨binding, hmem⟩, hp⟩
  · rintro ⟨field, ⟨binding, hmem⟩, hp⟩
    exact ⟨(field, binding), hmem, hp⟩

theorem mark_eq_markAll (b : Bindings) (field : String) :
    b.mark field = b.markAll (· = field) := by
  refine congrArg (Bindings.mk ∘ Dict.mk) (List.map_congr_left fun entry _ => ?_)
  by_cases heq : entry.1 = field <;> simp [heq]

theorem markAll_of_not_binds (h : b.binds p = false) : b.markAll p = b := by
  obtain ⟨⟨entries⟩⟩ := b
  refine congrArg (Bindings.mk ∘ Dict.mk) ?_
  have hsame : ∀ entry ∈ entries,
      (entry.1, { entry.2 with changed := entry.2.changed || p entry.1 }) = entry := by
    intro entry hentry
    have hp : p entry.1 = false := by
      simpa using List.any_eq_false.mp h entry hentry
    simp [hp]
  exact (List.map_congr_left hsame).trans (List.map_id entries)

theorem markAll_markAll (b : Bindings) (p q : String → Bool) :
    (b.markAll p).markAll q = b.markAll fun field => p field || q field := by
  simp [markAll, List.map_map, Function.comp_def, Bool.or_assoc]

theorem binds_markAll : (b.markAll p).binds q = b.binds q := by
  simp [binds, markAll, List.any_map, Function.comp_def]

theorem binds_or (b : Bindings) (p q : String → Bool) :
    (b.binds fun field => p field || q field) = (b.binds p || b.binds q) := by
  rw [Bool.eq_iff_iff, Bool.or_eq_true, binds_iff, binds_iff, binds_iff, ← exists_or]
  exact exists_congr fun field => by rw [Bool.or_eq_true, and_or_left]

end Bindings

namespace Instance

/-- Marks some fields; a fragment waits if one of them is bound. -/
def stain (i : Instance) (p : String → Bool) (asked : Bool) : Instance :=
  { i with
    bindings := i.bindings.markAll p
    scheduled := i.scheduled || (i.fragment?.isSome && i.bindings.binds p) || asked }

theorem stain_of_not_binds {i : Instance} {p : String → Bool} (h : i.bindings.binds p = false) :
    i.stain p false = i := by
  simp [stain, Bindings.markAll_of_not_binds h, h]

theorem stain_stain (i : Instance) (p q : String → Bool) (asked again : Bool) :
    (i.stain p asked).stain q again =
      i.stain (fun field => p field || q field) (asked || again) := by
  have hfragment : (i.stain p asked).fragment? = i.fragment? := rfl
  rw [stain, hfragment, stain, stain]
  simp only [Bindings.markAll_markAll, Bindings.binds_markAll, Bindings.binds_or]
  congr 1
  cases i.scheduled <;> cases i.fragment?.isSome <;> cases asked <;> simp

theorem stain_mapComponent (i : Instance) (f : ComponentState → ComponentState)
    (p : String → Bool) (asked : Bool) :
    (i.mapComponent f).stain p asked = (i.stain p asked).mapComponent f := by
  obtain ⟨parent, component, bindings, children, scheduled, kind⟩ := i
  cases kind <;> rfl

end Instance

namespace Page

variable {page page' : Page} {id j : InstanceId} {field : String}
  {marks more : InstanceId → String → Bool}

theorem slots_ext (hsize : page.slots.size = page'.slots.size)
    (h : ∀ j, page.slot j = page'.slot j) : page.slots = page'.slots := by
  refine Array.ext hsize fun n hn hn' => ?_
  simpa [slot, Array.getElem?_eq_getElem hn, Array.getElem?_eq_getElem hn'] using h ⟨n⟩

/-- Whether one of some marks hits a bound field. -/
def struck (page : Page) (marks : InstanceId → String → Bool) : Bool :=
  (List.range page.slots.size).any fun n => (page.slot ⟨n⟩).bindings.binds (marks ⟨n⟩)

/-- Whether some marks make a component ask for a pass. -/
def asks (page : Page) (id : InstanceId) (marks : InstanceId → String → Bool) : Bool :=
  (page.component? id).any (·.connected) && !(page.slot id).scheduled && page.struck marks

/-- Makes some marks at once, all of them within the component `id`. -/
def stain (page : Page) (id : InstanceId) (marks : InstanceId → String → Bool) : Page :=
  { page with
    slots := page.slots.mapIdx fun n i =>
      i.stain (marks ⟨n⟩) (decide (⟨n⟩ = id) && page.asks id marks)
    queue := if page.asks id marks then page.queue ++ [id] else page.queue
    notices :=
      if page.asks id marks then page.notices.push (.passRequested id.number) else page.notices }

theorem stain_eq_iff {next : Page}
    (hnext : { page with slots := next.slots, queue := next.queue, notices := next.notices } = next) :
    page.stain id marks = next ↔ (page.stain id marks).slots = next.slots ∧
      (page.stain id marks).queue = next.queue ∧ (page.stain id marks).notices = next.notices := by
  constructor
  · rintro rfl
    exact ⟨rfl, rfl, rfl⟩
  · rintro ⟨hslots, hqueue, hnotices⟩
    rw [← hnext, ← hslots, ← hqueue, ← hnotices]
    rfl

theorem queue_stain (page : Page) (id : InstanceId) (marks : InstanceId → String → Bool) :
    (page.stain id marks).queue =
      if page.asks id marks then page.queue ++ [id] else page.queue := rfl

theorem notices_stain (page : Page) (id : InstanceId) (marks : InstanceId → String → Bool) :
    (page.stain id marks).notices =
      if page.asks id marks then page.notices.push (.passRequested id.number)
      else page.notices := rfl

theorem struck_iff :
    page.struck marks = true ↔ ∃ j, (page.slot j).bindings.binds (marks j) = true := by
  simp only [struck, List.any_eq_true, List.mem_range]
  constructor
  · rintro ⟨n, _, hn⟩
    exact ⟨⟨n⟩, hn⟩
  · rintro ⟨j, hj⟩
    refine ⟨j.number, ?_, hj⟩
    by_contra hle
    rw [slot_of_size_le (Nat.le_of_not_lt hle)] at hj
    cases hj

theorem slot_stain (page : Page) (id : InstanceId) (marks : InstanceId → String → Bool)
    (j : InstanceId) :
    (page.stain id marks).slot j =
      (page.slot j).stain (marks j) (decide (j = id) && page.asks id marks) := by
  by_cases hlt : j.number < page.slots.size
  · simp [slot, stain, Array.getElem?_eq_getElem hlt]
  · have hle := Nat.le_of_not_lt hlt
    have hasks : (decide (j = id) && page.asks id marks) = false := by
      by_cases heq : j = id
      · subst heq
        simp [asks, component?, slot_of_size_le hle, Instance.component?, Instance.alone]
      · simp [heq]
    rw [hasks, slot_of_size_le hle, slot_of_size_le (by simpa [stain] using hle)]
    rfl

theorem component?_stain (page : Page) (id : InstanceId) (marks : InstanceId → String → Bool)
    (j : InstanceId) : (page.stain id marks).component? j = page.component? j := by
  rw [component?, slot_stain]
  rfl

theorem struck_stain (page : Page) (id : InstanceId) (marks more : InstanceId → String → Bool) :
    (page.stain id marks).struck more = page.struck more := by
  rw [Bool.eq_iff_iff, struck_iff, struck_iff]
  simp only [slot_stain, Instance.stain, Bindings.binds_markAll]

theorem struck_or (page : Page) (marks more : InstanceId → String → Bool) :
    (page.struck fun j field => marks j field || more j field) =
      (page.struck marks || page.struck more) := by
  rw [Bool.eq_iff_iff, Bool.or_eq_true, struck_iff, struck_iff, struck_iff, ← exists_or]
  exact exists_congr fun j => by rw [Bindings.binds_or, Bool.or_eq_true]

theorem asks_stain (page : Page) (id : InstanceId) (marks more : InstanceId → String → Bool) :
    (page.asks id fun j field => marks j field || more j field) =
      (page.asks id marks || (page.stain id marks).asks id more) := by
  have hscheduled : (page.component? id).any (·.connected) = true →
      ((page.stain id marks).slot id).scheduled =
        ((page.slot id).scheduled || page.asks id marks) := by
    intro hconnected
    cases hstate : page.component? id with
    | none => simp [hstate] at hconnected
    | some state =>
        rw [slot_stain]
        simp [Instance.stain, Instance.fragment?_of_component? hstate]
  unfold asks at hscheduled ⊢
  rw [struck_or, component?_stain, struck_stain]
  cases hconnected : (page.component? id).any (·.connected) with
  | false => simp
  | true =>
      rw [hscheduled hconnected]
      cases (page.slot id).scheduled <;> cases page.struck marks <;> simp [hconnected]

/-- Marks made one after the other are made at once. -/
theorem stain_stain (page : Page) (id : InstanceId) (marks more : InstanceId → String → Bool) :
    (page.stain id marks).stain id more =
      page.stain id fun j field => marks j field || more j field := by
  have hslots : ((page.stain id marks).stain id more).slots =
      (page.stain id fun j field => marks j field || more j field).slots := by
    refine slots_ext (by simp [stain]) fun j => ?_
    rw [slot_stain, slot_stain, slot_stain, Instance.stain_stain, asks_stain, Bool.and_or_distrib_left]
  -- A component that has asked for a pass does not ask again.
  have honce : page.asks id marks = true → (page.stain id marks).asks id more = false := by
    intro hfirst
    have hscheduled : ((page.stain id marks).slot id).scheduled = true := by
      simp [slot_stain, Instance.stain, hfirst]
    rw [asks, hscheduled, Bool.not_true, Bool.and_false, Bool.false_and]
  have hrest : ((page.stain id marks).stain id more).queue =
        (page.stain id fun j field => marks j field || more j field).queue ∧
      ((page.stain id marks).stain id more).notices =
        (page.stain id fun j field => marks j field || more j field).notices := by
    rw [queue_stain, queue_stain, queue_stain, notices_stain, notices_stain, notices_stain,
      asks_stain]
    cases hfirst : page.asks id marks with
    | false => exact ⟨rfl, rfl⟩
    | true =>
        rw [honce hfirst]
        exact ⟨rfl, rfl⟩
  exact ((stain_eq_iff rfl).mpr ⟨hslots.symm, hrest.1.symm, hrest.2.symm⟩).symm

/-- Nothing is marked where no marked field is bound. -/
theorem stain_of_not_struck (h : page.struck marks = false) : page.stain id marks = page := by
  have hasks : page.asks id marks = false := by rw [asks, h, Bool.and_false]
  have hslots : (page.stain id marks).slots = page.slots := by
    refine slots_ext (by simp [stain]) fun j => ?_
    rw [slot_stain, hasks, Bool.and_false, Instance.stain_of_not_binds]
    by_contra hbinds
    rw [struck_iff.mpr ⟨j, by simpa using hbinds⟩] at h
    cases h
  refine (stain_eq_iff rfl).mpr ⟨hslots, ?_, ?_⟩
  · rw [queue_stain, hasks]
    rfl
  · rw [notices_stain, hasks]
    rfl

theorem stain_of_unmarked (h : ∀ j field, marks j field = false) : page.stain id marks = page := by
  refine stain_of_not_struck ?_
  by_contra hstruck
  obtain ⟨j, hj⟩ := struck_iff.mp (by simpa using hstruck)
  obtain ⟨field, _, hfield⟩ := Bindings.binds_iff.mp hj
  rw [h] at hfield
  cases hfield

/-- The request for a pass that follows some marks. -/
theorem requestPass_eq_stain {slots : Array Instance}
    (hslot : ∀ j, { page with slots }.slot j = (page.slot j).stain (marks j) false)
    (hsize : slots.size = page.slots.size) (hstruck : page.struck marks = true) :
    { page with slots }.requestPass id = page.stain id marks := by
  have hstate : { page with slots }.component? id = page.component? id := by
    rw [component?, hslot]
    rfl
  have hsize' : (page.stain id marks).slots.size = slots.size := by simp [stain, hsize]
  have hquiet : page.asks id marks = false → page.stain id marks = { page with slots } := by
    intro hasks
    refine (stain_eq_iff rfl).mpr ⟨slots_ext hsize' ?_, ?_, ?_⟩
    · intro j
      rw [slot_stain, hasks, Bool.and_false]
      exact (hslot j).symm
    · rw [queue_stain, hasks]
      rfl
    · rw [notices_stain, hasks]
      rfl
  rw [requestPass, hstate]
  cases hcomponent : page.component? id with
  | none => exact (hquiet (by simp [asks, hcomponent])).symm
  | some state =>
      have hwaits : ({ page with slots }.slot id).scheduled = (page.slot id).scheduled := by
        rw [hslot]
        simp [Instance.stain, Instance.fragment?_of_component? hcomponent]
      have hasks : page.asks id marks = !((page.slot id).scheduled || !state.connected) := by
        simp [asks, hcomponent, hstruck, Bool.and_comm]
      dsimp only
      rw [hwaits]
      cases hidle : (page.slot id).scheduled || !state.connected with
      | true => exact (hquiet (by rw [hasks, hidle]; rfl)).symm
      | false =>
          rw [hidle] at hasks
          refine ((stain_eq_iff rfl).mpr ⟨slots_ext ?_ ?_, ?_, ?_⟩).symm
          · exact hsize'.trans (size_updateSlot { page with slots } id _).symm
          · intro j
            change _ = ({ page with slots }.updateSlot id ({ · with scheduled := true })).slot j
            have hlt : id.number < slots.size :=
              hsize ▸ lt_size_of_not_vacant (Instance.not_vacant_of_component? hcomponent)
            rw [slot_updateSlot hlt, hslot, slot_stain, hasks]
            by_cases heq : j = id
            · simp [heq, Instance.stain]
            · simp [heq]
          · rw [queue_stain, hasks]
            rfl
          · rw [notices_stain, hasks]
            rfl

/-- Marks one field at one instance. -/
def markOne (j : InstanceId) (field : String) (k : InstanceId) (other : String) : Bool :=
  decide (k = j) && decide (other = field)

theorem binds_markOne (b : Bindings) (j k : InstanceId) (field : String) :
    b.binds (markOne j field k) = (decide (k = j) && b.contains field) := by
  rw [Bool.eq_iff_iff, Bindings.binds_iff]
  by_cases heq : k = j <;> simp [heq, markOne]

theorem markAt_eq_stain (h : page.Orderly) (hj : (page.slot j).component = id) (field : String) :
    markAt field page j = page.stain id (markOne j field) := by
  rcases markAt_cases h field j with ⟨hcontains, next, hdyed, heq⟩ | ⟨hcontains, heq⟩
  · have hrest := hdyed.rest
    obtain ⟨slots, rfl⟩ : ∃ slots, next = { page with slots } := ⟨_, hrest.symm⟩
    rw [heq, hj]
    refine requestPass_eq_stain (fun k => ?_) hdyed.marked.size
      (struck_iff.mpr ⟨j, by simp [binds_markOne, hcontains]⟩)
    rw [hdyed.slot k]
    by_cases hk : k = j
    · subst hk
      have hmarks : markOne k field k = fun other => decide (other = field) := by
        funext other
        simp [markOne]
      rw [if_pos rfl, Instance.stain, binds_markOne, hcontains, hmarks, Bindings.mark_eq_markAll]
      simp
    · rw [if_neg hk, Instance.stain_of_not_binds (by simp [binds_markOne, hk])]
  · rw [heq, stain_of_not_struck]
    by_contra hstruck
    obtain ⟨k, hk⟩ := struck_iff.mp (by simpa using hstruck)
    rw [binds_markOne, Bool.and_eq_true, decide_eq_true_iff] at hk
    rw [hk.1, hcontains] at hk
    exact absurd hk.2 (by decide)

theorem stain_marked (h : page.Orderly) (hj : (page.slot j).component = id) (field : String) :
    Marked page (page.stain id (markOne j field)) :=
  markAt_eq_stain h hj field ▸ markAt_marked h field j

/-- Marking instances of a component one by one is marking them at once. -/
theorem foldl_markAt (h : page.Orderly) (field : String) (id : InstanceId)
    {members : List InstanceId} (hmembers : ∀ j ∈ members, (page.slot j).component = id) :
    members.foldl (markAt field) page =
      page.stain id fun j other => decide (j ∈ members) && decide (other = field) := by
  induction members generalizing page with
  | nil => exact (stain_of_unmarked fun j other => by simp).symm
  | cons j rest ih =>
      have hj := hmembers j List.mem_cons_self
      have hfirst := stain_marked h hj field
      rw [List.foldl_cons, markAt_eq_stain h hj, ih (hfirst.orderly h), stain_stain]
      · congr 1
        funext k other
        simp [markOne, Bool.and_or_distrib_right]
      · intro k hk
        rw [hfirst.component_eq k]
        exact hmembers k (List.mem_cons_of_mem _ hk)

/-! ### Writes -/

theorem descend_congr (hchildren : ∀ j, (page'.slot j).children = (page.slot j).children)
    (depth : Nat) (id : InstanceId) : page'.descend depth id = page.descend depth id := by
  induction depth generalizing id with
  | zero => rfl
  | succ depth ih => rw [descend, descend, hchildren, funext ih]

theorem family_congr (hsize : page'.slots.size = page.slots.size)
    (hchildren : ∀ j, (page'.slot j).children = (page.slot j).children) (id : InstanceId) :
    page'.family id = page.family id := by
  rw [family, family, hsize, descend_congr hchildren]

/-- Puts some writes into the fields of a component, without any mark. -/
def putFields (page : Page) (id : InstanceId) (writes : List (String × Json)) : Page :=
  page.updateSlot id
    (·.mapComponent fun state => { state with fields := state.fields.overlay writes.reverse })

/-- The marks that some writes make at the instances of a component. -/
def traces (page : Page) (id : InstanceId) (writes : List (String × Json)) (j : InstanceId)
    (field : String) : Bool :=
  decide (j ∈ page.family id) && decide (field ∈ writes.map Prod.fst)

theorem slot_putFields (page : Page) (id : InstanceId) (writes : List (String × Json))
    (j : InstanceId) :
    (page.putFields id writes).slot j =
      if j = id then (page.slot j).mapComponent fun state =>
        { state with fields := state.fields.overlay writes.reverse }
      else page.slot j := by
  split
  · subst_vars
    exact slot_updateSlot_self _ rfl
  · exact slot_updateSlot_of_ne ‹_› _

theorem component?_putFields {state : ComponentState} (hstate : page.component? id = some state)
    (writes : List (String × Json)) :
    (page.putFields id writes).component? id =
      some { state with fields := state.fields.overlay writes.reverse } := by
  rw [component?, slot_putFields, if_pos rfl, Instance.mapComponent_of_component? hstate]
  rfl

theorem family_putFields (page : Page) (id : InstanceId) (writes : List (String × Json))
    (a : InstanceId) : (page.putFields id writes).family a = page.family a := by
  refine family_congr (size_updateSlot page id _) (fun j => ?_) a
  refine read_updateSlot Instance.children (fun i => ?_) page id j
  unfold Instance.mapComponent
  split <;> rfl

theorem family_stain (page : Page) (id : InstanceId) (marks : InstanceId → String → Bool)
    (a : InstanceId) : (page.stain id marks).family a = page.family a :=
  family_congr (by simp [stain]) (fun j => by rw [slot_stain]; rfl) a

theorem putFields_putFields (page : Page) (id : InstanceId) (writes more : List (String × Json)) :
    (page.putFields id writes).putFields id more = page.putFields id (writes ++ more) := by
  have hslots : ((page.putFields id writes).putFields id more).slots =
      (page.putFields id (writes ++ more)).slots := by
    refine slots_ext (by simp [putFields]) fun j => ?_
    rw [slot_putFields, slot_putFields, slot_putFields]
    split
    · unfold Instance.mapComponent
      cases hkind : (page.slot j).kind <;> simp [Dict.overlay, hkind]
    · rfl
  exact congrArg (fun slots => { page with slots }) hslots

theorem putFields_nil (page : Page) (id : InstanceId) : page.putFields id [] = page := by
  have hslots : (page.putFields id []).slots = page.slots := by
    refine slots_ext (size_updateSlot page id _) fun j => ?_
    rw [slot_putFields]
    split
    · obtain ⟨parent, component, bindings, children, scheduled, kind⟩ := page.slot j
      cases kind <;> rfl
    · rfl
  exact congrArg (fun slots => { page with slots }) hslots

theorem asks_putFields (page : Page) (id : InstanceId) (writes : List (String × Json))
    (marks : InstanceId → String → Bool) :
    (page.putFields id writes).asks id marks = page.asks id marks := by
  have hbindings : ∀ j, ((page.putFields id writes).slot j).bindings = (page.slot j).bindings :=
    read_updateSlot Instance.bindings (fun i => Instance.bindings_mapComponent i _) page id
  have hscheduled : ((page.putFields id writes).slot id).scheduled = (page.slot id).scheduled :=
    read_updateSlot Instance.scheduled (fun i => Instance.scheduled_mapComponent i _) page id id
  have hstruck : (page.putFields id writes).struck marks = page.struck marks := by
    rw [Bool.eq_iff_iff, struck_iff, struck_iff]
    simp only [hbindings]
  have hconnected : ((page.putFields id writes).component? id).any (·.connected) =
      (page.component? id).any (·.connected) := by
    refine read_updateSlot (fun i => i.component?.any (·.connected)) (fun i => ?_) page id id
    unfold Instance.mapComponent Instance.component?
    cases hkind : i.kind <;> simp [hkind]
  rw [asks, asks, hconnected, hscheduled, hstruck]

theorem stain_putFields (page : Page) (id : InstanceId) (writes : List (String × Json))
    (marks : InstanceId → String → Bool) :
    (page.putFields id writes).stain id marks = (page.stain id marks).putFields id writes := by
  have hslots : ((page.putFields id writes).stain id marks).slots =
      ((page.stain id marks).putFields id writes).slots := by
    refine slots_ext (by simp [stain, putFields]) fun j => ?_
    rw [slot_stain, slot_putFields, slot_putFields, slot_stain, asks_putFields]
    split
    · exact Instance.stain_mapComponent _ _ _ _
    · rfl
  refine (stain_eq_iff rfl).mpr ⟨hslots, ?_, ?_⟩
  · rw [queue_stain, asks_putFields]
    rfl
  · rw [notices_stain, asks_putFields]
    rfl

theorem reflect_of_plain {state : ComponentState} (hstate : page.component? id = some state)
    (hplain : state.definition.converter? field = none) : page.reflect id field = page := by
  simp only [reflect, hstate, hplain]

/-- A write to a plain field of a component without a script stores it and marks it. -/
theorem write_eq (h : page.Orderly) {state : ComponentState}
    (hstate : page.component? id = some state) (hscript : state.definition.hooks = none)
    {write : String × Json} (hplain : state.definition.converter? write.1 = none) :
    Page.write id write.1 write.2 page =
      (page.stain id (page.traces id [write])).putFields id [write] := by
  have hput : page.putField id write.1 write.2 = page.putFields id [write] := rfl
  have horderly := putField_orderly h id write.1 write.2
  have hmarked : (page.putField id write.1 write.2).markChanged id write.1 =
      (page.stain id (page.traces id [write])).putFields id [write] := by
    rw [markChanged, foldl_markAt horderly write.1 id, hput, family_putFields,
      ← stain_putFields]
    · congr 1
      funext j field
      simp [traces]
    · intro j hj
      rw [horderly.component_of_under (under_of_mem_descend horderly hj)]
      exact (horderly.component_eq id _ (component?_putFields hstate [write])).2
  have hstate' : ((page.stain id (page.traces id [write])).putFields id [write]).component? id =
      some { state with fields := state.fields.overlay [write] } :=
    component?_putFields ((component?_stain page id _ id).trans hstate) [write]
  have hstore : page.store id write.1 write.2 =
      (page.stain id (page.traces id [write])).putFields id [write] := by
    rw [store_eq, hmarked, reflect_of_plain hstate' hplain]
  rw [Page.write, show nestingLimit = 99999 + 1 from rfl, writeWithin, hstore, runHook, hstate']
  simp [hscript]

/-- Plain writes to a component without a script, one after the other: the last values are stored, and
the marks are made at once. -/
theorem serve_writes (h : page.Orderly) {state : ComponentState}
    (hstate : page.component? id = some state) (hscript : state.definition.hooks = none)
    {writes : List (String × Json)}
    (hplain : ∀ write ∈ writes, state.definition.converter? write.1 = none) :
    (writes.map fun write => Request.set id write.1 write.2).foldl serve page =
      (page.stain id (page.traces id writes)).putFields id writes := by
  induction writes generalizing page state with
  | nil => rw [stain_of_unmarked fun j field => by simp [traces], putFields_nil]; rfl
  | cons write rest ih =>
      have hfirst := write_eq h hstate hscript (hplain write List.mem_cons_self)
      have hserve : page.serve (.set id write.1 write.2) = Page.write id write.1 write.2 page := by
        simp only [serve, Page.set, hstate, settle]
      have horderly : (Page.write id write.1 write.2 page).Orderly :=
        (write_respects (written_respects id) write.1 write.2 (.refl h)).orderly
      have hstate' : (Page.write id write.1 write.2 page).component? id =
          some { state with fields := state.fields.overlay [write] } := by
        rw [hfirst]
        exact component?_putFields ((component?_stain page id _ id).trans hstate) [write]
      have htraces : ((page.stain id (page.traces id [write])).putFields id [write]).traces id rest =
          page.traces id rest := by
        funext j field
        rw [traces, family_putFields, family_stain, traces]
      rw [List.map_cons, List.foldl_cons, hserve, ih horderly hstate' hscript fun other hother =>
        hplain other (List.mem_cons_of_mem _ hother), hfirst, htraces, stain_putFields, stain_stain,
        putFields_putFields, List.singleton_append]
      congr 2
      funext j field
      simp only [traces, ← Bool.and_or_distrib_left, List.map_cons, List.map_nil, List.mem_cons,
        List.not_mem_nil, or_false, Bool.decide_or]

/-- Two rows of plain writes with the same last values leave the same page after the next frame. -/
theorem writes_coalesce (styles : StyleAttacher) (requests : List Request) {id : InstanceId}
    {state : ComponentState} {writes writes' : List (String × Json)}
    (hstate : (after styles requests).component? id = some state)
    (hscript : state.definition.hooks = none)
    (hplain : ∀ write ∈ writes, state.definition.converter? write.1 = none)
    (hlast : ∀ field, lastWrite writes field = lastWrite writes' field) :
    after styles (requests ++ (writes.map fun write => .set id write.1 write.2) ++ [.runFrame]) =
      after styles
        (requests ++ (writes'.map fun write => .set id write.1 write.2) ++ [.runFrame]) := by
  have horderly := (awaits_after styles requests).orderly
  have hfields : ∀ field, field ∈ writes.map Prod.fst ↔ field ∈ writes'.map Prod.fst := by
    intro field
    rw [mem_fields_iff, mem_fields_iff, hlast]
  have hplain' : ∀ write ∈ writes', state.definition.converter? write.1 = none := by
    intro write hwrite
    obtain ⟨other, hother, heq⟩ :=
      List.mem_map.mp ((hfields write.1).mpr (List.mem_map_of_mem hwrite))
    rw [← heq]
    exact hplain other hother
  have htraces : (after styles requests).traces id writes =
      (after styles requests).traces id writes' := by
    funext j field
    simp only [traces, hfields]
  have hput : ∀ page : Page, page.putFields id writes = page.putFields id writes' := by
    intro page
    have hoverlay : ∀ fields : Dict Json,
        fields.overlay writes.reverse = fields.overlay writes'.reverse :=
      fun fields => fields.overlay_congr hlast
    simp only [putFields, hoverlay]
  have hsame : after styles (requests ++ writes.map fun write => .set id write.1 write.2) =
      after styles (requests ++ writes'.map fun write => .set id write.1 write.2) := by
    rw [after, List.foldl_append, after, List.foldl_append]
    change List.foldl serve (after styles requests) _ = List.foldl serve (after styles requests) _
    rw [serve_writes horderly hstate hscript hplain, serve_writes horderly hstate hscript hplain',
      htraces, hput]
  have hframe : ∀ requests : List Request,
      after styles (requests ++ [.runFrame]) = (after styles requests).runFrame.1 :=
    fun requests => List.foldl_append
  rw [hframe, hframe, hsame]

/-- The counter is written twice in one run and once in the other, and so is a field that it does not
declare. -/
theorem writes_coalesce_counter :
    (∀ field, lastWrite [("n", .int 2), ("m", .null), ("n", .int 3)] field =
        lastWrite [("m", .int 0), ("n", .int 3), ("m", .null)] field) ∧
      after .elements (countToOne ++ [.set ⟨0⟩ "n" (.int 2), .set ⟨0⟩ "m" .null,
          .set ⟨0⟩ "n" (.int 3)] ++ [.runFrame]) =
        after .elements (countToOne ++ [.set ⟨0⟩ "m" (.int 0), .set ⟨0⟩ "n" (.int 3),
          .set ⟨0⟩ "m" .null] ++ [.runFrame]) := by
  have hcounter : ((after .elements countToOne).component? ⟨0⟩).any (fun state =>
      state.definition.hooks.isNone && ["n", "m"].all fun field =>
        (state.definition.converter? field).isNone) = true := by
    decide +kernel
  have hlast : ∀ field, lastWrite [("n", .int 2), ("m", .null), ("n", .int 3)] field =
      lastWrite [("m", .int 0), ("n", .int 3), ("m", .null)] field := by
    intro field
    simp only [lastWrite, List.reverse_cons, List.reverse_nil, List.nil_append, List.cons_append,
      Dict.lookup_cons_eq_if]
    split <;> split <;> simp_all
  cases hstate : (after .elements countToOne).component? ⟨0⟩ with
  | none =>
      rw [hstate] at hcounter
      cases hcounter
  | some state =>
      rw [hstate, Option.any_some, Bool.and_eq_true, Option.isNone_iff_eq_none] at hcounter
      refine ⟨hlast, writes_coalesce .elements countToOne hstate hcounter.1 ?_ hlast⟩
      have hplain : ∀ field ∈ ["n", "m"], state.definition.converter? field = none :=
        fun field hfield => by simpa using List.all_eq_true.mp hcounter.2 field hfield
      intro write hwrite
      exact hplain write.1 (by rcases (by simpa using hwrite) with rfl | rfl | rfl <;> simp)

end Page

end LiveMarkup
