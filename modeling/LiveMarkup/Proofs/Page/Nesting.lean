import LiveMarkup.Proofs.Page.Listening

/-!
# Nested writes

A hook may write a field and so run itself. `Stores` and `Performs` say what writes and scripts come
to without counting how deep they nest. Where no write was nested too deep, the bounded evaluation
came to just that (`stores_of_write`, `performs_of_script`), and only hooks that write in a circle
nest too deep (`Ending.write`, `Ending.run`).
-/

namespace LiveMarkup

/-- All fields that a script may come to write are allowed. -/
def Script.Writes (allowed : String → Prop) : Script → Prop
  | .done => True
  | .get _ next => ∀ answer, (next answer).Writes allowed
  | .look next => ∀ view, (next view).Writes allowed
  | .set field _ next => allowed field ∧ next.Writes allowed
  | .mark _ next => next.Writes allowed
  | .edit _ next => next.Writes allowed
  | .note _ next => next.Writes allowed

theorem Script.writes_true (script : Script) : script.Writes fun _ => True := by
  induction script with
  | done => trivial
  | get _ _ ih => exact ih
  | look _ ih => exact ih
  | set _ _ _ ih => exact ⟨trivial, ih⟩
  | mark _ _ ih => exact ih
  | edit _ _ ih => exact ih
  | note _ _ ih => exact ih

/-- What is written to one field makes a hook write only to fields below it. -/
def Component.Descends (c : Component) (rank : String → Nat) : Prop :=
  ∀ hooks, c.hooks = some hooks → ∀ field value,
    (hooks.changed field value).Writes fun other => rank other < rank field

/-- The hooks of a component do not write in a circle. -/
def Component.Ends (c : Component) : Prop :=
  ∃ rank : String → Nat, (∀ field, rank field < Page.nestingLimit) ∧ c.Descends rank

namespace Page

variable {page page' : Page} {id : InstanceId}

/-- The hooks that a component has. -/
def hooks? (page : Page) (id : InstanceId) : Option Hooks :=
  (page.component? id).bind (·.definition.hooks)

mutual

/-- A component stores a value, and its hook runs. -/
inductive Stores (id : InstanceId) : String → Json → Page → Page → Prop where
  | plain {field : String} {value : Json} {page : Page} :
      (page.store id field value).hooks? id = none →
      Stores id field value page (page.store id field value)
  | hooked {field : String} {value : Json} {page page' : Page} {hooks : Hooks} :
      (page.store id field value).hooks? id = some hooks →
      Performs id (hooks.changed field value) (page.store id field value) page' →
      Stores id field value page page'

/-- A script of a component runs to its end. -/
inductive Performs (id : InstanceId) : Script → Page → Page → Prop where
  | done {page : Page} : Performs id .done page page
  | get {field : String} {next : Option Json → Script} {page page' : Page} :
      Performs id (next (page.field? id field)) page page' →
      Performs id (.get field next) page page'
  | look {next : View → Script} {state : ComponentState} {page page' : Page} :
      page.component? id = some state →
      Performs id (next ⟨id, state.references, state.host, state.root, page.dom⟩) page page' →
      Performs id (.look next) page page'
  | blind {next : View → Script} {page : Page} :
      page.component? id = none → Performs id (.look next) page page
  | set {field : String} {value : Json} {next : Script} {page middle page' : Page} :
      Stores id field value page middle → Performs id next middle page' →
      Performs id (.set field value next) page page'
  | mark {field : String} {next : Script} {page page' : Page} :
      Performs id next (page.markChanged id field) page' →
      Performs id (.mark field next) page page'
  | edit {change : Dom → Dom} {next : Script} {page page' : Page} :
      Performs id next (page.editDom change) page' → Performs id (.edit change next) page page'
  | note {entry : Json} {next : Script} {page page' : Page} :
      Performs id next { page with journal := page.journal.push entry } page' →
      Performs id (.note entry next) page page'

end

/-! ### What writes leave alone -/

section Keeps

variable {P : Page → Prop} (hslot : ∀ page id f, P page → P (page.updateSlot id f))
  (hasks : ∀ (page : Page) queue n, P page →
    P ({ page with queue := queue }.report (.passRequested n)))

include hslot hasks

theorem requestPass_keeps (id : InstanceId) (hpage : P page) : P (page.requestPass id) := by
  unfold requestPass
  split
  · split
    · exact hpage
    · exact hasks _ _ _ (hslot page id _ hpage)
  · exact hpage

theorem markAt_keeps (field : String) (id : InstanceId) (hpage : P page) :
    P (markAt field page id) := by
  unfold markAt
  split
  · unfold schedule
    have hmarked := hslot page id (·.mapBindings (·.mark field)) hpage
    split
    · exact requestPass_keeps hslot hasks id hmarked
    · exact requestPass_keeps hslot hasks _ (hslot _ id _ hmarked)
    · exact hmarked
  · exact hpage

theorem markChanged_keeps (id : InstanceId) (field : String) (hpage : P page) :
    P (page.markChanged id field) :=
  foldl_respects (fun _ i _ hpage => markAt_keeps hslot hasks field i hpage) hpage

theorem store_keeps (hdom : ∀ page change, P page → P (page.editDom change)) (id : InstanceId)
    (field : String) (value : Json) (hpage : P page) : P (page.store id field value) := by
  have hmarked : P ((page.putField id field value).markChanged id field) :=
    markChanged_keeps hslot hasks id field (hslot page id _ hpage)
  exact reflect_keeps (fun _ _ _ _ => hdom _ _ hmarked) hmarked field

end Keeps

/-! ### Writes nested too deep -/

theorem overrun_store (page : Page) (id : InstanceId) (field : String) (value : Json) :
    (page.store id field value).overrun = page.overrun :=
  store_keeps (P := fun other => other.overrun = page.overrun)
    (fun _ _ _ h => h) (fun _ _ _ h => h) (fun _ _ h => h) id field value rfl

theorem overrun_markChanged (page : Page) (id : InstanceId) (field : String) :
    (page.markChanged id field).overrun = page.overrun :=
  markChanged_keeps (P := fun other => other.overrun = page.overrun)
    (fun _ _ _ h => h) (fun _ _ _ h => h) id field rfl

/-- Once a write was nested too deep, the page says so. -/
theorem overrun_respects (id : InstanceId) :
    Respects (fun _ => True) id fun page => page.overrun = true where
  store page field value h := (overrun_store page id field value).trans h
  mark page field h := (overrun_markChanged page id field).trans h
  edit _ _ _ h := h
  note _ _ h := h
  overrun _ _ := rfl
  scripts _ state _ _ := state.definition.edits_true

theorem not_overrun_of_write {field : String} {value : Json}
    (h : (write id field value page).overrun = false) : page.overrun = false := by
  by_contra hover
  have hlate := write_respects (overrun_respects id) field value (Bool.not_eq_false _ ▸ hover)
  rw [h] at hlate
  cases hlate

theorem not_overrun_of_run {write : String → Json → Page → Page}
    (hkeeps : ∀ page field value, page.overrun = true → (write field value page).overrun = true)
    {script : Script} (h : (run write id script page).overrun = false) : page.overrun = false := by
  by_contra hover
  have hlate := run_respects (overrun_respects id) hkeeps script.edits_true
    (Bool.not_eq_false _ ▸ hover)
  rw [h] at hlate
  cases hlate

/-! ### Evaluation without a bound -/

theorem performs_of_run {write : String → Json → Page → Page}
    (hkeeps : ∀ page field value, page.overrun = true → (write field value page).overrun = true)
    (hwrite : ∀ page field value, (write field value page).overrun = false →
      Stores id field value page (write field value page))
    {script : Script} (hrun : (run write id script page).overrun = false) :
    Performs id script page (run write id script page) := by
  induction script generalizing page with
  | done => exact .done
  | get field next ih => exact .get (ih _ hrun)
  | look next ih =>
      rw [run] at hrun ⊢
      split
      · rename_i hstate
        rw [hstate] at hrun
        exact .look hstate (ih _ hrun)
      · rename_i hnone
        exact .blind hnone
  | set field value next ih =>
      have hwritten : (write field value page).overrun = false := not_overrun_of_run hkeeps hrun
      exact .set (hwrite page field value hwritten) (ih hrun)
  | mark field next ih => exact .mark (ih hrun)
  | edit change next ih => exact .edit (ih hrun)
  | note entry next ih => exact .note (ih hrun)

theorem stores_of_writeWithin {nesting : Nat} {field : String} {value : Json}
    (h : (writeWithin nesting id field value page).overrun = false) :
    Stores id field value page (writeWithin nesting id field value page) := by
  induction nesting generalizing page field value with
  | zero => cases h
  | succ nesting ih =>
      have hkeeps : ∀ page field value, page.overrun = true →
          (writeWithin nesting id field value page).overrun = true :=
        fun _ field value hpage =>
          writeWithin_respects (overrun_respects id) nesting field value hpage
      rw [writeWithin, runHook] at h ⊢
      split
      · rename_i hooks hhooks
        rw [hhooks] at h
        exact .hooked hhooks (performs_of_run hkeeps (fun _ _ _ => ih) h)
      · rename_i hnone
        exact .plain hnone

/-- The bound on how deep writes nest does not matter unless it is reached. -/
theorem stores_of_write {field : String} {value : Json}
    (h : (write id field value page).overrun = false) :
    page.overrun = false ∧ Stores id field value page (write id field value page) :=
  ⟨not_overrun_of_write h, stores_of_writeWithin h⟩

theorem performs_of_script {script : Script}
    (h : (run (write id) id script page).overrun = false) :
    page.overrun = false ∧ Performs id script page (run (write id) id script page) := by
  have hkeeps : ∀ page field value, page.overrun = true →
      (write id field value page).overrun = true :=
    fun _ field value hpage => write_respects (overrun_respects id) field value hpage
  exact ⟨not_overrun_of_run hkeeps h,
    performs_of_run hkeeps (fun _ _ _ hwritten => (stores_of_write hwritten).2) h⟩

/-! ### Writes that end -/

/-- No write was nested too deep, and the hooks of the component write only downwards. -/
def Descending (id : InstanceId) (rank : String → Nat) (page : Page) : Prop :=
  page.overrun = false ∧ ∀ definition, page.definition? id = some definition →
    definition.Descends rank

section Descending

variable {rank : String → Nat}

theorem Descending.calm (h : Descending id rank page) (hcalm : Calm page page')
    (hoverrun : page'.overrun = page.overrun) : Descending id rank page' :=
  ⟨hoverrun.trans h.1, fun definition hdefinition =>
    h.2 definition ((hcalm.definition?_eq id).symm.trans hdefinition)⟩

/-- A script ends if all that it writes does. -/
theorem run_ends {allowed : String → Prop} {write : String → Json → Page → Page}
    (hwrite : ∀ page field value, allowed field → Descending id rank page →
      Descending id rank (write field value page))
    {script : Script} (hscript : script.Writes allowed) (hpage : Descending id rank page) :
    Descending id rank (run write id script page) := by
  induction script generalizing page with
  | done => exact hpage
  | get field next ih => exact ih _ (hscript _) hpage
  | look next ih =>
      rw [run]
      split
      · exact ih _ (hscript _) hpage
      · exact hpage
  | set field value next ih =>
      obtain ⟨hfield, hnext⟩ := hscript
      exact ih hnext (hwrite page field value hfield hpage)
  | mark field next ih =>
      exact ih hscript (hpage.calm (idle_markChanged page id field).toCalm
        (overrun_markChanged page id field))
  | edit change next ih => exact ih hscript (hpage.calm (calm_editDom page change) rfl)
  | note entry next ih =>
      exact ih hscript (hpage.calm (calm_of_slots rfl rfl rfl rfl rfl rfl rfl rfl) rfl)

theorem writeWithin_ends {nesting : Nat} {field : String} (hrank : rank field < nesting)
    (value : Json) (hpage : Descending id rank page) :
    Descending id rank (writeWithin nesting id field value page) := by
  induction nesting generalizing page field value with
  | zero => omega
  | succ nesting ih =>
      have hstored : Descending id rank (page.store id field value) :=
        hpage.calm (calm_store page id field value) (overrun_store page id field value)
      rw [writeWithin, runHook]
      split
      · rename_i hooks hhooks
        obtain ⟨state, hstate, hsome⟩ := Option.bind_eq_some_iff.mp hhooks
        have hdefinition : (page.store id field value).definition? id = some state.definition := by
          rw [definition?, hstate, Option.map_some]
        have hwrites := hstored.2 state.definition hdefinition hooks hsome field value
        refine run_ends (fun page other value hother hpage => ?_) hwrites hstored
        apply ih _ value hpage
        omega
      · exact hstored

end Descending

/-- No hooks of the page write in a circle, and no write was nested too deep. -/
structure Ending (page : Page) : Prop where
  hooks : ∀ id definition, page.definition? id = some definition → definition.Ends
  within : page.overrun = false

namespace Ending

variable {state : ComponentState}

theorem hooks_respects (id : InstanceId) : Respects (fun _ => True) id fun page =>
    ∀ id definition, page.definition? id = some definition → definition.Ends :=
  calm_respects
    (fun _ _ hcalm hpage id definition hdefinition =>
      hpage id definition ((hcalm.definition?_eq id).symm.trans hdefinition))
    (fun _ state _ _ => state.definition.edits_true)

theorem exists_descending (h : page.Ending) (hstate : page.component? id = some state) :
    ∃ rank, (∀ field, rank field < nestingLimit) ∧ Descending id rank page := by
  have hdefinition : page.definition? id = some state.definition := by
    rw [definition?, hstate, Option.map_some]
  obtain ⟨rank, hlimit, hdescends⟩ := h.hooks id state.definition hdefinition
  refine ⟨rank, hlimit, h.within, fun other hother => ?_⟩
  rw [hdefinition, Option.some.injEq] at hother
  exact hother ▸ hdescends

theorem write (h : page.Ending) (hstate : page.component? id = some state) (field : String)
    (value : Json) : (write id field value page).Ending where
  hooks := write_respects (hooks_respects id) field value h.hooks
  within := by
    obtain ⟨rank, hlimit, hpage⟩ := h.exists_descending hstate
    exact (writeWithin_ends (hlimit field) value hpage).1

theorem run (h : page.Ending) (hstate : page.component? id = some state) (script : Script) :
    (run (Page.write id) id script page).Ending where
  hooks := run_respects (hooks_respects id)
    (fun _ field value hpage => write_respects (hooks_respects id) field value hpage)
    script.edits_true h.hooks
  within := by
    obtain ⟨rank, hlimit, hpage⟩ := h.exists_descending hstate
    have hwrite : ∀ page field value, True → Descending id rank page →
        Descending id rank (Page.write id field value page) :=
      fun _ field value _ hpage => writeWithin_ends (hlimit field) value hpage
    exact (run_ends hwrite script.writes_true hpage).1

end Ending

/-! ### Notices -/

/-- Scripts and writes report nothing but passes that components ask for. -/
theorem notices_respects {told : Notice → Prop} (htold : ∀ n, told (.passRequested n))
    (id : InstanceId) :
    Respects (fun _ => True) id fun page => ∀ notice ∈ page.notices, told notice := by
  have hasks : ∀ (page : Page) queue n, (∀ notice ∈ page.notices, told notice) →
      ∀ notice ∈ ({ page with queue := queue }.report (.passRequested n)).notices,
        told notice := by
    intro page queue n h notice hmem
    obtain hmem | rfl := Array.mem_push.mp hmem
    · exact h notice hmem
    · exact htold n
  exact
    { store := fun _ field value h =>
        store_keeps (P := fun page => ∀ notice ∈ page.notices, told notice)
          (fun _ _ _ h => h) hasks (fun _ _ h => h) id field value h
      mark := fun _ field h =>
        markChanged_keeps (P := fun page => ∀ notice ∈ page.notices, told notice)
          (fun _ _ _ h => h) hasks id field h
      edit := fun _ _ _ h => h
      note := fun _ _ h => h
      overrun := fun _ h => h
      scripts := fun _ state _ _ => state.definition.edits_true }

end Page

end LiveMarkup
