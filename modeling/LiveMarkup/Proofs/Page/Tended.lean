import LiveMarkup.Proofs.Page.Balance
import LiveMarkup.Proofs.Page.Reference

/-!
No line goes stale. Every task that a node calls for has been done for the fields as they are, or it
is still to be done: its chore or its effect is on the agenda, or the effect is due because a field
that it reads was marked.
-/

namespace LiveMarkup

/-- The tasks that a node with a role calls for. -/
def Role.tasks : Role → List Task
  | .line _ sketch => sketch.tasks
  | .anchor _ _ guard _ => [.guardFragment guard]
  | _ => []

theorem Role.tasks_role (o : InstanceId) (sketch : Sketch) :
    (sketch.role o).tasks = sketch.tasks := by
  cases sketch <;> rfl

/-- Whether no attribute is written out twice or bound twice. -/
def Role.Distinct : Role → Prop
  | .line _ sketch => sketch.Distinct
  | _ => True

/-- A node calls for a task of an instance. -/
structure Plan.Wants (plan : Plan) (d : Dom) (o : InstanceId) (n : NodeId) (task : Task) :
    Prop where
  live : d.Live n
  owner : (plan.role n).owner? = some o
  task : task ∈ (plan.role n).tasks

/-- The interpolation that a task evaluates. -/
def Task.interpolation? : Task → Option Interpolation
  | .writeText i => some i
  | .writeUpper i => some i
  | .writeAttribute _ i => some i
  | .guardFragment guard => some guard
  | .mountFragment => none

/-- Whether nothing is written to a node with a role and nothing is put in its place. -/
def Role.isInert : Role → Bool
  | .line _ _ => false
  | .slot _ _ _ => false
  | .anchor _ _ _ _ => false
  | _ => true

theorem Role.isInert_of_tasks {role : Role} {task : Task} (h : task ∈ role.tasks) :
    role.isInert = false := by
  cases role with
  | line o sketch | slot o guard body | anchor o f guard body => rfl
  | document | host c | shadow c | copy c | style c => exact absurd h List.not_mem_nil

def ComponentState.scope (state : ComponentState) : Scope :=
  state.definition.scope state.fields

namespace Page

variable {page page' : Page} {o : InstanceId} {n : NodeId} {task : Task} {field : String}
  {state : ComponentState}

/-- The component that an instance belongs to. -/
def holder? (page : Page) (o : InstanceId) : Option ComponentState :=
  page.component? (page.slot o).component

/-- Whether the component of an instance binds a field. -/
def knows (page : Page) (o : InstanceId) (field : String) : Bool :=
  (page.slot (page.slot o).component).bindings.contains field

/-- A task whose outcome changes only with fields that its component binds. -/
structure Traces (page : Page) (o : InstanceId) (definition : Component) (task : Task) :
    Prop where
  tracked : ∀ i, task.interpolation? = some i → i.Tracked definition
  known : ∀ field ∈ task.fields, page.knows o field = true

/-- What a task is for is there. -/
def Meets (page : Page) (scope : Scope) (role : Role) (n : NodeId) : Task → Prop
  | .guardFragment guard => ∀ o f body, role = .anchor o f guard body →
      page.isMounted f = (guard.outcome scope).isTruthy
  | task => task.Done scope (page.dom.content n)

theorem meets_iff_done {scope : Scope} {role : Role} (h : task.writes = true) :
    page.Meets scope role n task ↔ task.Done scope (page.dom.content n) := by
  cases task with
  | writeText i | writeUpper i | writeAttribute name i => exact Iff.rfl
  | guardFragment guard | mountFragment => cases h

theorem Meets.congr {scope : Scope} {role : Role} (h : page.Meets scope role n task)
    (hcontent : page'.dom.content n = page.dom.content n)
    (hmounted : ∀ o f guard body, role = .anchor o f guard body →
      page'.isMounted f = page.isMounted f) : page'.Meets scope role n task := by
  cases task with
  | guardFragment guard =>
      exact fun o f body hrole => (hmounted o f guard body hrole).trans (h o f body hrole)
  | writeText i | writeUpper i | writeAttribute name i =>
      rw [meets_iff_done rfl] at h ⊢
      rwa [hcontent]
  | mountFragment => trivial

theorem Meets.congr_scope {scope scope' : Scope} {role : Role} (h : page.Meets scope role n task)
    (hsame : ∀ i, task.interpolation? = some i → i.outcome scope' = i.outcome scope) :
    page.Meets scope' role n task := by
  cases task with
  | writeText i =>
      intro s hs
      rw [hsame i rfl] at hs
      exact h s hs
  | writeAttribute name i => exact Eq.trans h (by rw [hsame i rfl])
  | guardFragment guard =>
      exact fun o f body hrole => (h o f body hrole).trans (by rw [hsame guard rfl])
  | writeUpper i | mountFragment => trivial

end Page

namespace Work

/-- A task is a chore that is still to be done. -/
def Awaits (work : Work) (o : InstanceId) (n : NodeId) (task : Task) : Prop :=
  .chore ⟨o, n, .write task task.fields⟩ ∈ work.agenda

/-- An effect that does a task is registered under every field of the task that is bound. -/
def Enlists (work : Work) (o : InstanceId) (n : NodeId) (task : Task) : Prop :=
  ∃ e : Effect, e.node = n ∧ e.task = task ∧ ∀ field ∈ task.fields,
    work.page.knows o field = true → (work.page.slot o).bindings.Registers field e

/-- An effect that does a task is to run or due. -/
def Owes (work : Work) (o : InstanceId) (n : NodeId) (task : Task) : Prop :=
  ∃ e : Effect, e.node = n ∧ e.task = task ∧
    (.run e ∈ work.agenda ∨ e ∈ (work.page.slot o).bindings.due)

/-- A task is registered, and done or still to be done. -/
structure Tends (work : Work) (o : InstanceId) (n : NodeId) (task : Task) : Prop where
  enlisted : work.Awaits o n task ∨ work.Enlists o n task
  shown : ∀ state, work.page.holder? o = some state → (work.plan.role n).Distinct →
    work.page.Traces o state.definition task →
      work.Awaits o n task ∨ work.Owes o n task ∨
        work.page.Meets state.scope (work.plan.role n) n task

end Work

/-- Which fields components have had, by number and definition. -/
abbrev Past :=
  InstanceId → Component → Dict Json → Prop

/-- The fields of all components are part of the past. -/
def Page.Follows (page : Page) (past : Past) : Prop :=
  ∀ c state, page.component? c = some state → past c state.definition state.fields

/-- All tasks are tended, lines hold what has been written to them, and every slot will get its
fragment. -/
structure Tended (past : Past) (work : Work) : Prop where
  tends : ∀ o n task, work.plan.Wants work.page.dom o n task → work.Tends o n task
  bears : ∀ o n sketch state, work.page.dom.Live n → work.plan.role n = .line o sketch →
    sketch.Distinct → work.page.holder? o = some state →
      sketch.Bears state.definition (past (work.page.slot o).component state.definition)
        (work.page.dom.content n)
  planted : ∀ o n guard body, work.page.dom.Live n → work.plan.role n = .slot o guard body →
    ∃ index directive, .chore ⟨o, n, .guard index directive⟩ ∈ work.agenda

/-- Work that a node calls for, unlike taking a marker away or noting a reference or a handler. -/
def Errand.Vital : Errand → Prop
  | .chore ⟨_, _, .write _ _⟩ => True
  | .chore ⟨_, _, .guard _ _⟩ => True
  | .chore _ => False
  | .run _ => True

namespace Page

variable {reading : Blueprint → List Sketch} {page page' page'' : Page} {plan plan' : Plan}
  {c f j o owner : InstanceId} {n : NodeId} {task : Task} {field : String} {e : Effect}
  {agenda agenda' : List Errand} {state : ComponentState}

/-! ### Holders -/

theorem holder?_of_component (horderly : page.Orderly) (hstate : page.component? c = some state) :
    page.holder? c = some state := by
  rw [holder?, (horderly.component_eq c state hstate).2, hstate]

/-- From components down to what lies in them. -/
theorem Orderly.induction {P : InstanceId → Prop} (horderly : page.Orderly)
    (hcomponent : ∀ c state, page.component? c = some state → P c)
    (hfragment : ∀ f p state, page.up f = some p → page.fragment? f = some state → P p → P f)
    (ho : (page.slot o).isVacant = false) : P o := by
  generalize hlength : (page.path o).length = length
  induction length generalizing o with
  | zero =>
      rw [path_eq horderly ho] at hlength
      cases hlength
  | succ length ih =>
      cases hkind : (page.slot o).kind with
      | component state => exact hcomponent o state (Instance.component?_of_kind hkind)
      | fragment state =>
          have hstate : page.fragment? o = some state := Instance.fragment?_of_kind hkind
          obtain ⟨p, hup⟩ := horderly.fragment_parent o state hstate
          have hup : page.up o = some p := hup
          refine hfragment o p state hup hstate (ih (horderly.not_vacant_of_up hup).2 ?_)
          rw [path_eq horderly ho, hup, List.length_cons] at hlength
          exact Nat.succ_injective hlength
      | vacant =>
          rw [Instance.isVacant_iff.mpr hkind] at ho
          cases ho

/-- Fragments bring no names of their own, so an instance sees what its component sees. -/
theorem Laid.scope_eq (h : page.Laid reading plan) (horderly : page.Orderly)
    (ho : (page.slot o).isVacant = false) :
    ∀ state, page.holder? o = some state → page.scope o = state.scope := by
  refine horderly.induction (P := fun o => ∀ state, page.holder? o = some state →
    page.scope o = state.scope) (fun c other hother state hstate => ?_)
    (fun f p other hup hother ih state hstate => ?_) ho
  · rw [holder?_of_component horderly hother, Option.some.injEq] at hstate
    subst hstate
    have hup : page.up c = none := (horderly.component_eq c other hother).1
    have hframe : (page.slot c).frame? = some
        ⟨Dict.empty.insert "this" (fieldsValue other.fields), other.definition.exposed⟩ := by
      rw [Instance.frame?, Instance.kind_of_component? hother]
    rw [scope, path_eq horderly (Instance.not_vacant_of_component? hother), hup]
    simp only [List.filterMap_cons, hframe, List.filterMap_nil]
    rfl
  · obtain ⟨o, guard, body, hsits⟩ := h.fragment f other hother
    have hframe : (page.slot f).frame? = none := by
      rw [Instance.frame?, Instance.kind_of_fragment? hother]
      simp only [hsits.locals]
      rfl
    have hholder : page.holder? p = some state := by
      rwa [holder?, ← horderly.component_up p f hup]
    rw [← ih state hholder, scope, path_eq horderly (Instance.not_vacant_of_fragment? hother), hup]
    simp only [List.filterMap_cons, hframe]
    rfl

end Page

/-! ### Instances that keep what they have registered -/

/-- An instance keeps what it has registered, and a component its fields. -/
structure Instance.Upholds (i i' : Instance) : Prop where
  lasts : i.isVacant = false → i'.isVacant = false ∧ i'.component = i.component
  state : ∀ state, i.component? = some state → ∃ state', i'.component? = some state' ∧
    state'.definition = state.definition ∧ state'.fields = state.fields
  back : i'.component?.isSome = true → i.component?.isSome = true
  contains : ∀ state, i.component? = some state → ∀ field,
    i'.bindings.contains field = i.bindings.contains field
  registers : ∀ field e, i.bindings.Registers field e → i'.bindings.Registers field e

namespace Instance.Upholds

variable {i i' i'' : Instance}

theorem refl (i : Instance) : i.Upholds i where
  lasts hi := ⟨hi, rfl⟩
  state state hstate := ⟨state, hstate, rfl, rfl⟩
  back h := h
  contains _ _ _ := rfl
  registers _ _ he := he

theorem trans (h : i.Upholds i') (h' : i'.Upholds i'') : i.Upholds i'' where
  lasts hi := by
    obtain ⟨hi', hcomponent⟩ := h.lasts hi
    exact ⟨(h'.lasts hi').1, (h'.lasts hi').2.trans hcomponent⟩
  state state hstate := by
    obtain ⟨state', hstate', hdefinition, hfields⟩ := h.state state hstate
    obtain ⟨state'', hstate'', hdefinition', hfields'⟩ := h'.state state' hstate'
    exact ⟨state'', hstate'', hdefinition'.trans hdefinition, hfields'.trans hfields⟩
  back hi := h.back (h'.back hi)
  contains state hstate field := by
    obtain ⟨_, hstate', _⟩ := h.state state hstate
    rw [h'.contains _ hstate', h.contains state hstate]
  registers field e he := h'.registers field e (h.registers field e he)

theorem mapComponent {f : ComponentState → ComponentState}
    (hf : ∀ state, (f state).definition = state.definition ∧ (f state).fields = state.fields)
    (i : Instance) : i.Upholds (i.mapComponent f) := by
  cases hkind : i.kind with
  | component state =>
      have hstate := component?_of_kind hkind
      rw [mapComponent_of_component? hstate]
      refine ⟨fun _ => ⟨rfl, rfl⟩, fun other hother => ⟨_, rfl, ?_⟩, fun _ => by rw [hstate]; rfl,
        fun _ _ _ => rfl, fun _ _ hx => hx⟩
      rw [hstate, Option.some.injEq] at hother
      exact hother ▸ hf state
  | fragment state | vacant =>
      simp only [Instance.mapComponent, hkind]
      exact .refl i

/-- Only what an instance is registered with and waits for has changed. -/
theorem of_record {bindings : Bindings} {children : List InstanceId} {scheduled : Bool}
    (hcontains : ∀ field, bindings.contains field = i.bindings.contains field)
    (hregisters : ∀ field e, i.bindings.Registers field e → bindings.Registers field e) :
    i.Upholds { i with bindings, children, scheduled } where
  lasts hi := ⟨hi, rfl⟩
  state state hstate := ⟨state, hstate, rfl, rfl⟩
  back h := h
  contains _ _ := hcontains
  registers := hregisters

end Instance.Upholds

namespace Page

variable {page page' page'' : Page} {past : Past} {o : InstanceId} {state : ComponentState}
  {field : String}

/-- All instances keep what they have registered, and components their fields. -/
structure Upholds (page page' : Page) : Prop where
  slot : ∀ j, (page.slot j).Upholds (page'.slot j)

namespace Upholds

theorem trans (h : Upholds page page') (h' : Upholds page' page'') : Upholds page page'' :=
  ⟨fun j => (h.slot j).trans (h'.slot j)⟩

theorem follows (h : Upholds page page') (hfollows : page.Follows past) : page'.Follows past := by
  intro c state' hstate'
  obtain ⟨state, hstate⟩ :=
    Option.isSome_iff_exists.mp ((h.slot c).back (Option.isSome_iff_exists.mpr ⟨state', hstate'⟩))
  obtain ⟨other, hother, hdefinition, hfields⟩ := (h.slot c).state state hstate
  rw [component?, hother, Option.some.injEq] at hstate'
  subst hstate'
  rw [hdefinition, hfields]
  exact hfollows c state hstate

theorem of_slot (h : ∀ j, page'.slot j = page.slot j) : Upholds page page' :=
  ⟨fun j => h j ▸ .refl _⟩

/-- What happens to one slot. -/
theorem of_update {f : Instance → Instance} (hf : ∀ i : Instance, i.Upholds (f i)) (page : Page)
    (c : InstanceId) : Upholds page (page.updateSlot c f) where
  slot j := by
    by_cases hj : j = c
    · subst hj
      by_cases hlt : j.number < page.slots.size
      · rw [slot_updateSlot_of_lt hlt]
        exact hf _
      · have hle := Nat.le_of_not_lt hlt
        rw [slot_of_size_le hle, slot_of_size_le (by simpa using hle)]
        exact .refl _
    · rw [slot_updateSlot_of_ne hj]
      exact .refl _

end Upholds

/-- An instance and its component keep what they have registered, and the component its fields. -/
structure UpholdsAt (o : InstanceId) (page page' : Page) : Prop where
  self : (page.slot o).Upholds (page'.slot o)
  holder : (page.slot (page.slot o).component).Upholds (page'.slot (page.slot o).component)

theorem Upholds.near (h : Upholds page page') (o : InstanceId) : UpholdsAt o page page' :=
  ⟨h.slot o, h.slot _⟩

namespace UpholdsAt

variable (h : UpholdsAt o page page') (ho : (page.slot o).isVacant = false)
  (hholder : (page.holder? o).isSome = true)

include h ho hholder

theorem knows (field : String) : page'.knows o field = page.knows o field := by
  obtain ⟨state, hstate⟩ := Option.isSome_iff_exists.mp hholder
  rw [Page.knows, (h.self.lasts ho).2, h.holder.contains state hstate, Page.knows]

theorem state_of_holder? (hstate : page'.holder? o = some state) :
    ∃ old, page.holder? o = some old ∧ old.definition = state.definition ∧
      old.scope = state.scope := by
  obtain ⟨old, hold⟩ := Option.isSome_iff_exists.mp hholder
  obtain ⟨other, hother, hdefinition, hfields⟩ := h.holder.state old hold
  rw [holder?, (h.self.lasts ho).2, component?, hother, Option.some.injEq] at hstate
  subst hstate
  exact ⟨old, hold, hdefinition.symm, by
    rw [ComponentState.scope, ComponentState.scope, hdefinition, hfields]⟩

end UpholdsAt

end Page

namespace Work

open Page

variable {page page' : Page} {plan plan' : Plan} {o : InstanceId} {n : NodeId} {task : Task}
  {agenda agenda' : List Errand}

theorem Owes.mono (h : Work.Owes ⟨page, plan, agenda⟩ o n task)
    (hrun : ∀ e : Effect, e.node = n → e.task = task → .run e ∈ agenda → .run e ∈ agenda')
    (hdue : ∀ e, e ∈ (page.slot o).bindings.due → e ∈ (page'.slot o).bindings.due) :
    Work.Owes ⟨page', plan', agenda'⟩ o n task := by
  obtain ⟨e, hnode, htask, hagenda | hmem⟩ := h
  · exact ⟨e, hnode, htask, Or.inl (hrun e hnode htask hagenda)⟩
  · exact ⟨e, hnode, htask, Or.inr (hdue e hmem)⟩

/-- A task that is registered or still a chore stays so, and what is owed or done is owed or done. -/
theorem Tends.keep (h : Work.Tends ⟨page, plan, agenda⟩ o n task)
    (hupholds : UpholdsAt o page page') (ho : (page.slot o).isVacant = false)
    (hholder : (page.holder? o).isSome = true) (hrole : plan'.role n = plan.role n)
    (hchore : .chore ⟨o, n, .write task task.fields⟩ ∈ agenda →
      .chore ⟨o, n, .write task task.fields⟩ ∈ agenda')
    (hshown : ∀ state, page.holder? o = some state → (plan.role n).Distinct →
      Work.Owes ⟨page, plan, agenda⟩ o n task ∨ page.Meets state.scope (plan.role n) n task →
        Work.Owes ⟨page', plan', agenda'⟩ o n task ∨
          page'.Meets state.scope (plan.role n) n task) :
    Work.Tends ⟨page', plan', agenda'⟩ o n task where
  enlisted := by
    rcases h.enlisted with hawaits | ⟨e, hnode, htask, hregisters⟩
    · exact Or.inl (hchore hawaits)
    · refine Or.inr ⟨e, hnode, htask, fun field hfield hknows => ?_⟩
      change page'.knows o field = true at hknows
      rw [hupholds.knows ho hholder] at hknows
      exact hupholds.self.registers field e (hregisters field hfield hknows)
  shown state hstate hdistinct htraces := by
    obtain ⟨old, hold, hdefinition, hscope⟩ := hupholds.state_of_holder? ho hholder hstate
    dsimp only at hdistinct ⊢
    rw [hrole] at hdistinct ⊢
    have htraces' : page.Traces o old.definition task := by
      refine ⟨fun i hi => hdefinition ▸ htraces.tracked i hi, fun field hfield => ?_⟩
      rw [← hupholds.knows ho hholder]
      exact htraces.known field hfield
    rcases h.shown old hold hdistinct htraces' with hawaits | hrest
    · exact Or.inl (hchore hawaits)
    · exact Or.inr (hscope ▸ hshown old hold hdistinct hrest)

end Work

/-- A node for which nothing has been written yet, with all that it calls for under way. -/
structure Work.Fresh (work : Work) (n : NodeId) : Prop where
  tends : ∀ o task, (work.plan.role n).owner? = some o → task ∈ (work.plan.role n).tasks →
    work.Tends o n task
  bears : ∀ o sketch (definition : Component) past, work.plan.role n = .line o sketch →
    sketch.Distinct → sketch.Bears definition past (work.page.dom.content n)
  planted : ∀ o guard body, work.plan.role n = .slot o guard body →
    ∃ index directive, .chore ⟨o, n, .guard index directive⟩ ∈ work.agenda

theorem Work.Fresh.of_inert {work : Work} {n : NodeId} (h : (work.plan.role n).isInert = true) :
    work.Fresh n where
  tends o task _ htask := by
    rw [Role.isInert_of_tasks htask] at h
    cases h
  bears o sketch definition past hline := by
    rw [hline] at h
    cases h
  planted o guard body hslot := by
    rw [hslot] at h
    cases h

namespace Tended

open Page

variable {reading : Blueprint → List Sketch} {page page' : Page} {plan plan' : Plan}
  {past : Past} {agenda agenda' : List Errand}

/-- Tasks stay tended when what is not done or owed any more as before is tended in another way. -/
theorem next (h : Tended past ⟨page, plan, agenda⟩) (hlaid : page.Laid reading plan)
    (hbelongs : ∀ o, (page.slot o).isVacant = false → (page.holder? o).isSome = true)
    (hupholds : ∀ o n, page'.dom.Live n → page.dom.Live n → (plan.role n).isInert = false →
      (plan.role n).owner? = some o → UpholdsAt o page page')
    (hnodes : ∀ n, page'.dom.Live n → (page.dom.Live n ∧ plan'.role n = plan.role n) ∨
      Work.Fresh ⟨page', plan', agenda'⟩ n)
    (htends : ∀ o n task, page'.dom.Live n → plan.Wants page.dom o n task →
      plan'.role n = plan.role n → Work.Tends ⟨page', plan', agenda'⟩ o n task ∨
        (.chore ⟨o, n, .write task task.fields⟩ ∈ agenda →
          .chore ⟨o, n, .write task task.fields⟩ ∈ agenda') ∧
        ∀ state, page.holder? o = some state → (plan.role n).Distinct →
          Work.Owes ⟨page, plan, agenda⟩ o n task ∨
              page.Meets state.scope (plan.role n) n task →
            Work.Owes ⟨page', plan', agenda'⟩ o n task ∨
              page'.Meets state.scope (plan.role n) n task)
    (hbears : ∀ o n sketch state, page'.dom.Live n → page.dom.Live n →
      plan.role n = .line o sketch → sketch.Distinct → page.holder? o = some state →
        sketch.Bears state.definition (past (page.slot o).component state.definition)
          (page.dom.content n) →
            sketch.Bears state.definition (past (page.slot o).component state.definition)
              (page'.dom.content n))
    (hplanted : ∀ o n index directive, page'.dom.Live n →
      .chore ⟨o, n, .guard index directive⟩ ∈ agenda →
        .chore ⟨o, n, .guard index directive⟩ ∈ agenda') : Tended past ⟨page', plan', agenda'⟩ where
  tends o n task hwants := by
    rcases hnodes n hwants.live with ⟨hn, hrole⟩ | hfresh
    · have hwants' : plan.Wants page.dom o n task :=
        ⟨hn, hrole ▸ hwants.owner, hrole ▸ hwants.task⟩
      have ho := hlaid.owner_not_vacant hn hwants'.owner
      rcases htends o n task hwants.live hwants' hrole with hdone | ⟨hchore, hshown⟩
      · exact hdone
      · exact (h.tends o n task hwants').keep (hupholds o n hwants.live hn
          (Role.isInert_of_tasks hwants'.task) hwants'.owner) ho (hbelongs o ho) hrole hchore hshown
    · exact hfresh.tends o task hwants.owner hwants.task
  bears o n sketch state hn hline hdistinct hstate := by
    rcases hnodes n hn with ⟨hold, hrole⟩ | hfresh
    · have hline' : plan.role n = .line o sketch := hrole ▸ hline
      have howner : (plan.role n).owner? = some o := by rw [hline']; rfl
      have ho := hlaid.owner_not_vacant hold howner
      have hnear := hupholds o n hn hold (by rw [hline']; rfl) howner
      obtain ⟨old, hold', hdefinition, _⟩ := hnear.state_of_holder? ho (hbelongs o ho) hstate
      dsimp only
      rw [← hdefinition, (hnear.self.lasts ho).2]
      exact hbears o n sketch old hn hold hline' hdistinct hold'
        (h.bears o n sketch old hold hline' hdistinct hold')
    · exact hfresh.bears o sketch state.definition _ hline hdistinct
  planted o n guard body hn hslot := by
    rcases hnodes n hn with ⟨hold, hrole⟩ | hfresh
    · obtain ⟨index, directive, hmem⟩ := h.planted o n guard body hold (hrole ▸ hslot)
      exact ⟨index, directive, hplanted o n index directive hn hmem⟩
    · exact hfresh.planted o guard body hslot

/-- What leaves nodes, mounts and everything registered alone keeps tasks tended, as long as chores
that are called for stay and what is owed is still owed. -/
theorem keep (h : Tended past ⟨page, plan, agenda⟩) (hlaid : page.Laid reading plan)
    (hbelongs : ∀ o, (page.slot o).isVacant = false → (page.holder? o).isSome = true)
    (hupholds : ∀ o n, page'.dom.Live n → page.dom.Live n → (plan.role n).isInert = false →
      (plan.role n).owner? = some o → UpholdsAt o page page')
    (howes : ∀ o n task, Work.Owes ⟨page, plan, agenda⟩ o n task →
      Work.Owes ⟨page', plan', agenda'⟩ o n task)
    (hnodes : ∀ n, page'.dom.Live n → (page.dom.Live n ∧ plan'.role n = plan.role n) ∨
      Work.Fresh ⟨page', plan', agenda'⟩ n)
    (hcontent : ∀ n, page.dom.Live n → (plan.role n).isInert = false →
      page'.dom.content n = page.dom.content n)
    (hmounted : ∀ f, page'.isMounted f = page.isMounted f)
    (hchores : ∀ chore, .chore chore ∈ agenda → (Errand.chore chore).Vital →
      .chore chore ∈ agenda') : Tended past ⟨page', plan', agenda'⟩ := by
  refine h.next hlaid hbelongs hupholds hnodes (fun o n task _ hwants _ => Or.inr
    ⟨fun hmem => hchores _ hmem trivial, fun state _ _ hrest => hrest.imp (howes o n task)
      fun hmeets => ?_⟩) (fun o n sketch state _ hn hline _ _ hbears => ?_)
    fun _ _ _ _ _ hmem => hchores _ hmem trivial
  · exact hmeets.congr (hcontent n hwants.live (Role.isInert_of_tasks hwants.task))
      fun _ f _ _ _ => hmounted f
  · rw [hcontent n hn (by rw [hline]; rfl)]
    exact hbears

end Tended

end LiveMarkup
