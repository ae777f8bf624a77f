import LiveMarkup.Proofs.Placement

/-!
Pages on which no line is stale. Storing a field makes due whatever reads it, so scripts keep a page
attuned; passes run what is due, and a component that is connected or taken down brings or takes its
lines with it.
-/

namespace LiveMarkup

/-- The outcomes of a task read its fields alone. -/
theorem Task.dependencies_eq {task : Task} {i : Interpolation} (h : task.interpolation? = some i) :
    task.fields = i.dependencies := by
  cases task <;> cases h <;> rfl

namespace Page

variable {reading : Blueprint → List Sketch} {page page' : Page} {plan plan' : Plan}
  {past past' : Past} {c j o : InstanceId} {n document : NodeId} {field : String} {value : Json}
  {task : Task} {e : Effect} {state : ComponentState}

/-! ### What a mark makes due -/

theorem mem_due_markAt (horderly : page.Orderly) (field : String) (c : InstanceId) :
    e ∈ ((markAt field page c).slot j).bindings.due ↔ e ∈ (page.slot j).bindings.due ∨
      (j = c ∧ (page.slot j).bindings.Registers field e) := by
  rcases markAt_cases horderly field c with ⟨_, next, hdyed, heq⟩ | ⟨hcontains, heq⟩
  · rw [heq, bindings_requestPass, hdyed.slot]
    split
    · rename_i hj
      rw [Bindings.mem_due_mark]
      simp [hj]
    · simp [*]
  · rw [heq]
    refine ⟨Or.inl, fun h => h.resolve_right ?_⟩
    rintro ⟨rfl, hregisters⟩
    rw [hregisters.contains] at hcontains
    cases hcontains

theorem mem_due_markChanged (horderly : page.Orderly) (c : InstanceId) (field : String) :
    e ∈ ((page.markChanged c field).slot j).bindings.due ↔ e ∈ (page.slot j).bindings.due ∨
      (j ∈ page.family c ∧ (page.slot j).bindings.Registers field e) := by
  have hfold : ∀ (ids : List InstanceId) (page : Page), page.Orderly →
      (e ∈ ((ids.foldl (markAt field) page).slot j).bindings.due ↔
        e ∈ (page.slot j).bindings.due ∨
          (j ∈ ids ∧ (page.slot j).bindings.Registers field e)) := by
    intro ids
    induction ids with
    | nil => simp
    | cons i rest ih =>
        intro page horderly
        have hmarked := markAt_marked horderly field i
        rw [List.foldl_cons, ih _ (hmarked.orderly horderly), mem_due_markAt horderly,
          (hmarked.slot j).registers, List.mem_cons]
        tauto
  exact hfold _ _ horderly

/-! ### Attuned pages -/

/-- A page at rest on which no line is stale, where style sheets are of components that have some. -/
structure Attuned (reading : Blueprint → List Sketch) (past : Past) (page : Page) (plan : Plan) :
    Prop where
  rested : page.Rested reading plan
  tended : Tended past ⟨page, plan, []⟩
  dressed : ∀ n c, page.dom.Live n → plan.role n = .style c →
    ∃ state, page.component? c = some state ∧ state.definition.styles ≠ []

namespace Attuned

theorem laid (h : page.Attuned reading past plan) : page.Laid reading plan :=
  h.rested.busy.laid

theorem next (h : page.Attuned reading past plan) (hrested : page'.Rested reading plan')
    (hupholds : Upholds page page') (htended : Tended past ⟨page', plan', []⟩)
    (hstyles : ∀ n c, page'.dom.Live n → plan'.role n = .style c →
      page.dom.Live n ∧ plan.role n = .style c) : page'.Attuned reading past plan' where
  rested := hrested
  tended := htended
  dressed n c hn hrole := by
    obtain ⟨hn, hrole⟩ := hstyles n c hn hrole
    obtain ⟨state, hstate, hdressed⟩ := h.dressed n c hn hrole
    obtain ⟨state', hstate', hdefinition, _⟩ := (hupholds.slot c).state state hstate
    exact ⟨state', hstate', by rwa [hdefinition]⟩

/-- What the work of a component does to the page. -/
theorem carried (h : page.Attuned reading past plan) (hfollows : page.Follows past)
    (hrested : page'.Rested reading plan')
    (hcarries : Work.Carries c ⟨page, plan, []⟩ ⟨page', plan', []⟩) :
    page'.Attuned reading past plan' :=
  h.next hrested hcarries.upholds (hcarries.tended past hfollows h.tended) hcarries.styles

/-- The nodes and what is registered stay. -/
theorem still (h : page.Attuned reading past plan) (horderly : page.Orderly)
    (hrested : page'.Rested reading plan) (hupholds : Upholds page page')
    (hdue : ∀ o e, e ∈ (page.slot o).bindings.due → e ∈ (page'.slot o).bindings.due)
    (hlive : ∀ n, page'.dom.Live n → page.dom.Live n)
    (hcontent : ∀ n, page.dom.Live n → (plan.role n).isInert = false →
      page'.dom.content n = page.dom.content n)
    (hmounted : ∀ f, page'.isMounted f = page.isMounted f) : page'.Attuned reading past plan := by
  refine h.next hrested hupholds ?_ fun n _ hn hrole => ⟨hlive n hn, hrole⟩
  exact h.tended.keep h.laid horderly.belongs (fun o _ _ _ _ _ => hupholds.near o)
    (fun o _ _ howes => howes.mono (fun _ _ _ hmem => hmem) (hdue o))
    (fun n hn => Or.inl ⟨hlive n hn, rfl⟩) hcontent hmounted fun _ hmem _ => hmem

/-- Slots and nodes stay. -/
theorem same (h : page.Attuned reading past plan) (horderly : page.Orderly) (hidle : Idle page page')
    (hslots : ∀ j, page'.slot j = page.slot j) : page'.Attuned reading past plan :=
  h.still horderly (h.rested.idle hidle) (.of_slot hslots) (fun o e he => by rwa [hslots])
    (fun n hn => by rwa [hidle.dom] at hn) (fun n _ _ => by rw [hidle.dom])
    fun f => isMounted_congr (hidle.toCalm.fragment? f)

/-- An attribute of a host may be anything. -/
theorem put (h : page.Attuned reading past plan) (horderly : page.Orderly)
    (hstate : page.component? c = some state) (name : String) (value : Option String) :
    (page.editDom (·.putAttribute state.host name value)).Attuned reading past plan := by
  have hhost := (h.laid.component c state hstate).host_role
  have hrewritten := Dom.putAttribute_rewritten h.laid.valid state.host name value
  refine h.still horderly (h.rested.put hstate name value) (.of_slot fun _ => rfl)
    (fun _ _ he => he) (fun n hn => (hrewritten.live n).mp hn) (fun n _ hinert => ?_) fun _ => rfl
  refine Dom.content_putAttribute_of_ne ?_ name value
  rintro rfl
  rw [hhost] at hinert
  cases hinert

theorem reflect (h : page.Attuned reading past plan) (horderly : page.Orderly) (c : InstanceId)
    (field : String) : (page.reflect c field).Attuned reading past plan :=
  reflect_keeps (P := fun next => next.Attuned reading past plan)
    (fun _ name value hstate => h.put horderly hstate name value) h field

theorem mark (h : page.Attuned reading past plan) (horderly : page.Orderly) (c : InstanceId)
    (field : String) : (page.markChanged c field).Attuned reading past plan := by
  have hmarked := markChanged_marked horderly c field
  have hidle := idle_markChanged page c field
  refine h.still horderly (h.rested.idle hidle) ⟨fun j => ?_⟩
    (fun o e he => (mem_due_markChanged horderly c field).mpr (Or.inl he))
    (fun n hn => by rwa [hidle.dom] at hn) (fun n _ _ => by rw [hidle.dom])
    fun f => isMounted_congr (hidle.toCalm.fragment? f)
  obtain ⟨bindings, scheduled, hslot⟩ := (hmarked.slot j).record
  have hcontains := (hmarked.slot j).contains
  have hregisters := (hmarked.slot j).registers
  rw [hslot] at hcontains hregisters ⊢
  exact .of_record hcontains fun field e he => (hregisters field e).mpr he

end Attuned

/-! ### Storing a field -/

/-- A field of a component is stored and marked, and all else stays. -/
structure Stored (c : InstanceId) (field : String) (page page' : Page) : Prop where
  idle : Idle page page'
  registers : ∀ j other e, (page'.slot j).bindings.Registers other e ↔
    (page.slot j).bindings.Registers other e
  knows : ∀ o other, page'.knows o other = page.knows o other
  due : ∀ j e, e ∈ (page.slot j).bindings.due → e ∈ (page'.slot j).bindings.due
  marked : ∀ o e, (page.slot o).isVacant = false → (page.slot o).component = c →
    (page.slot o).bindings.Registers field e → e ∈ (page'.slot o).bindings.due
  back : ∀ j state', page'.component? j = some state' → ∃ state, page.component? j = some state ∧
    state'.definition = state.definition ∧
      ∀ other, (j = c → other ≠ field) → state'.fields.get? other = state.fields.get? other

theorem component?_putField_back (h : (page.putField c field value).component? j = some state) :
    ∃ old, page.component? j = some old ∧ state.definition = old.definition ∧
      ∀ other, (j = c → other ≠ field) → state.fields.get? other = old.fields.get? other := by
  rw [component?, slot_putField] at h
  split at h
  · rename_i hj
    cases hkind : (page.slot j).kind with
    | component old =>
        have hold := Instance.component?_of_kind hkind
        rw [Instance.mapComponent_of_component? hold] at h
        cases h
        refine ⟨old, hold, rfl, fun other hother => ?_⟩
        rw [Dict.get?_insert, if_neg (hother hj)]
    | fragment old | vacant => simp [Instance.mapComponent, Instance.component?, hkind] at h
  · exact ⟨state, h, rfl, fun _ _ => rfl⟩

theorem stored_putField (horderly : page.Orderly) (c : InstanceId) (field : String) (value : Json) :
    Stored c field page ((page.putField c field value).markChanged c field) := by
  have hput := putField_orderly horderly c field value
  have hmarked := markChanged_marked hput c field
  have hidle : Idle page (page.putField c field value) :=
    idle_mapComponent (fun state => ⟨_, state.references, rfl⟩) page c
  have hbindings : ∀ j, ((page.putField c field value).slot j).bindings = (page.slot j).bindings := by
    intro j
    rw [slot_putField]
    split
    · exact Instance.bindings_mapComponent _ _
    · rfl
  have hdue := fun j e => mem_due_markChanged hput c field (j := j) (e := e)
  simp only [hbindings] at hdue
  have hwhole := hidle.trans (idle_markChanged _ c field)
  refine ⟨hwhole, fun j other e => ?_, fun o other => ?_, fun j e he => (hdue j e).mpr (Or.inl he),
    fun o e ho howner he => (hdue o e).mpr (Or.inr ⟨?_, he⟩), fun j state hstate => ?_⟩
  · rw [(hmarked.slot j).registers, hbindings]
  · rw [knows, hwhole.toCalm.component, (hmarked.slot _).contains, hbindings, knows]
  · rw [mem_family_iff hput ((hidle.toCalm.isVacant o).trans ho), Under,
      show (page.putField c field value).up = page.up from funext hidle.toCalm.up, ← howner]
    exact horderly.under_component ho
  · rw [hmarked.component?_eq] at hstate
    exact component?_putField_back hstate

namespace Stored

variable (h : Stored c field page page')

include h

theorem holder?_back (hstate : page'.holder? o = some state) : ∃ old, page.holder? o = some old ∧
    state.definition = old.definition ∧ ∀ other, ((page.slot o).component = c → other ≠ field) →
      state.fields.get? other = old.fields.get? other := by
  rw [holder?, h.idle.toCalm.component] at hstate
  exact h.back _ state hstate

/-- What reads the field comes due, and what does not read it shows what it showed. -/
theorem tends (ho : (page.slot o).isVacant = false) (htends : Work.Tends ⟨page, plan, []⟩ o n task) :
    Work.Tends ⟨page', plan, []⟩ o n task where
  enlisted := by
    rcases htends.enlisted with hawaits | ⟨e, hnode, htask, hregisters⟩
    · exact Or.inl hawaits
    · refine Or.inr ⟨e, hnode, htask, fun other hother hknows => ?_⟩
      exact (h.registers o other e).mpr (hregisters other hother (by rwa [← h.knows]))
  shown state hstate hdistinct htraces := by
    obtain ⟨old, hold, hdefinition, hfields⟩ := h.holder?_back hstate
    have htraces' : page.Traces o old.definition task := by
      refine ⟨fun i hi => hdefinition ▸ htraces.tracked i hi, fun other hother => ?_⟩
      rw [← h.knows]
      exact htraces.known other hother
    by_cases hreads : (page.slot o).component = c ∧ field ∈ task.fields
    · obtain ⟨howner, hfield⟩ := hreads
      rcases htends.enlisted with hawaits | ⟨e, hnode, htask, hregisters⟩
      · exact Or.inl hawaits
      · exact Or.inr (Or.inl ⟨e, hnode, htask, Or.inr (h.marked o e ho howner
          (hregisters field hfield (htraces'.known field hfield)))⟩)
    · refine (htends.shown old hold hdistinct htraces').imp id fun hshown => hshown.imp
        (fun howes => howes.mono (fun _ _ _ hmem => hmem) (h.due o)) fun hmeets => ?_
      have hmeets' : page'.Meets old.scope (plan.role n) n task := hmeets.congr
        (by rw [h.idle.dom]) fun _ f _ _ _ => isMounted_congr (h.idle.toCalm.fragment? f)
      refine hmeets'.congr_scope fun i hi => ?_
      rw [ComponentState.scope, ComponentState.scope, ← hdefinition]
      refine htraces.tracked i hi _ _ fun other hother => hfields other ?_
      rintro howner rfl
      exact hreads ⟨howner, by rwa [Task.dependencies_eq hi]⟩

theorem attuned (hattuned : page.Attuned reading past plan) :
    page'.Attuned reading past plan where
  rested := hattuned.rested.idle h.idle
  tended := {
    tends := fun o n task hwants => by
      have hwants' : plan.Wants page.dom o n task :=
        ⟨h.idle.dom ▸ hwants.live, hwants.owner, hwants.task⟩
      exact h.tends (hattuned.laid.owner_not_vacant hwants'.live hwants'.owner)
        (hattuned.tended.tends o n task hwants')
    bears := fun o n sketch state hn hline hdistinct hstate => by
      obtain ⟨old, hold, hdefinition, _⟩ := h.holder?_back hstate
      dsimp only at hn ⊢
      rw [h.idle.dom] at hn ⊢
      rw [hdefinition, h.idle.toCalm.component]
      exact hattuned.tended.bears o n sketch old hn hline hdistinct hold
    planted := fun o n guard body hn hslot =>
      hattuned.tended.planted o n guard body (h.idle.dom ▸ hn) hslot }
  dressed n i hn hrole := by
    obtain ⟨state, hstate, hdressed⟩ := hattuned.dressed n i (h.idle.dom ▸ hn) hrole
    obtain ⟨fields, references, hstate'⟩ := h.idle.toCalm.component? hstate
    exact ⟨_, hstate', hdressed⟩

end Stored

theorem Attuned.store (h : page.Attuned reading past plan) (horderly : page.Orderly)
    (c : InstanceId) (field : String) (value : Json) :
    (page.store c field value).Attuned reading past plan := by
  rw [store_eq]
  refine ((stored_putField horderly c field value).attuned h).reflect ?_ c field
  have hput := putField_orderly horderly c field value
  exact (markChanged_marked hput c field).orderly hput

/-! ### Making a component -/

theorem Attuned.create (h : page.Attuned reading past plan) (horderly : page.Orderly)
    {definition : Component} (hlegible : Legible reading definition) (tag : String) {dom : Dom}
    {host : NodeId} (hmade : page.dom.createElement tag = (dom, host)) :
    ({ page with dom }.occupy (newComponent page.nextSlot definition host)).Attuned reading past
      ⟨Function.update plan.role host (.host page.nextSlot), plan.home⟩ := by
  have hrested := h.rested.create horderly hlegible tag hmade
  have hj := create_joins horderly definition dom host
  have hslot := fun {o} (ho : o ≠ page.nextSlot) => slot_of_joins hj rfl ho
  have hdom : ({ page with dom }.occupy (newComponent page.nextSlot definition host)).dom = dom := by
    unfold occupy
    split <;> rfl
  have hlone : Lone host (.host page.nextSlot) page.dom plan dom
      ⟨Function.update plan.role host (.host page.nextSlot), plan.home⟩ := by
    have hcreate := Dom.create_made h.laid.valid (.element (tag.map Char.toLower) [])
    rw [Dom.createElement] at hmade
    rw [hmade] at hcreate
    exact Lone.of_made h.laid.valid hcreate plan _
  have hvacant := hj.vacant
  generalize { page with dom }.occupy (newComponent page.nextSlot definition host) = page'
    at hrested hj hslot hdom ⊢
  subst hdom
  have hne : ∀ {o}, (page.slot o).isVacant = false → o ≠ page.nextSlot := fun ho =>
    hj.ne_of_not_vacant ho
  have hnodes : ∀ n, page'.dom.Live n → page.dom.Live n ∨
      Function.update plan.role host (.host page.nextSlot) n = .host page.nextSlot := fun n hn => by
    by_cases hold : page.dom.Live n
    · exact Or.inl hold
    · exact Or.inr (hlone.new n hn hold).2
  refine ⟨hrested, h.tended.keep h.laid horderly.belongs (fun o n _ hn _ howner => ?_)
    (fun o n task howes => howes.mono (fun _ _ _ hmem => hmem) fun e he => ?_) (fun n hn => ?_)
    (fun n hn _ => (hlone.old n hn).2.2) (fun f => ?_) fun _ hmem _ => hmem, fun n c hn hrole => ?_⟩
  · have ho := h.laid.owner_not_vacant hn howner
    obtain ⟨state, hstate⟩ := Option.isSome_iff_exists.mp (horderly.belongs o ho)
    refine ⟨?_, ?_⟩
    · rw [hslot (hne ho)]
      exact .refl _
    · rw [hslot (hne (Instance.not_vacant_of_component? hstate))]
      exact .refl _
  · rw [hslot]
    · exact he
    · rintro rfl
      rw [horderly.vacant_eq _ hvacant] at he
      exact absurd (Bindings.holds_of_mem_due he) Bindings.not_holds_empty
  · rcases hnodes n hn with hold | hhost
    · exact Or.inl ⟨hold, (hlone.old n hold).2.1⟩
    · refine Or.inr (.of_inert ?_)
      dsimp only
      rw [hhost]
      rfl
  · by_cases hf : f = page.nextSlot
    · subst hf
      rw [isMounted_of_vacant hvacant, isMounted, fragment?, hj.slot_self]
      rfl
    · exact isMounted_congr (by rw [fragment?, hslot hf, fragment?])
  · rcases hnodes n hn with hold | hhost
    · rw [(hlone.old n hold).2.1] at hrole
      obtain ⟨state, hstate, hdressed⟩ := h.dressed n c hold hrole
      refine ⟨state, ?_, hdressed⟩
      rw [component?, hslot (hne (Instance.not_vacant_of_component? hstate))]
      exact hstate
    · dsimp only at hrole
      rw [hhost] at hrole
      cases hrole

/-! ### Taking a component down -/

theorem Attuned.dismantle (h : page.Attuned reading past plan) (horderly : page.Orderly)
    (hstate : page.component? c = some state) (hconnected : state.connected = true) :
    (page.dismantle c state).Attuned reading past
      ⟨plan.role, Function.update plan.home c none⟩ := by
  have hlaid := h.laid
  have hrested := h.rested.dismantle horderly hstate hconnected
  have hempty : Emptied c page (page.dismantle c state) :=
    dismantle_emptied horderly (by rw [hstate]; rfl)
  have hpruned := (hlaid.pruned hstate hconnected horderly).1
  have hslot : ∀ i, ¬ page.Under c i → (page.dismantle c state).slot i = page.slot i :=
    fun i hi => hempty.other i (fun heq => hi (heq ▸ .self)) fun hin => hi (hin.under horderly)
  -- What stays of lines and style sheets belongs to instances outside of the component.
  have houtside : ∀ n o, (page.dismantle c state).dom.Live n → (plan.role n).owner? = some o →
      plan.role n ≠ .host c → ¬ page.Under c o := fun n o hn howner hhost hunder =>
    hlaid.shed hstate hconnected horderly (fun m => h.rested.home_eq hstate (n := m))
      ⟨⟨o, howner, hunder⟩, hhost⟩ hn
  have hlively : ∀ {n}, (plan.role n).isInert = false → plan.role n ≠ .host c := by
    intro n hinert hhost
    rw [hhost] at hinert
    cases hinert
  have hholder : ∀ o, (page.slot o).isVacant = false → ¬ page.Under c o →
      (page.dismantle c state).slot (page.slot o).component = page.slot (page.slot o).component := by
    intro o ho hnot
    exact hslot _ fun hunder => hnot (hunder.trans (horderly.under_component ho))
  generalize page.dismantle c state = page' at *
  refine ⟨hrested, h.tended.next hlaid horderly.belongs (fun o n hn hold hinert howner => ?_)
    (fun n hn => Or.inl ⟨hpruned.live n hn, rfl⟩) (fun o n task hn hwants _ => Or.inr
      ⟨fun hmem => absurd hmem List.not_mem_nil, fun state _ _ hrest => ?_⟩)
    (fun o n sketch state hn hold hline _ _ hbears => ?_)
    fun _ _ _ _ _ hmem => absurd hmem List.not_mem_nil, fun n i hn hrole => ?_⟩
  · have hnot := houtside n o hn howner (hlively hinert)
    refine ⟨?_, ?_⟩
    · rw [hslot o hnot]
      exact .refl _
    · rw [hholder o (hlaid.owner_not_vacant hold howner) hnot]
      exact .refl _
  · have hnot := houtside n o hn hwants.owner (hlively (Role.isInert_of_tasks hwants.task))
    refine hrest.imp (fun howes => howes.mono (fun _ _ _ hmem => hmem) fun e he => ?_) fun hmeets =>
      hmeets.congr (hpruned.content n hn) fun i f guard body hanchor => isMounted_congr ?_
    · rwa [hslot o hnot]
    · obtain ⟨_, _, ⟨fragment, hfragment, _⟩, hup, _⟩ := hlaid.fits_of_role hwants.live hanchor
      have howner := hwants.owner
      rw [hanchor] at howner
      obtain rfl : i = o := Option.some.inj howner
      rw [fragment?, hslot f, fragment?]
      intro hunder
      rcases hunder.cases_up with rfl | ⟨p, hp, hunder⟩
      · rw [fragment?, Instance.fragment?_of_component? hstate] at hfragment
        cases hfragment
      · rw [hup, Option.some.injEq] at hp
        exact hnot (hp ▸ hunder)
  · rw [hpruned.content n hn]
    exact hbears
  · obtain ⟨other, hother, hdressed⟩ := h.dressed n i (hpruned.live n hn) hrole
    refine ⟨other, ?_, hdressed⟩
    rw [component?, hslot i (houtside n i hn ?_ ?_)]
    · exact hother
    · rw [show plan.role n = .style i from hrole]
      rfl
    · rw [show plan.role n = .style i from hrole]
      exact Role.noConfusion

/-! ### Connecting a component -/

/-- What a connected component has rendered is in its root. -/
def Homed (page : Page) (plan : Plan) : Prop :=
  ∀ c state, page.component? c = some state → state.connected = true →
    plan.home c = some state.root

theorem Homed.back (h : page.Homed plan) (hhome : plan'.home = plan.home)
    (hback : ∀ c state', page'.component? c = some state' → ∃ state,
      page.component? c = some state ∧ state'.connected = state.connected ∧
        state'.root = state.root) : page'.Homed plan' := by
  intro c state' hstate' hconnected
  obtain ⟨state, hstate, hsame, hroot⟩ := hback c state' hstate'
  rw [hhome, hroot]
  exact h c state hstate (hsame ▸ hconnected)

theorem Homed.calm (h : page.Homed plan) (hcalm : Calm page page') : page'.Homed plan := by
  refine h.back rfl fun c state' hstate' => ?_
  obtain ⟨fields, references, hstate⟩ := Instance.component?_of_form (hcalm.form c).symm hstate'
  exact ⟨_, hstate, rfl, rfl⟩

/-- A component that is not connected has no lines. -/
theorem Rested.owner_ne_of_idle (h : page.Rested reading plan)
    (hstate : page.component? c = some state) (hidle : state.connected = false)
    (hn : page.dom.Live n) (hinert : (plan.role n).isInert = false) :
    (plan.role n).owner? ≠ some c := by
  have hlaid := h.busy.laid
  have hnone : ∀ p, page.dom.parent n = some p → ¬ plan.Houses c p := by
    intro p hp hhouses
    obtain ⟨base, hbase, _⟩ := h.below_base (hlaid.valid.live_of_parent hp).2 hhouses
    rw [base?, Instance.kind_of_component? hstate] at hbase
    simp [hidle] at hbase
  have hfits := hlaid.fits n hn
  intro howner
  generalize plan.role n = role at hfits hinert howner
  cases role with
  | document | host i | shadow i | copy i | style i => cases hinert
  | line o sketch =>
      obtain rfl : o = c := Option.some.inj howner
      obtain ⟨_, _, hroot | ⟨p, hp, hhouses⟩⟩ := hfits
      · rw [fragmentRoot?, show page.fragment? o = none from
          Instance.fragment?_of_component? hstate] at hroot
        cases hroot
      · exact hnone p hp hhouses
  | slot o guard body =>
      obtain rfl : o = c := Option.some.inj howner
      obtain ⟨_, p, hp, hhouses⟩ := hfits
      exact hnone p hp hhouses
  | anchor o f guard body =>
      obtain rfl : o = c := Option.some.inj howner
      obtain ⟨_, _, _, _, p, hp, hhouses⟩ := hfits
      exact hnone p hp hhouses

/-- A component that is not connected has no fragments. -/
theorem Orderly.eq_of_idle (horderly : page.Orderly) (hstate : page.component? c = some state)
    (hidle : state.connected = false) (ho : (page.slot o).isVacant = false)
    (hcomponent : (page.slot o).component = c) : o = c := by
  have hunder := horderly.under_component ho
  rw [hcomponent] at hunder
  rcases under_cases horderly hunder with rfl | ⟨f, hf, _⟩
  · rfl
  · rw [((horderly.fit c).disconnected state hstate hidle).1] at hf
    cases hf

/-- What a component that is not connected has shown before does not matter any more. -/
theorem Attuned.forget (h : page.Attuned reading past plan) (horderly : page.Orderly)
    (hstate : page.component? c = some state) (hidle : state.connected = false)
    (hpast : ∀ i, i ≠ c → ∀ definition fields, past i definition fields →
      past' i definition fields) : page.Attuned reading past' plan where
  rested := h.rested
  tended := {
    tends := h.tended.tends
    bears := fun o n sketch other hn hline hdistinct hother => by
      refine (h.tended.bears o n sketch other hn hline hdistinct hother).mono (hpast _ ?_ _)
      intro hcomponent
      have howner : (plan.role n).owner? = some o := congrArg Role.owner? hline
      obtain rfl := horderly.eq_of_idle hstate hidle (h.laid.owner_not_vacant hn howner) hcomponent
      exact h.rested.owner_ne_of_idle hstate hidle hn (congrArg Role.isInert hline) howner
    planted := h.tended.planted }
  dressed := h.dressed

theorem upholds_editDom (page : Page) (change : Dom → Dom) : Upholds page (page.editDom change) :=
  .of_slot fun _ => rfl

theorem Attuned.place (h : page.Attuned reading past plan) (horderly : page.Orderly)
    (hstate : page.component? c = some state) :
    (page.editDom (·.appendChild page.document state.host)).Attuned reading past plan := by
  have hplaced := h.laid.place hstate
  exact h.still horderly (h.rested.calm (calm_editDom page _) (h.rested.busy.place hstate) rfl)
    (.of_slot fun _ => rfl) (fun _ _ he => he) (fun n hn => (hplaced.live n).mp hn)
    (fun n _ _ => hplaced.content n) fun _ => rfl

theorem upholds_attach (hstate : page.component? c = some state) (root : NodeId) :
    Upholds page (page.attach c root) where
  slot j := by
    rw [slot_attach hstate]
    split
    · rename_i hj
      subst hj
      refine ⟨fun _ => ⟨rfl, rfl⟩, fun other hother => ⟨_, rfl, ?_⟩, fun _ => by
        rw [show (page.slot j).component? = _ from hstate]; rfl,
        fun _ _ _ => Bindings.contains_clearChanges,
        fun _ _ he => Bindings.registers_clearChanges.mpr he⟩
      rw [show (page.slot j).component? = _ from hstate, Option.some.injEq] at hother
      subst hother
      exact ⟨rfl, rfl⟩
    · exact .refl _

theorem Attuned.attach (h : page.Attuned reading past plan) (horderly : page.Orderly)
    (hstate : page.component? c = some state) (hidle : state.connected = false) {made : Page}
    {root : NodeId} (hmade : page.makeRoot state = (made, root)) :
    ∃ plan', (made.attach c root).Attuned reading past plan' ∧ plan'.home = plan.home := by
  obtain ⟨plan', hrested, hadded⟩ := h.rested.attach hstate hidle hmade
  have hakin := akin_makeRoot page state
  rw [hmade] at hakin
  have hstate' : made.component? c = some state := by rwa [component?, hakin.slot]
  have hupholds : Upholds page (made.attach c root) :=
    (Upholds.of_slot hakin.slot).trans (upholds_attach hstate' root)
  refine ⟨plan', h.next hrested hupholds ?_ fun n i hn hrole => ?_, hadded.home⟩
  · refine h.tended.next h.laid horderly.belongs (fun o _ _ _ _ _ => hupholds.near o)
      (fun n hn => ?_) (fun o n task _ hwants _ => Or.inr
        ⟨fun hmem => absurd hmem List.not_mem_nil, fun _ _ _ hrest => ?_⟩)
      (fun o n sketch _ _ hn _ _ _ hbears => ?_) fun _ _ _ _ _ hmem => absurd hmem List.not_mem_nil
    · by_cases hold : page.dom.Live n
      · exact Or.inl ⟨hold, (hadded.old n hold).2.1⟩
      · refine Or.inr (.of_inert ?_)
        dsimp only
        rw [hadded.new n hn hold]
        rfl
    · have ho : o ≠ c := by
        rintro rfl
        exact h.rested.owner_ne_of_idle hstate hidle hwants.live
          (Role.isInert_of_tasks hwants.task) hwants.owner
      refine hrest.imp (fun howes => howes.mono (fun _ _ _ hmem => hmem) fun e he => ?_)
        fun hmeets => hmeets.congr (hadded.old n hwants.live).2.2 fun _ f _ _ _ => ?_
      · rwa [slot_attach hstate', if_neg ho, hakin.slot]
      · rw [isMounted, fragment?, slot_attach hstate', isMounted]
        split
        · rename_i hf
          rw [hf, fragment?, Instance.fragment?_of_component? hstate]
          rfl
        · rw [hakin.slot, fragment?]
    · rwa [show (made.attach c root).dom.content n = _ from (hadded.old n hn).2.2]
  · by_cases hold : page.dom.Live n
    · exact ⟨hold, (hadded.old n hold).2.1 ▸ hrole⟩
    · rw [hadded.new n hn hold] at hrole
      cases hrole

theorem Attuned.dress (h : page.Attuned reading past plan) (horderly : page.Orderly)
    (hstyles : page.styles = .elements) (hstate : page.component? c = some state) {root : NodeId}
    (hhome : plan.home c = some root) :
    ∃ plan', (page.editDom fun dom =>
      page.styles.attach dom root state.definition.styles).Attuned reading past plan' ∧
        plan'.home = plan.home := by
  obtain ⟨plan', hrested, hadded⟩ := h.rested.dress hhome state.definition.styles
  refine ⟨plan', ⟨hrested, ?_, fun n i hn hrole => ?_⟩, hadded.home⟩
  · refine h.tended.keep h.laid horderly.belongs (fun o _ _ _ _ _ => ?_)
      (fun _ _ _ howes => howes.mono (fun _ _ _ hmem => hmem) fun _ he => he) (fun n hn => ?_)
      (fun n hn _ => (hadded.old n hn).2.2) (fun _ => rfl) fun _ hmem _ => hmem
    · exact (upholds_editDom page _).near o
    · by_cases hold : page.dom.Live n
      · exact Or.inl ⟨hold, (hadded.old n hold).2.1⟩
      · refine Or.inr (.of_inert ?_)
        dsimp only
        rw [hadded.new n hn hold]
        rfl
  · by_cases hold : page.dom.Live n
    · exact h.dressed n i hold ((hadded.old n hold).2.1 ▸ hrole)
    · rw [hadded.new n hn hold] at hrole
      cases hrole
      refine ⟨state, hstate, fun hnone => hold ?_⟩
      rw [editDom, hstyles, hnone] at hn
      exact hn

/-- A component that is connected brings its lines with it. -/
theorem Attuned.rendered (h : page.Attuned reading past plan) (horderly : page.Orderly)
    (hfollows : page.Follows past) (hhomed : page.Homed plan) (hstyles : page.styles = .elements)
    (hstate : page.component? c = some state) (hidle : state.connected = false) :
    (∃ plan', (page.rendered c state).Attuned reading past plan' ∧
      (page.rendered c state).Homed plan') ∧ (page.rendered c state).Orderly ∧
        Upholds page (page.rendered c state) ∧
        (page.rendered c state).styles = page.styles := by
  have hnone := h.laid.home_of_idle hstate hidle
  obtain ⟨made, root, hmade⟩ : ∃ made root, page.makeRoot state = (made, root) := ⟨_, _, rfl⟩
  obtain ⟨hakin, hstate', hself, hclean⟩ := attach_ready hstate hmade
  have horderly' := attach_orderly hstate' (horderly.of_akin hakin) root
  have hupholds : Upholds page (made.attach c root) :=
    (Upholds.of_slot hakin.slot).trans (upholds_attach hstate' root)
  obtain ⟨plan₁, hattached, hhome₁⟩ := h.attach horderly hstate hidle hmade
  obtain ⟨plan₂, hrendered, hhome₂, hcarries⟩ :=
    hattached.rested.render horderly' hself rfl hclean ((congrFun hhome₁ c).trans hnone)
  have hturn := render_turn horderly' hself rfl hclean root
  unfold Page.rendered
  rw [hmade]
  dsimp only
  generalize (made.attach c root).render c state.definition root = drawn
    at hrendered hcarries hturn ⊢
  have hdrawn := hattached.carried (hupholds.follows hfollows) hrendered hcarries
  obtain ⟨⟨references, hstate''⟩, _⟩ := (hturn.turn.kept c).component_state _ hself
  have hsame : drawn.styles = page.styles := hturn.turn.styles.trans hakin.styles
  obtain ⟨plan₃, hdressed, hhome₃⟩ := hdrawn.dress hturn.orderly (hsame.trans hstyles) hstate''
    ((congrFun hhome₂ c).trans (Function.update_self _ _ _))
  have hhomes : plan₃.home = Function.update plan.home c (some root) := by
    rw [hhome₃, hhome₂, hhome₁]
  have hhomed' : drawn.Homed plan₃ := by
    intro i other hother hconnected
    obtain ⟨old, _, hold, rfl⟩ := hturn.turn.component?_back hother
    rw [component?_attach hstate'] at hold
    rw [hhomes]
    split at hold
    · rename_i hi
      cases hold
      rw [hi, Function.update_self]
    · rename_i hi
      rw [component?, hakin.slot] at hold
      rw [Function.update_of_ne hi]
      exact hhomed i old hold hconnected
  have horderly'' : (drawn.editDom fun dom =>
      drawn.styles.attach dom root state.definition.styles).Orderly :=
    hturn.orderly.of_akin (akin_editDom _ _)
  exact ⟨⟨plan₃, hdressed.same horderly'' (idle_report _ rfl) fun _ => rfl, hhomed'⟩,
    horderly''.of_akin (akin_report _ _),
    (hupholds.trans hcarries.upholds).trans (.of_slot fun _ => rfl), hsame⟩

/-- Components may have had more fields. -/
theorem Attuned.mono (h : page.Attuned reading past plan)
    (hpast : ∀ c definition fields, past c definition fields → past' c definition fields) :
    page.Attuned reading past' plan where
  rested := h.rested
  tended := {
    tends := h.tended.tends
    bears := fun o n sketch state hn hline hdistinct hstate =>
      (h.tended.bears o n sketch state hn hline hdistinct hstate).mono (hpast _ _)
    planted := h.tended.planted }
  dressed := h.dressed

theorem start_attuned (reading : Blueprint → List Sketch) (past : Past) :
    (start .elements).Attuned reading past ⟨fun _ => .document, fun _ => none⟩ where
  rested := start_rested reading .elements
  tended := {
    tends := fun _ _ _ hwants => absurd hwants.task List.not_mem_nil
    bears := fun _ _ _ _ _ hline => by cases hline
    planted := fun _ _ _ _ _ hslot => by cases hslot }
  dressed _ _ _ hrole := by cases hrole

end Page

end LiveMarkup
