import LiveMarkup.Proofs.Page.Elsewhere
import LiveMarkup.Proofs.Template.Instances
import LiveMarkup.Proofs.Template.SelfReferences

/-!
The ledger of a page. What is registered under a field at an instance, together with what its chores have
still to register there, is what its template asks for from the moment it is rendered. An act takes
entries from the chores into the tables and neither adds nor loses one.
-/

namespace LiveMarkup

/-! ### What templates ask for -/

/-- The tasks that a job registers under a field. -/
def Job.readers (field : String) : Job → List Task
  | .write task fields => if field ∈ fields then [task] else []
  | .guard _ directive =>
    if field ∈ directive.dependencies then [.guardFragment directive.guard] else []
  | _ => []

/-- The tasks of a template that read a field, one for each text, attribute and directive whose
expression names the field. -/
def Blueprint.readers (field : String) (blueprint : Blueprint) : List Task :=
  blueprint.definitions.flatMap fun definition =>
    (definition.features.flatMap definition.jobs).flatMap (Job.readers field)

/-- The tasks that an errand has still to register under a field of an instance. -/
def Errand.readers (o : InstanceId) (field : String) : Errand → List Task
  | .chore given => if given.owner = o then given.job.readers field else []
  | .run _ => []

namespace Blueprint

/-- Whether a template was compiled from parsed markup. -/
def Built (blueprint : Blueprint) : Prop :=
  ∃ parsed, blueprint.Compiled [.text, .conditional] [.reference, .event, .binding] parsed

/-- Whether a template is that of a directive, which holds one element. -/
def IsNested (blueprint : Blueprint) : Prop :=
  blueprint.Built ∧ ∃ body, blueprint.Says [body] ∧ body.isElement = true

end Blueprint

/-- A job that registers its effect once under each field that its task reads, and that makes fragments
of one element. -/
def Job.Sound : Job → Prop
  | .write task fields => task.fields = fields ∧ fields.Nodup
  | .guard _ directive => directive.dependencies.Nodup ∧ directive.blueprint.IsNested
  | .nest _ => False
  | _ => True

section Templates

variable {i : Interpolation} {source : String} {blueprint : Blueprint} {o : InstanceId}
  {field : String} {marked : List (Nat × NodeId)}

theorem Dependencies.nodup_scan (source : String) : (scan source).Nodup :=
  (ascending_scan source).imp fun hlt => hlt.ne

theorem Interpolation.nodup_dependencies (h : compile source = .ok i) : i.dependencies.Nodup := by
  rw [(Dependencies.references_of_compile h).1]
  exact Dependencies.nodup_scan source

theorem Interpolation.nodup_dependencies_bare (h : compileBare source = .ok i) :
    i.dependencies.Nodup := by
  rw [compileBare] at h
  cases hpart : readPart source source.toList with
  | error error =>
      rw [hpart] at h
      cases h
  | ok part =>
      rw [hpart] at h
      cases h
      exact Dependencies.nodup_scan source

theorem Interpolation.eq_ok_of_toOption {result : Except CompileError Interpolation}
    (h : result.toOption = some i) : result = .ok i := by
  cases result with
  | error error => cases h
  | ok value =>
      cases h
      rfl

theorem Sketch.nodup_guard {a : Attribute} (h : guard? a = some i) : i.dependencies.Nodup := by
  unfold guard? at h
  split at h
  · split at h
    · exact Interpolation.nodup_dependencies (Interpolation.eq_ok_of_toOption h)
    · exact Interpolation.nodup_dependencies_bare (Interpolation.eq_ok_of_toOption h)
  · cases h

/-- The template of an element without a directive is that of one element. -/
theorem Blueprint.Compiled.isNested {tag : String} {attributes : List Attribute} {below : List Tree}
    (hnone : ∀ a ∈ attributes, a.isDirective = false)
    (h : blueprint.Compiled [.text, .conditional] [.reference, .event, .binding]
      [.node (.element tag attributes) none below]) : blueprint.IsNested := by
  refine ⟨⟨_, h⟩, ?_⟩
  obtain ⟨sketches, hsketches, hsays⟩ := h.says
  obtain ⟨body, hbody, rfl⟩ := Sketch.ofTrees?_singleton hsketches
  refine ⟨body, hsays, ?_⟩
  rw [Sketch.ofTree?_plain hnone] at hbody
  obtain ⟨bindings, _, hbody⟩ := Option.bind_eq_some_iff.mp hbody
  obtain ⟨children, _, rfl⟩ := Option.map_eq_some_iff.mp hbody
  rfl

/-- What definitions of parsed markup ask for. -/
theorem Tree.Claimed.sound {tree : Tree} {definition : NodeDefinition Blueprint} {content : Content}
    (h : Tree.Claimed [.text, .conditional] [.reference, .event, .binding] tree definition content)
    {job : Job} (hjob : job ∈ definition.features.flatMap definition.jobs) : job.Sound := by
  obtain ⟨feature, hfeature, hjob⟩ := List.mem_flatMap.mp hjob
  cases h with
  | text _ _ hvalue =>
      cases List.mem_singleton.mp hfeature
      cases List.mem_singleton.mp hjob
      exact ⟨rfl, Interpolation.nodup_dependencies hvalue⟩
  | conditional _ _ hguard hnested =>
      cases List.mem_singleton.mp hfeature
      cases List.mem_singleton.mp hjob
      exact ⟨Sketch.nodup_guard hguard, hnested.isNested (Sketch.not_isDirective_of_mem _)⟩
  | element _ howns =>
      have hcollects := howns.2.1
      cases feature with
      | binding =>
          obtain ⟨a, ha, rfl⟩ := List.mem_map.mp hjob
          obtain ⟨k, hk, rfl⟩ := List.mem_iff_getElem.mp ha
          have hlength := hcollects.attributes.length_eq
          exact ⟨rfl, Interpolation.nodup_dependencies
            (hcollects.attributes.get (hlength ▸ hk) hk).2⟩
      | event =>
          obtain ⟨binding, _, rfl⟩ := List.mem_map.mp hjob
          trivial
      | reference =>
          obtain ⟨name, _, rfl⟩ := List.mem_map.mp hjob
          trivial
      | text | upper =>
          rw [NodeDefinition.jobs, hcollects.content] at hjob
          cases hjob
      | conditional | scope | inner =>
          rw [NodeDefinition.jobs, hcollects.directive] at hjob
          cases hjob

theorem Blueprint.Built.sound (h : blueprint.Built) {chore : Chore}
    (hchore : chore ∈ blueprint.chores o marked) : chore.job.Sound := by
  obtain ⟨parsed, hcompiled⟩ := h
  obtain ⟨⟨k, n⟩, _, hchore⟩ := List.mem_flatMap.mp hchore
  rw [choresAt] at hchore
  cases hget : blueprint.definition? k with
  | none =>
      rw [hget] at hchore
      cases List.mem_singleton.mp hchore
      trivial
  | some definition =>
      rw [hget] at hchore
      obtain ⟨job, hjob, rfl⟩ := List.mem_map.mp hchore
      rcases List.mem_cons.mp hjob with rfl | hjob
      · trivial
      · obtain ⟨hk, _⟩ := List.getElem?_eq_some_iff.mp hget
        obtain ⟨other, _, _, _, hother, _, _, _, hclaimed⟩ := hcompiled.place hk
        rw [definition?, hother, Option.some.injEq] at hget
        exact (hget ▸ hclaimed).sound hjob

/-- The chores of a whole copy are what the template asks for. -/
theorem Blueprint.readers_chores
    (hmarked : marked.map (·.1) = List.range blueprint.definitions.length) (o : InstanceId)
    (field : String) : ((blueprint.chores o marked).map Errand.chore).flatMap (Errand.readers o field) =
      blueprint.readers field := by
  have hat : ∀ entry : Nat × NodeId,
      ((blueprint.choresAt o entry).map Errand.chore).flatMap (Errand.readers o field) =
        ((blueprint.definitions[entry.1]?).map fun definition =>
          (definition.features.flatMap definition.jobs).flatMap (Job.readers field)).getD [] := by
    rintro ⟨k, n⟩
    rw [choresAt, definition?]
    cases blueprint.definitions[k]? with
    | none => simp [Errand.readers, Job.readers]
    | some definition =>
        have hunmark : Job.readers field .unmark = [] := rfl
        simp [List.flatMap_map, Errand.readers, hunmark]
  have hget : (List.range blueprint.definitions.length).map (blueprint.definitions[·]?) =
      blueprint.definitions.map some := by
    refine List.ext_getElem (by simp) fun k hk _ => ?_
    simp only [List.length_map, List.length_range] at hk
    simp [hk]
  calc ((blueprint.chores o marked).map Errand.chore).flatMap (Errand.readers o field)
      = marked.flatMap fun entry => ((blueprint.definitions[entry.1]?).map fun definition =>
          (definition.features.flatMap definition.jobs).flatMap (Job.readers field)).getD [] := by
        rw [chores, List.map_flatMap, List.flatMap_assoc]
        simp only [hat]
    _ = ((marked.map (·.1)).map (blueprint.definitions[·]?)).flatMap fun definition? =>
          (definition?.map fun definition =>
            (definition.features.flatMap definition.jobs).flatMap (Job.readers field)).getD [] := by
        rw [List.flatMap_map, List.flatMap_map]
    _ = blueprint.readers field := by
        rw [hmarked, hget, List.flatMap_map]
        rfl

/-- All that is marked in the copy of one element is at or below the element. -/
theorem Blueprint.IsNested.filter_marked (h : blueprint.IsNested) {target dom : Dom}
    (hvalid : target.Valid) {copy : Dom.Copy} (hcopy : blueprint.instantiate target = (dom, copy))
    {root : NodeId} (hfirst : dom.firstElementChild? copy.root = some root) :
    copy.marked.filter (fun entry => dom.contains root entry.2) = copy.marked := by
  obtain ⟨_, body, hsays, helement⟩ := h
  obtain ⟨inner, htree, _⟩ := hsays.inner helement
  have hgrafted := Dom.graft_grafted (blueprint.dom.tree blueprint.root) hvalid
  rw [show target.graft (blueprint.dom.tree blueprint.root) = (dom, copy) from hcopy] at hgrafted
  have hcopied := hgrafted.tree.trans htree
  obtain ⟨c, hchild, _⟩ := Dom.children_of_tree hgrafted.valid hcopied
  have hroot : c = root := by
    rw [Dom.firstElementChild?, hchild] at hfirst
    exact (List.mem_singleton.mp (List.mem_of_find?_eq_some hfirst)).symm
  refine List.filter_eq_self.mpr fun entry hmem => ?_
  obtain ⟨k, n⟩ := entry
  obtain ⟨hnew, hmarker⟩ := (hgrafted.marked_iff k n).mp hmem
  obtain ⟨r, hr, hbelow⟩ := (hgrafted.new_iff n).mp hnew
  cases List.mem_singleton.mp hr
  rw [Dom.contains_iff hgrafted.valid hnew.1]
  rcases hgrafted.valid.below_cases hbelow with rfl | ⟨b, hb, hbn⟩
  · rw [← Dom.marker_of_tree hgrafted.valid, hcopied] at hmarker
    cases hmarker
  · rw [hchild, List.mem_singleton] at hb
    rwa [← hroot, ← hb]

end Templates

/-! ### Accounts -/

/-- What an instance belongs to, what it has rendered and what is registered with it. -/
structure Account where
  component : InstanceId
  definition? : Option Component
  nested? : Option Blueprint
  template? : Option Blueprint
  effects? : String → Option (List Effect)

namespace Instance

variable {i : Instance}

/-- The template that an instance has rendered. -/
def template? (i : Instance) : Option Blueprint :=
  match i.kind with
  | .component state => if state.connected then some state.definition.blueprint else none
  | .fragment state => if state.root.isSome then some state.blueprint else none
  | .vacant => none

def account (i : Instance) : Account :=
  ⟨i.component, i.component?.map (·.definition), i.fragment?.map (·.blueprint), i.template?,
    i.bindings.effects?⟩

theorem template?_of_component {state : ComponentState} (h : i.component? = some state) :
    i.template? = if state.connected then some state.definition.blueprint else none := by
  rw [template?, kind_of_component? h]

theorem template?_of_fragment {state : FragmentState} (h : i.fragment? = some state) :
    i.template? = if state.root.isSome then some state.blueprint else none := by
  rw [template?, kind_of_fragment? h]

theorem template?_of_vacant (h : i.isVacant = true) : i.template? = none := by
  rw [template?, isVacant_iff.mp h]

theorem rendered_of_template? {blueprint : Blueprint} (h : i.template? = some blueprint) :
    i.Rendered ∧ i.blueprint? = some blueprint := by
  unfold template? at h
  split at h
  · rename_i state hkind
    obtain ⟨hconnected, heq⟩ := Option.ite_none_right_eq_some.mp h
    refine ⟨⟨fun other hother => ?_, fun other hother => ?_⟩, by rw [blueprint?, hkind, ← heq]⟩
    · rw [fragment?, hkind] at hother
      cases hother
    · rw [component?, hkind] at hother
      cases hother
      exact hconnected
  · rename_i state hkind
    obtain ⟨hroot, heq⟩ := Option.ite_none_right_eq_some.mp h
    refine ⟨⟨fun other hother => ?_, fun other hother => ?_⟩, by rw [blueprint?, hkind, ← heq]⟩
    · rw [fragment?, hkind] at hother
      cases hother
      exact Option.isSome_iff_ne_none.mp hroot
    · rw [component?, hkind] at hother
      cases hother
  · cases h

theorem account_record {bindings : Bindings} (children : List InstanceId) (scheduled : Bool)
    (h : ∀ field, bindings.effects? field = i.bindings.effects? field) :
    ({ i with bindings, children, scheduled } : Instance).account = i.account := by
  have heffects : bindings.effects? = i.bindings.effects? := funext h
  rw [account, account, heffects]
  rfl

theorem account_mapComponent {f : ComponentState → ComponentState}
    (hf : ∀ state, (f state).definition = state.definition ∧ (f state).connected = state.connected)
    (i : Instance) : (i.mapComponent f).account = i.account := by
  cases hkind : i.kind <;>
    simp [mapComponent, hkind, account, component?, fragment?, template?, hf]

theorem account_mapFragment {f : FragmentState → FragmentState}
    (hf : ∀ state, (f state).blueprint = state.blueprint ∧ (f state).root = state.root)
    (i : Instance) : (i.mapFragment f).account = i.account := by
  cases hkind : i.kind <;>
    simp [mapFragment, hkind, account, component?, fragment?, template?, hf]

theorem Stained.account_eq {i' : Instance} (h : i.Stained i') : i'.account = i.account := by
  have heffects := h.effects
  obtain ⟨bindings, scheduled, rfl⟩ := h.record
  exact account_record i.children scheduled heffects

end Instance

namespace Page

variable {reading : Blueprint → List Sketch} {page page' : Page} {plan : Plan}
  {c f j o owner : InstanceId} {agenda agenda' : List Errand} {field name : String} {e : Effect}
  {fields : Names} {node : NodeId} {job : Job} {late : Prop}

/-- The effects that are registered under a field of an instance, in their order. -/
def registered (page : Page) (o : InstanceId) (field : String) : List Effect :=
  ((page.slot o).bindings.effects? field).getD []

theorem registers_of_mem_registered (h : e ∈ page.registered o field) :
    (page.slot o).bindings.Registers field e := by
  unfold registered at h
  cases heffects : (page.slot o).bindings.effects? field with
  | none =>
      rw [heffects] at h
      cases h
  | some effects =>
      rw [heffects] at h
      exact Bindings.registers_of_mem_effects? heffects h

/-- The tasks that read a field in what an instance has rendered. -/
def readers (page : Page) (o : InstanceId) (field : String) : List Task :=
  ((page.slot o).template?.map (·.readers field)).getD []

/-! ### The ledger -/

/-- What is registered and what chores have still to register is what the templates ask for. -/
structure Ledger (page : Page) (agenda : List Errand) : Prop where
  declared : ∀ c state, page.component? c = some state → ∀ field,
    (page.slot c).bindings.contains field = state.definition.properties.contains field
  /-- Fragments have entries for fields of their component only. -/
  bound : ∀ o field, (page.slot o).bindings.contains field = true → page.knows o field = true
  balance : ∀ o field, page.knows o field = true →
    ((page.registered o field).map (·.task) ++ agenda.flatMap (·.readers o field)).Perm
      (page.readers o field)
  once : ∀ o field, (page.registered o field).Nodup
  reads : ∀ o field other, ∀ e ∈ page.registered o field, page.knows o other = true →
    (e ∈ page.registered o other ↔ other ∈ e.task.fields)
  nested : ∀ f state, page.fragment? f = some state → state.blueprint.IsNested
  chores : ∀ chore, .chore chore ∈ agenda → chore.job.Sound ∧ ∃ blueprint,
    (page.slot chore.owner).template? = some blueprint ∧ chore.Belongs blueprint chore.owner

namespace Ledger

/-- Only what has been rendered differs. -/
theorem next (h : page.Ledger agenda)
    (hsame : ∀ j, ∃ template?, (page'.slot j).account = { (page.slot j).account with template? })
    (hbalance : ∀ o field, page.knows o field = true →
      ((page.registered o field).map (·.task) ++ agenda'.flatMap (·.readers o field)).Perm
        (page'.readers o field))
    (hchores : ∀ chore, .chore chore ∈ agenda' → chore.job.Sound ∧ ∃ blueprint,
      (page'.slot chore.owner).template? = some blueprint ∧ chore.Belongs blueprint chore.owner) :
    page'.Ledger agenda' := by
  have hcomponent : ∀ j, (page'.slot j).component = (page.slot j).component := fun j => by
    obtain ⟨_, hj⟩ := hsame j
    exact congrArg Account.component hj
  have heffects : ∀ j field,
      (page'.slot j).bindings.effects? field = (page.slot j).bindings.effects? field := by
    intro j field
    obtain ⟨_, hj⟩ := hsame j
    exact congrFun (congrArg Account.effects? hj) field
  have hcontains : ∀ j field,
      (page'.slot j).bindings.contains field = (page.slot j).bindings.contains field := by
    intro j field
    rw [← Bindings.isSome_effects?, heffects, Bindings.isSome_effects?]
  have hknows : ∀ o field, page'.knows o field = page.knows o field := by
    intro o field
    rw [knows, hcomponent, hcontains, knows]
  have hregistered : ∀ o field, page'.registered o field = page.registered o field := by
    intro o field
    rw [registered, heffects, registered]
  refine ⟨fun c state' hstate' field => ?_, fun o field hfield => ?_, fun o field hfield => ?_,
    fun o field => ?_, fun o field other e he hknown => ?_, fun f state' hstate' => ?_, hchores⟩
  · obtain ⟨_, hc⟩ := hsame c
    have hdefinition : (page'.component? c).map (·.definition) =
        (page.component? c).map (·.definition) := congrArg Account.definition? hc
    rw [hstate', Option.map_some, eq_comm, Option.map_eq_some_iff] at hdefinition
    obtain ⟨state, hstate, hdefinition⟩ := hdefinition
    rw [hcontains, h.declared c state hstate, hdefinition]
  · rw [hcontains] at hfield
    rw [hknows]
    exact h.bound o field hfield
  · rw [hknows] at hfield
    rw [hregistered]
    exact hbalance o field hfield
  · rw [hregistered]
    exact h.once o field
  · rw [hregistered] at he
    rw [hknows] at hknown
    rw [hregistered]
    exact h.reads o field other e he hknown
  · obtain ⟨_, hf⟩ := hsame f
    have hnested : (page'.fragment? f).map (·.blueprint) = (page.fragment? f).map (·.blueprint) :=
      congrArg Account.nested? hf
    rw [hstate', Option.map_some, eq_comm, Option.map_eq_some_iff] at hnested
    obtain ⟨state, hstate, hblueprint⟩ := hnested
    exact hblueprint ▸ h.nested f state hstate

/-- Nothing is entered, and chores that are done had nothing to enter. -/
theorem same (h : page.Ledger agenda) (hsame : ∀ j, (page'.slot j).account = (page.slot j).account)
    (hagenda : ∀ o field, agenda'.flatMap (·.readers o field) = agenda.flatMap (·.readers o field))
    (hchores : ∀ chore, .chore chore ∈ agenda' → .chore chore ∈ agenda) : page'.Ledger agenda' := by
  have htemplate : ∀ j, (page'.slot j).template? = (page.slot j).template? :=
    fun j => congrArg Account.template? (hsame j)
  refine h.next (fun j => ⟨_, hsame j⟩) (fun o field hfield => ?_) fun chore hchore => ?_
  · rw [hagenda, readers, htemplate]
    exact h.balance o field hfield
  · rw [htemplate]
    exact h.chores chore (hchores chore hchore)

theorem of_account (h : page.Ledger agenda)
    (hsame : ∀ j, (page'.slot j).account = (page.slot j).account) : page'.Ledger agenda :=
  h.same hsame (fun _ _ => rfl) fun _ hchore => hchore

theorem of_slot (h : page.Ledger agenda) (hslot : ∀ j, page'.slot j = page.slot j) :
    page'.Ledger agenda :=
  h.of_account fun j => congrArg Instance.account (hslot j)

/-- What an errand leaves behind that had nothing to enter. -/
theorem tail {errand : Errand} (h : page.Ledger (errand :: agenda))
    (hnone : ∀ o field, errand.readers o field = []) : page.Ledger agenda :=
  h.same (fun _ => rfl) (fun o field => by rw [List.flatMap_cons, hnone, List.nil_append])
    fun _ hchore => List.mem_cons_of_mem _ hchore

/-- A chore that has nothing to enter. -/
theorem tail_chore (h : page.Ledger (.chore ⟨owner, node, job⟩ :: agenda))
    (hnone : ∀ field, job.readers field = []) : page.Ledger agenda :=
  h.tail fun o field => by
    rw [Errand.readers]
    split
    · exact hnone field
    · rfl

/-- An instance is rendered, and its chores enter what its template asks for. -/
theorem render (h : page.Ledger agenda) {blueprint : Blueprint} (hbuilt : blueprint.Built)
    {marked : List (Nat × NodeId)}
    (hmarked : marked.map (·.1) = List.range blueprint.definitions.length)
    (hidle : (page.slot o).template? = none)
    (hself : (page'.slot o).account = { (page.slot o).account with template? := some blueprint })
    (hother : ∀ j, j ≠ o → (page'.slot j).account = (page.slot j).account) :
    page'.Ledger ((blueprint.chores o marked).map .chore ++ agenda) := by
  have hrendered : (page'.slot o).template? = some blueprint := congrArg Account.template? hself
  have hsame : ∀ j, j ≠ o → (page'.slot j).template? = (page.slot j).template? :=
    fun j hj => congrArg Account.template? (hother j hj)
  have howner : ∀ chore ∈ blueprint.chores o marked, chore.owner = o := by
    intro chore hchore
    obtain ⟨entry, _, hchore⟩ := List.mem_flatMap.mp hchore
    exact (node_of_mem_choresAt hchore).1
  refine h.next (fun j => ?_) (fun j field hfield => ?_) fun chore hchore => ?_
  · by_cases hj : j = o
    · exact ⟨_, hj ▸ hself⟩
    · exact ⟨_, hother j hj⟩
  · have hold := h.balance j field hfield
    rw [List.flatMap_append]
    by_cases hj : j = o
    · -- Nothing was registered or to be registered before.
      subst hj
      rw [readers, hidle] at hold
      obtain ⟨hnone, hidle⟩ := List.append_eq_nil_iff.mp (List.perm_nil.mp hold)
      rw [hnone, hidle, Blueprint.readers_chores hmarked, readers, hrendered, List.append_nil]
      exact .refl _
    · have hnone : ((blueprint.chores o marked).map Errand.chore).flatMap (·.readers j field) = [] := by
        refine List.flatMap_eq_nil_iff.mpr fun errand herrand => ?_
        obtain ⟨chore, hchore, rfl⟩ := List.mem_map.mp herrand
        exact if_neg fun heq => hj (heq.symm.trans (howner chore hchore))
      rw [hnone, List.nil_append, readers, hsame j hj]
      exact hold
  · rcases List.mem_append.mp hchore with hchore | hchore
    · obtain ⟨_, hmem, heq⟩ := List.mem_map.mp hchore
      cases heq
      rw [howner chore hmem]
      exact ⟨hbuilt.sound hmem, blueprint, hrendered, Blueprint.belongs_of_mem_chores hmem⟩
    · obtain ⟨hsound, other, hother, hbelongs⟩ := h.chores chore hchore
      have hne : chore.owner ≠ o := by
        intro heq
        rw [heq, hidle] at hother
        cases hother
      exact ⟨hsound, other, (hsame _ hne).trans hother, hbelongs⟩

/-- A new instance that has not been rendered. -/
theorem joins {i : Instance} (h : page.Ledger agenda) (horderly : page.Orderly)
    (hj : Joins f i page page') (hempty : ∀ field, (i.bindings.effects? field).getD [] = [])
    (hbound : ∀ field, i.bindings.contains field = true → i.component = f)
    (hdeclared : ∀ state, i.component? = some state → ∀ field,
      i.bindings.contains field = state.definition.properties.contains field)
    (hnested : ∀ state, i.fragment? = some state → state.blueprint.IsNested)
    (hidle : i.template? = none) : page'.Ledger agenda := by
  have hrecord : ∀ j, j ≠ f → ∃ children, page'.slot j = { page.slot j with children } :=
    fun j hne => ⟨_, hj.slot_other j hne⟩
  have hcomponent : ∀ j, j ≠ f → (page'.slot j).component = (page.slot j).component := by
    intro j hne
    obtain ⟨children, hslot⟩ := hrecord j hne
    rw [hslot]
  have hbindings := fun j (hne : j ≠ f) => hj.bindings_other hne
  have htemplate : ∀ j, j ≠ f → (page'.slot j).template? = (page.slot j).template? := by
    intro j hne
    obtain ⟨children, hslot⟩ := hrecord j hne
    rw [hslot]
    rfl
  have hunused : (page.slot f).template? = none := Instance.template?_of_vacant hj.vacant
  -- No instance that was there has the new one for its component.
  have hholder : ∀ j, j ≠ f → (page.slot j).component ≠ f := by
    intro j hne heq
    cases hvacant : (page.slot j).isVacant with
    | true =>
        rw [horderly.vacant_eq j hvacant] at heq
        exact hne heq
    | false =>
        obtain ⟨state, hstate⟩ := Option.isSome_iff_exists.mp (horderly.belongs j hvacant)
        rw [heq] at hstate
        have hthere := Instance.not_vacant_of_component? hstate
        rw [hj.vacant] at hthere
        cases hthere
  have hknows : ∀ j, j ≠ f → ∀ field, page'.knows j field = page.knows j field := by
    intro j hne field
    rw [knows, hcomponent j hne, hbindings _ (hholder j hne), knows]
  have hregistered : ∀ j, j ≠ f → ∀ field, page'.registered j field = page.registered j field := by
    intro j hne field
    rw [registered, hbindings j hne, registered]
  have hnone : ∀ field, page'.registered f field = [] := by
    intro field
    rw [registered, hj.slot_self]
    exact hempty field
  have howner : ∀ chore, .chore chore ∈ agenda → chore.owner ≠ f := by
    intro chore hchore heq
    obtain ⟨_, hsome, _⟩ := (h.chores chore hchore).2
    rw [heq, hunused] at hsome
    cases hsome
  refine ⟨fun c state hstate field => ?_, fun j field hfield => ?_, fun j field hfield => ?_,
    fun j field => ?_, fun j field other e he hknown => ?_, fun g state hstate => ?_,
    fun chore hchore => ?_⟩
  · by_cases hc : c = f
    · rw [component?, hc, hj.slot_self] at hstate
      rw [hc, hj.slot_self]
      exact hdeclared state hstate field
    · obtain ⟨children, hslot⟩ := hrecord c hc
      rw [component?, hslot] at hstate
      rw [hbindings c hc]
      exact h.declared c state hstate field
  · by_cases hne : j = f
    · subst hne
      rw [hj.slot_self] at hfield
      rw [knows, hj.slot_self, hbound field hfield, hj.slot_self]
      exact hfield
    · rw [hbindings j hne] at hfield
      rw [hknows j hne]
      exact h.bound j field hfield
  · by_cases hne : j = f
    · subst hne
      have hchores : agenda.flatMap (·.readers j field) = [] := by
        refine List.flatMap_eq_nil_iff.mpr fun errand herrand => ?_
        cases errand with
        | chore chore => exact if_neg (howner chore herrand)
        | run e => rfl
      rw [hnone, hchores, readers, hj.slot_self, hidle]
      exact .nil
    · rw [hknows j hne] at hfield
      rw [hregistered j hne, readers, htemplate j hne]
      exact h.balance j field hfield
  · by_cases hne : j = f
    · rw [hne, hnone]
      exact List.nodup_nil
    · rw [hregistered j hne]
      exact h.once j field
  · by_cases hne : j = f
    · rw [hne, hnone] at he
      cases he
    · rw [hregistered j hne] at he
      rw [hknows j hne] at hknown
      rw [hregistered j hne]
      exact h.reads j field other e he hknown
  · by_cases hg : g = f
    · rw [fragment?, hg, hj.slot_self] at hstate
      exact hnested state hstate
    · obtain ⟨children, hslot⟩ := hrecord g hg
      rw [fragment?, hslot] at hstate
      exact h.nested g state hstate
  · rw [htemplate _ (howner chore hchore)]
    exact h.chores chore hchore

end Ledger

/-! ### Acts -/

theorem Ledger.resolves_eq (h : page.Ledger agenda) (horderly : page.Orderly)
    (ho : (page.slot o).isVacant = false) (field : String) :
    page.resolves o field = page.knows o field := by
  refine Bool.eq_iff_iff.mpr ⟨fun hresolves => ?_, resolves_of_knows horderly ho⟩
  obtain ⟨a, ha, hcontains⟩ := List.any_eq_true.mp hresolves
  have hunder := (mem_path_iff horderly ho).mp ha
  have hknown := h.bound a field hcontains
  rwa [knows, ← horderly.component_of_under hunder] at hknown

section Enroll

variable (howner : (page.slot owner).isVacant = false)

include howner

theorem effects?_enroll (e : Effect) (name field : String) :
    ((page.enroll owner e name).slot owner).bindings.effects? field =
      if field = name ∧ page.resolves owner name = true then
        some (page.registered owner field ++ [e])
      else (page.slot owner).bindings.effects? field := by
  unfold enroll
  by_cases hresolves : page.resolves owner name = true
  · rw [if_pos hresolves, slot_updateSlot_of_lt (lt_size_of_not_vacant howner)]
    simp only [hresolves, and_true]
    exact Bindings.effects?_ensure_add
  · rw [if_neg hresolves, if_neg fun h => hresolves h.2]

/-- An effect that is registered once under each of some fields comes last under each that is found. -/
theorem effects?_foldl_enroll (e : Effect) (hfields : fields.Nodup) (field : String) :
    ((fields.foldl (enroll owner e) page).slot owner).bindings.effects? field =
      if field ∈ fields ∧ page.resolves owner field = true then
        some (page.registered owner field ++ [e])
      else (page.slot owner).bindings.effects? field := by
  induction fields generalizing page with
  | nil => simp
  | cons name rest ih =>
      obtain ⟨hname, hrest⟩ := List.nodup_cons.mp hfields
      have hfirst := effects?_enroll howner e name field
      have hvacant := (enroll_enrolled howner e name).not_vacant howner
      rw [List.foldl_cons, ih hvacant hrest, enroll_resolves howner, registered, hfirst]
      by_cases heq : field = name
      · subst heq
        simp [hname]
      · simp [heq, registered]

theorem effects?_enrolled (howned : e.owner = owner) (hfields : fields.Nodup) (field : String) :
    ((page.enrolled fields e).slot owner).bindings.effects? field =
      if field ∈ fields ∧ page.resolves owner field = true then
        some (page.registered owner field ++ [e])
      else (page.slot owner).bindings.effects? field := by
  subst howned
  have hcounted : ∀ next : Page, next.slots = page.slots →
      ((fields.foldl (enroll e.owner e) next).slot e.owner).bindings.effects? field =
        if field ∈ fields ∧ page.resolves e.owner field = true then
          some (page.registered e.owner field ++ [e])
        else (page.slot e.owner).bindings.effects? field := by
    intro next hslots
    have hslot : next.slot e.owner = page.slot e.owner := by rw [slot, hslots, slot]
    rw [effects?_foldl_enroll (hslot ▸ howner) e hfields, resolves_congr hslots, registered, hslot,
      registered]
  exact hcounted _ rfl

theorem registered_enrolled (howned : e.owner = owner) (hfields : fields.Nodup) (field : String) :
    (page.enrolled fields e).registered owner field = page.registered owner field ++
      if field ∈ fields ∧ page.resolves owner field = true then [e] else [] := by
  rw [registered, effects?_enrolled howner howned hfields]
  split
  · rfl
  · rw [List.append_nil, registered]

end Enroll

/-- What a chore had to register is registered. -/
theorem Ledger.enrolled (h : page.Ledger (.chore ⟨owner, node, job⟩ :: agenda))
    (horderly : page.Orderly) (howner : (page.slot owner).isVacant = false)
    (howned : e.owner = owner) (hnew : page.effects < e.id.number) (hreads : e.task.fields = fields)
    (hfields : fields.Nodup)
    (hjob : ∀ field, job.readers field = if field ∈ fields then [e.task] else []) :
    (page.enrolled fields e).Ledger (.run e :: agenda) := by
  have hself := foldl_enroll_enrolled { page with effects := page.effects + 1 } owner howner e fields
  have hpage : page.enrolled fields e =
      fields.foldl (enroll owner e) { page with effects := page.effects + 1 } := by
    rw [Page.enrolled, howned]
  rw [← hpage] at hself
  have hslot : (page.enrolled fields e).slot owner =
      { page.slot owner with bindings := ((page.enrolled fields e).slot owner).bindings } := hself.slot
  have hother : ∀ j, j ≠ owner → (page.enrolled fields e).slot j = page.slot j := hself.retouch.other
  have hregistered := registered_enrolled howner howned hfields
  have hresolves := h.resolves_eq horderly howner
  have hkind : ∀ j, ((page.enrolled fields e).slot j).kind = (page.slot j).kind := by
    intro j
    by_cases hj : j = owner
    · rw [hj, hslot]
    · rw [hother j hj]
  have hcomponent : ∀ j, ((page.enrolled fields e).slot j).component = (page.slot j).component :=
    (calm_enrolled page fields e).component
  have hrest : ∀ j, j ≠ owner → ∀ field,
      (page.enrolled fields e).registered j field = page.registered j field := by
    intro j hj field
    rw [registered, hother j hj, registered]
  have hcontains : ∀ field, ((page.enrolled fields e).slot owner).bindings.contains field = true →
      page.knows owner field = true := by
    intro field hfield
    rw [← Bindings.isSome_effects?, effects?_enrolled howner howned hfields] at hfield
    split at hfield
    · rename_i hfound
      exact (hresolves field).symm.trans hfound.2
    · rw [Bindings.isSome_effects?] at hfield
      exact h.bound owner field hfield
  -- The table of a component has an entry for all that is found in it, and gets no other.
  have hholder : ∀ j field,
      ((page.enrolled fields e).slot (page.slot j).component).bindings.contains field =
        (page.slot (page.slot j).component).bindings.contains field := by
    intro j field
    by_cases hj : (page.slot j).component = owner
    · rw [hj]
      have hknows : page.knows owner field = (page.slot owner).bindings.contains field := by
        rw [knows, ← hj, horderly.component_component]
      refine Bool.eq_iff_iff.mpr ⟨fun hfield => ?_, hself.contains field⟩
      rw [← hknows]
      exact hcontains field hfield
    · rw [hother _ hj]
  have hknows : ∀ j field, (page.enrolled fields e).knows j field = page.knows j field := by
    intro j field
    rw [knows, hcomponent, hholder, knows]
  have htemplate : ∀ j, ((page.enrolled fields e).slot j).template? = (page.slot j).template? := by
    intro j
    rw [Instance.template?, hkind, Instance.template?]
  have hfresh : ∀ field, e ∉ page.registered owner field := by
    intro field he
    have hmade := (horderly.effect_owner owner e ⟨field, registers_of_mem_registered he⟩).2
    omega
  refine ⟨fun c state hstate field => ?_, fun j field hfield => ?_, fun j field hfield => ?_,
    fun j field => ?_, fun j field other x hx hknown => ?_, fun f state hstate => ?_,
    fun chore hchore => ?_⟩
  · rw [component?, Instance.component?, hkind] at hstate
    have hstate : page.component? c = some state := hstate
    rw [← (horderly.component_eq c state hstate).2, hholder,
      (horderly.component_eq c state hstate).2]
    exact h.declared c state hstate field
  · rw [hknows]
    by_cases hj : j = owner
    · exact hj ▸ hcontains field (hj ▸ hfield)
    · rw [hother j hj] at hfield
      exact h.bound j field hfield
  · rw [hknows] at hfield
    have hold := h.balance j field hfield
    have hreaders : (page.enrolled fields e).readers j field = page.readers j field := by
      rw [readers, htemplate, readers]
    rw [List.flatMap_cons, Errand.readers] at hold
    rw [List.flatMap_cons, Errand.readers, List.nil_append, hreaders]
    by_cases hj : j = owner
    · subst hj
      rw [if_pos rfl, hjob, ← List.append_assoc] at hold
      rw [hregistered, hresolves, hfield, List.map_append]
      by_cases hmem : field ∈ fields
      · rw [if_pos hmem] at hold
        rw [if_pos ⟨hmem, rfl⟩]
        exact hold
      · rw [if_neg hmem] at hold
        rw [if_neg fun hfound => hmem hfound.1]
        exact hold
    · rw [if_neg (Ne.symm hj)] at hold
      rw [hrest j hj]
      exact hold
  · by_cases hj : j = owner
    · subst hj
      rw [hregistered]
      split
      · refine List.nodup_append.mpr ⟨h.once j field, List.nodup_singleton e, ?_⟩
        intro x hx y hy heq
        rw [heq, List.mem_singleton.mp hy] at hx
        exact hfresh field hx
      · rw [List.append_nil]
        exact h.once j field
    · rw [hrest j hj]
      exact h.once j field
  · rw [hknows] at hknown
    by_cases hj : j = owner
    · subst hj
      rw [hregistered, List.mem_append] at hx
      rw [hregistered, List.mem_append, hresolves, hknown]
      rcases hx with hx | hx
      · have hne : x ≠ e := fun heq => hfresh field (heq ▸ hx)
        rw [← h.reads j field other x hx hknown, or_iff_left]
        split
        · exact fun hmem => hne (List.mem_singleton.mp hmem)
        · exact List.not_mem_nil
      · have heq : x = e := by
          split at hx
          · exact List.mem_singleton.mp hx
          · cases hx
        rw [heq, hreads, or_iff_right (hfresh other)]
        by_cases hmem : other ∈ fields <;> simp [hmem]
    · rw [hrest j hj] at hx
      rw [hrest j hj]
      exact h.reads j field other x hx hknown
  · rw [fragment?, Instance.fragment?, hkind] at hstate
    exact h.nested f state hstate
  · rw [htemplate]
    have hold := (List.mem_cons.mp hchore).resolve_left fun heq => by cases heq
    exact h.chores chore (List.mem_cons_of_mem _ hold)

theorem Toggled.account {state : FragmentState} {root : NodeId} {attached : Bool}
    (h : Toggled f state root attached page page') : (page'.slot f).account =
      { (page.slot f).account with template? := some state.blueprint } := by
  have hkind := Instance.kind_of_fragment? h.before
  rw [h.slot]
  simp [Instance.account, Instance.component?, Instance.fragment?, Instance.template?, hkind]

/-- A fragment that is mounted for the first time is rendered then. -/
theorem Turned.ledger {wish : Bool} {new : List Chore} (hturned : Turned f page wish page' new)
    (hvalid : page.dom.Valid) (h : page.Ledger agenda) :
    page'.Ledger (new.map .chore ++ agenda) := by
  cases hturned with
  | kept _ => exact h
  | hidden _ _ _ => exact h
  | unmounted _ _ =>
      exact h.of_account (read_unmount Instance.account
        (Instance.account_mapFragment fun _ => ⟨rfl, rfl⟩) page f)
  | @remounted state root dom hstate _ _ hroot _ =>
      have hkeeps : ∀ node, state.root = some node → root = node := by
        intro node hnode
        rw [hroot, Option.some.injEq] at hnode
        exact hnode
      have htoggled : Toggled f state root true page _ :=
        toggled_setMounted hstate root hkeeps dom (.remounted f.number)
      refine h.of_account fun j => ?_
      by_cases hj : j = f
      · have htemplate : (page.slot f).account.template? = some state.blueprint := by
          change (page.slot f).template? = _
          rw [Instance.template?_of_fragment hstate, hroot]
          rfl
        rw [hj, htoggled.account, ← htemplate]
      · rw [htoggled.other j hj]
  | refused _ _ _ _ => exact h.of_slot fun _ => rfl
  | @mounted state root dom dom' copy hstate _ _ hroot hcopy hfirst _ =>
      have hkeeps : ∀ node, state.root = some node → root = node := by
        intro node hnode
        rw [hroot] at hnode
        cases hnode
      have htoggled : Toggled f state root true page _ :=
        toggled_setMounted hstate root hkeeps (dom'.remove copy.root) (.mounted f.number)
      have hnested := h.nested f state hstate
      rw [hnested.filter_marked hvalid hcopy hfirst]
      obtain ⟨parsed, hcompiled⟩ := hnested.1
      have hlisted := hcompiled.listed page.dom
      rw [hcopy] at hlisted
      refine h.render hnested.1 hlisted ?_ htoggled.account fun j hj => ?_
      · rw [Instance.template?_of_fragment hstate, hroot]
        rfl
      · rw [htoggled.other j hj]
  | rootless _ _ _ _ _ => exact h.of_slot fun _ => rfl
  | unplaced _ _ _ _ _ _ => exact h.of_slot fun _ => rfl

/-- An act keeps the ledger. -/
theorem Act.ledger {s s' : Page × List Errand} (hact : Act c late s s') (horderly : s.1.Orderly)
    (hvalid : s.1.dom.Valid) (h : s.1.Ledger s.2) : s'.1.Ledger s'.2 := by
  cases hact with
  | unmark _ => exact (h.tail_chore fun _ => rfl).of_slot fun _ => rfl
  | @refer page owner node name agenda _ =>
      have hsame : ∀ i : Instance, (i.mapComponent fun state =>
          { state with references := state.references.insert name node }).account = i.account :=
        Instance.account_mapComponent fun _ => ⟨rfl, rfl⟩
      exact (h.tail_chore fun _ => rfl).of_account
        (read_updateSlot Instance.account hsame page (page.slot owner).component)
  | @listen page owner node binding agenda _ _ =>
      exact (h.tail_chore fun _ => rfl).of_slot (Rendering.akin_listen owner node page binding).slot
  | unknown => exact (h.tail_chore fun _ => rfl).of_slot fun _ => rfl
  | enroll _ hattached _ =>
      obtain ⟨hreads, hfields⟩ := (h.chores _ List.mem_cons_self).1
      exact h.enrolled horderly (Instance.not_vacant_of_isAttached hattached) rfl (Nat.lt_succ_self _)
        hreads hfields fun _ => rfl
  | @guard page page₁ owner f node anchor index directive agenda _ hattached hanchored =>
      have hvacant := Instance.not_vacant_of_isAttached hattached
      obtain ⟨⟨hfields, hnested⟩, outer, houter, hbelongs⟩ := h.chores _ List.mem_cons_self
      obtain ⟨hrendered, houter⟩ := Instance.rendered_of_template? houter
      have hnests := hbelongs.nests directive (Or.inr ⟨index, rfl⟩)
      have hakin := (Rendering.akin_reportMismatch page index directive node).trans
        (Rendering.akin_placeAnchor _ node)
      have hslot := hakin.slot owner
      rw [Page.anchored] at hanchored
      generalize (page.reportMismatch index directive node).placeAnchor node = placed
        at hakin hslot hanchored
      obtain ⟨middle, anchor'⟩ := placed
      cases hanchored
      have hmiddle : middle.Orderly := horderly.of_akin hakin
      have hjoins := createFragment_joins hmiddle (hslot ▸ hvacant) directive.blueprint anchor .empty
      have horderly' := (createFragment_turn hmiddle (hslot ▸ houter) hnests (hslot ▸ hrendered) anchor
        .empty (fun _ => True) trivial).orderly
      have hjoined := (h.of_slot hakin.slot).joins hmiddle hjoins (fun _ => rfl)
        (fun _ hnot => by cases hnot) (fun _ hnot => by cases hnot)
        (fun _ hstate => by cases hstate; exact hnested) rfl
      refine hjoined.enrolled horderly' ?_ rfl (Nat.lt_succ_self _) rfl hfields fun _ => rfl
      rw [hjoins.slot_other owner (hjoins.ne_of_not_vacant (hslot ▸ hvacant))]
      exact hslot ▸ hvacant
  | nest _ _ _ => exact (h.chores _ List.mem_cons_self).1.elim
  | @rewrite page e agenda mount _ _ hwrites =>
      refine (h.tail fun _ _ => rfl).of_slot fun j => ?_
      rw [slot, slots_runEffect mount page hwrites, slot]
  | @remount page page' e agenda new _ _ hmounted =>
      have hrun := h.tail fun _ _ => rfl
      cases hmounted with
      | @guarded f guard _ _ _ _ hturned =>
          refine hturned.ledger (checked_dom page e guard ▸ hvalid) (hrun.of_slot fun j => ?_)
          rw [slot, akin_counted_slots, slot]
      | always _ _ hturned => exact hturned.ledger hvalid (hrun.of_slot fun _ => rfl)
      | idle _ _ => exact hrun.of_slot fun _ => rfl
  | @rest page o agenda _ _ =>
      exact h.of_account (read_updateSlot Instance.account
        (fun i => Instance.account_record i.children false fun _ => rfl) page o)
  | @drain page o agenda seen _ _ hattached _ =>
      refine h.same (fun j => ?_) (fun o field => ?_) fun chore hchore => ?_
      · by_cases hj : j = o
        · rw [hj, slot_updateSlot_of_lt (lt_size_of_not_vacant
            (Instance.not_vacant_of_isAttached hattached))]
          exact Instance.account_record _ _ fun _ => Bindings.effects?_clearChanges
        · rw [slot_updateSlot_of_ne hj]
      · rw [List.flatMap_append, List.flatMap_map]
        simp [Errand.readers]
      · rcases List.mem_append.mp hchore with hrun | hchore
        · obtain ⟨_, _, heq⟩ := List.mem_map.mp hrun
          cases heq
        · exact hchore

theorem Acts.ledger {next : Page × List Errand} (hacts : Acts c late (page, agenda) next)
    (hbusy : Busy reading ⟨page, plan, agenda⟩) (hbalanced : page.Balanced)
    (h : page.Ledger agenda) : next.1.Ledger next.2 := by
  induction hacts with
  | refl => exact h
  | tail hacts hstep ih =>
      obtain ⟨plan', hbusy', _⟩ := Acts.busy hacts hbusy hbalanced
      exact hstep.2.ledger hstep.1 hbusy'.laid.valid ih

end Page

end LiveMarkup
