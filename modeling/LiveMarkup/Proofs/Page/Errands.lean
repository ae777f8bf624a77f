import LiveMarkup.Proofs.Page.Planting

/-!
A layout while something is still to be done: every chore is about a node whose role calls for it, and
every effect about a line or an anchor of its owner. An act moves the layout on.
-/

namespace LiveMarkup

/-! ### What effects write -/

/-- The outcome of an interpolation in a scope; an evaluation that fails counts as falsy. -/
def Interpolation.outcome (i : Interpolation) (scope : Scope) : Outcome :=
  match i.evaluate scope with
  | .ok outcome => outcome
  | .error _ => .falsy

/-- What a node holds once a task has written to it. -/
def Task.put (scope : Scope) (task : Task) (held : Content) : Content :=
  match task with
  | .writeText i =>
    match (i.outcome scope).text? with
    | some s => .text s
    | none => held
  | .writeAttribute name i =>
    match i.outcome scope with
    | .true => held.setAttribute name ""
    | .text s => held.setAttribute name s
    | .falsy => held.eraseAttribute name
  | _ => held

namespace Page

variable {reading : Blueprint → List Sketch} {page page' page'' : Page} {plan plan' plan'' : Plan}
  {n p x node root : NodeId} {c f g o owner : InstanceId} {guard : Interpolation} {body : Sketch}
  {sketch : Sketch} {state : FragmentState} {e : Effect}

theorem scope_congr (hslots : page'.slots = page.slots) (o : InstanceId) :
    page'.scope o = page.scope o := by
  have hslot : ∀ j, page'.slot j = page.slot j := fun j => by rw [slot, slot, hslots]
  have hpath : page'.path o = page.path o :=
    path_congr (by rw [hslots]) (fun j => by rw [hslot]) o
  rw [scope, scope, hpath]
  simp only [hslot]

theorem evaluate_fst (page : Page) (owner : InstanceId) (i : Interpolation) :
    (page.evaluate owner i).1 = i.outcome (page.scope owner) := by
  unfold evaluate Interpolation.outcome
  cases i.evaluate (page.scope owner) <;> rfl

theorem evaluate_dom (page : Page) (owner : InstanceId) (i : Interpolation) :
    (page.evaluate owner i).2.dom = page.dom := by
  unfold evaluate
  split <;> rfl

theorem checked_fst (page : Page) (e : Effect) (guard : Interpolation) :
    (page.checked e guard).1 = guard.outcome (page.scope e.owner) := by
  rw [checked, evaluate_fst, scope_congr]
  rfl

theorem checked_dom (page : Page) (e : Effect) (guard : Interpolation) :
    (page.checked e guard).2.dom = page.dom :=
  evaluate_dom _ _ _

/-- One node holds something else, and everything else is as it was. -/
structure Puts (n : NodeId) (put : Content → Content) (d d' : Dom) : Prop extends
    Dom.Rewritten d d' where
  content : ∀ x, d'.content x = if x = n then put (d.content x) else d.content x
  marker : ∀ x, d'.marker x = d.marker x

theorem Puts.of_eq {d d' : Dom} {put : Content → Content} (h : d' = d)
    (hput : put (d.content n) = d.content n) : Puts n put d d' where
  toRewritten := rewritten_of_eq h
  content x := by
    rw [h]
    split
    · rename_i heq
      rw [heq, hput]
    · rfl
  marker x := by rw [h]

theorem Puts.of_node {d d' : Dom} {put : Content → Content} (h : Dom.Rewritten d d')
    (hnode : ∀ x, d'.node x = if x = n then { d.node n with content := put (d.content n) }
      else d.node x) : Puts n put d d' where
  toRewritten := h
  content x := by
    rw [Dom.content, hnode, Dom.content]
    split
    · rename_i heq
      rw [heq]
      rfl
    · rfl
  marker x := by
    rw [Dom.marker, hnode, Dom.marker]
    split
    · rename_i heq
      rw [heq]
    · rfl

theorem slots_runEffect (mount : InstanceId → Page → Page) (page : Page)
    (hwrites : e.task.writes = true) : (runEffect mount page e).slots = page.slots := by
  have hevaluated := fun i => (akin_evaluate (page.counted e) e.owner i).slots
  unfold runEffect
  cases htask : e.task with
  | writeText i => exact (akin_writeText _ _ _).slots.trans (hevaluated i)
  | writeUpper i => exact (akin_writeText _ _ _).slots.trans (hevaluated i)
  | writeAttribute name i => exact (akin_writeAttribute _ _ _ _).slots.trans (hevaluated i)
  | guardFragment guard | mountFragment =>
      rw [htask] at hwrites
      cases hwrites

/-- A write to a line of an instance. -/
theorem runEffect_puts (hvalid : page.dom.Valid) (mount : InstanceId → Page → Page)
    (htask : e.task ∈ sketch.tasks) (hsuits : sketch.Suits (page.dom.content e.node)) :
    Puts e.node (e.task.put (page.scope e.owner)) page.dom (runEffect mount page e).dom := by
  have hscope : (page.counted e).scope e.owner = page.scope e.owner := scope_congr (by rfl) e.owner
  cases sketch with
  | fixed content | guarded guard body => cases htask
  | text i =>
      obtain ⟨held, hheld⟩ := hsuits
      have htext : e.task = .writeText i := List.mem_singleton.mp htask
      have hdom : (runEffect mount page e).dom =
          match (i.outcome (page.scope e.owner)).text? with
          | some s => page.dom.setTextContent e.node s
          | none => page.dom := by
        rw [runEffect, htext]
        change (((page.counted e).evaluate e.owner i).2.writeText e.node
          ((page.counted e).evaluate e.owner i).1.text?).dom = _
        rw [evaluate_fst, hscope]
        cases (i.outcome (page.scope e.owner)).text? with
        | none => exact evaluate_dom _ _ _
        | some s =>
            rw [writeText, editDom, evaluate_dom]
            rfl
      rw [hdom, htext]
      cases houtcome : (i.outcome (page.scope e.owner)).text? with
      | none => exact .of_eq rfl (by rw [Task.put, houtcome])
      | some s =>
          have hput : (Task.writeText i).put (page.scope e.owner) (page.dom.content e.node) =
              .text s := by
            rw [Task.put, houtcome]
          refine .of_node (Dom.setTextContent_rewritten hvalid hheld s) fun x => ?_
          rw [hput]
          exact Dom.node_setTextContent hvalid hheld s x
  | element tag attributes bindings kids =>
      obtain ⟨b, _, hb⟩ := List.mem_map.mp htask
      have hdom : (runEffect mount page e).dom =
          match b.interpolation.outcome (page.scope e.owner) with
          | .true => page.dom.setAttribute e.node b.name ""
          | .text s => page.dom.setAttribute e.node b.name s
          | .falsy => page.dom.eraseAttribute e.node b.name := by
        rw [runEffect, ← hb]
        change (((page.counted e).evaluate e.owner b.interpolation).2.writeAttribute e.node b.name
          ((page.counted e).evaluate e.owner b.interpolation).1).dom = _
        rw [evaluate_fst, hscope]
        cases b.interpolation.outcome (page.scope e.owner) <;>
          rw [writeAttribute, editDom, evaluate_dom] <;> rfl
      have hput : ∀ held, e.task.put (page.scope e.owner) held =
          match b.interpolation.outcome (page.scope e.owner) with
          | .true => held.setAttribute b.name ""
          | .text s => held.setAttribute b.name s
          | .falsy => held.eraseAttribute b.name := fun held => by rw [← hb, Task.put]
      rw [hdom]
      cases houtcome : b.interpolation.outcome (page.scope e.owner) with
      | true | text s =>
          refine .of_node (Dom.setAttribute_rewritten hvalid e.node b.name _) fun x => ?_
          rw [hput, houtcome]
          exact Dom.node_setAttribute page.dom e.node b.name _ x
      | falsy =>
          refine .of_node (Dom.eraseAttribute_rewritten hvalid e.node b.name) fun x => ?_
          rw [hput, houtcome]
          exact Dom.node_eraseAttribute page.dom e.node b.name x

theorem suits_put {task : Task} {held : Content} (scope : Scope) (htask : task ∈ sketch.tasks)
    (h : sketch.Suits held) : sketch.Suits (task.put scope held) := by
  cases sketch with
  | fixed content | guarded guard body => cases htask
  | text i =>
      obtain rfl : task = .writeText i := List.mem_singleton.mp htask
      rw [Task.put]
      split
      · exact ⟨_, rfl⟩
      · exact h
  | element tag attributes bindings kids =>
      obtain ⟨b, _, rfl⟩ := List.mem_map.mp htask
      obtain ⟨held, rfl⟩ := h
      have hset : ∀ name value, ∃ new,
          (Content.element tag held).setAttribute name value = .element tag new := by
        intro name value
        rw [Content.setAttribute]
        split <;> exact ⟨_, rfl⟩
      rw [Task.put]
      split
      · exact hset b.name ""
      · exact hset b.name _
      · exact ⟨_, rfl⟩

end Page

/-! ### What is still to be done -/

namespace Errand

def node : Errand → NodeId
  | .chore given => given.node
  | .run e => e.node

/-- A guard is put in place after everything else has been done at its node. -/
def Before (a b : Errand) : Prop :=
  ∀ owner node index directive chore, a = .chore ⟨owner, node, .guard index directive⟩ →
    b = .chore chore → chore.node ≠ node

end Errand

namespace Plan

variable {plan plan' : Plan} {d d' : Dom} {e : Effect} {errand : Errand}

/-- An effect writes to a line of its owner or guards a fragment from its anchor. -/
def Binds (plan : Plan) (d : Dom) (e : Effect) : Prop :=
  d.Live e.node ∧
    ((∃ sketch, plan.role e.node = .line e.owner sketch ∧ e.task ∈ sketch.tasks) ∨
      ∃ f guard body, e.task = .guardFragment guard ∧ e.fragment = some f ∧
        plan.role e.node = .anchor e.owner f guard body)

theorem Binds.not_slot (h : plan.Binds d e) : (plan.role e.node).isSlot = false := by
  rcases h.2 with ⟨_, hrole, _⟩ | ⟨_, _, _, _, _, hrole⟩ <;> rw [hrole] <;> rfl

theorem Binds.owner (h : plan.Binds d e) : (plan.role e.node).owner? = some e.owner := by
  obtain ⟨_, ⟨_, hrole, _⟩ | ⟨_, _, _, _, _, hrole⟩⟩ := h <;> rw [hrole] <;> rfl

theorem Binds.congr (h : plan.Binds d e) (hlive : d'.Live e.node)
    (hrole : plan'.role e.node = plan.role e.node) : plan'.Binds d' e := by
  refine ⟨hlive, ?_⟩
  rw [hrole]
  exact h.2

/-- A chore suits the role of its node. -/
def Suits (plan : Plan) (d : Dom) (chore : Chore) : Prop :=
  d.Live chore.node ∧ (plan.role chore.node).owner? = some chore.owner ∧
    match chore.job with
    | .unmark => True
    | .refer _ => True
    | .listen _ => True
    | .write task fields => ∃ sketch, plan.role chore.node = .line chore.owner sketch ∧
        task ∈ sketch.tasks ∧ fields = task.fields
    | .guard _ directive => ∃ body, plan.role chore.node = .slot chore.owner directive.guard body ∧
        directive.blueprint.Says [body] ∧ body.Proper ∧ body.isElement = true
    | .nest _ => False
    | .unknown _ => False

def Ready (plan : Plan) (d : Dom) : Errand → Prop
  | .chore chore => plan.Suits d chore
  | .run e => plan.Binds d e

theorem Ready.congr (h : plan.Ready d errand) (hlive : d'.Live errand.node)
    (hrole : plan'.role errand.node = plan.role errand.node) : plan'.Ready d' errand := by
  cases errand with
  | run e => exact Binds.congr h hlive hrole
  | chore chore =>
      rw [Errand.node] at hlive hrole
      refine ⟨hlive, ?_⟩
      rw [hrole]
      exact h.2

theorem Ready.live (h : plan.Ready d errand) : d.Live errand.node := by
  cases errand with
  | run e => exact h.1
  | chore chore => exact h.1

end Plan

/-- A page with its layout and what is still to be done. -/
structure Work where
  page : Page
  plan : Plan
  agenda : List Errand

namespace Page

variable {reading : Blueprint → List Sketch} {page page' page'' : Page} {plan plan' plan'' : Plan}
  {n p x node root : NodeId} {c f g o owner : InstanceId} {guard : Interpolation} {body : Sketch}
  {sketch : Sketch} {state : FragmentState} {e : Effect} {agenda agenda' : List Errand}
  {errand : Errand} {late : Prop}

/-- What is still to be done suits the layout. -/
structure Busy (reading : Blueprint → List Sketch) (work : Work) : Prop where
  laid : work.page.Laid reading work.plan
  acyclic : Acyclic work.page.up
  tied : ∀ o e, (work.page.slot o).bindings.Holds e → work.plan.Binds work.page.dom e
  ready : ∀ errand ∈ work.agenda, work.plan.Ready work.page.dom errand
  apart : work.agenda.Pairwise Errand.Before

theorem Busy.next (h : Busy reading ⟨page, plan, agenda⟩) (hlaid : page'.Laid reading plan')
    (hacyclic : Acyclic page'.up) (habides : Abides page plan page' plan')
    (hheld : ∀ o e, (page'.slot o).bindings.Holds e →
      (page.slot o).bindings.Holds e ∨ plan'.Binds page'.dom e)
    (hready : ∀ errand ∈ agenda', plan'.Ready page'.dom errand)
    (hapart : agenda'.Pairwise Errand.Before) : Busy reading ⟨page', plan', agenda'⟩ where
  laid := hlaid
  acyclic := hacyclic
  tied o e he := by
    rcases hheld o e he with he | hbinds
    · have hold := h.tied o e he
      obtain ⟨hlive, hrole⟩ := habides e.node hold.1 hold.not_slot
      exact hold.congr hlive hrole
    · exact hbinds
  ready := hready
  apart := hapart

/-! ### The chores of a copy -/

section Chores

variable {d d' : Dom} {blueprint : Blueprint} {marked : List (Nat × NodeId)} {chore : Chore} {k : Nat}

theorem node_of_mem_choresAt (h : chore ∈ blueprint.choresAt o (k, n)) :
    chore.owner = o ∧ chore.node = n := by
  unfold Blueprint.choresAt at h
  split at h
  · rw [List.mem_singleton.mp h]
    exact ⟨rfl, rfl⟩
  · obtain ⟨job, _, rfl⟩ := List.mem_map.mp h
    exact ⟨rfl, rfl⟩

/-- What is to be done at a node with a marker. -/
theorem Sown.choresAt (h : Sown o blueprint marked d plan d' plan')
    (hmarked : (k, n) ∈ marked) : ∃ (sketch : Sketch) (jobs : List Job), sketch.Proper ∧
      plan'.role n = sketch.role o ∧ sketch.Calls jobs ∧
        blueprint.choresAt o (k, n) = (Job.unmark :: jobs).map (⟨o, n, ·⟩) := by
  obtain ⟨⟨hlive, hnew⟩, hmarker⟩ := (h.marked_iff k n).mp hmarked
  rcases h.plays n hlive hnew with ⟨_, hnone⟩ | ⟨sketch, hproper, hrole, _, _, jobs, hjobs, hcalls⟩
  · rw [hmarker] at hnone
    cases hnone
  · rw [hmarker] at hjobs
    obtain ⟨definition, hget, rfl⟩ := hjobs
    refine ⟨sketch, _, hproper, hrole, hcalls, ?_⟩
    have hdefinition : blueprint.definition? k = some definition := hget
    rw [Blueprint.choresAt, hdefinition]

theorem Sown.suits (h : Sown o blueprint marked d plan d' plan')
    (hchore : chore ∈ blueprint.chores o marked) :
    plan'.Suits d' chore ∧ ¬ d.Live chore.node := by
  obtain ⟨⟨k, n⟩, hmarked, hmem⟩ := List.mem_flatMap.mp hchore
  obtain ⟨⟨hlive, hnew⟩, _⟩ := (h.marked_iff k n).mp hmarked
  obtain ⟨sketch, jobs, _, hrole, hcalls, hchores⟩ := h.choresAt hmarked
  rw [hchores] at hmem
  obtain ⟨job, hjob, rfl⟩ := List.mem_map.mp hmem
  have howner : (plan'.role n).owner? = some o := by
    rw [hrole]
    exact Role.owner?_role o sketch
  refine ⟨⟨hlive, howner, ?_⟩, hnew⟩
  rcases List.mem_cons.mp hjob with rfl | hjob
  · trivial
  · cases sketch with
    | guarded guard body =>
        obtain ⟨index, directive, rfl, rfl, htells, hproper, helement⟩ := hcalls
        obtain rfl := List.mem_singleton.mp hjob
        exact ⟨body, hrole, htells, hproper, helement⟩
    | fixed content | text i | element tag attributes bindings kids =>
        rcases hcalls.2 job hjob with ⟨task, htask, rfl⟩ | ⟨name, rfl⟩ | ⟨binding, rfl⟩
        · exact ⟨_, hrole, htask, rfl⟩
        · trivial
        · trivial

theorem Sown.apart (h : Sown o blueprint marked d plan d' plan') :
    ((blueprint.chores o marked).map Errand.chore).Pairwise Errand.Before := by
  rw [List.pairwise_map, Blueprint.chores, List.pairwise_flatMap]
  constructor
  · rintro ⟨k, n⟩ hmarked
    obtain ⟨sketch, jobs, _, _, hcalls, hchores⟩ := h.choresAt hmarked
    rw [hchores, List.pairwise_map, List.pairwise_cons]
    refine ⟨fun job _ owner node index directive chore hguard => ?_, ?_⟩
    · cases hguard
    · cases sketch with
      | guarded guard body =>
          obtain ⟨_, _, rfl, _⟩ := hcalls
          exact List.pairwise_singleton _ _
      | fixed content | text i | element tag attributes bindings kids =>
          refine List.pairwise_of_forall_mem_list fun job hjob _ _ owner node index directive chore
            hguard => ?_
          rcases hcalls.2 job hjob with ⟨task, _, rfl⟩ | ⟨name, rfl⟩ | ⟨binding, rfl⟩ <;>
            cases hguard
  · have hnodup := h.marked_nodup
    rw [List.Nodup, List.pairwise_map] at hnodup
    refine hnodup.imp fun {a b} hne x hx y hy owner node index directive chore hguard hother => ?_
    obtain ⟨_, hxnode⟩ := node_of_mem_choresAt hx
    obtain ⟨_, hynode⟩ := node_of_mem_choresAt hy
    cases hguard
    cases hother
    rw [hynode]
    exact fun heq => hne (hxnode.symm.trans heq.symm)

end Chores

/-- Writing to nodes and to bindings keeps what is still to be done right. -/
theorem Busy.still (h : Busy reading ⟨page, plan, agenda⟩) (hkeeps : Keeps page page')
    (hfragments : ∀ f, page'.fragment? f = page.fragment? f) (hup : ∀ j, page'.up j = page.up j)
    (hdom : Dom.Rewritten page.dom page'.dom)
    (hsuits : ∀ n, page.dom.Live n → (plan.role n).Suits (page.dom.content n) →
      (plan.role n).Suits (page'.dom.content n))
    (hheld : ∀ o e, (page'.slot o).bindings.Holds e →
      (page.slot o).bindings.Holds e ∨ plan.Binds page.dom e)
    (hready : ∀ errand ∈ agenda', plan.Ready page.dom errand)
    (hapart : agenda'.Pairwise Errand.Before) : Busy reading ⟨page', plan, agenda'⟩ := by
  have hsame : page'.up = page.up := funext hup
  refine h.next (h.laid.still hkeeps hfragments hdom hsuits) (hsame ▸ h.acyclic)
    (fun n hn _ => ⟨(hdom.live n).mpr hn, rfl⟩) (fun o e he => (hheld o e he).imp id fun hbinds =>
      hbinds.congr ((hdom.live _).mpr hbinds.1) rfl)
    (fun errand herrand => (hready errand herrand).congr
      ((hdom.live _).mpr (hready errand herrand).live) rfl) hapart

theorem Busy.idle (h : Busy reading ⟨page, plan, agenda⟩) (hidle : Idle page page') :
    Busy reading ⟨page', plan, agenda⟩ :=
  h.still hidle.toCalm.keeps hidle.toCalm.fragment? hidle.toCalm.up (rewritten_of_eq hidle.dom)
    (fun n _ hsuits => by rwa [hidle.dom]) (fun o e he => Or.inl (hidle.held o e he)) h.ready h.apart

theorem keeps_of_akin (h : Akin page page') : Keeps page page' where
  document := h.document
  lasts i := .of_slot (h.slot i)
  back c state hstate := ⟨state, by rwa [component?, h.slot] at hstate, rfl⟩

/-- What leaves all slots alone. -/
theorem Busy.akin (h : Busy reading ⟨page, plan, agenda⟩) (hakin : Akin page page')
    (hdom : Dom.Rewritten page.dom page'.dom)
    (hsuits : ∀ n, page.dom.Live n → (plan.role n).Suits (page.dom.content n) →
      (plan.role n).Suits (page'.dom.content n))
    (hready : ∀ errand ∈ agenda', plan.Ready page.dom errand)
    (hapart : agenda'.Pairwise Errand.Before) : Busy reading ⟨page', plan, agenda'⟩ :=
  h.still (keeps_of_akin hakin) (fun f => by rw [fragment?, hakin.slot, fragment?])
    (fun j => by rw [up, hakin.slot, up]) hdom hsuits
    (fun o e he => Or.inl (by rwa [hakin.slot] at he)) hready hapart

theorem dom_enrolled (page : Page) (fields : Names) (e : Effect) :
    (page.enrolled fields e).dom = page.dom := by
  have hfold : ∀ (fields : Names) (page : Page),
      (fields.foldl (enroll e.owner e) page).dom = page.dom := by
    intro fields
    induction fields with
    | nil => exact fun _ => rfl
    | cons field rest ih =>
        intro page
        rw [List.foldl_cons, ih, enroll]
        split <;> rfl
  exact hfold fields _

theorem dom_listen (page : Page) (owner : InstanceId) (node : NodeId) (binding : EventBinding) :
    (listen owner node page binding).dom = page.dom := by
  unfold listen
  cases binding.handler with
  | none => rfl
  | some handler =>
      dsimp only
      cases page.missingMethod? owner handler <;> rfl

/-- An effect that is registered and is still to run. -/
theorem Busy.enrolled (h : Busy reading ⟨page, plan, agenda⟩)
    (hvacant : (page.slot owner).isVacant = false) {fragment : Option InstanceId} {task : Task}
    (fields : Names) (hbinds : plan.Binds page.dom (page.newEffect owner node fragment task)) :
    Busy reading ⟨page.enrolled fields (page.newEffect owner node fragment task), plan,
      .run (page.newEffect owner node fragment task) :: agenda⟩ := by
  have hcalm := calm_enrolled page fields (page.newEffect owner node fragment task)
  have henrolled := foldl_enroll_enrolled { page with effects := page.effects + 1 } owner hvacant
    (page.newEffect owner node fragment task) fields
  refine h.still hcalm.keeps hcalm.fragment? hcalm.up (rewritten_of_eq (dom_enrolled _ _ _))
    (fun n _ hsuits => by rwa [dom_enrolled]) (fun o e he => ?_) ?_ ?_
  · by_cases ho : o = owner
    · subst ho
      obtain ⟨field, hfield⟩ := he
      rcases (henrolled.registers field e).mp hfield with hold | ⟨rfl, _⟩
      · exact Or.inl ⟨field, hold⟩
      · exact Or.inr hbinds
    · have hslot := henrolled.retouch.other o ho
      have hsame : (page.enrolled fields (page.newEffect owner node fragment task)).slot o =
        page.slot o := hslot
      rw [hsame] at he
      exact Or.inl he
  · intro errand herrand
    rcases List.mem_cons.mp herrand with rfl | herrand
    · exact hbinds
    · exact h.ready errand herrand
  · refine List.pairwise_cons.mpr ⟨fun other _ _ _ _ _ _ hguard => ?_, h.apart⟩
    cases hguard

theorem acyclic_of_joins {i : Instance} (horderly : page.Orderly) (hj : Joins f i page page')
    (hvacant : (page.slot owner).isVacant = false) (hparent : i.parent = some owner) :
    Acyclic page'.up := by
  refine Acyclic.of_links owner (· = f) horderly.acyclic ?_ fun x q hx hq => ?_
  · rintro x rfl
    refine ⟨fun habove => ?_, ?_⟩
    · have heq : ∀ {n}, page.Under x n → n = x ∨ (page.slot x).isVacant = false := by
        intro n hunder
        induction hunder with
        | self => exact Or.inl rfl
        | step hup _ ih =>
            rcases ih with rfl | hnot
            · exact Or.inr (horderly.not_vacant_of_up hup).2
            · exact Or.inr hnot
      rcases heq habove with rfl | hnot
      · rw [hj.vacant] at hvacant
        cases hvacant
      · rw [hj.vacant] at hnot
        cases hnot
    · rw [up, hj.slot_self]
      exact hparent
  · rwa [hj.up_other hx] at hq

theorem writes_of_mem_tasks {task : Task} (h : task ∈ sketch.tasks) : task.writes = true := by
  cases sketch with
  | fixed content | guarded guard body => cases h
  | text i => rw [List.mem_singleton.mp h]; rfl
  | element tag attributes bindings kids =>
      obtain ⟨b, _, rfl⟩ := List.mem_map.mp h
      rfl

end Page

end LiveMarkup
