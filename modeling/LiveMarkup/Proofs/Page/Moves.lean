import LiveMarkup.Proofs.Page.Errands

/-!
The acts of a component as moves of a layout: every act that is possible leads to a layout again, and
what it has done to the nodes and their roles is known.
-/

namespace LiveMarkup.Page

variable {reading : Blueprint → List Sketch} {page page' page'' : Page} {plan plan' plan'' : Plan}
  {n p x node root : NodeId} {c f g o owner : InstanceId} {guard : Interpolation} {body : Sketch}
  {sketch : Sketch} {state : FragmentState} {e : Effect} {agenda agenda' : List Errand}
  {errand : Errand} {late : Prop}

/-- What becomes of a fragment that is mounted or unmounted, and of the layout. -/
inductive Flip (f : InstanceId) (page : Page) (plan : Plan) :
    Bool → Page → Plan → List Chore → Prop where
  | kept {state : FragmentState} (hstate : page.fragment? f = some state) :
    Flip f page plan state.attached page plan []
  | hidden {state : FragmentState} (hstate : page.fragment? f = some state)
    (hdetached : state.attached = false)
    (hparent : (page.slot f).parent.any page.isAttached = false) : Flip f page plan true page plan []
  | unmounted {state : FragmentState} {root : NodeId} (hstate : page.fragment? f = some state)
    (hattached : state.attached = true) (hroot : state.root = some root) :
    Flip f page plan false (page.unmount f) plan []
  | remounted {state : FragmentState} {root : NodeId} {dom : Dom}
    (hstate : page.fragment? f = some state) (hdetached : state.attached = false)
    (hparent : (page.slot f).parent.any page.isAttached = true) (hroot : state.root = some root)
    (hdom : dom = (page.dom.insertAfter state.anchor root).1) :
    Flip f page plan true (({ page with dom }.setMounted f root).report (.remounted f.number))
      plan []
  | mounted {plan' : Plan} {state : FragmentState} {root : NodeId} {dom : Dom}
    {marked : List (Nat × NodeId)} (hstate : page.fragment? f = some state)
    (hdetached : state.attached = false)
    (hparent : (page.slot f).parent.any page.isAttached = true) (hroot : state.root = none)
    (hhome : plan'.home = plan.home)
    (hsown : Sown f state.blueprint marked page.dom plan dom plan') :
    Flip f page plan true (({ page with dom }.setMounted f root).report (.mounted f.number)) plan'
      (state.blueprint.chores f marked)

/-- What may be done next, with what it does to the layout. -/
inductive Move (c : InstanceId) (late : Prop) : Work → Work → Prop where
  | unmark {page : Page} {plan : Plan} {owner : InstanceId} {node : NodeId} {agenda : List Errand}
    (howner : (page.slot owner).component = c) :
    Move c late ⟨page, plan, .chore ⟨owner, node, .unmark⟩ :: agenda⟩
      ⟨page.editDom (·.setMarker node none), plan, agenda⟩
  | refer {page : Page} {plan : Plan} {owner : InstanceId} {node : NodeId} {name : String}
    {agenda : List Errand} (howner : (page.slot owner).component = c) :
    Move c late ⟨page, plan, .chore ⟨owner, node, .refer name⟩ :: agenda⟩
      ⟨page.setReference owner name node, plan, agenda⟩
  | listen {page : Page} {plan : Plan} {owner : InstanceId} {node : NodeId}
    {binding : EventBinding} {agenda : List Errand} (howner : (page.slot owner).component = c) :
    Move c late ⟨page, plan, .chore ⟨owner, node, .listen binding⟩ :: agenda⟩
      ⟨listen owner node page binding, plan, agenda⟩
  | enroll {page : Page} {plan : Plan} {owner : InstanceId} {node : NodeId} {task : Task}
    {fields : Names} {sketch : Sketch} {agenda : List Errand}
    (howner : (page.slot owner).component = c) (hattached : page.isAttached owner = true)
    (hrole : plan.role node = .line owner sketch) (htask : task ∈ sketch.tasks)
    (hfields : fields = task.fields) :
    Move c late ⟨page, plan, .chore ⟨owner, node, .write task fields⟩ :: agenda⟩
      ⟨page.enrolled fields (page.newEffect owner node none task), plan,
        .run (page.newEffect owner node none task) :: agenda⟩
  | plant {page page₁ : Page} {plan : Plan} {owner f : InstanceId} {node anchor p : NodeId}
    {index : Nat} {directive : Directive Blueprint} {body : Sketch} {agenda : List Errand}
    (howner : (page.slot owner).component = c) (hattached : page.isAttached owner = true)
    (hrole : plan.role node = .slot owner directive.guard body)
    (hanchored : Anchored owner node anchor p directive.blueprint f page page₁) :
    Move c late ⟨page, plan, .chore ⟨owner, node, .guard index directive⟩ :: agenda⟩
      ⟨page₁.enrolled directive.dependencies
        (page₁.newEffect owner anchor (some f) (.guardFragment directive.guard)),
        ⟨Function.update plan.role anchor (.anchor owner f directive.guard body), plan.home⟩,
        .run (page₁.newEffect owner anchor (some f) (.guardFragment directive.guard)) :: agenda⟩
  | rewrite {page : Page} {plan : Plan} {e : Effect} {sketch : Sketch} {agenda : List Errand}
    (mount : InstanceId → Page → Page) (howner : (page.slot e.owner).component = c)
    (hattached : page.isAttached e.owner = true) (hrole : plan.role e.node = .line e.owner sketch)
    (htask : e.task ∈ sketch.tasks) :
    Move c late ⟨page, plan, .run e :: agenda⟩ ⟨runEffect mount page e, plan, agenda⟩
  | turn {page page' : Page} {plan plan' : Plan} {e : Effect} {f : InstanceId}
    {guard : Interpolation} {body : Sketch} {new : List Chore} {agenda : List Errand}
    (howner : (page.slot e.owner).component = c) (hattached : page.isAttached e.owner = true)
    (hrole : plan.role e.node = .anchor e.owner f guard body)
    (hflip : Flip f (page.checked e guard).2 plan
      (guard.outcome (page.scope e.owner)).isTruthy page' plan' new) :
    Move c late ⟨page, plan, .run e :: agenda⟩ ⟨page', plan', new.map .chore ++ agenda⟩
  | rest {page : Page} {plan : Plan} {o : InstanceId} {agenda : List Errand} (hlate : late)
    (howner : (page.slot o).component = c) :
    Move c late ⟨page, plan, agenda⟩ ⟨page.updateSlot o ({ · with scheduled := false }), plan, agenda⟩
  | drain {page : Page} {plan : Plan} {o : InstanceId} {agenda : List Errand}
    (seen : List EffectId) (hlate : late) (howner : (page.slot o).component = c)
    (hattached : page.isAttached o = true) (hunseen : page.Unseen seen) :
    Move c late ⟨page, plan, agenda⟩
      ⟨page.updateSlot o fun i => { i with bindings := (page.slot o).bindings.clearChanges }, plan,
        (Bindings.unseen seen (page.slot o).bindings.due).map .run ++ agenda⟩

/-! ### Acts as moves -/

theorem Busy.tail (h : Busy reading ⟨page, plan, errand :: agenda⟩) :
    Busy reading ⟨page, plan, agenda⟩ :=
  ⟨h.laid, h.acyclic, h.tied, fun other hother => h.ready other (List.mem_cons_of_mem _ hother),
    (List.pairwise_cons.mp h.apart).2⟩

/-- A fragment is mounted or unmounted, and brings chores at new nodes. -/
theorem Busy.toggled (h : Busy reading ⟨page, plan, agenda⟩) {attached : Bool}
    (htoggled : Toggled f state root attached page page') (hlaid : page'.Laid reading plan')
    (hold : ∀ n, page.dom.Live n → page'.dom.Live n ∧ plan'.role n = plan.role n)
    {new : List Chore} (hnew : ∀ chore ∈ new, plan'.Suits page'.dom chore ∧ ¬ page.dom.Live chore.node)
    (hapart : (new.map Errand.chore).Pairwise Errand.Before) :
    Busy reading ⟨page', plan', new.map .chore ++ agenda⟩ := by
  have hup : page'.up = page.up := funext fun j => (htoggled.place j).1
  refine h.next hlaid (hup ▸ h.acyclic) (fun n hn _ => hold n hn) (fun o e he => ?_)
    (fun errand herrand => ?_) ?_
  · by_cases ho : o = f
    · subst ho
      rw [htoggled.slot] at he
      exact Or.inl he
    · rw [htoggled.other o ho] at he
      exact Or.inl he
  · rcases List.mem_append.mp herrand with herrand | herrand
    · obtain ⟨chore, hchore, rfl⟩ := List.mem_map.mp herrand
      exact (hnew chore hchore).1
    · have hready := h.ready errand herrand
      obtain ⟨hlive, hrole⟩ := hold errand.node hready.live
      exact hready.congr hlive hrole
  · refine List.pairwise_append.mpr ⟨hapart, h.apart, ?_⟩
    rintro fresh hfresh other hother owner node index directive chore rfl rfl heq
    obtain ⟨_, hchore, hsame⟩ := List.mem_map.mp hfresh
    cases hsame
    exact (hnew _ hchore).2 (heq ▸ (h.ready _ hother).live)

theorem akin_counted_slots (page : Page) (e : Effect) (guard : Interpolation) :
    (page.checked e guard).2.slots = page.slots :=
  (akin_evaluate (page.counted e) e.owner guard).slots

/-- An effect that has evaluated its guard has changed nothing yet. -/
theorem Busy.checked (h : Busy reading ⟨page, plan, agenda⟩) (e : Effect)
    (guard : Interpolation) : Busy reading ⟨(page.checked e guard).2, plan, agenda⟩ := by
  have hcalm := calm_checked page e guard
  have hdom := checked_dom page e guard
  have hslots := akin_counted_slots page e guard
  refine h.still hcalm.keeps hcalm.fragment? hcalm.up (rewritten_of_eq hdom)
    (fun n _ hsuits => by rwa [hdom]) (fun o e he => Or.inl ?_) h.ready h.apart
  rwa [slot, hslots] at he

/-- A mount finds the anchor of its fragment in place and an element in its template. -/
theorem Turned.flip (h : Busy reading ⟨page, plan, agenda⟩) {wish : Bool} {new : List Chore}
    (hturned : Turned f page wish page' new) :
    ∃ plan', Flip f page plan wish page' plan' new ∧
      Busy reading ⟨page', plan', new.map .chore ++ agenda⟩ := by
  cases hturned with
  | kept hstate => exact ⟨plan, .kept hstate, h⟩
  | hidden hstate hdetached hparent => exact ⟨plan, .hidden hstate hdetached hparent, h⟩
  | @unmounted state hstate hmounted =>
      obtain ⟨_, _, _, hsits⟩ := h.laid.fragment f state hstate
      obtain ⟨root, hroot⟩ := hsits.rendered hmounted
      have hunlinked := Dom.detach_unlinked h.laid.valid root
      refine ⟨plan, .unmounted hstate hmounted hroot,
        h.toggled (toggled_unmount hstate hmounted hroot)
          (h.laid.unmount h.acyclic hstate hmounted hroot) (fun n hn => ⟨?_, rfl⟩)
          (fun _ hnone => absurd hnone List.not_mem_nil) List.Pairwise.nil⟩
      rw [unmount_eq hstate hmounted hroot]
      exact (hunlinked.live n).mpr hn
  | @remounted state root dom hstate hdetached hparent hroot hinsert =>
      have hdom : dom = (page.dom.insertAfter state.anchor root).1 := by rw [hinsert]
      obtain ⟨_, hrelinked, hlaid⟩ := h.laid.remount h.acyclic hstate hdetached hroot hdom
        (.remounted f.number)
      refine ⟨plan, .remounted hstate hdetached hparent hroot hdom,
        h.toggled (toggled_setMounted hstate root (fun node hnode => ?_) _ _) hlaid
          (fun n hn => ⟨(hrelinked.live n).mpr hn, rfl⟩)
          (fun _ hnone => absurd hnone List.not_mem_nil) List.Pairwise.nil⟩
      rw [hroot, Option.some.injEq] at hnode
      exact hnode
  | refused hstate hdetached hroot hinsert =>
      obtain ⟨hdone, _⟩ := h.laid.remount h.acyclic hstate hdetached hroot rfl
        (.remounted f.number)
      rw [hinsert] at hdone
      cases hdone
  | @mounted state root dom dom' copy hstate hdetached hparent hroot hcopy hfirst hinsert =>
      obtain ⟨node, hfirst', hdone, hlaid⟩ := h.laid.sprout h.acyclic hstate hroot hcopy
      rw [hfirst, Option.some.injEq] at hfirst'
      subst hfirst'
      obtain ⟨plan', hlaid, hhome, hsown⟩ := hlaid dom' (by rw [hinsert]) (.mounted f.number)
      refine ⟨plan', .mounted hstate hdetached hparent hroot hhome hsown,
        h.toggled (toggled_setMounted hstate root (fun node hnode => ?_) _ _) hlaid
          (fun n hn => ⟨(hsown.old n hn).1, (hsown.old n hn).2.1⟩)
          (fun chore hchore => hsown.suits hchore) hsown.apart⟩
      rw [hroot] at hnode
      cases hnode
  | rootless hstate hdetached hroot hcopy hfirst =>
      obtain ⟨root, hfirst', _⟩ := h.laid.sprout h.acyclic hstate hroot hcopy
      rw [hfirst] at hfirst'
      cases hfirst'
  | unplaced hstate hdetached hroot hcopy hfirst hinsert =>
      obtain ⟨node, hfirst', hdone, _⟩ := h.laid.sprout h.acyclic hstate hroot hcopy
      rw [hfirst, Option.some.injEq] at hfirst'
      subst hfirst'
      rw [hinsert] at hdone
      cases hdone

theorem Anchored.busy {old anchor : NodeId} {blueprint : Blueprint}
    (h : Busy reading ⟨page, plan, agenda⟩)
    (ha : Anchored owner old anchor p blueprint f page page') (horderly : page.Orderly)
    (hvacant : (page.slot owner).isVacant = false) (hlive : page.dom.Live old)
    (hrole : plan.role old = .slot owner guard body) (hup : page.dom.parent old = some p)
    (htells : blueprint.Says [body]) (hproper : body.Proper) (helement : body.isElement = true)
    (hother : ∀ errand ∈ agenda, errand.node ≠ old) :
    Busy reading ⟨page', ⟨Function.update plan.role anchor (.anchor owner f guard body), plan.home⟩,
      agenda⟩ := by
  have hdom := ha.dom
  have hstay : ∀ n, page.dom.Live n → n ≠ old → page'.dom.Live n ∧
      Function.update plan.role anchor (.anchor owner f guard body) n = plan.role n := by
    intro n hn hno
    refine ⟨(hdom.live n).mpr (Or.inr ⟨hn, hno⟩), Function.update_of_ne ?_ _ _⟩
    rintro rfl
    exact hdom.fresh hn
  refine h.next (ha.laid h.laid hlive hrole hup htells hproper helement)
    (acyclic_of_joins horderly ha.joins hvacant rfl) (fun n hn hslot => hstay n hn ?_)
    (fun o e he => Or.inl ?_) (fun errand herrand => ?_) h.apart
  · rintro rfl
    have hfalse : (plan.role n).isSlot = false := hslot
    rw [hrole] at hfalse
    cases hfalse
  · by_cases ho : o = f
    · subst ho
      rw [ha.joins.slot_self] at he
      exact absurd he Bindings.not_holds_empty
    · rwa [ha.joins.bindings_other ho] at he
  · have hready := h.ready errand herrand
    obtain ⟨hlive', hrole'⟩ := hstay errand.node hready.live (hother errand herrand)
    exact hready.congr hlive' hrole'

theorem content_setMarker {d : Dom} (hn : d.Live n) (marker : Option Nat) (x : NodeId) :
    (d.setMarker n marker).content x = d.content x := by
  rw [Dom.content, Dom.node_setMarker hn, Dom.content]
  split
  · rename_i heq
    rw [heq]
  · rfl

/-- A slot gives its place to an anchor. -/
theorem Busy.plant {page₁ : Page} {anchor : NodeId} {index : Nat} {directive : Directive Blueprint}
    (h : Busy reading ⟨page, plan, .chore ⟨owner, node, .guard index directive⟩ :: agenda⟩)
    (horderly : page.Orderly) (howner : (page.slot owner).component = c)
    (hattached : page.isAttached owner = true)
    (hanchored : page.anchored owner node index directive = (page₁, anchor, f)) :
    ∃ plan',
      Move c late ⟨page, plan, .chore ⟨owner, node, .guard index directive⟩ :: agenda⟩
        ⟨page₁.enrolled directive.dependencies
          (page₁.newEffect owner anchor (some f) (.guardFragment directive.guard)), plan',
          .run (page₁.newEffect owner anchor (some f) (.guardFragment directive.guard)) :: agenda⟩ ∧
      Busy reading ⟨page₁.enrolled directive.dependencies
        (page₁.newEffect owner anchor (some f) (.guardFragment directive.guard)), plan',
        .run (page₁.newEffect owner anchor (some f) (.guardFragment directive.guard)) :: agenda⟩ := by
  obtain ⟨hlive, _, body, hrole, htells, hproper, helement⟩ := h.ready _ List.mem_cons_self
  have hvacant := Instance.not_vacant_of_isAttached hattached
  obtain ⟨_, p, hup, _⟩ := h.laid.fits_of_role hlive hrole
  have ha := anchored_anchored h.laid.valid horderly hvacant hup (h.laid.children_of_slot hrole)
    hanchored
  -- Nothing else on the agenda is about the slot: there is one guard for it, and no effect.
  have hother : ∀ errand ∈ agenda, errand.node ≠ node := by
    intro errand herrand
    cases errand with
    | chore chore =>
        exact (List.pairwise_cons.mp h.apart).1 _ herrand owner node index directive chore rfl rfl
    | run e =>
        rintro rfl
        have hslot := Plan.Binds.not_slot (h.tail.ready _ herrand)
        have hrole' : plan.role e.node = .slot owner directive.guard body := hrole
        rw [hrole'] at hslot
        cases hslot
  have hbusy := ha.busy h.tail horderly hvacant hlive hrole hup htells hproper helement hother
  refine ⟨_, .plant howner hattached hrole ha, hbusy.enrolled
    (((ha.joins.keeps rfl).lasts owner).vacant hvacant) directive.dependencies
    ⟨(ha.dom.live anchor).mpr (Or.inl rfl), Or.inr ⟨f, directive.guard, body, rfl, rfl, ?_⟩⟩⟩
  exact Function.update_self _ _ _

/-- An effect writes to its node. -/
theorem Busy.rewrite (h : Busy reading ⟨page, plan, .run e :: agenda⟩)
    (mount : InstanceId → Page → Page) (howner : (page.slot e.owner).component = c)
    (hattached : page.isAttached e.owner = true) (hwrites : e.task.writes = true) :
    Move c late ⟨page, plan, .run e :: agenda⟩ ⟨runEffect mount page e, plan, agenda⟩ ∧
      Busy reading ⟨runEffect mount page e, plan, agenda⟩ := by
  obtain ⟨hlive, ⟨sketch, hrole, htask⟩ | ⟨f, guard, body, hguard, _⟩⟩ :=
    h.ready _ List.mem_cons_self
  · have hsuits := (h.laid.fits_of_role hlive hrole).2.1
    have hputs := runEffect_puts h.laid.valid mount htask hsuits
    have hcalm := calm_runEffect mount page hwrites
    refine ⟨.rewrite mount howner hattached hrole htask, h.tail.still hcalm.keeps hcalm.fragment?
      hcalm.up hputs.toRewritten (fun n _ hsuits' => ?_) (fun o x hx => Or.inl ?_) h.tail.ready
      h.tail.apart⟩
    · rw [hputs.content]
      split
      · rename_i heq
        rw [heq, hrole]
        exact suits_put (page.scope e.owner) htask (by rw [← heq, heq]; exact hsuits)
      · exact hsuits'
    · rwa [slot, slots_runEffect mount page hwrites] at hx
  · rw [hguard] at hwrites
    cases hwrites

/-- An effect at an anchor mounts its fragment or takes it down. -/
theorem Busy.turn {new : List Chore} (h : Busy reading ⟨page, plan, .run e :: agenda⟩)
    (howner : (page.slot e.owner).component = c) (hattached : page.isAttached e.owner = true)
    (hmounted : Mounted e page page' new) :
    ∃ plan', Move c late ⟨page, plan, .run e :: agenda⟩ ⟨page', plan', new.map .chore ++ agenda⟩ ∧
      Busy reading ⟨page', plan', new.map .chore ++ agenda⟩ := by
  obtain ⟨hlive, ⟨sketch, hrole, htask⟩ | ⟨f, guard, body, hguard, hf, hrole⟩⟩ :=
    h.ready _ List.mem_cons_self
  · have hwrites := writes_of_mem_tasks htask
    cases hmounted with
    | guarded hguard _ _ | always hguard _ _ =>
        rw [hguard] at hwrites
        cases hwrites
    | idle hidle _ =>
        rw [hidle] at hwrites
        cases hwrites
  · cases hmounted with
    | guarded hguard' hf' hturned =>
        rw [hguard, Task.guardFragment.injEq] at hguard'
        subst hguard'
        rw [hf, Option.some.injEq] at hf'
        subst hf'
        rw [checked_fst] at hturned
        obtain ⟨plan', hflip, hbusy⟩ := hturned.flip (h.tail.checked e guard)
        exact ⟨plan', .turn howner hattached hrole hflip, hbusy⟩
    | always halways _ _ =>
        rw [hguard] at halways
        cases halways
    | idle _ hnone =>
        rw [hf] at hnone
        cases hnone

/-- The effects that an instance holds are ready to run. -/
theorem Busy.drained (h : Busy reading ⟨page, plan, agenda⟩) (seen : List EffectId)
    (hattached : page.isAttached o = true) :
    Busy reading
      ⟨page.updateSlot o fun i => { i with bindings := (page.slot o).bindings.clearChanges }, plan,
        (Bindings.unseen seen (page.slot o).bindings.due).map .run ++ agenda⟩ := by
  have hcalm := calm_mapBindings page o fun _ => (page.slot o).bindings.clearChanges
  refine h.still hcalm.keeps hcalm.fragment? hcalm.up (rewritten_of_eq rfl)
    (fun n _ hsuits => hsuits) (fun j e he => Or.inl ?_) (fun errand herrand => ?_) ?_
  · by_cases hj : j = o
    · subst hj
      rw [slot_updateSlot_of_lt (lt_size_of_not_vacant
        (Instance.not_vacant_of_isAttached hattached))] at he
      exact Bindings.holds_clearChanges.mp he
    · rwa [slot_updateSlot_of_ne hj] at he
  · rcases List.mem_append.mp herrand with herrand | herrand
    · obtain ⟨e, he, rfl⟩ := List.mem_map.mp herrand
      exact h.tied o e (Bindings.holds_of_mem_due (Bindings.mem_unseen he).1)
    · exact h.ready errand herrand
  · refine List.pairwise_append.mpr ⟨List.pairwise_of_forall_mem_list fun a ha b _ => ?_,
      h.apart, fun a ha b _ => ?_⟩ <;>
    · obtain ⟨e, _, rfl⟩ := List.mem_map.mp ha
      intro _ _ _ _ _ hguard
      cases hguard

/-- An act is a move of the layout. -/
theorem Step.move {work : Work} {next : Page × List Errand}
    (hstep : Step c late (work.page, work.agenda) next) (h : Busy reading work) :
    ∃ plan', Move c late work ⟨next.1, plan', next.2⟩ ∧ Busy reading ⟨next.1, plan', next.2⟩ := by
  obtain ⟨page, plan, agenda⟩ := work
  obtain ⟨page', agenda'⟩ := next
  obtain ⟨horderly, hact⟩ := hstep
  dsimp only at horderly hact ⊢
  cases hact with
  | @unmark _ owner node agenda howner =>
      have hlive : page.dom.Live node := (h.ready _ List.mem_cons_self).live
      refine ⟨plan, .unmark howner, h.tail.akin (akin_editDom page _)
        (Dom.setMarker_rewritten h.laid.valid hlive none) (fun n _ hsuits => ?_) h.tail.ready
        h.tail.apart⟩
      rwa [editDom, content_setMarker hlive]
  | @refer _ owner node name agenda howner =>
      exact ⟨plan, .refer howner, h.tail.idle (idle_setReference page owner name node)⟩
  | @listen _ owner node binding agenda howner _ =>
      exact ⟨plan, .listen howner, h.tail.akin (Rendering.akin_listen owner node page binding)
        (rewritten_of_eq (dom_listen page owner node binding))
        (fun n _ hsuits => by rwa [dom_listen]) h.tail.ready h.tail.apart⟩
  | @enroll _ owner node task fields agenda howner hattached _ =>
      obtain ⟨hlive, _, sketch, hrole, htask, hfields⟩ := h.ready _ List.mem_cons_self
      exact ⟨plan, .enroll howner hattached hrole htask hfields,
        h.tail.enrolled (Instance.not_vacant_of_isAttached hattached) fields
          ⟨hlive, Or.inl ⟨sketch, hrole, htask⟩⟩⟩
  | guard howner hattached hanchored => exact h.plant horderly howner hattached hanchored
  | rewrite mount howner hattached hwrites =>
      exact ⟨plan, h.rewrite mount howner hattached hwrites⟩
  | remount howner hattached hmounted => exact h.turn howner hattached hmounted
  | @rest _ o _ hlate howner =>
      exact ⟨plan, .rest hlate howner, h.idle (idle_scheduled page o false)⟩
  | drain seen hlate howner hattached hunseen =>
      exact ⟨plan, .drain seen hlate howner hattached hunseen, h.drained seen hattached⟩
  -- No chore of a template that was read from markup asks for these.
  | unknown | nest => exact absurd (h.ready _ List.mem_cons_self).2.2 id

end LiveMarkup.Page
