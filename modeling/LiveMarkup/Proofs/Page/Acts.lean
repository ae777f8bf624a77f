import LiveMarkup.Proofs.Page.Passes

/-!
Mounting, wiring and passes, act by act. An agenda holds what is still to be done: the chores at the
claimed nodes of fresh copies, and the effects that are to run, for the first time or again. An act
does what is first on it, or takes out effects that are due. Whatever every act preserves, a whole
mount or pass preserves.
-/

namespace LiveMarkup

inductive Errand where
  | chore (chore : Chore)
  | run (e : Effect)

namespace Page

variable {mount : InstanceId → Page → Page} {page page' : Page} {owner f id c : InstanceId}
  {depth : Nat} {late : Prop}

/-! ### Acts -/

/-- What becomes at once of a fragment that is mounted or unmounted, and the chores that a first
mount brings. -/
inductive Turned (f : InstanceId) (page : Page) : Bool → Page → List Chore → Prop where
  | kept {state : FragmentState} (hstate : page.fragment? f = some state) :
    Turned f page state.attached page []
  | hidden {state : FragmentState} (hstate : page.fragment? f = some state)
    (hdetached : state.attached = false)
    (hparent : (page.slot f).parent.any page.isAttached = false) : Turned f page true page []
  | unmounted {state : FragmentState} (hstate : page.fragment? f = some state)
    (hattached : state.attached = true) : Turned f page false (page.unmount f) []
  | remounted {state : FragmentState} {root : NodeId} {dom : Dom}
    (hstate : page.fragment? f = some state) (hdetached : state.attached = false)
    (hparent : (page.slot f).parent.any page.isAttached = true) (hroot : state.root = some root)
    (hinsert : page.dom.insertAfter state.anchor root = (dom, true)) :
    Turned f page true (({ page with dom }.setMounted f root).report (.remounted f.number)) []
  /-- The element of a fragment cannot be put back. -/
  | refused {state : FragmentState} {root : NodeId} (hstate : page.fragment? f = some state)
    (hdetached : state.attached = false) (hroot : state.root = some root)
    (hinsert : (page.dom.insertAfter state.anchor root).2 = false) :
    Turned f page true (page.report (.anchorDetached f.number)) []
  | mounted {state : FragmentState} {root : NodeId} {dom dom' : Dom} {copy : Dom.Copy}
    (hstate : page.fragment? f = some state) (hdetached : state.attached = false)
    (hparent : (page.slot f).parent.any page.isAttached = true) (hroot : state.root = none)
    (hcopy : state.blueprint.instantiate page.dom = (dom, copy))
    (hfirst : dom.firstElementChild? copy.root = some root)
    (hinsert : dom.insertAfter state.anchor root = (dom', true)) :
    Turned f page true
      ((({ page with dom := dom'.remove copy.root } : Page).setMounted f root).report
        (.mounted f.number))
      (state.blueprint.chores f (copy.marked.filter fun entry => dom.contains root entry.2))
  /-- The template of a fragment has no element. -/
  | rootless {state : FragmentState} {dom : Dom} {copy : Dom.Copy}
    (hstate : page.fragment? f = some state) (hdetached : state.attached = false)
    (hroot : state.root = none) (hcopy : state.blueprint.instantiate page.dom = (dom, copy))
    (hfirst : dom.firstElementChild? copy.root = none) :
    Turned f page true
      (({ page with dom := dom.remove copy.root } : Page).report (.rootMissing f.number)) []
  /-- The element of a fragment cannot be put after its anchor. -/
  | unplaced {state : FragmentState} {root : NodeId} {dom : Dom} {copy : Dom.Copy}
    (hstate : page.fragment? f = some state) (hdetached : state.attached = false)
    (hroot : state.root = none) (hcopy : state.blueprint.instantiate page.dom = (dom, copy))
    (hfirst : dom.firstElementChild? copy.root = some root)
    (hinsert : (dom.insertAfter state.anchor root).2 = false) :
    Turned f page true
      (({ page with dom := dom.remove copy.root } : Page).report (.anchorDetached f.number)) []

/-- An effect that runs is counted. -/
def counted (page : Page) (e : Effect) : Page :=
  { page with stats.effectsRun := page.stats.effectsRun + 1, ran := e.id :: page.ran }

/-- The outcome of the guard of an effect that runs. -/
def checked (page : Page) (e : Effect) (guard : Interpolation) : Outcome × Page :=
  (page.counted e).evaluate e.owner guard

/-- A new fragment beside an anchor of its own, in place of a claimed node. -/
def anchored (page : Page) (owner : InstanceId) (node : NodeId) (index : Nat)
    (directive : Directive Blueprint) : Page × NodeId × InstanceId :=
  let (page, anchor) := (page.reportMismatch index directive node).placeAnchor node
  let (page, fragment) := page.createFragment owner directive.blueprint anchor .empty
  (page, anchor, fragment)

/-- What an effect that mounts does before the chores that it brings. -/
inductive Mounted (e : Effect) (page : Page) : Page → List Chore → Prop where
  | guarded {f : InstanceId} {guard : Interpolation} {page' : Page} {new : List Chore}
    (htask : e.task = .guardFragment guard) (hf : e.fragment = some f)
    (hturned : Turned f (page.checked e guard).2 (page.checked e guard).1.isTruthy page' new) :
    Mounted e page page' new
  | always {f : InstanceId} {page' : Page} {new : List Chore} (htask : e.task = .mountFragment)
    (hf : e.fragment = some f) (hturned : Turned f (page.counted e) true page' new) :
    Mounted e page page' new
  | idle (htask : e.task.writes = false) (hf : e.fragment = none) :
    Mounted e page (page.counted e) []

/-- What may be done next in the work of a component. `late` is whether work may begin that is not
on the agenda, as it does in passes and when a fragment is mounted again. -/
inductive Act (c : InstanceId) (late : Prop) :
    Page × List Errand → Page × List Errand → Prop where
  | unmark {page : Page} {owner : InstanceId} {node : NodeId} {agenda : List Errand}
    (howner : (page.slot owner).component = c) :
    Act c late (page, .chore ⟨owner, node, .unmark⟩ :: agenda)
      (page.editDom (·.setMarker node none), agenda)
  | refer {page : Page} {owner : InstanceId} {node : NodeId} {name : String}
    {agenda : List Errand} (howner : (page.slot owner).component = c) :
    Act c late (page, .chore ⟨owner, node, .refer name⟩ :: agenda)
      (page.setReference owner name node, agenda)
  | listen {page : Page} {owner : InstanceId} {node : NodeId} {binding : EventBinding}
    {agenda : List Errand} (howner : (page.slot owner).component = c)
    (hvacant : (page.slot owner).isVacant = false) :
    Act c late (page, .chore ⟨owner, node, .listen binding⟩ :: agenda)
      (listen owner node page binding, agenda)
  | unknown {page : Page} {owner : InstanceId} {node : NodeId} {index : Nat}
    {agenda : List Errand} :
    Act c late (page, .chore ⟨owner, node, .unknown index⟩ :: agenda)
      (page.report (.undefinedMarker index), agenda)
  | enroll {page : Page} {owner : InstanceId} {node : NodeId} {task : Task} {fields : Names}
    {agenda : List Errand} (howner : (page.slot owner).component = c)
    (hattached : page.isAttached owner = true) (hwrites : task.writes = true) :
    Act c late (page, .chore ⟨owner, node, .write task fields⟩ :: agenda)
      (page.enrolled fields (page.newEffect owner node none task),
        .run (page.newEffect owner node none task) :: agenda)
  | guard {page page₁ : Page} {owner f : InstanceId} {node anchor : NodeId} {index : Nat}
    {directive : Directive Blueprint} {agenda : List Errand}
    (howner : (page.slot owner).component = c) (hattached : page.isAttached owner = true)
    (hanchored : page.anchored owner node index directive = (page₁, anchor, f)) :
    Act c late (page, .chore ⟨owner, node, .guard index directive⟩ :: agenda)
      (page₁.enrolled directive.dependencies
        (page₁.newEffect owner anchor (some f) (.guardFragment directive.guard)),
        .run (page₁.newEffect owner anchor (some f) (.guardFragment directive.guard)) :: agenda)
  | nest {page page₁ : Page} {owner f : InstanceId} {node : NodeId}
    {directive : Directive Blueprint} {locals : Dict Expr.Value} {agenda : List Errand}
    (howner : (page.slot owner).component = c) (hattached : page.isAttached owner = true)
    (hmade : page.createFragment owner directive.blueprint node locals = (page₁, f)) :
    Act c late (page, .chore ⟨owner, node, .nest directive⟩ :: agenda)
      (page₁.enrolled [] (page₁.newEffect owner node (some f) .mountFragment),
        .run (page₁.newEffect owner node (some f) .mountFragment) :: agenda)
  | rewrite {page : Page} {e : Effect} {agenda : List Errand} (mount : InstanceId → Page → Page)
    (howner : (page.slot e.owner).component = c) (hattached : page.isAttached e.owner = true)
    (hwrites : e.task.writes = true) :
    Act c late (page, .run e :: agenda) (runEffect mount page e, agenda)
  | remount {page page' : Page} {e : Effect} {agenda : List Errand} {new : List Chore}
    (howner : (page.slot e.owner).component = c) (hattached : page.isAttached e.owner = true)
    (hmounted : Mounted e page page' new) :
    Act c late (page, .run e :: agenda) (page', new.map .chore ++ agenda)
  /-- A fragment stops waiting. -/
  | rest {page : Page} {o : InstanceId} {agenda : List Errand} (hlate : late)
    (howner : (page.slot o).component = c) :
    Act c late (page, agenda) (page.updateSlot o ({ · with scheduled := false }), agenda)
  /-- The effects of an instance that are due are taken out. -/
  | drain {page : Page} {o : InstanceId} {agenda : List Errand} (seen : List EffectId)
    (hlate : late) (howner : (page.slot o).component = c) (hattached : page.isAttached o = true)
    (hunseen : page.Unseen seen) :
    Act c late (page, agenda)
      (page.updateSlot o fun i => { i with bindings := (page.slot o).bindings.clearChanges },
        (Bindings.unseen seen (page.slot o).bindings.due).map .run ++ agenda)

/-- An act on a page in order. -/
def Step (c : InstanceId) (late : Prop) (s s' : Page × List Errand) : Prop :=
  s.1.Orderly ∧ Act c late s s'

/-- Any number of acts. -/
abbrev Acts (c : InstanceId) (late : Prop) : Page × List Errand → Page × List Errand → Prop :=
  Relation.ReflTransGen (Step c late)

/-! ### Mounting, act by act -/

/-- A way to mount fragments of a component that comes down to acts. Work that is not on the agenda
begins only when a fragment is mounted again. -/
def Splits (c : InstanceId) (late : Prop) (depth : Nat) (mount : InstanceId → Page → Page) :
    Prop :=
  ∀ page f, page.Orderly → (page.slot f).component = c → (page.fragment? f).isSome = true →
    (page.slot f).rank ≤ depth → (late ∨ page.fragmentRoot? f = none) →
    ∃ middle new, Turned f page true middle new ∧
      ∀ agenda, Acts c late (middle, new.map .chore ++ agenda) (mount f page, agenda)

theorem turned_unmount {state : FragmentState} (hstate : page.fragment? f = some state) :
    Turned f page false (page.unmount f) [] := by
  cases hattached : state.attached with
  | true => exact .unmounted hstate hattached
  | false =>
      have hsame : page.unmount f = page := by
        rw [unmount, hstate]
        simp [hattached]
      have hkept := Turned.kept hstate
      rw [hattached] at hkept
      rwa [hsame]

theorem fragmentRoot?_congr (h : page'.slot f = page.slot f) :
    page'.fragmentRoot? f = page.fragmentRoot? f := by
  rw [fragmentRoot?, fragment?, h, fragmentRoot?, fragment?]

theorem fragmentRoot?_of_fragment? {state : FragmentState}
    (hstate : page.fragment? f = some state) : page.fragmentRoot? f = state.root := by
  rw [fragmentRoot?, hstate]
  rfl

theorem mounted_of_runEffect (hsplits : Splits c late depth mount) (h : page.Orderly) {e : Effect}
    (hmade : e.id.number ≤ page.effects) (hmountable : Mountable depth e page)
    (hcomponent : ∀ f, e.fragment = some f → (page.slot f).component = c)
    (hlate : ∀ f, e.fragment = some f → late ∨ page.fragmentRoot? f = none)
    (hwrites : e.task.writes = false) :
    ∃ middle new, Mounted e page middle new ∧
      ∀ agenda, Acts c late (middle, new.map .chore ++ agenda)
        (runEffect mount page e, agenda) := by
  have horderly : (page.counted e).Orderly :=
    (run_turn h hmade { page.stats with effectsRun := page.stats.effectsRun + 1 }
      fun _ => True).orderly
  have hmounted : ∀ (f : InstanceId) (next : Page), e.fragment = some f → next.Orderly →
      (∀ id, next.slot id = page.slot id) → ∃ middle new, Turned f next true middle new ∧
        ∀ agenda, Acts c late (middle, new.map .chore ++ agenda) (mount f next, agenda) := by
    intro f next hf hnext hslot
    obtain ⟨hfragment, hrank⟩ := hmountable f hf
    refine hsplits next f hnext ?_ ?_ ?_ ?_
    · rw [hslot]
      exact hcomponent f hf
    · rwa [fragment?, hslot]
    · rwa [hslot]
    · rw [fragmentRoot?_congr (hslot f)]
      exact hlate f hf
  cases htask : e.task with
  | writeText i | writeUpper i | writeAttribute name i =>
      rw [htask] at hwrites
      cases hwrites
  | guardFragment guard =>
      cases hf : e.fragment with
      | none =>
          refine ⟨_, [], .idle hwrites hf, fun agenda => ?_⟩
          rw [runEffect, htask, hf]
          exact .refl
      | some f =>
          have hevaluated : Akin (page.counted e) (page.checked e guard).2 :=
            akin_evaluate (page.counted e) e.owner guard
          have hrun : runEffect mount page e = if (page.checked e guard).1.isTruthy then
              mount f (page.checked e guard).2 else (page.checked e guard).2.unmount f := by
            rw [runEffect, htask, hf]
            rfl
          by_cases htruthy : (page.checked e guard).1.isTruthy = true
          · obtain ⟨middle, new, hturned, hacts⟩ := hmounted f _ hf
              (horderly.of_akin hevaluated) hevaluated.slot
            rw [hrun, if_pos htruthy]
            exact ⟨middle, new, .guarded htask hf (htruthy ▸ hturned), hacts⟩
          · obtain ⟨state, hstate⟩ := Option.isSome_iff_exists.mp (hmountable f hf).1
            have hstate' : (page.checked e guard).2.fragment? f = some state := by
              rw [fragment?, hevaluated.slot]
              exact hstate
            rw [hrun, if_neg htruthy]
            rw [Bool.not_eq_true] at htruthy
            exact ⟨_, [], .guarded htask hf (htruthy ▸ turned_unmount hstate'),
              fun agenda => .refl⟩
  | mountFragment =>
      cases hf : e.fragment with
      | none =>
          refine ⟨_, [], .idle hwrites hf, fun agenda => ?_⟩
          rw [runEffect, htask, hf]
          exact .refl
      | some f =>
          obtain ⟨middle, new, hturned, hacts⟩ := hmounted f (page.counted e) hf horderly
            fun _ => rfl
          refine ⟨middle, new, .always htask hf hturned, fun agenda => ?_⟩
          have hrun : runEffect mount page e = mount f (page.counted e) := by
            rw [runEffect, htask, hf]
            rfl
          rw [hrun]
          exact hacts agenda

section Wiring

variable {blueprint : Blueprint}

/-- An owner is where it was when an effect of its own is registered. -/
theorem Rendering.Ready.place {e : Effect} (h : Rendering.Ready depth owner e page page') :
    (page'.slot owner).component = (page.slot owner).component ∧
      page'.isAttached owner = page.isAttached owner := by
  obtain ⟨_, henrolled⟩ := h.enrolled
  rw [isAttached, henrolled.slot]
  exact ⟨rfl, rfl⟩

/-- An effect that is made is registered first and run then. -/
theorem Rendering.install_acts (hsplits : Splits c late depth mount)
    (h : Rendering depth owner blueprint page) (hcomponent : (page.slot owner).component = c)
    (hattached : page.isAttached owner = true) (fields : Names) (node : NodeId)
    (fragment : Option InstanceId) (task : Task)
    (hfragment : ∀ f, fragment = some f → f ∈ (page.slot owner).children ∧
      (∀ x, (page.slot owner).bindings.Holds x → x.fragment ≠ some f) ∧
        page.fragmentRoot? f = none) (agenda : List Errand) :
    Acts c late
      (page.enrolled fields (page.newEffect owner node fragment task),
        .run (page.newEffect owner node fragment task) :: agenda)
      (page.install mount owner fields node fragment task, agenda) := by
  have hready := h.enrolled_ready fields node fragment task fun f hf =>
    ⟨(hfragment f hf).1, (hfragment f hf).2.1⟩
  have hplace := hready.place
  rw [install_eq]
  cases hwrites : task.writes with
  | true =>
      exact .single ⟨hready.orderly, .rewrite mount (hplace.1.trans hcomponent)
        (hplace.2.trans hattached) hwrites⟩
  | false =>
      obtain ⟨enrolledFields, henrolled⟩ := hready.enrolled
      have hchild : ∀ f, fragment = some f → ((page.enrolled fields
          (page.newEffect owner node fragment task)).slot f).component = c := by
        intro f hf
        have hup := (h.orderly.mem_children owner f).mp (hfragment f hf).1
        rw [((hready.turn.kept f).same (h.orderly.not_vacant_of_up hup).1).2,
          h.orderly.component_up owner f hup]
        exact hcomponent
      have hnew : ∀ f, fragment = some f → (page.enrolled fields
          (page.newEffect owner node fragment task)).fragmentRoot? f = none := by
        intro f hf
        have hne : f ≠ owner := by
          rintro rfl
          exact h.orderly.not_under_child (hfragment f hf).1 .self
        exact (fragmentRoot?_congr (henrolled.retouch.other f hne)).trans (hfragment f hf).2.2
      obtain ⟨middle, new, hmounted, hacts⟩ := mounted_of_runEffect hsplits hready.orderly
        hready.made hready.mountable hchild (fun f hf => Or.inr (hnew f hf)) hwrites
      exact .head ⟨hready.orderly, .remount (hplace.1.trans hcomponent)
        (hplace.2.trans hattached) hmounted⟩ (hacts agenda)

/-- A new fragment waits for an effect of its own. -/
theorem Rendering.newcomer (h : Rendering depth owner blueprint page) {nested : Blueprint}
    (anchor : NodeId) (locals : Dict Expr.Value) (f : InstanceId)
    (hf : some page.nextSlot = some f) :
    f ∈ ((page.createFragment owner nested anchor locals).1.slot owner).children ∧
      (∀ x, ((page.createFragment owner nested anchor locals).1.slot owner).bindings.Holds x →
        x.fragment ≠ some f) ∧
        (page.createFragment owner nested anchor locals).1.fragmentRoot? f = none := by
  cases hf
  have hj := createFragment_joins h.orderly h.not_vacant nested anchor locals
  refine ⟨(h.newcomer_unguarded anchor locals).1, (h.newcomer_unguarded anchor locals).2, ?_⟩
  rw [fragmentRoot?, fragment?]
  exact congrArg (fun i : Instance => i.fragment?.bind (·.root)) hj.slot_self

/-- A new fragment is mounted by an effect of its own. -/
theorem Rendering.directive_acts (hsplits : Splits c late depth mount)
    (h : Rendering depth owner blueprint page) (hcomponent : (page.slot owner).component = c)
    (hattached : page.isAttached owner = true) {nested : Blueprint}
    (hnests : blueprint.Nests nested) (fields : Names) (anchor node : NodeId)
    (locals : Dict Expr.Value) (task : Task) (agenda : List Errand) :
    Acts c late
      ((page.createFragment owner nested anchor locals).1.enrolled fields
        ((page.createFragment owner nested anchor locals).1.newEffect owner node
          (some page.nextSlot) task),
        .run ((page.createFragment owner nested anchor locals).1.newEffect owner node
          (some page.nextSlot) task) :: agenda)
      ((page.createFragment owner nested anchor locals).1.install mount owner fields node
        (some page.nextSlot) task, agenda) := by
  have hcreate := createFragment_turn h.orderly h.renders hnests h.rendered anchor locals
    (page.Under owner) .self
  have hj := createFragment_joins h.orderly h.not_vacant nested anchor locals
  have hslot := hj.slot_other owner (hj.ne_of_not_vacant h.not_vacant)
  refine (h.of_turn hcreate).install_acts hsplits ?_ ?_ fields node (some page.nextSlot) task
    (fun f hf => h.newcomer anchor locals f hf) agenda
  · rw [hslot]
    exact hcomponent
  · rw [isAttached, hslot]
    exact hattached

theorem Rendering.isAttached_directive (hmount : Mounts depth mount)
    (h : Rendering depth owner blueprint page) {nested : Blueprint}
    (hnests : blueprint.Nests nested) (fields : Names) (anchor node : NodeId)
    (locals : Dict Expr.Value) (task : Task) :
    ((page.createFragment owner nested anchor locals).1.install mount owner fields node
      (some page.nextSlot) task).isAttached owner = page.isAttached owner := by
  have hcreate := createFragment_turn h.orderly h.renders hnests h.rendered anchor locals
    (page.Under owner) .self
  have hj := createFragment_joins h.orderly h.not_vacant nested anchor locals
  rw [(h.of_turn hcreate).isAttached_install hmount fields node (some page.nextSlot) task (by
    rintro f ⟨⟩
    exact h.newcomer_unguarded anchor locals)]
  rw [isAttached, hj.slot_other owner (hj.ne_of_not_vacant h.not_vacant)]
  rfl

/-- A chore as an act, and what it brings as acts after it. -/
theorem perform_acts (hsplits : Splits c late depth mount)
    (h : Rendering depth owner blueprint page) (hcomponent : (page.slot owner).component = c)
    (hattached : page.isAttached owner = true) {chore : Chore}
    (hbelongs : chore.Belongs blueprint owner) (agenda : List Errand) :
    Acts c late (page, .chore chore :: agenda) (perform mount page chore, agenda) := by
  obtain ⟨o, node, job⟩ := chore
  have howner : o = owner := hbelongs.owner
  have hnests := hbelongs.nests
  have hwrites := hbelongs.writes
  subst howner
  have hstep : ∀ {s' : Page × List Errand},
      Act c late (page, .chore ⟨o, node, job⟩ :: agenda) s' →
        Step c late (page, .chore ⟨o, node, job⟩ :: agenda) s' := fun hact => ⟨h.orderly, hact⟩
  unfold perform
  dsimp only at hnests hwrites ⊢
  cases job with
  | unmark => exact .single (hstep (.unmark hcomponent))
  | write task fields =>
      exact .head (hstep (.enroll hcomponent hattached (hwrites task fields rfl)))
        (h.install_acts hsplits hcomponent hattached fields node none task
          (fun _ hf => by cases hf) agenda)
  | guard index directive =>
      have hakin := (Rendering.akin_reportMismatch page index directive node).trans
        (Rendering.akin_placeAnchor _ node)
      have hnext := h.of_turn (h.akin_turn hakin)
      have hattached' : ((page.reportMismatch index directive node).placeAnchor node).1.isAttached o
          = true := by
        rw [isAttached, hakin.slot]
        exact hattached
      have hcomponent' : (((page.reportMismatch index directive node).placeAnchor node).1.slot
          o).component = c := by
        rw [hakin.slot]
        exact hcomponent
      exact .head (hstep (.guard hcomponent hattached rfl))
        (hnext.directive_acts hsplits hcomponent' hattached'
          (hnests directive (Or.inr ⟨index, rfl⟩)) directive.dependencies _ _ .empty
          (.guardFragment directive.guard) agenda)
  | nest directive =>
      exact .head (hstep (.nest hcomponent hattached rfl))
        (h.directive_acts hsplits hcomponent hattached (hnests directive (Or.inl rfl)) [] node node
          (Dict.empty.insert "item" (.ofString directive.placeholder)) .mountFragment agenda)
  | refer name => exact .single (hstep (.refer hcomponent))
  | listen binding => exact .single (hstep (.listen hcomponent h.not_vacant))
  | unknown index => exact .single (hstep .unknown)

theorem isAttached_perform (hmount : Mounts depth mount)
    (h : Rendering depth owner blueprint page) {chore : Chore}
    (hbelongs : chore.Belongs blueprint owner) :
    (perform mount page chore).isAttached owner = page.isAttached owner := by
  obtain ⟨o, node, job⟩ := chore
  have howner : o = owner := hbelongs.owner
  have hnests := hbelongs.nests
  subst howner
  have hkept : ∀ {page' : Page}, Akin page page' → page'.isAttached o = page.isAttached o :=
    fun hakin => by rw [isAttached, hakin.slot, isAttached]
  unfold perform
  dsimp only at hnests ⊢
  cases job with
  | unmark => exact hkept (akin_editDom page _)
  | write task fields =>
      exact h.isAttached_install hmount fields node none task fun _ hf => by cases hf
  | guard index directive =>
      have hakin := (Rendering.akin_reportMismatch page index directive node).trans
        (Rendering.akin_placeAnchor _ node)
      have hnext := h.of_turn (h.akin_turn hakin)
      exact (hnext.isAttached_directive hmount (hnests directive (Or.inr ⟨index, rfl⟩)) _ _ _ _
        _).trans (hkept hakin)
  | nest directive =>
      exact h.isAttached_directive hmount (hnests directive (Or.inl rfl)) _ _ _ _ _
  | refer name =>
      refine read_updateSlot Instance.isAttached (fun i => ?_) page _ o
      unfold Instance.mapComponent Instance.isAttached
      cases hkind : i.kind <;> simp [hkind]
  | listen binding => exact hkept (Rendering.akin_listen o node page binding)
  | unknown index => exact hkept (akin_report page _)

theorem foldl_perform_acts (hmount : Mounts depth mount) (hsplits : Splits c late depth mount)
    {chores : List Chore} (h : Rendering depth owner blueprint page)
    (hcomponent : (page.slot owner).component = c) (hattached : page.isAttached owner = true)
    (hbelongs : ∀ chore ∈ chores, chore.Belongs blueprint owner) (agenda : List Errand) :
    Acts c late (page, chores.map .chore ++ agenda) (chores.foldl (perform mount) page, agenda) := by
  induction chores generalizing page with
  | nil => exact .refl
  | cons chore rest ih =>
      have hchore := hbelongs chore List.mem_cons_self
      have hturn := h.perform_turn hmount hchore
      refine (perform_acts hsplits h hcomponent hattached hchore _).trans
        (ih (h.of_turn hturn) ?_ ?_ fun other hother =>
          hbelongs other (List.mem_cons_of_mem _ hother))
      · rw [((hturn.turn.kept owner).same h.not_vacant).2]
        exact hcomponent
      · rw [isAttached_perform hmount h hchore]
        exact hattached

end Wiring

section Passes

variable {agenda : List Errand}

theorem component_eq_of_turn {inside : InstanceId → Prop} (h : Turn inside page page')
    (hid : (page.slot id).isVacant = false) (hcomponent : (page.slot id).component = c) :
    (page'.slot id).component = c :=
  ((h.kept id).same hid).2.trans hcomponent

/-- Effects that an attached instance holds, one after the other. -/
theorem foldl_runEffect_acts (hmount : Mounts depth mount) (hsplits : Splits c late depth mount)
    (hlate : late) {effects : List Effect} (h : page.Orderly)
    (hid : (page.slot id).isVacant = false) (hrank : (page.slot id).rank ≤ depth + 1)
    (hcomponent : (page.slot id).component = c) (hattached : page.isAttached id = true)
    (hheld : ∀ e ∈ effects, (page.slot id).bindings.Holds e) :
    Acts c late (page, effects.map .run ++ agenda)
      (effects.foldl (runEffect mount) page, agenda) := by
  induction effects generalizing page with
  | nil => exact .refl
  | cons e rest ih =>
      have he := hheld e List.mem_cons_self
      obtain ⟨howner, hmade⟩ := h.effect_owner id e he
      have hmountable := mountable_of_held h hrank he
      have hfirst := runEffect_turn hmount h hmade hmountable
      have hstill : (runEffect mount page e).isAttached id = page.isAttached id :=
        foldl_runEffect_attached hmount h hid hrank fun x hx => List.mem_singleton.mp hx ▸ he
      have hacts : Acts c late (page, .run e :: (rest.map .run ++ agenda))
          (runEffect mount page e, rest.map .run ++ agenda) := by
        cases hwrites : e.task.writes with
        | true =>
            exact .single ⟨h, .rewrite mount (howner ▸ hcomponent) (howner ▸ hattached) hwrites⟩
        | false =>
            have hfragment : ∀ f, e.fragment = some f → (page.slot f).component = c := by
              intro f hf
              rw [h.component_of_under (h.under_of_child (h.effect_fragment id e f he hf))]
              exact hcomponent
            obtain ⟨middle, new, hmounted, hacts⟩ :=
              mounted_of_runEffect hsplits h hmade hmountable hfragment (fun _ _ => Or.inl hlate)
                hwrites
            exact .head ⟨h, .remount (howner ▸ hcomponent) (howner ▸ hattached) hmounted⟩ (hacts _)
      refine hacts.trans (ih hfirst.orderly ((hfirst.turn.kept id).not_vacant hid) ?_ ?_ ?_ ?_)
      · rwa [hfirst.turn.rank_eq hid]
      · exact component_eq_of_turn hfirst.turn hid hcomponent
      · exact hstill.trans hattached
      · exact fun x hx => (hfirst.turn.kept id).holds (hheld x (List.mem_cons_of_mem _ hx))

/-- The changed effects of an instance. -/
theorem runChanged_acts (hmount : Mounts depth mount) (hsplits : Splits c late depth mount)
    (hlate : late) (h : page.Orderly) (hid : (page.slot id).isVacant = false)
    (hrank : (page.slot id).rank ≤ depth + 1) (hcomponent : (page.slot id).component = c)
    (hattached : page.isAttached id = true) {seen : List EffectId} (hunseen : page.Unseen seen) :
    Acts c late (page, agenda) ((runChanged mount id (page, seen)).1, agenda) := by
  have hdrain := drained_draining h hid seen (.of_akin id (.refl page)) rfl (Or.inl rfl)
  rw [hdrain.run]
  refine .head ⟨h, .drain seen hlate hcomponent hattached hunseen⟩
    (foldl_runEffect_acts hmount hsplits hlate hdrain.orderly
      ((hdrain.turn.kept id).not_vacant hid) ?_ ?_ ?_ fun e he => hdrain.held he)
  · exact (hdrain.turn.rank_eq hid).symm ▸ hrank
  · exact component_eq_of_turn hdrain.turn hid hcomponent
  · exact hdrain.attached.trans hattached

/-- The changed effects of a fragment that waits. -/
theorem refresh_acts (hmount : Mounts depth mount) (hsplits : Splits c late depth mount)
    (hlate : late) {state : Page × List EffectId} (h : state.1.Orderly)
    (hid : (state.1.fragment? id).isSome = true) (hrank : (state.1.slot id).rank ≤ depth + 1)
    (hcomponent : (state.1.slot id).component = c) (hattached : state.1.isAttached id = true)
    (hunseen : state.1.Unseen state.2) :
    Acts c late (state.1, agenda) ((refresh mount id state).1, agenda) := by
  obtain ⟨page, seen⟩ := state
  unfold refresh
  split
  · have hread : ∀ {β : Type} (read : Instance → β),
        (∀ i : Instance, read { i with scheduled := false } = read i) → ∀ j,
          read ((page.begin id).slot j) = read (page.slot j) := fun read hread j =>
      read_updateSlot read hread page id j
    refine .head ⟨h, .rest hlate hcomponent⟩ (runChanged_acts hmount hsplits hlate
      (begin_orderly h id) ?_ ?_ ?_ ?_ ?_)
    · rw [hread (·.isVacant) fun _ => rfl]
      obtain ⟨fragment, hfragment⟩ := Option.isSome_iff_exists.mp hid
      exact Instance.not_vacant_of_fragment? hfragment
    · rwa [hread (·.rank) fun _ => rfl]
    · rwa [hread (·.component) fun _ => rfl]
    · rw [isAttached, hread (·.isAttached) fun _ => rfl]
      exact hattached
    · intro n hn hdue
      exact hunseen n hn ((isDue_congr (hread (·.bindings) fun _ => rfl) n).mp hdue)
  · exact .refl

theorem foldl_children_acts (id : InstanceId)
    {step : Page × List EffectId → InstanceId → Page × List EffectId}
    (hstep : ∀ (state : Page × List EffectId) (f : InstanceId), state.1.Orderly →
      (state.1.fragment? f).isSome = true → (state.1.slot f).rank ≤ depth →
      state.1.Unseen state.2 → OrderlyTurn (state.1.Under f) [] state.1 (step state f).1 ∧
        (step state f).1.Unseen (step state f).2)
    (hacts : ∀ (state : Page × List EffectId) (f : InstanceId), state.1.Orderly →
      (state.1.fragment? f).isSome = true → (state.1.slot f).rank ≤ depth →
      state.1.Unseen state.2 → (state.1.slot f).component = c →
      Acts c late (state.1, agenda) ((step state f).1, agenda))
    {children : List InstanceId} {state : Page × List EffectId} (h : state.1.Orderly)
    (hrank : (state.1.slot id).rank ≤ depth + 1) (hunseen : state.1.Unseen state.2)
    (hcomponent : (state.1.slot id).component = c)
    (hchildren : children ⊆ (state.1.slot id).children) :
    Acts c late (state.1, agenda) ((children.foldl step state).1, agenda) := by
  induction children generalizing state with
  | nil => exact .refl
  | cons f rest ih =>
      have hf := hchildren List.mem_cons_self
      obtain ⟨hfragment, hfrank⟩ := child_ready h hrank hf
      obtain ⟨hfirst, hseen⟩ := hstep state f h hfragment hfrank hunseen
      have hid := (h.not_vacant_of_up ((h.mem_children id f).mp hf)).2
      have hfcomponent : (state.1.slot f).component = c := by
        rw [h.component_of_under (h.under_of_child hf)]
        exact hcomponent
      refine (hacts state f h hfragment hfrank hunseen hfcomponent).trans
        (ih hfirst.orderly ?_ hseen ?_ ?_)
      · rwa [hfirst.turn.rank_eq hid]
      · exact component_eq_of_turn hfirst.turn hid hcomponent
      · exact fun g hg =>
          (hfirst.turn.kept id).children.subset (hchildren (List.mem_cons_of_mem _ hg))

theorem updateFragment_acts (hmount : Mounts depth mount) (hsplits : Splits c late depth mount)
    (hlate : late) (levels : Nat) {state : Page × List EffectId} (h : state.1.Orderly)
    (hid : (state.1.fragment? id).isSome = true) (hrank : (state.1.slot id).rank ≤ depth + 1)
    (hunseen : state.1.Unseen state.2) (hcomponent : (state.1.slot id).component = c) :
    Acts c late (state.1, agenda) ((updateFragment mount levels state id).1, agenda) := by
  induction levels generalizing state id with
  | zero => exact .refl
  | succ levels ih =>
      rw [updateFragment_eq]
      split
      · rename_i hattached
        obtain ⟨hfirst, hseen⟩ := refresh_turn hmount h hid hrank hunseen
        obtain ⟨fragment, hfragment⟩ := Option.isSome_iff_exists.mp hid
        have hvacant := Instance.not_vacant_of_fragment? hfragment
        refine (refresh_acts hmount hsplits hlate h hid hrank hcomponent hattached hunseen).trans
          (foldl_children_acts id
            (fun next f hnext hf hfrank =>
              updateFragment_turn hmount levels hnext hf (Nat.le_succ_of_le hfrank))
            (fun next f hnext hf hfrank => ih hnext hf (Nat.le_succ_of_le hfrank)) hfirst.orderly
            ?_ hseen (component_eq_of_turn hfirst.turn hvacant hcomponent) fun _ hx => hx)
        rwa [hfirst.turn.rank_eq hvacant]
      · exact .refl

theorem remount_splits (hmount : Mounts depth mount) (hsplits : Splits c late depth mount)
    (hlate : late) (levels : Nat) (h : page.Orderly) (hcomponent : (page.slot f).component = c)
    {state : FragmentState} (hstate : page.fragment? f = some state)
    (hdetached : state.attached = false) (hparent : (page.slot f).parent.any page.isAttached = true)
    {root : NodeId} (hroot : state.root = some root) (hrank : (page.slot f).rank ≤ depth + 1) :
    ∃ middle new, Turned f page true middle new ∧
      ∀ agenda, Acts c late (middle, new.map .chore ++ agenda)
        (remount mount levels page f state.anchor root, agenda) := by
  have hvacant := Instance.not_vacant_of_fragment? hstate
  unfold remount
  split
  · rename_i dom hinsert
    exact ⟨_, [], .refused hstate hdetached hroot (congrArg Prod.snd hinsert), fun _ => .refl⟩
  · rename_i dom hinsert
    refine ⟨_, [], .remounted hstate hdetached hparent hroot hinsert, fun agenda => ?_⟩
    have hset := mounted_turn h hstate (fun node hnode => by rw [hroot] at hnode; cases hnode; rfl)
      dom (.remounted f.number)
    generalize ({ page with dom }.setMounted f root).report (.remounted f.number) = next
      at hset ⊢
    obtain ⟨root', attached, hstate', _⟩ := (hset.turn.kept f).fragment_state state hstate
    have hnext : (next, ([] : List EffectId)).1.Orderly := hset.orderly
    refine updateFragment_acts hmount hsplits hlate levels hnext ?_ ?_ (unseen_nil next) ?_
    · rw [fragment?, hstate']
      rfl
    · rwa [hset.turn.rank_eq hvacant]
    · exact component_eq_of_turn hset.turn hvacant hcomponent

theorem mountFirst_splits (hmount : Mounts depth mount) (hsplits : Splits c late depth mount)
    (h : page.Orderly) (hcomponent : (page.slot f).component = c) {state : FragmentState}
    (hstate : page.fragment? f = some state) (hdetached : state.attached = false)
    (hparent : (page.slot f).parent.any page.isAttached = true) (hroot : state.root = none)
    (hrank : (page.slot f).rank ≤ depth + 1) :
    ∃ middle new, Turned f page true middle new ∧
      ∀ agenda, Acts c late (middle, new.map .chore ++ agenda)
        (mountFirst mount page f state.blueprint state.anchor, agenda) := by
  have hvacant := Instance.not_vacant_of_fragment? hstate
  obtain ⟨copied, copy, hcopy⟩ : ∃ copied copy,
    state.blueprint.instantiate page.dom = (copied, copy) := ⟨_, _, rfl⟩
  unfold mountFirst
  rw [hcopy]
  dsimp only
  split
  · rename_i hnone
    exact ⟨_, [], .rootless hstate hdetached hroot hcopy hnone, fun _ => .refl⟩
  · rename_i root hfirst
    cases hinserted : (copied.insertAfter state.anchor root).2 with
    | false =>
        have hsame := Dom.insertBeside_of_not hinserted
        rw [if_pos (by simp), Dom.insertAfter, hsame]
        exact ⟨_, [], .unplaced hstate hdetached hroot hcopy hfirst hinserted, fun _ => .refl⟩
    | true =>
        rw [if_neg (by simp)]
        refine ⟨_, _, .mounted hstate hdetached hparent hroot hcopy hfirst (Prod.ext rfl hinserted),
          fun agenda => ?_⟩
        rw [wireAll_eq]
        generalize (copied.insertAfter state.anchor root).1.remove copy.root = dom
        have hset : OrderlyTurn (page.Under f) [] page
            (({ page with dom }.setMounted f root).report (.mounted f.number)) :=
          mounted_turn h hstate (fun node hnode => by rw [hroot] at hnode; cases hnode) dom
            (.mounted f.number)
        have hslot : (({ page with dom }.setMounted f root).report (.mounted f.number)).slot f =
            (page.slot f).mapFragment ({ · with root := some root, attached := true }) :=
          slot_setMounted { page with dom } hvacant root
        rw [Instance.mapFragment_of_fragment? hstate] at hslot
        obtain ⟨hempty, _⟩ := (h.fit f).unmounted state hstate hroot
        refine foldl_perform_acts hmount hsplits ⟨hset.orderly, ?_, ?_, ⟨?_, ?_⟩, ?_⟩
          (component_eq_of_turn hset.turn hvacant hcomponent) ?_
          (fun chore hchore => Blueprint.belongs_of_mem_chores hchore) agenda
        · rw [hslot, Instance.blueprint?]
        · rwa [Instance.rank_of_blueprint? (Instance.blueprint?_of_fragment? hstate)] at hrank
        · rw [hslot]
          rintro old ⟨⟩
          exact Option.some_ne_none root
        · rw [hslot]
          rintro old ⟨⟩
        · rw [hslot, hempty]
          rfl
        · rw [isAttached, hslot]
          rfl

theorem mountWithin_splits (c : InstanceId) (late : Prop) (depth : Nat) :
    Splits c late depth (mountWithin depth) := by
  induction depth with
  | zero =>
      intro page f _ _ hfragment hrank _
      have hpos := rank_pos_of_fragment hfragment
      omega
  | succ depth ih =>
      intro page f h hcomponent hfragment hrank hlate
      have hmount := mountWithin_mounts depth
      obtain ⟨state, hstate⟩ := Option.isSome_iff_exists.mp hfragment
      rw [mountWithin, hstate]
      dsimp only
      cases hattached : state.attached with
      | true =>
          have hkept := Turned.kept hstate
          rw [hattached] at hkept
          exact ⟨page, [], hkept, fun _ => .refl⟩
      | false =>
          cases hparent : (page.slot f).parent.any page.isAttached with
          | false => exact ⟨page, [], .hidden hstate hattached hparent, fun _ => .refl⟩
          | true =>
              rw [if_neg (by simp)]
              cases hroot : state.root with
              | some root =>
                  rw [fragmentRoot?_of_fragment? hstate, hroot] at hlate
                  have hlate : late := hlate.resolve_right (Option.some_ne_none root)
                  exact remount_splits hmount ih hlate (depth + 1) h hcomponent hstate hattached
                    hparent hroot hrank
              | none =>
                  exact mountFirst_splits hmount ih h hcomponent hstate hattached hparent hroot
                    hrank

theorem runEffects_acts (h : page.Orderly) {state : ComponentState}
    (hstate : page.component? id = some state) (hconnected : state.connected = true) :
    Acts id True (page, agenda)
      (page.runEffects id state.definition.blueprint.depth, agenda) := by
  have hmount := mountWithin_mounts state.definition.blueprint.depth
  have hsplits := mountWithin_splits id True state.definition.blueprint.depth
  have hvacant := Instance.not_vacant_of_component? hstate
  have hrank := Nat.le_succ_of_le
    (le_of_eq (Instance.rank_of_blueprint? (Instance.blueprint?_of_component? hstate)))
  have hcomponent : (page.slot id).component = id := (h.component_eq id state hstate).2
  have hattached : page.isAttached id = true :=
    (Instance.isAttached_of_component? hstate).trans hconnected
  obtain ⟨hfirst, _, hseen⟩ := runChanged_turn hmount h hvacant hrank (unseen_nil page)
    (drained_draining h hvacant [] (.of_akin id (.refl page)) rfl (Or.inl rfl))
  unfold runEffects
  refine (runChanged_acts hmount hsplits trivial h hvacant hrank hcomponent hattached
    (unseen_nil page)).trans (foldl_children_acts id
      (fun next f hnext hf hfrank => updateFragment_turn hmount
        state.definition.blueprint.depth hnext hf (Nat.le_succ_of_le hfrank))
      (fun next f hnext hf hfrank => updateFragment_acts hmount hsplits trivial
        state.definition.blueprint.depth hnext hf (Nat.le_succ_of_le hfrank)) hfirst.orderly
      ?_ hseen (component_eq_of_turn hfirst.turn hvacant hcomponent) fun _ hx => hx)
  rwa [hfirst.turn.rank_eq hvacant]

end Passes

end Page

end LiveMarkup
