import LiveMarkup.Page.Pass
import LiveMarkup.Proofs.Page.Join

/-!
Effects, wiring and mounting as turns. An effect changes the fragment that it mounts and what lies
in it; wiring and mounting an instance changes the instance and what lies in it. Every such turn
runs each effect as often as it is due and each effect that it makes once.
-/

namespace LiveMarkup.Page

variable {page page' : Page} {inside : InstanceId → Prop} {depth : Nat}
  {mount : InstanceId → Page → Page} {a f id owner : InstanceId}

/-! ### Effects -/

/-- A way to mount fragments whose templates are nested at most `depth` levels. -/
def Mounts (depth : Nat) (mount : InstanceId → Page → Page) : Prop :=
  ∀ page f, page.Orderly → (page.fragment? f).isSome = true → (page.slot f).rank ≤ depth →
    OrderlyTurn (page.Under f) [] page (mount f page)

/-- What the fragment of an effect has to be. -/
def Mountable (depth : Nat) (e : Effect) (page : Page) : Prop :=
  ∀ f, e.fragment = some f → (page.fragment? f).isSome = true ∧ (page.slot f).rank ≤ depth

/-- What an effect may change. -/
def Reach (page : Page) (e : Effect) (id : InstanceId) : Prop :=
  ∃ f, e.fragment = some f ∧ page.Under f id

theorem count_run (page : Page) (e : Effect) (stats : Stats) (n : EffectId) :
    { page with stats, ran := e.id :: page.ran }.tally n = page.tally n + [e.id].count n := by
  classical
  change (e.id :: page.ran).count n + (if page.IsDue n then 1 else 0) +
    (if page.effects < n.number then 1 else 0) = page.tally n + [e.id].count n
  rw [tally, List.count_cons, List.count_singleton]
  omega

theorem run_turn (h : page.Orderly) {e : Effect} (hmade : e.id.number ≤ page.effects)
    (stats : Stats) (inside : InstanceId → Prop) :
    OrderlyTurn inside [e.id] page { page with stats, ran := e.id :: page.ran } where
  orderly := by
    refine h.alter ?_ rfl rfl (fun _ => .refl _) h.fit
    refine h.toWired.of_held (le_refl _) ?_ (fun _ _ he => he) (fun _ _ hx => hx)
    intro n hn
    rcases List.mem_cons.mp hn with rfl | hn
    · exact Or.inr hmade
    · exact Or.inl hn
  turn := { Turn.refl inside page with }
  tally := count_run page e stats

theorem runEffect_turn (hmount : Mounts depth mount) (h : page.Orderly) {e : Effect}
    (hmade : e.id.number ≤ page.effects) (hmountable : Mountable depth e page) :
    OrderlyTurn (page.Reach e) [e.id] page (runEffect mount page e) := by
  have hrun := run_turn h hmade { page.stats with effectsRun := page.stats.effectsRun + 1 }
    (page.Reach e)
  have horderly := hrun.orderly
  -- A fragment is mounted or unmounted after the guard was evaluated.
  have hmounted : ∀ (g : InstanceId) (next : Page), e.fragment = some g → next.Orderly →
      (∀ id, next.slot id = page.slot id) →
        OrderlyTurn (page.Reach e) [] next (mount g next) ∧
          OrderlyTurn (page.Reach e) [] next (next.unmount g) := by
    intro g next hg hnext hslot
    have hup : next.up = page.up := by
      funext id
      rw [up, hslot id]
      rfl
    obtain ⟨hfragment, hrank⟩ := hmountable g hg
    constructor
    · refine (hmount next g hnext ?_ ?_).mono ?_
      · rwa [fragment?, hslot g]
      · rwa [hslot g]
      · intro id _ hid
        refine ⟨g, hg, ?_⟩
        rwa [Under, hup] at hid
    · exact unmount_turn hnext g (page.Reach e) ⟨g, hg, .self⟩
  unfold runEffect
  split
  · exact hrun.trans_akin ((akin_evaluate _ _ _).trans (akin_writeText _ _ _))
  · exact hrun.trans_akin ((akin_evaluate _ _ _).trans (akin_writeText _ _ _))
  · exact hrun.trans_akin ((akin_evaluate _ _ _).trans (akin_writeAttribute _ _ _ _))
  · rename_i guard g _ hg
    have hevaluated := akin_evaluate
      { page with
        stats := { page.stats with effectsRun := page.stats.effectsRun + 1 }
        ran := e.id :: page.ran } e.owner guard
    obtain ⟨hmounts, hunmounts⟩ := hmounted g _ hg (horderly.of_akin hevaluated)
      hevaluated.slot
    dsimp only
    split
    · simpa using (hrun.trans_akin hevaluated).trans hmounts fun _ _ hid => hid
    · simpa using (hrun.trans_akin hevaluated).trans hunmounts fun _ _ hid => hid
  · rename_i g _ hg
    have hmounts := (hmounted g _ hg horderly fun _ => rfl).1
    simpa using hrun.trans hmounts fun _ _ hid => hid
  · exact hrun

/-! ### Wiring -/

theorem setReference_turn (h : page.Orderly) (owner : InstanceId) (name : String) (node : NodeId)
    (inside : InstanceId → Prop) :
    OrderlyTurn inside [] page (page.setReference owner name node) := by
  let c := (page.slot owner).component
  let add := fun references : Dict NodeId => references.insert name node
  have hr : Retouch c page (page.setReference owner name node) := retouch_updateSlot page c _
  have hslot : (page.setReference owner name node).slot c = (page.slot c).mapComponent
      fun state => { state with references := add state.references } :=
    slot_updateSlot_self _ rfl
  have hbindings : ∀ j, ((page.setReference owner name node).slot j).bindings =
      (page.slot j).bindings := by
    intro j
    by_cases heq : j = c
    · rw [heq, hslot]
      unfold Instance.mapComponent
      split <;> rfl
    · rw [hr.other j heq]
  have hturn : Turn (fun j => j = c) page (page.setReference owner name node) := by
    refine hr.turn rfl ?_ ?_
    · rw [hslot]
      exact .mapReferences _ _ add
    · rw [hslot]
      unfold Instance.mapComponent
      split <;> rfl
  refine ⟨h.retouch hr ?_ ?_ ?_, { hturn with outside := ?_ }, ?_⟩
  · rw [hslot]
    exact .mapComponent _ fun _ => rfl
  · rw [hslot]
    exact (h.fit c).mapComponent fun _ => rfl
  · intro e he
    rwa [hbindings] at he
  · intro j hj _
    by_cases heq : j = c
    · rw [heq, hslot]
      exact Instance.core_mapReferences _ add
    · exact hturn.outside j hj heq
  · intro n
    exact tally_congr hr.ran hr.effects (isDue_congr hbindings n)

/-- An instance whose template is being rendered, with room for fragments `depth` levels deep. -/
structure Rendering (depth : Nat) (owner : InstanceId) (blueprint : Blueprint) (page : Page) :
    Prop where
  orderly : page.Orderly
  renders : (page.slot owner).blueprint? = some blueprint
  rank : blueprint.depth ≤ depth + 1
  rendered : (page.slot owner).Rendered
  clean : (page.slot owner).bindings.hasChanges = false

theorem rendered_of_kept {i i' : Instance} {limit : Nat} (h : i.Kept limit i')
    (hi : i.isVacant = false) (hrendered : i.Rendered) : i'.Rendered := by
  cases hkind : i.kind with
  | component state =>
      have hstate := Instance.component?_of_kind hkind
      obtain ⟨⟨references, hstate'⟩, _⟩ := h.component_state state hstate
      refine ⟨?_, ?_⟩
      · intro other hother
        rw [Instance.fragment?_of_component? hstate'] at hother
        cases hother
      · intro other hother
        rw [hstate'] at hother
        cases hother
        exact hrendered.connected state hstate
  | fragment state =>
      have hstate := Instance.fragment?_of_kind hkind
      obtain ⟨root, attached, hstate', hroot⟩ := h.fragment_state state hstate
      obtain ⟨node, hnode⟩ := Option.ne_none_iff_exists'.mp (hrendered.root state hstate)
      refine ⟨?_, ?_⟩
      · intro other hother
        rw [hstate'] at hother
        cases hother
        simp [hroot node hnode]
      · intro other hother
        rw [Instance.component?_of_fragment? hstate'] at hother
        cases hother
  | vacant =>
      rw [Instance.isVacant_iff.mpr hkind] at hi
      cases hi

namespace Rendering

variable {blueprint : Blueprint} {runs : List EffectId}

theorem not_vacant (h : Rendering depth owner blueprint page) :
    (page.slot owner).isVacant = false :=
  Instance.not_vacant_of_blueprint? h.renders

theorem of_turn (h : Rendering depth owner blueprint page)
    (hturn : OrderlyTurn inside runs page page') : Rendering depth owner blueprint page' where
  orderly := hturn.orderly
  renders := by
    rw [(hturn.turn.kept owner).blueprint? h.not_vacant]
    exact h.renders
  rank := h.rank
  rendered := rendered_of_kept (hturn.turn.kept owner) h.not_vacant h.rendered
  clean := by
    have hclean := h.clean
    by_contra hchanges
    rw [Bool.not_eq_false] at hchanges
    rw [(hturn.turn.kept owner).changes hchanges] at hclean
    cases hclean

theorem akin_turn (h : Rendering depth owner blueprint page) (hakin : Akin page page') :
    OrderlyTurn (page.Under owner) [] page page' :=
  .of_akin h.orderly _ hakin

theorem trans (h : Rendering depth owner blueprint page)
    (hfirst : OrderlyTurn (page.Under owner) [] page page')
    {page'' : Page} (hlast : Rendering depth owner blueprint page' →
      OrderlyTurn (page'.Under owner) [] page' page'') :
    OrderlyTurn (page.Under owner) [] page page'' :=
  hfirst.trans_under h.orderly (hlast (h.of_turn hfirst))

theorem foldl_turn {β : Type} {step : Page → β → Page} {items : List β}
    (hstep : ∀ page x, x ∈ items → Rendering depth owner blueprint page →
      OrderlyTurn (page.Under owner) [] page (step page x))
    (h : Rendering depth owner blueprint page) :
    OrderlyTurn (page.Under owner) [] page (items.foldl step page) := by
  induction items generalizing page with
  | nil => exact .refl h.orderly _
  | cons x rest ih =>
      have hfirst := hstep page x List.mem_cons_self h
      exact h.trans hfirst (ih fun page y hy => hstep page y (List.mem_cons_of_mem _ hy))

/-- An effect that was made for an owner, and the page on which it is to run. -/
structure Ready (depth : Nat) (owner : InstanceId) (e : Effect) (page page' : Page) : Prop where
  enrolled : ∃ fields, Enrolled owner e fields { page with effects := page.effects + 1 } page'
  orderly : page'.Orderly
  turn : Turn (page.Under owner) page page'
  made : e.id.number ≤ page'.effects
  mountable : Mountable depth e page'
  tally : ∀ n, page'.tally n + [e.id].count n = page.tally n

theorem enrolled_ready (h : Rendering depth owner blueprint page) (fields : Names) (node : NodeId)
    (fragment : Option InstanceId) (task : Task)
    (hfragment : ∀ f, fragment = some f → f ∈ (page.slot owner).children ∧
      ∀ x, (page.slot owner).bindings.Holds x → x.fragment ≠ some f) :
    Ready depth owner (page.newEffect owner node fragment task) page
      (page.enrolled fields (page.newEffect owner node fragment task)) := by
  have henrolled : Enrolled owner (page.newEffect owner node fragment task) fields
      { page with effects := page.effects + 1 }
      (page.enrolled fields (page.newEffect owner node fragment task)) :=
    foldl_enroll_enrolled { page with effects := page.effects + 1 } owner h.not_vacant _ fields
  have hturn : Turn (page.Under owner) page _ := enroll_turn henrolled rfl h.clean .self
  refine ⟨⟨fields, henrolled⟩,
    enroll_orderly h.orderly henrolled rfl rfl h.not_vacant h.rendered hfragment, hturn,
    le_of_eq henrolled.retouch.effects.symm, ?_, enroll_tally henrolled rfl h.clean⟩
  intro f hf
  have hchild := (hfragment f hf).1
  have hup : page.up f = some owner := (h.orderly.mem_children owner f).mp hchild
  obtain ⟨state, hstate⟩ := h.orderly.fragment_of_up hup
  obtain ⟨root, attached, hstate', _⟩ := (hturn.kept f).fragment_state state hstate
  refine ⟨by rw [Page.fragment?, hstate']; rfl, ?_⟩
  rw [hturn.rank_eq (Instance.not_vacant_of_fragment? hstate)]
  have hlt := h.orderly.rank_lt hup
  rw [Instance.rank_of_blueprint? h.renders] at hlt
  have hrank := h.rank
  omega

theorem install_turn (hmount : Mounts depth mount) (h : Rendering depth owner blueprint page)
    (fields : Names) (node : NodeId) (fragment : Option InstanceId) (task : Task)
    (hfragment : ∀ f, fragment = some f → f ∈ (page.slot owner).children ∧
      ∀ x, (page.slot owner).bindings.Holds x → x.fragment ≠ some f) :
    OrderlyTurn (page.Under owner) []
      page (page.install mount owner fields node fragment task) := by
  rw [install_eq]
  have hready := h.enrolled_ready fields node fragment task hfragment
  have hrun := runEffect_turn hmount hready.orderly hready.made hready.mountable
  refine ⟨hrun.orderly, hready.turn.trans hrun.turn ?_, ?_⟩
  · rintro id hid ⟨f, hf, hunder⟩
    have hchild := (hfragment f hf).1
    exact (h.orderly.under_of_child hchild).trans ((hready.turn.under_iff h.orderly hid).mp hunder)
  · intro n
    rw [hrun.tally n, List.count_nil, ← hready.tally n]
    rfl

/-- An owner stays attached while what it mounts is mounted. -/
theorem isAttached_install (hmount : Mounts depth mount)
    (h : Rendering depth owner blueprint page) (fields : Names) (node : NodeId)
    (fragment : Option InstanceId) (task : Task)
    (hfragment : ∀ f, fragment = some f → f ∈ (page.slot owner).children ∧
      ∀ x, (page.slot owner).bindings.Holds x → x.fragment ≠ some f) :
    (page.install mount owner fields node fragment task).isAttached owner =
      page.isAttached owner := by
  rw [install_eq]
  have hready := h.enrolled_ready fields node fragment task hfragment
  have hrun := runEffect_turn hmount hready.orderly hready.made hready.mountable
  obtain ⟨_, henrolled⟩ := hready.enrolled
  rw [hrun.turn.isAttached_eq ((hready.turn.kept owner).not_vacant h.not_vacant)]
  · rw [isAttached, henrolled.slot]
    rfl
  · rintro ⟨f, hf, hunder⟩
    exact h.orderly.not_under_child (hfragment f hf).1
      ((hready.turn.under_iff h.orderly h.not_vacant).mp hunder)

/-- A fragment that was just made is known to no effect. -/
theorem newcomer_unguarded (h : Rendering depth owner blueprint page) {nested : Blueprint}
    (anchor : NodeId) (locals : Dict Expr.Value) :
    page.nextSlot ∈
        ((page.createFragment owner nested anchor locals).1.slot owner).children ∧
      ∀ x, ((page.createFragment owner nested anchor locals).1.slot owner).bindings.Holds x →
        x.fragment ≠ some page.nextSlot := by
  have hj := createFragment_joins h.orderly h.not_vacant nested anchor locals
  have hne := hj.ne_of_not_vacant h.not_vacant
  rw [hj.slot_other owner hne]
  refine ⟨by simp, ?_⟩
  intro x hx hsome
  have hchild := h.orderly.effect_fragment owner x page.nextSlot hx hsome
  have hvacant := h.orderly.not_vacant_of_mem_children hchild
  rw [hj.vacant] at hvacant
  cases hvacant

theorem directive_turn (hmount : Mounts depth mount) (h : Rendering depth owner blueprint page)
    {nested : Blueprint} (hnests : blueprint.Nests nested) (fields : Names)
    (anchor node : NodeId) (locals : Dict Expr.Value) (task : Task) :
    OrderlyTurn (page.Under owner) [] page
      ((page.createFragment owner nested anchor locals).1.install mount owner fields node
        (some page.nextSlot) task) := by
  have hcreate := createFragment_turn h.orderly h.renders hnests h.rendered anchor locals
    (page.Under owner) .self
  refine h.trans hcreate fun hnext => hnext.install_turn hmount _ _ _ _ ?_
  rintro f ⟨⟩
  exact h.newcomer_unguarded anchor locals

theorem akin_placeAnchor (page : Page) (node : NodeId) : Akin page (page.placeAnchor node).1 := by
  unfold placeAnchor
  dsimp only
  split <;> exact akin_dom page _

theorem akin_reportMismatch (page : Page) (index : Nat) (directive : Directive Blueprint)
    (node : NodeId) : Akin page (page.reportMismatch index directive node) := by
  unfold reportMismatch
  split
  · exact .refl page
  · exact akin_report page _

theorem akin_listen (owner : InstanceId) (node : NodeId) (page : Page) (binding : EventBinding) :
    Akin page (listen owner node page binding) := by
  unfold listen
  cases binding.handler with
  | none => exact akin_listeners page _
  | some handler =>
      dsimp only
      cases page.missingMethod? owner handler with
      | none => exact akin_listeners page _
      | some method => exact (akin_report page _).trans (akin_listeners _ _)

theorem perform_turn (hmount : Mounts depth mount) (h : Rendering depth owner blueprint page)
    {chore : Chore} (hbelongs : chore.Belongs blueprint owner) :
    OrderlyTurn (page.Under owner) [] page (perform mount page chore) := by
  obtain ⟨o, node, job⟩ := chore
  have howner : o = owner := hbelongs.owner
  have hnests := hbelongs.nests
  subst howner
  unfold perform
  dsimp only at hnests ⊢
  cases job with
  | unmark => exact h.akin_turn (akin_editDom page _)
  | write task fields => exact h.install_turn hmount fields node none task fun _ hf => by cases hf
  | guard index directive =>
      have hanchor := h.akin_turn ((akin_reportMismatch page index directive node).trans
        (akin_placeAnchor _ node))
      exact h.trans hanchor fun hnext =>
        hnext.directive_turn hmount (hnests directive (Or.inr ⟨index, rfl⟩)) _ _ _ _ _
  | nest directive =>
      exact h.directive_turn hmount (hnests directive (Or.inl rfl)) _ _ _ _ _
  | refer name => exact setReference_turn h.orderly _ name node _
  | listen binding => exact h.akin_turn (akin_listen _ node page binding)
  | unknown index => exact h.akin_turn (akin_report page _)

theorem wireAll_turn (hmount : Mounts depth mount) (h : Rendering depth owner blueprint page)
    (marked : List (Nat × NodeId)) :
    OrderlyTurn (page.Under owner) [] page (wireAll mount owner blueprint marked page) := by
  rw [wireAll_eq]
  exact h.foldl_turn fun _ _ hchore hpage =>
    hpage.perform_turn hmount (Blueprint.belongs_of_mem_chores hchore)

end Rendering

/-! ### Updates -/

/-- No effect among the seen ones is due. -/
def Unseen (page : Page) (seen : List EffectId) : Prop :=
  ∀ n ∈ seen, ¬ page.IsDue n

theorem isDue_of_turn (h : Turn inside page page') {n : EffectId} (hdue : page'.IsDue n) :
    page.IsDue n := by
  obtain ⟨id, e, he, hn⟩ := hdue
  exact ⟨id, e, (h.kept id).due e he, hn⟩

theorem Unseen.of_turn {seen : List EffectId} (h : page.Unseen seen)
    (hturn : Turn inside page page') : page'.Unseen seen :=
  fun n hn hdue => h n hn (isDue_of_turn hturn hdue)

theorem mountable_of_held (h : page.Orderly) (hrank : (page.slot id).rank ≤ depth + 1) {e : Effect}
    (he : (page.slot id).bindings.Holds e) : Mountable depth e page := by
  intro f hf
  have hup : page.up f = some id :=
    (h.mem_children id f).mp (h.effect_fragment id e f he hf)
  obtain ⟨state, hstate⟩ := h.fragment_of_up hup
  have hlt := h.rank_lt hup
  exact ⟨by rw [hstate]; rfl, by omega⟩

theorem reach_under (h : page.Orderly) {e : Effect} (he : (page.slot id).bindings.Holds e)
    (hreach : page.Reach e f) : page.Under id f := by
  obtain ⟨g, hg, hunder⟩ := hreach
  exact (h.under_of_child (h.effect_fragment id e g he hg)).trans hunder

theorem foldl_runEffect_turn (hmount : Mounts depth mount) {effects : List Effect}
    (h : page.Orderly) (hid : (page.slot id).isVacant = false)
    (hrank : (page.slot id).rank ≤ depth + 1)
    (hheld : ∀ e ∈ effects, (page.slot id).bindings.Holds e) :
    OrderlyTurn (fun f => ∃ e ∈ effects, page.Reach e f) (effects.map (·.id)) page
      (effects.foldl (runEffect mount) page) := by
  induction effects generalizing page with
  | nil => exact .refl h _
  | cons e rest ih =>
      have he := hheld e List.mem_cons_self
      have hfirst := runEffect_turn hmount h (h.effect_owner id e he).2
        (mountable_of_held h hrank he)
      refine (hfirst.mono fun f _ hf => ⟨e, List.mem_cons_self, hf⟩).trans
        (ih hfirst.orderly ?_ ?_ ?_) ?_
      · exact (hfirst.turn.kept id).not_vacant hid
      · rwa [hfirst.turn.rank_eq hid]
      · exact fun x hx => (hfirst.turn.kept id).holds (hheld x (List.mem_cons_of_mem _ hx))
      · rintro f hf ⟨x, hx, g, hg, hunder⟩
        exact ⟨x, List.mem_cons_of_mem _ hx, g, hg, (hfirst.turn.under_iff h hf).mp hunder⟩

/-- Running the changed effects of an instance begins with taking its changes. The instance may have
stopped waiting before. -/
structure Draining (id : InstanceId) (seen : List EffectId) (page page' drained : Page) : Prop where
  orderly : drained.Orderly
  turn : Turn (fun j => j = id) page drained
  retouch : Retouch id page drained
  slot : ∃ scheduled, drained.slot id =
    { page.slot id with bindings := (page.slot id).bindings.clearChanges, scheduled }
  run : ∀ mount, runChanged mount id (page', seen) =
    ((Bindings.unseen seen (page.slot id).bindings.due).foldl (runEffect mount) drained,
      seen ++ (Bindings.unseen seen (page.slot id).bindings.due).map (·.id))
  dom : drained.dom = page'.dom

/-- The page once the changes that `page` has at `id` are taken from `page'`. -/
def drained (page page' : Page) (id : InstanceId) : Page :=
  page'.updateSlot id ({ · with bindings := (page.slot id).bindings.clearChanges })

theorem drained_draining (h : page.Orderly) (hid : (page.slot id).isVacant = false)
    (seen : List EffectId) {scheduled : Bool} (hr : Retouch id page page')
    (hslot : page'.slot id = { page.slot id with scheduled })
    (hscheduled : scheduled = (page.slot id).scheduled ∨
      ((page.fragment? id).isSome = true ∧ scheduled = false)) :
    Draining id seen page page' (drained page page' id) := by
  have hdrain : Retouch id page (drained page page' id) :=
    hr.trans (retouch_updateSlot page' id _)
  have hdrained : (drained page page' id).slot id =
      { page.slot id with bindings := (page.slot id).bindings.clearChanges, scheduled } := by
    have hlt : id.number < page'.slots.size := hr.size ▸ lt_size_of_not_vacant hid
    rw [drained, slot_updateSlot_of_lt hlt, hslot]
  have hstill : scheduled = true → (page.slot id).scheduled = true := by
    rcases hscheduled with heq | ⟨_, heq⟩
    · exact fun hnew => heq ▸ hnew
    · intro hnew
      rw [heq] at hnew
      cases hnew
  refine ⟨drain_orderly h hid hdrain hdrained hstill,
    drain_turn hdrain hdrained hscheduled rfl, hdrain, ⟨_, hdrained⟩, ?_, rfl⟩
  intro mount
  simp only [runChanged, Bindings.drain, hslot]
  rfl

theorem exists_draining (h : page.Orderly) (hid : (page.slot id).isVacant = false)
    (seen : List EffectId) {scheduled : Bool} (hr : Retouch id page page')
    (hslot : page'.slot id = { page.slot id with scheduled })
    (hscheduled : scheduled = (page.slot id).scheduled ∨
      ((page.fragment? id).isSome = true ∧ scheduled = false)) :
    ∃ drained, Draining id seen page page' drained :=
  ⟨_, drained_draining h hid seen hr hslot hscheduled⟩

namespace Draining

variable {seen : List EffectId} {drained : Page}

theorem clean (h : Draining id seen page page' drained) :
    (drained.slot id).bindings.hasChanges = false := by
  obtain ⟨scheduled, hslot⟩ := h.slot
  rw [hslot]
  exact Bindings.hasChanges_clearChanges

theorem held (h : Draining id seen page page' drained) {e : Effect}
    (he : e ∈ Bindings.unseen seen (page.slot id).bindings.due) :
    (drained.slot id).bindings.Holds e := by
  obtain ⟨scheduled, hslot⟩ := h.slot
  rw [hslot]
  simpa using Bindings.holds_of_mem_due (Bindings.mem_unseen he).1

theorem children (h : Draining id seen page page' drained) :
    (drained.slot id).children = (page.slot id).children := by
  obtain ⟨scheduled, hslot⟩ := h.slot
  rw [hslot]

theorem attached (h : Draining id seen page page' drained) :
    drained.isAttached id = page.isAttached id := by
  obtain ⟨scheduled, hslot⟩ := h.slot
  rw [isAttached, hslot]
  rfl

theorem effects_turn (h : Draining id seen page page' drained) (hmount : Mounts depth mount)
    (hid : (page.slot id).isVacant = false) (hrank : (page.slot id).rank ≤ depth + 1) :
    OrderlyTurn
      (fun f => ∃ e ∈ Bindings.unseen seen (page.slot id).bindings.due, drained.Reach e f)
      ((Bindings.unseen seen (page.slot id).bindings.due).map (·.id)) drained
      (runChanged mount id (page', seen)).1 := by
  rw [h.run]
  exact foldl_runEffect_turn hmount h.orderly ((h.turn.kept id).not_vacant hid)
    (by rwa [h.turn.rank_eq hid]) fun _ he => h.held he

end Draining

theorem runChanged_turn (hmount : Mounts depth mount) (h : page.Orderly)
    (hid : (page.slot id).isVacant = false) (hrank : (page.slot id).rank ≤ depth + 1)
    {seen : List EffectId} (hunseen : page.Unseen seen) {drained : Page}
    (hdrain : Draining id seen page page' drained) :
    OrderlyTurn (page.Under id) [] page (runChanged mount id (page', seen)).1 ∧
      ((runChanged mount id (page', seen)).1.slot id).bindings.hasChanges = false ∧
      (runChanged mount id (page', seen)).1.Unseen (runChanged mount id (page', seen)).2 := by
  have hseen : ∀ e ∈ (page.slot id).bindings.due, e.id ∉ seen :=
    fun e he hmem => hunseen e.id hmem ⟨id, e, he, rfl⟩
  have heffects := hdrain.effects_turn hmount hid hrank
  have hclean := hdrain.clean
  have hall : OrderlyTurn (page.Under id) [] page (runChanged mount id (page', seen)).1 := by
    refine ⟨heffects.orderly, ?_, ?_⟩
    · have hfirst : Turn (page.Under id) page _ := hdrain.turn.mono fun j _ hj => hj ▸ .self
      refine hfirst.trans heffects.turn ?_
      · rintro j hj ⟨e, he, hreach⟩
        exact (hdrain.turn.under_iff h hj).mp (reach_under hdrain.orderly (hdrain.held he) hreach)
    · intro n
      obtain ⟨scheduled, hslot⟩ := hdrain.slot
      rw [heffects.tally n, List.count_nil, Nat.add_zero]
      exact drain_tally h hdrain.retouch hslot hseen n
  refine ⟨hall, ?_, ?_⟩
  · by_contra hchanges
    rw [Bool.not_eq_false] at hchanges
    rw [(heffects.turn.kept id).changes hchanges] at hclean
    cases hclean
  · intro n hn
    rw [hdrain.run] at hn
    rcases List.mem_append.mp hn with hn | hn
    · exact (hunseen.of_turn hall.turn) n hn
    · intro hdue
      obtain ⟨e, he, rfl⟩ := List.mem_map.mp hn
      obtain ⟨j, x, hx, hsame⟩ := isDue_of_turn heffects.turn hdue
      have hxheld := Bindings.holds_of_mem_due hx
      have heheld := hdrain.held he
      have heq := hdrain.orderly.effect_id j id x e hxheld heheld hsame
      subst heq
      have hj : j = id := (hdrain.orderly.effect_owner j x hxheld).1.symm.trans
        (hdrain.orderly.effect_owner id x heheld).1
      rw [hj] at hx
      rw [Bindings.hasChanges_of_mem_due hx] at hclean
      cases hclean

/-- The changes of a fragment are taken in an update, if it waits for it. -/
def refresh (mount : InstanceId → Page → Page) (id : InstanceId)
    (state : Page × List EffectId) : Page × List EffectId :=
  if (state.1.slot id).scheduled then
    runChanged mount id (state.1.updateSlot id ({ · with scheduled := false }), state.2)
  else state

theorem updateFragment_eq (mount : InstanceId → Page → Page) (levels : Nat)
    (state : Page × List EffectId) (id : InstanceId) :
    updateFragment mount (levels + 1) state id =
      if (state.1.slot id).isAttached = true then
        ((refresh mount id state).1.slot id).children.foldl (updateFragment mount levels)
          (refresh mount id state)
      else state := by
  obtain ⟨page, seen⟩ := state
  rw [updateFragment]
  dsimp only [refresh]
  by_cases hattached : (page.slot id).isAttached = true
  · rw [if_pos hattached, if_neg (by simp [hattached])]
  · rw [if_neg hattached, if_pos (by simp [hattached])]

theorem exists_draining_scheduled (h : page.Orderly) (hid : (page.fragment? id).isSome = true)
    (seen : List EffectId) : ∃ drained,
      Draining id seen page (page.updateSlot id ({ · with scheduled := false })) drained := by
  obtain ⟨fragment, hfragment⟩ := Option.isSome_iff_exists.mp hid
  have hvacant := Instance.not_vacant_of_fragment? hfragment
  exact exists_draining h hvacant seen (retouch_updateSlot page id _)
    (slot_updateSlot_of_lt (lt_size_of_not_vacant hvacant) _) (Or.inr ⟨hid, rfl⟩)

theorem refresh_turn (hmount : Mounts depth mount) {state : Page × List EffectId}
    (h : state.1.Orderly) (hid : (state.1.fragment? id).isSome = true)
    (hrank : (state.1.slot id).rank ≤ depth + 1) (hunseen : state.1.Unseen state.2) :
    OrderlyTurn (state.1.Under id) [] state.1 (refresh mount id state).1 ∧
      (refresh mount id state).1.Unseen (refresh mount id state).2 := by
  obtain ⟨page, seen⟩ := state
  unfold refresh
  split
  · obtain ⟨fragment, hfragment⟩ := Option.isSome_iff_exists.mp hid
    have hvacant := Instance.not_vacant_of_fragment? hfragment
    obtain ⟨drained, hdrain⟩ := exists_draining_scheduled h hid seen
    obtain ⟨hturn, _, hlast⟩ := runChanged_turn hmount h hvacant hrank hunseen hdrain
    exact ⟨hturn, hlast⟩
  · exact ⟨.refl h _, hunseen⟩

theorem child_ready (h : page.Orderly) (hrank : (page.slot id).rank ≤ depth + 1)
    (hchild : f ∈ (page.slot id).children) :
    (page.fragment? f).isSome = true ∧ (page.slot f).rank ≤ depth := by
  have hup : page.up f = some id := (h.mem_children id f).mp hchild
  obtain ⟨state, hstate⟩ := h.fragment_of_up hup
  have hlt := h.rank_lt hup
  exact ⟨by rw [hstate]; rfl, by omega⟩

/-- One fragment of an instance after the other. -/
theorem foldl_children_turn (id : InstanceId)
    {step : Page × List EffectId → InstanceId → Page × List EffectId}
    (hstep : ∀ (state : Page × List EffectId) (f : InstanceId), state.1.Orderly →
      (state.1.fragment? f).isSome = true → (state.1.slot f).rank ≤ depth →
      state.1.Unseen state.2 → OrderlyTurn (state.1.Under f) [] state.1 (step state f).1 ∧
        (step state f).1.Unseen (step state f).2)
    {children : List InstanceId} {state : Page × List EffectId} (h : state.1.Orderly)
    (hrank : (state.1.slot id).rank ≤ depth + 1) (hunseen : state.1.Unseen state.2)
    (hchildren : children ⊆ (state.1.slot id).children) :
    OrderlyTurn (fun j => ∃ f ∈ children, state.1.Under f j) [] state.1
        (children.foldl step state).1 ∧
      (children.foldl step state).1.Unseen (children.foldl step state).2 := by
  induction children generalizing state with
  | nil => exact ⟨.refl h _, hunseen⟩
  | cons f rest ih =>
      have hf := hchildren List.mem_cons_self
      obtain ⟨hfragment, hfrank⟩ := child_ready h hrank hf
      obtain ⟨hfirst, hseen⟩ := hstep state f h hfragment hfrank hunseen
      have hid := (h.not_vacant_of_up ((h.mem_children id f).mp hf)).2
      obtain ⟨hrest, hlast⟩ := ih hfirst.orderly (by rwa [hfirst.turn.rank_eq hid]) hseen
        fun g hg => (hfirst.turn.kept id).children.subset (hchildren (List.mem_cons_of_mem _ hg))
      refine ⟨(hfirst.mono fun j _ hj => ⟨f, List.mem_cons_self, hj⟩).trans hrest ?_, hlast⟩
      rintro j hj ⟨g, hg, hunder⟩
      exact ⟨g, List.mem_cons_of_mem _ hg, (hfirst.turn.under_iff h hj).mp hunder⟩

theorem under_of_children (h : page.Orderly) {children : List InstanceId}
    (hchildren : children ⊆ (page.slot id).children) {j : InstanceId}
    (hj : ∃ f ∈ children, page.Under f j) : page.Under id j := by
  obtain ⟨f, hf, hunder⟩ := hj
  exact (h.under_of_child (hchildren hf)).trans hunder

theorem updateFragment_turn (hmount : Mounts depth mount) (levels : Nat)
    {state : Page × List EffectId} (h : state.1.Orderly)
    (hid : (state.1.fragment? id).isSome = true) (hrank : (state.1.slot id).rank ≤ depth + 1)
    (hunseen : state.1.Unseen state.2) :
    OrderlyTurn (state.1.Under id) [] state.1 (updateFragment mount levels state id).1 ∧
      (updateFragment mount levels state id).1.Unseen (updateFragment mount levels state id).2 := by
  induction levels generalizing state id with
  | zero => exact ⟨.refl h _, hunseen⟩
  | succ levels ih =>
      rw [updateFragment_eq]
      split
      · obtain ⟨hfirst, hseen⟩ := refresh_turn hmount h hid hrank hunseen
        obtain ⟨fragment, hfragment⟩ := Option.isSome_iff_exists.mp hid
        have hvacant := Instance.not_vacant_of_fragment? hfragment
        obtain ⟨hrest, hlast⟩ := foldl_children_turn id
          (fun next f hnext hf hfrank => ih hnext hf (Nat.le_succ_of_le hfrank)) hfirst.orderly
          (by rwa [hfirst.turn.rank_eq hvacant]) hseen fun _ hx => hx
        refine ⟨hfirst.trans_under h (hrest.mono fun _ _ => ?_), hlast⟩
        exact under_of_children hfirst.orderly fun _ hx => hx
      · exact ⟨.refl h _, hunseen⟩

/-! ### Mounting -/

theorem unseen_nil (page : Page) : page.Unseen [] :=
  fun _ hn => by cases hn

theorem mounted_turn (h : page.Orderly) {state : FragmentState}
    (hstate : page.fragment? id = some state) {root : NodeId}
    (hkeep : ∀ node, state.root = some node → node = root) (dom : Dom) (notice : Notice) :
    OrderlyTurn (page.Under id) [] page
      (({ page with dom }.setMounted id root).report notice) := by
  have hplaced := akin_dom page dom
  have hstate' : ({ page with dom } : Page).fragment? id = some state := hstate
  have hset : OrderlyTurn (page.Under id) [] { page with dom }
      ({ page with dom }.setMounted id root) :=
    setMounted_turn (h.of_akin hplaced) hstate' hkeep .self
  exact (OrderlyTurn.akin_trans h hplaced hset).trans_akin (akin_report _ _)

theorem remount_turn (hmount : Mounts depth mount) (levels : Nat) (h : page.Orderly)
    {state : FragmentState} (hstate : page.fragment? id = some state) {root : NodeId}
    (hroot : state.root = some root) (hrank : (page.slot id).rank ≤ depth + 1) (anchor : NodeId) :
    OrderlyTurn (page.Under id) [] page (remount mount levels page id anchor root) := by
  unfold remount
  split
  · exact .of_akin h _ (akin_report page _)
  · rename_i dom _
    have hset := mounted_turn h hstate (fun node hnode => by rw [hroot] at hnode; cases hnode; rfl)
      dom (.remounted id.number)
    generalize ({ page with dom }.setMounted id root).report (.remounted id.number) = next
      at hset ⊢
    have hvacant := Instance.not_vacant_of_fragment? hstate
    obtain ⟨root', attached, hstate', _⟩ := (hset.turn.kept id).fragment_state state hstate
    have hnext : (next, ([] : List EffectId)).1.Orderly := hset.orderly
    refine hset.trans_under h (updateFragment_turn hmount levels hnext ?_ ?_ ?_).1
    · rw [fragment?, hstate']
      rfl
    · rwa [hset.turn.rank_eq hvacant]
    · exact unseen_nil next

theorem mountFirst_turn (hmount : Mounts depth mount) (h : page.Orderly) {state : FragmentState}
    (hstate : page.fragment? id = some state) (hroot : state.root = none)
    (hrank : (page.slot id).rank ≤ depth + 1) (anchor : NodeId) :
    OrderlyTurn (page.Under id) [] page (mountFirst mount page id state.blueprint anchor) := by
  unfold mountFirst
  dsimp only
  split
  · exact .of_akin h _ ((akin_dom page _).trans (akin_report _ _))
  · rename_i root _
    split
    · exact .of_akin h _ ((akin_dom page _).trans (akin_report _ _))
    · generalize ((((state.blueprint.instantiate page.dom).1.insertAfter anchor root).1).remove
        (state.blueprint.instantiate page.dom).2.root) = dom
      have hset : OrderlyTurn (page.Under id) [] page
          (({ page with dom }.setMounted id root).report (.mounted id.number)) :=
        mounted_turn h hstate (fun node hnode => by rw [hroot] at hnode; cases hnode) dom
          (.mounted id.number)
      have hvacant := Instance.not_vacant_of_fragment? hstate
      have hslot : (({ page with dom }.setMounted id root).report (.mounted id.number)).slot id =
          (page.slot id).mapFragment ({ · with root := some root, attached := true }) :=
        slot_setMounted { page with dom } hvacant root
      refine hset.trans_under h (Rendering.wireAll_turn hmount ?_ _)
      rw [Instance.mapFragment_of_fragment? hstate] at hslot
      obtain ⟨hempty, _⟩ := (h.fit id).unmounted state hstate hroot
      refine ⟨hset.orderly, ?_, ?_, ⟨?_, ?_⟩, ?_⟩
      · rw [hslot, Instance.blueprint?]
      · rwa [Instance.rank_of_blueprint? (Instance.blueprint?_of_fragment? hstate)] at hrank
      · rw [hslot]
        rintro old ⟨⟩
        exact Option.some_ne_none root
      · rw [hslot]
        rintro old ⟨⟩
      · rw [hslot, hempty]
        rfl

theorem mountWithin_mounts (depth : Nat) : Mounts depth (mountWithin depth) := by
  induction depth with
  | zero => exact fun page f h _ _ => .refl h _
  | succ depth ih =>
      intro page f h hfragment hrank
      obtain ⟨state, hstate⟩ := Option.isSome_iff_exists.mp hfragment
      rw [mountWithin, hstate]
      dsimp only
      split
      · exact .refl h _
      · cases hroot : state.root with
        | some root => exact remount_turn ih (depth + 1) h hstate hroot hrank state.anchor
        | none => exact mountFirst_turn ih h hstate hroot hrank state.anchor

theorem mount_turn (h : page.Orderly) (id : InstanceId) :
    OrderlyTurn (page.Under id) [] page (page.mount id) := by
  unfold mount
  cases hstate : page.fragment? id with
  | none => exact .refl h _
  | some state =>
      refine mountWithin_mounts _ page id h (by rw [hstate]; rfl) ?_
      rw [Instance.rank_of_blueprint? (Instance.blueprint?_of_fragment? hstate)]

theorem runEffects_turn (h : page.Orderly) {state : ComponentState}
    (hstate : page.component? id = some state) :
    OrderlyTurn (page.Under id) [] page
      (page.runEffects id state.definition.blueprint.depth) := by
  have hmount := mountWithin_mounts state.definition.blueprint.depth
  have hvacant := Instance.not_vacant_of_component? hstate
  have hrank := le_of_eq (Instance.rank_of_blueprint? (Instance.blueprint?_of_component? hstate))
  obtain ⟨drained, hdrain⟩ := exists_draining h hvacant []
    (.of_akin id (.refl page)) rfl (Or.inl rfl)
  obtain ⟨hfirst, _, hseen⟩ := runChanged_turn hmount h hvacant (Nat.le_succ_of_le hrank)
    (unseen_nil page) hdrain
  unfold runEffects
  obtain ⟨hrest, _⟩ := foldl_children_turn id
    (fun next f hnext hf hfrank =>
      updateFragment_turn hmount state.definition.blueprint.depth hnext hf
        (Nat.le_succ_of_le hfrank)) hfirst.orderly
    (by rw [hfirst.turn.rank_eq hvacant]; exact Nat.le_succ_of_le hrank) hseen fun _ hx => hx
  exact hfirst.trans_under h
    (hrest.mono fun _ _ => under_of_children hfirst.orderly fun _ hx => hx)

end LiveMarkup.Page
