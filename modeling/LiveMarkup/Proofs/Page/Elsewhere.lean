import LiveMarkup.Proofs.Page.Tending

/-!
The work of a component stays with the component. A move leaves the slots of all other instances and
their nodes as they are, and what is new belongs to the component that is at work.
-/

namespace LiveMarkup

namespace Page

/-- An instance of another component than `c`. -/
structure Elsewhere (page : Page) (c i : InstanceId) : Prop where
  there : (page.slot i).isVacant = false
  other : (page.slot i).component ≠ c

/-- A node that does not belong to `c`: one of another component, or the document. -/
structure Foreign (page : Page) (plan : Plan) (c : InstanceId) (n : NodeId) : Prop where
  live : page.dom.Live n
  owner : ∀ o, (plan.role n).owner? = some o → page.Elsewhere c o

/-- The instances of other components keep their slots, and no other component gets new ones. -/
structure SparesSlots (c : InstanceId) (page page' : Page) : Prop where
  slot : ∀ i, page.Elsewhere c i → page'.slot i = page.slot i
  there : ∀ i, page'.Elsewhere c i → page.Elsewhere c i

end Page

open Page

/-- What does not belong to `c` stays as it is, and all that is new belongs to `c`. -/
structure Work.Spares (c : InstanceId) (work work' : Work) : Prop where
  slots : SparesSlots c work.page work'.page
  node : ∀ n, work.page.Foreign work.plan c n → work'.page.dom.Live n ∧
    work'.plan.role n = work.plan.role n ∧
      work'.page.dom.content n = work.page.dom.content n
  new : ∀ n, work'.page.Foreign work'.plan c n → work.page.Foreign work.plan c n

namespace Page

variable {reading : Blueprint → List Sketch} {page page' page'' : Page} {plan plan' : Plan}
  {c f i j o : InstanceId} {n : NodeId} {agenda agenda' : List Errand}

namespace SparesSlots

theorem of_slot (c : InstanceId) (h : ∀ i, page'.slot i = page.slot i) : SparesSlots c page page' where
  slot i _ := h i
  there i helse := by
    obtain ⟨hthere, hother⟩ := helse
    rw [h] at hthere hother
    exact ⟨hthere, hother⟩

theorem trans (h : SparesSlots c page page') (h' : SparesSlots c page' page'') :
    SparesSlots c page page'' where
  slot i helse := by
    have hslot := h.slot i helse
    have helse' : page'.Elsewhere c i := ⟨hslot ▸ helse.there, hslot ▸ helse.other⟩
    exact (h'.slot i helse').trans hslot
  there i helse := h.there i (h'.there i helse)

theorem elsewhere (h : SparesSlots c page page') (helse : page.Elsewhere c i) :
    page'.Elsewhere c i := by
  have hslot := h.slot i helse
  exact ⟨hslot ▸ helse.there, hslot ▸ helse.other⟩

/-- A slot of the component is written to. -/
theorem of_other (hj : (page.slot j).component = c) (hj' : (page'.slot j).component = c)
    (hother : ∀ i, i ≠ j → page'.slot i = page.slot i) : SparesSlots c page page' where
  slot i helse := by
    refine hother i ?_
    rintro rfl
    exact helse.other hj
  there i helse := by
    have hne : i ≠ j := by
      rintro rfl
      exact helse.other hj'
    obtain ⟨hthere, hother'⟩ := helse
    rw [hother i hne] at hthere hother'
    exact ⟨hthere, hother'⟩

theorem of_update {change : Instance → Instance} (hj : (page.slot j).component = c)
    (hchange : ∀ i, (change i).component = i.component) :
    SparesSlots c page (page.updateSlot j change) :=
  of_other hj ((read_updateSlot (·.component) hchange page j j).trans hj)
    fun _ hne => slot_updateSlot_of_ne hne change

theorem of_toggled {state : FragmentState} {root : NodeId} {attached : Bool}
    (h : Toggled f state root attached page page') (hf : (page.slot f).component = c) :
    SparesSlots c page page' :=
  of_other hf ((h.place f).2.1.trans hf) h.other

/-- A new instance of the component. -/
theorem of_joins {new : Instance} (h : Joins f new page page') (hnew : new.component = c)
    (hparent : ∀ p, new.parent = some p → (page.slot p).component = c) :
    SparesSlots c page page' where
  slot i helse := by
    rw [h.slot_other i (h.ne_of_not_vacant helse.there), if_neg]
    exact fun hp => helse.other (hparent i hp)
  there i helse := by
    have hne : i ≠ f := by
      rintro rfl
      exact helse.other (by rw [h.slot_self, hnew])
    obtain ⟨hthere, hother⟩ := helse
    rw [h.slot_other i hne] at hthere hother
    exact ⟨hthere, hother⟩

end SparesSlots

end Page

namespace Work.Spares

variable {c : InstanceId} {work work' work'' : Work}

theorem foreign (h : work.Spares c work') {n : NodeId} (hn : work.page.Foreign work.plan c n) :
    work'.page.Foreign work'.plan c n := by
  obtain ⟨hlive, hrole, _⟩ := h.node n hn
  refine ⟨hlive, fun o howner => h.slots.elsewhere (hn.owner o ?_)⟩
  rwa [← hrole]

theorem trans (h : work.Spares c work') (h' : work'.Spares c work'') : work.Spares c work'' where
  slots := h.slots.trans h'.slots
  node n hn := by
    obtain ⟨_, hrole, hcontent⟩ := h.node n hn
    obtain ⟨hlive, hrole', hcontent'⟩ := h'.node n (h.foreign hn)
    exact ⟨hlive, hrole'.trans hrole, hcontent'.trans hcontent⟩
  new n hn := h.new n (h'.new n hn)

/-- Each node belongs to the component, or it is there before and after. -/
theorem of_nodes (hslots : SparesSlots c work.page work'.page)
    (hold : ∀ n, work.page.Foreign work.plan c n → work'.page.dom.Live n ∧
      work'.plan.role n = work.plan.role n ∧
        work'.page.dom.content n = work.page.dom.content n)
    (hnew : ∀ n, work'.page.Foreign work'.plan c n → work.page.dom.Live n ∧
      work'.plan.role n = work.plan.role n) : work.Spares c work' where
  slots := hslots
  node := hold
  new n hn := by
    obtain ⟨hlive, hrole⟩ := hnew n hn
    refine ⟨hlive, fun o howner => hslots.there o (hn.owner o ?_)⟩
    rwa [hrole]

/-- All nodes stay. -/
theorem of_dom (hslots : SparesSlots c work.page work'.page)
    (hdom : work'.page.dom = work.page.dom) (hplan : work'.plan = work.plan) :
    work.Spares c work' :=
  of_nodes hslots (fun n hn => ⟨by rw [hdom]; exact hn.live, by rw [hplan], by rw [hdom]⟩)
    fun n hn => ⟨by rw [← hdom]; exact hn.live, by rw [hplan]⟩

theorem refl (c : InstanceId) (work : Work) : work.Spares c work :=
  of_dom (.of_slot c fun _ => rfl) rfl rfl

end Work.Spares

namespace Page

variable {reading : Blueprint → List Sketch} {page page' : Page} {plan plan' : Plan}
  {c f o owner : InstanceId} {n root : NodeId} {agenda agenda' : List Errand}

/-! ### Moves -/

/-- An instance that has a component has the slot of the component in common with it. -/
theorem Orderly.component_component (h : page.Orderly) (o : InstanceId) :
    (page.slot (page.slot o).component).component = (page.slot o).component := by
  cases hvacant : (page.slot o).isVacant with
  | true =>
      have hslot := h.vacant_eq o hvacant
      have hcomponent : (page.slot o).component = o := by rw [hslot]; rfl
      rw [hcomponent, hcomponent]
  | false =>
      obtain ⟨state, hstate⟩ := Option.isSome_iff_exists.mp (h.belongs o hvacant)
      exact (h.component_eq _ state hstate).2

theorem Foreign.owner_ne (h : page.Foreign plan c n) {o : InstanceId}
    (howner : (page.slot o).component = c) : (plan.role n).owner? ≠ some o :=
  fun hsome => (h.owner o hsome).other howner

/-- An effect of the component is registered. -/
theorem spares_enrolled {e : Effect} (hvacant : (page.slot e.owner).isVacant = false)
    (howner : (page.slot e.owner).component = c) (fields : Names) :
    Work.Spares c ⟨page, plan, agenda⟩ ⟨page.enrolled fields e, plan, agenda'⟩ := by
  have hcomponent := ((calm_enrolled page fields e).component e.owner).trans howner
  have henrolled := foldl_enroll_enrolled { page with effects := page.effects + 1 } e.owner hvacant
    e fields
  exact .of_dom (.of_other howner hcomponent henrolled.retouch.other) (dom_enrolled _ _ _) rfl

theorem Anchored.spares {old anchor p : NodeId} {blueprint : Blueprint} {guard : Interpolation}
    {body : Sketch} (ha : Anchored owner old anchor p blueprint f page page')
    (hrole : plan.role old = .slot owner guard body) (howner : (page.slot owner).component = c) :
    Work.Spares c ⟨page, plan, agenda⟩
      ⟨page', ⟨Function.update plan.role anchor (.anchor owner f guard body), plan.home⟩,
        agenda'⟩ := by
  refine .of_nodes (.of_joins ha.joins howner fun p hp => ?_) (fun n hn => ?_) fun n hn => ?_
  · cases hp
    exact howner
  · have hold : n ≠ old := by
      rintro rfl
      exact hn.owner_ne howner (congrArg Role.owner? hrole)
    have hanchor : n ≠ anchor := by
      rintro rfl
      exact ha.dom.fresh hn.live
    exact ⟨(ha.dom.live n).mpr (Or.inr ⟨hn.live, hold⟩), Function.update_of_ne hanchor _ _,
      ha.dom.content n hn.live hold⟩
  · have hcomponent : (page'.slot owner).component = c := by
      by_cases hf : owner = f
      · rw [hf, ha.joins.slot_self, howner]
      · rw [ha.joins.slot_other owner hf]
        exact howner
    have hanchor : n ≠ anchor := by
      rintro rfl
      refine hn.owner_ne hcomponent ?_
      dsimp only
      rw [Function.update_self]
      rfl
    exact ⟨(((ha.dom.live n).mp hn.live).resolve_left hanchor).1,
      Function.update_of_ne hanchor _ _⟩

theorem Sown.spares {blueprint : Blueprint} {marked : List (Nat × NodeId)}
    (hsown : Sown o blueprint marked page.dom plan page'.dom plan')
    (hslots : SparesSlots c page page') (ho : (page'.slot o).component = c) :
    Work.Spares c ⟨page, plan, agenda⟩ ⟨page', plan', agenda'⟩ := by
  refine .of_nodes hslots (fun n hn => ?_) fun n hn => ?_
  · obtain ⟨hlive, hrole, hcontent, _⟩ := hsown.old n hn.live
    exact ⟨hlive, hrole, hcontent⟩
  · by_cases hold : page.dom.Live n
    · exact ⟨hold, (hsown.old n hold).2.1⟩
    · exfalso
      rcases hsown.plays n hn.live hold with ⟨hrole, _⟩ | ⟨sketch, _, hrole, _⟩
      · exact hn.owner_ne ho (congrArg Role.owner? hrole)
      · exact hn.owner_ne ho ((congrArg Role.owner? hrole).trans (Role.owner?_role o sketch))

/-- A fragment of the component is mounted or unmounted. -/
theorem Flip.spares {wish : Bool} {new : List Chore} (h : Flip f page plan wish page' plan' new)
    (hlaid : page.Laid reading plan) (hacyclic : Acyclic page.up)
    (hf : (page.slot f).component = c) :
    Work.Spares c ⟨page, plan, agenda⟩ ⟨page', plan', agenda'⟩ := by
  have htoggled : (∃ state root attached, Toggled f state root attached page page') ∨
      page' = page := by
    cases h with
    | kept _ | hidden _ _ _ => exact Or.inr rfl
    | unmounted hstate hattached hroot => exact Or.inl ⟨_, _, _, toggled_unmount hstate hattached hroot⟩
    | remounted hstate _ _ hroot _ =>
        refine Or.inl ⟨_, _, _, toggled_setMounted hstate _ (fun node hnode => ?_) _ _⟩
        rw [hroot, Option.some.injEq] at hnode
        exact hnode
    | mounted hstate _ _ hroot _ _ =>
        refine Or.inl ⟨_, _, _, toggled_setMounted hstate _ (fun node hnode => ?_) _ _⟩
        rw [hroot] at hnode
        cases hnode
  obtain ⟨hslots, hcomponent⟩ : SparesSlots c page page' ∧ (page'.slot f).component = c := by
    rcases htoggled with ⟨state, root, attached, htoggled⟩ | rfl
    · exact ⟨.of_toggled htoggled hf, (htoggled.place f).2.1.trans hf⟩
    · exact ⟨.of_slot c fun _ => rfl, hf⟩
  obtain ⟨hold, hnone | ⟨blueprint, marked, hsown, _⟩⟩ := h.nodes hlaid hacyclic
  · exact .of_nodes hslots (fun n hn => hold n hn.live)
      fun n hn => ⟨hnone n hn.live, (hold n (hnone n hn.live)).2.1⟩
  · exact hsown.spares hslots hcomponent

/-- A move in the work of `c` spares all that does not belong to `c`. -/
theorem Move.spares {work work' : Work} {late : Prop} (hmove : Move c late work work')
    (hbusy : Busy reading work) (horderly : work.page.Orderly) : work.Spares c work' := by
  have hlaid := hbusy.laid
  cases hmove with
  | @unmark page plan owner node agenda =>
      have hlive : page.dom.Live node := (hbusy.ready _ List.mem_cons_self).live
      have hsame := Dom.setMarker_rewritten hlaid.valid hlive none
      exact .of_nodes (.of_slot c fun _ => rfl)
        (fun n hn => ⟨(hsame.live n).mpr hn.live, rfl, content_setMarker hlive none n⟩)
        fun n hn => ⟨(hsame.live n).mp hn.live, rfl⟩
  | @refer page plan owner node name agenda howner =>
      refine .of_dom (.of_update ?_ fun i => ?_) rfl rfl
      · rw [horderly.component_component, howner]
      · unfold Instance.mapComponent
        split <;> rfl
  | @listen page plan owner node binding =>
      exact .of_dom (.of_slot c (Rendering.akin_listen owner node page binding).slot)
        (dom_listen page owner node binding) rfl
  | @enroll page plan owner node task fields _ _ howner hattached =>
      exact spares_enrolled (e := page.newEffect owner node none task)
        (Instance.not_vacant_of_isAttached hattached) howner fields
  | @plant page page₁ plan owner f node anchor p index directive body agenda howner hattached hrole
      hanchored =>
      have hvacant := Instance.not_vacant_of_isAttached hattached
      have hslot := hanchored.joins.slot_other owner (hanchored.joins.ne_of_not_vacant hvacant)
      have hplanted : Work.Spares c
          ⟨page, plan, .chore ⟨owner, node, .guard index directive⟩ :: agenda⟩
          ⟨page₁, _, agenda⟩ := hanchored.spares hrole howner
      refine hplanted.trans (spares_enrolled (e := page₁.newEffect owner anchor (some f)
        (.guardFragment directive.guard)) ?_ ?_ directive.dependencies)
      · change (page₁.slot owner).isVacant = false
        rw [hslot]
        exact hvacant
      · change (page₁.slot owner).component = c
        rw [hslot]
        exact howner
  | @rewrite page plan e sketch agenda mount howner _ hline htask =>
      have hlive := (hbusy.ready _ List.mem_cons_self).live
      have hputs := runEffect_puts hlaid.valid mount htask (hlaid.fits_of_role hlive hline).2.1
      have hslot : ∀ i, (runEffect mount page e).slot i = page.slot i := fun i => by
        rw [slot, slots_runEffect mount page (writes_of_mem_tasks htask), slot]
      refine .of_nodes (.of_slot c hslot) (fun n hn => ⟨(hputs.live n).mpr hn.live, rfl, ?_⟩)
        fun n hn => ⟨(hputs.live n).mp hn.live, rfl⟩
      rw [hputs.content, if_neg]
      rintro rfl
      exact hn.owner_ne howner (congrArg Role.owner? hline)
  | @turn page _ plan _ e f guard _ _ agenda howner hattached hrole hflip =>
      have hchecked := hbusy.checked e guard
      have hslot : ∀ j, (page.checked e guard).2.slot j = page.slot j := fun j => by
        rw [slot, akin_counted_slots, slot]
      obtain ⟨_, _, _, hup, _⟩ :=
        hlaid.fits_of_role (hbusy.ready _ List.mem_cons_self).live hrole
      have hstill : Work.Spares c ⟨page, plan, .run e :: agenda⟩
          ⟨(page.checked e guard).2, plan, agenda⟩ :=
        .of_dom (.of_slot c hslot) (checked_dom page e guard) rfl
      refine hstill.trans (hflip.spares hchecked.laid hchecked.acyclic ?_)
      rw [hslot, horderly.component_up _ _ hup, howner]
  | rest _ howner => exact .of_dom (.of_update howner fun _ => rfl) rfl rfl
  | drain _ _ howner _ _ => exact .of_dom (.of_update howner fun _ => rfl) rfl rfl

end Page

/-! ### Runs -/

/-- Components keep their fields and their hosts as they are, what is tended stays so, no style sheet
is new, and what does not belong to `c` is spared. -/
structure Work.Carries (c : InstanceId) (work work' : Work) : Prop where
  upholds : Upholds work.page work'.page
  tended : ∀ past, work.page.Follows past → Tended past work → Tended past work'
  styles : ∀ n c, work'.page.dom.Live n → work'.plan.role n = .style c →
    work.page.dom.Live n ∧ work.plan.role n = .style c
  hosts : work.SparesHosts work'
  spares : work.Spares c work'

namespace Work.Carries

variable {c : InstanceId}

theorem refl (c : InstanceId) (work : Work) : work.Carries c work :=
  ⟨.of_slot fun _ => rfl, fun _ _ h => h, fun _ _ hn hrole => ⟨hn, hrole⟩, .refl work,
    .refl c work⟩

theorem trans {work work' work'' : Work} (h : work.Carries c work')
    (h' : work'.Carries c work'') : work.Carries c work'' where
  upholds := h.upholds.trans h'.upholds
  tended past hfollows htended :=
    h'.tended past (h.upholds.follows hfollows) (h.tended past hfollows htended)
  styles n c hn hrole := by
    obtain ⟨hn, hrole⟩ := h'.styles n c hn hrole
    exact h.styles n c hn hrole
  hosts := h.hosts.trans h'.hosts
  spares := h.spares.trans h'.spares

end Work.Carries

namespace Page

variable {reading : Blueprint → List Sketch} {page page' : Page} {plan plan' : Plan} {c o : InstanceId}
  {agenda : List Errand}

theorem Move.carries {work work' : Work} {late : Prop} (hmove : Move c late work work')
    (hbusy : Busy reading work) (horderly : work.page.Orderly) : work.Carries c work' :=
  ⟨hmove.upholds hbusy horderly, fun _ hfollows h => hmove.tended hbusy horderly hfollows h,
    fun _ _ hn hrole => hmove.of_style hbusy hn hrole, hmove.sparesHosts hbusy,
    hmove.spares hbusy horderly⟩

/-- Only inert nodes are new, and what was written stays. -/
theorem Upholds.carries (h : Upholds page page') (hlaid : page.Laid reading plan)
    (hbelongs : ∀ o, (page.slot o).isVacant = false → (page.holder? o).isSome = true)
    (hdue : ∀ o e, e ∈ (page.slot o).bindings.due → e ∈ (page'.slot o).bindings.due)
    (hnodes : ∀ n, page'.dom.Live n → (page.dom.Live n ∧ plan'.role n = plan.role n) ∨
      (plan'.role n).isInert = true ∧ ∀ c, plan'.role n ≠ .style c)
    (hcontent : ∀ n, page.dom.Live n → (plan.role n).isInert = false →
      page'.dom.content n = page.dom.content n)
    (hmounted : ∀ f, page'.isMounted f = page.isMounted f)
    (hhosts : Work.SparesHosts ⟨page, plan, agenda⟩ ⟨page', plan', agenda⟩)
    (hspares : Work.Spares c ⟨page, plan, agenda⟩ ⟨page', plan', agenda⟩) :
    Work.Carries c ⟨page, plan, agenda⟩ ⟨page', plan', agenda⟩ where
  upholds := h
  tended past _ htended := htended.keep hlaid hbelongs (fun o _ _ _ _ _ => h.near o)
    (fun o _ _ howes => howes.mono (fun _ _ _ hmem => hmem) (hdue o))
    (fun n hn => (hnodes n hn).imp id fun hinert => .of_inert hinert.1) hcontent hmounted
    fun _ hmem _ => hmem
  styles n c hn hrole := by
    rcases hnodes n hn with ⟨hold, hsame⟩ | ⟨_, hnot⟩
    · exact ⟨hold, hsame ▸ hrole⟩
    · exact absurd hrole (hnot c)
  hosts := hhosts
  spares := hspares

theorem Sown.carries {blueprint : Blueprint} {marked : List (Nat × NodeId)}
    {dom : Dom} (hsown : Sown o blueprint marked page.dom plan dom plan')
    (hlaid : page.Laid reading plan) (horderly : page.Orderly) (ho : (page.slot o).component = c) :
    Work.Carries c ⟨page, plan, agenda⟩
      ⟨{ page with dom }, plan', (blueprint.chores o marked).map .chore ++ agenda⟩ where
  upholds := .of_slot fun _ => rfl
  tended _ _ h := tended_sown h hlaid horderly hsown
  styles n c hn hrole := by
    by_cases hold : page.dom.Live n
    · exact ⟨hold, (hsown.old n hold).2.1 ▸ hrole⟩
    · exact absurd hrole (hsown.ne_style hn hold c)
  hosts n _ hn hrole := by
    obtain ⟨hlive, hsame, hcontent, _⟩ := hsown.old n hn
    exact ⟨hlive, hsame.trans hrole, hcontent⟩
  spares := Sown.spares hsown (.of_slot c fun _ => rfl) ho

/-- Any number of acts. -/
theorem Acts.busy {late : Prop} {next : Page × List Errand}
    (hacts : Acts c late (page, agenda) next) (h : Busy reading ⟨page, plan, agenda⟩)
    (hbalanced : page.Balanced) :
    ∃ plan', Busy reading ⟨next.1, plan', next.2⟩ ∧ next.1.Balanced ∧ plan'.home = plan.home ∧
      Work.Carries c ⟨page, plan, agenda⟩ ⟨next.1, plan', next.2⟩ := by
  induction hacts with
  | refl => exact ⟨plan, h, hbalanced, rfl, .refl c _⟩
  | tail _ hstep ih =>
      rename_i middle next _
      obtain ⟨plan', hbusy, hbalanced', hhome, hcarries⟩ := ih
      obtain ⟨plan'', hmove, hbusy'⟩ := Step.move hstep hbusy
      exact ⟨plan'', hbusy', hmove.balanced hbalanced', hmove.home.trans hhome,
        hcarries.trans (hmove.carries hbusy hstep.1)⟩

end Page

end LiveMarkup
