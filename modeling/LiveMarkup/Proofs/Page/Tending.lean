import LiveMarkup.Proofs.Page.Tended

/-!
A move keeps tasks tended. What does a task takes it off the agenda, a new node brings its chores with
it, and everything else leaves the other nodes and what is registered for them alone.
-/

namespace LiveMarkup

namespace Bindings

variable {b : Bindings} {field : String} {e added : Effect}

theorem mem_due_ensure_add (h : e ∈ b.due) : e ∈ ((b.ensure field).add field added).due := by
  obtain ⟨other, binding, hmem, hchanged, he⟩ := mem_due.mp h
  refine mem_due.mpr ⟨other, _, (mem_modify _).mpr ⟨binding, mem_ensure.mpr (Or.inl hmem), rfl⟩, ?_, ?_⟩
  · split <;> exact hchanged
  · split
    · exact List.mem_append_left _ he
    · exact he

end Bindings

/-- The hosts of components stay, with what they hold. -/
def Work.SparesHosts (work work' : Work) : Prop :=
  ∀ n c, work.page.dom.Live n → work.plan.role n = .host c →
    work'.page.dom.Live n ∧ work'.plan.role n = .host c ∧
      work'.page.dom.content n = work.page.dom.content n

theorem Work.SparesHosts.refl (work : Work) : work.SparesHosts work :=
  fun _ _ hn hrole => ⟨hn, hrole, rfl⟩

theorem Work.SparesHosts.trans {work work' work'' : Work} (h : work.SparesHosts work')
    (h' : work'.SparesHosts work'') : work.SparesHosts work'' := by
  intro n c hn hrole
  obtain ⟨hn', hrole', hcontent⟩ := h n c hn hrole
  obtain ⟨hn'', hrole'', hcontent'⟩ := h' n c hn' hrole'
  exact ⟨hn'', hrole'', hcontent'.trans hcontent⟩

namespace Page

variable {reading : Blueprint → List Sketch} {page page' page'' : Page} {plan plan' : Plan}
  {c f g j o owner : InstanceId} {n p root old anchor : NodeId} {task : Task} {field : String}
  {e : Effect} {agenda agenda' : List Errand} {state : ComponentState} {blueprint : Blueprint}
  {guard : Interpolation} {body sketch : Sketch} {past : Past}

/-! ### What the changes of slots uphold -/

theorem upholds_setReference (page : Page) (owner : InstanceId) (name : String) (node : NodeId) :
    Upholds page (page.setReference owner name node) :=
  .of_update (fun i => .mapComponent (f := fun state =>
    { state with references := state.references.insert name node }) (fun _ => ⟨rfl, rfl⟩) i) page _

theorem Orderly.under_component (horderly : page.Orderly) (ho : (page.slot o).isVacant = false) :
    page.Under (page.slot o).component o := by
  refine horderly.induction (P := fun o => page.Under (page.slot o).component o)
    (fun c state hstate => ?_) (fun f p state hup _ ih => ?_) ho
  · rw [(horderly.component_eq c state hstate).2]
    exact .self
  · rw [horderly.component_up p f hup]
    exact .step hup ih

/-- A field that a component binds is found from everywhere in it. -/
theorem resolves_of_knows (horderly : page.Orderly) (ho : (page.slot o).isVacant = false)
    (h : page.knows o field = true) : page.resolves o field = true :=
  List.any_eq_true.mpr ⟨_, (mem_path_iff horderly ho).mpr (horderly.under_component ho), h⟩

theorem resolves_congr (hslots : page'.slots = page.slots) (o : InstanceId) (field : String) :
    page'.resolves o field = page.resolves o field := by
  have hslot : ∀ j, page'.slot j = page.slot j := fun j => by rw [slot, slot, hslots]
  have hpath : page'.path o = page.path o :=
    path_congr (by rw [hslots]) (fun j => by rw [hslot]) o
  simp only [resolves, hpath, hslot]

theorem resolves_of_top (hvacant : (page.slot c).isVacant = false) (htop : page.up c = none)
    (field : String) : page.resolves c field = (page.slot c).bindings.contains field := by
  obtain ⟨n, hn⟩ : ∃ n, page.slots.size = n + 1 :=
    ⟨page.slots.size - 1, by have := lt_size_of_not_vacant hvacant; omega⟩
  have hparent : (page.slot c).parent = none := htop
  rw [resolves, path, hn, climb, hparent]
  simp

/-- A new fragment hides nothing from the instances that were there. -/
theorem Joins.resolves {i : Instance} (horderly : page.Orderly) (hj : Joins f i page page')
    (hvacant : (page.slot owner).isVacant = false) (hparent : i.parent = some owner)
    (ho : (page.slot o).isVacant = false) (h : page.knows o field = true) :
    page'.resolves o field = true := by
  have hne : ∀ {j}, (page.slot j).isVacant = false → j ≠ f := fun hj' => hj.ne_of_not_vacant hj'
  have hlt : ∀ {j}, (page.slot j).isVacant = false → j.number < page'.slots.size := fun hj' =>
    (hj.lt_size _).mpr (Or.inl (lt_size_of_not_vacant hj'))
  have hbounded : Bounded page'.up InstanceId.number page'.slots.size := by
    have hlink : ∀ {n p}, page'.up n = some p → n.number < page'.slots.size ∧
        p.number < page'.slots.size := by
      intro n p hup
      by_cases hn : n = f
      · subst hn
        rw [up, hj.slot_self, hparent, Option.some.injEq] at hup
        exact ⟨(hj.lt_size n).mpr (Or.inr rfl), hup ▸ hlt hvacant⟩
      · rw [hj.up_other hn] at hup
        exact ⟨hlt (horderly.not_vacant_of_up hup).1, hlt (horderly.not_vacant_of_up hup).2⟩
    exact ⟨InstanceId.number_injective, fun hup => (hlink hup).1, fun hup => (hlink hup).2⟩
  have hunder : page'.Under (page.slot o).component o :=
    (Above.congr_up fun m hm => hj.up_other (hne (horderly.not_vacant_of_under hm ho))).mpr
      (horderly.under_component ho)
  have hholder : (page.slot (page.slot o).component).isVacant = false :=
    horderly.not_vacant_of_under (horderly.under_component ho) ho
  refine List.any_eq_true.mpr ⟨(page.slot o).component, ?_, ?_⟩
  · rw [path, climb_eq_lineage]
    exact (hbounded.mem_lineage_iff (acyclic_of_joins horderly hj hvacant hparent) (hlt ho)).mpr
      hunder
  · rw [hj.bindings_other (hne hholder)]
    exact h

/-- Registering an effect binds nothing that its component does not bind. -/
theorem upholds_enrolled (ho : (page.slot e.owner).isVacant = false)
    (htop : ∀ state, page.component? e.owner = some state → page.up e.owner = none)
    (fields : Names) : Upholds page (page.enrolled fields e) where
  slot j := by
    have henrolled := foldl_enroll_enrolled { page with effects := page.effects + 1 } e.owner ho e
      fields
    by_cases hj : j = e.owner
    · subst hj
      have hslot : (page.enrolled fields e).slot e.owner = { page.slot e.owner with
        bindings := ((page.enrolled fields e).slot e.owner).bindings } := henrolled.slot
      refine ⟨fun hj => ⟨henrolled.not_vacant hj, by rw [hslot]⟩,
        fun state hstate => ⟨state, by rw [hslot]; exact hstate, rfl, rfl⟩, fun hstate => ?_,
        fun state hstate field => ?_, fun field x hx => (henrolled.registers field x).mpr (Or.inl hx)⟩
      · rw [hslot] at hstate
        exact hstate
      refine Bool.eq_iff_iff.mpr ⟨fun hfield => ?_, henrolled.contains field⟩
      have hvacant := henrolled.not_vacant ho
      have hresolves := resolves_of_contains hvacant hfield
      rw [henrolled.resolves] at hresolves
      rw [← resolves_of_top ho (htop state hstate), ← hresolves]
      exact resolves_congr (by rfl) e.owner field
    · have hslot : (page.enrolled fields e).slot j = page.slot j := henrolled.retouch.other j hj
      rw [hslot]
      exact .refl _

theorem due_enrolled (fields : Names) (x : Effect) (hx : x ∈ (page.slot j).bindings.due) :
    x ∈ ((page.enrolled fields e).slot j).bindings.due := by
  have hstep : ∀ (page : Page) field, x ∈ (page.slot j).bindings.due →
      x ∈ ((page.enroll e.owner e field).slot j).bindings.due := by
    intro page field hx
    unfold enroll
    split
    · by_cases hj : j = e.owner
      · subst hj
        by_cases hlt : e.owner.number < page.slots.size
        · rw [slot_updateSlot_of_lt hlt]
          exact Bindings.mem_due_ensure_add hx
        · rw [slot_of_size_le (Nat.le_of_not_lt hlt)] at hx
          exact absurd (Bindings.holds_of_mem_due hx) Bindings.not_holds_empty
      · rwa [slot_updateSlot_of_ne hj]
    · exact hx
  have hfold : ∀ (fields : Names) (page : Page), x ∈ (page.slot j).bindings.due →
      x ∈ ((fields.foldl (enroll e.owner e) page).slot j).bindings.due := by
    intro fields
    induction fields with
    | nil => exact fun _ hx => hx
    | cons field rest ih => exact fun page hx => ih _ (hstep page field hx)
  exact hfold fields _ hx

/-- A new instance that is no component. -/
theorem Joins.upholds {i : Instance} (horderly : page.Orderly) (hj : Joins f i page page')
    (hi : i.component? = none) : Upholds page page' where
  slot j := by
    by_cases hf : j = f
    · subst hf
      have hvacant := hj.vacant
      refine ⟨fun hnot => ?_, fun state hstate => ?_, fun hstate => ?_, fun state hstate => ?_,
        fun field x hx => ?_⟩
      · rw [hvacant] at hnot
        cases hnot
      · rw [Instance.not_vacant_of_component? hstate] at hvacant
        cases hvacant
      · rw [hj.slot_self, hi] at hstate
        cases hstate
      · rw [Instance.not_vacant_of_component? hstate] at hvacant
        cases hvacant
      · rw [horderly.vacant_eq j hvacant] at hx
        exact absurd ⟨field, hx⟩ Bindings.not_holds_empty
    · rw [hj.slot_other j hf]
      exact .of_record (fun _ => rfl) fun _ _ hx => hx

/-- A new fragment with its guard. -/
theorem Anchored.upholds (ha : Anchored owner old anchor p blueprint f page page')
    (horderly : page.Orderly) (hvacant : (page.slot owner).isVacant = false) (fields : Names)
    (howner : e.owner = owner) : Upholds page (page'.enrolled fields e) := by
  subst howner
  have hj := ha.joins
  refine (hj.upholds horderly rfl).trans (upholds_enrolled
    ((hj.grows.lasts e.owner).vacant hvacant) (fun state hstate => ?_) fields)
  have hne : e.owner ≠ f := hj.ne_of_not_vacant hvacant
  rw [component?, hj.slot_other _ hne] at hstate
  rw [hj.up_other hne]
  exact (horderly.component_eq _ state hstate).1

theorem upholds_drained (page : Page) (o : InstanceId) : Upholds page
    (page.updateSlot o fun i => { i with bindings := (page.slot o).bindings.clearChanges }) where
  slot j := by
    by_cases hj : j = o
    · subst hj
      by_cases hlt : j.number < page.slots.size
      · rw [slot_updateSlot_of_lt hlt]
        exact .of_record (fun _ => Bindings.contains_clearChanges)
          fun _ _ hx => Bindings.registers_clearChanges.mpr hx
      · have hle := Nat.le_of_not_lt hlt
        rw [slot_of_size_le hle, slot_of_size_le (by simpa using hle)]
        exact .refl _
    · rw [slot_updateSlot_of_ne hj]
      exact .refl _

theorem Toggled.upholds {attached : Bool} {fragment : FragmentState}
    (h : Toggled f fragment root attached page page') : Upholds page page' where
  slot j := by
    by_cases hj : j = f
    · subst hj
      rw [h.slot]
      have hnone := Instance.component?_of_fragment? h.before
      refine ⟨fun _ => ⟨?_, rfl⟩, fun state hstate => ?_, fun hstate => ?_, fun _ _ _ => rfl,
        fun _ _ hx => hx⟩
      · rfl
      · rw [hnone] at hstate
        cases hstate
      · cases hstate
    · rw [h.other j hj]
      exact .refl _

theorem Toggled.due {attached : Bool} {fragment : FragmentState}
    (h : Toggled f fragment root attached page page') (j : InstanceId) :
    (page'.slot j).bindings.due = (page.slot j).bindings.due := by
  by_cases hj : j = f
  · subst hj
    rw [h.slot]
  · rw [h.other j hj]

/-! ### What moves do -/

section Moves

variable {work : Work} {node : NodeId} {fields : Names}

theorem mem_of_vital {first errand : Errand} (hfirst : ¬ first.Vital)
    (hmem : errand ∈ first :: agenda) (hvital : errand.Vital) : errand ∈ agenda := by
  rcases List.mem_cons.mp hmem with rfl | hmem
  · exact absurd hvital hfirst
  · exact hmem

/-- An effect that is registered and to run does all that its task needs. -/
theorem tends_of_enrolled (hupholds : UpholdsAt o page page') (ho : (page.slot o).isVacant = false)
    (hbelongs : (page.holder? o).isSome = true) (hnode : e.node = n) (htask : e.task = task)
    (hregisters : ∀ field ∈ task.fields, page.knows o field = true →
      (page'.slot o).bindings.Registers field e) (hmem : .run e ∈ agenda) :
    Work.Tends ⟨page', plan, agenda⟩ o n task where
  enlisted := by
    refine Or.inr ⟨e, hnode, htask, fun field hfield hknows => hregisters field hfield ?_⟩
    rwa [← hupholds.knows ho hbelongs]
  shown _ _ _ _ := Or.inr (Or.inl ⟨e, hnode, htask, Or.inl hmem⟩)

/-- An effect that a chore calls for is registered and is still to run. -/
theorem tended_enrolled
    (h : Tended past ⟨page, plan, .chore ⟨owner, node, .write task task.fields⟩ :: agenda⟩)
    (hlaid : page.Laid reading plan) (horderly : page.Orderly)
    (hvacant : (page.slot owner).isVacant = false) :
    Tended past ⟨page.enrolled task.fields (page.newEffect owner node none task), plan,
      .run (page.newEffect owner node none task) :: agenda⟩ := by
  generalize he : page.newEffect owner node none task = e
  obtain ⟨rfl, hnode, htask⟩ : e.owner = owner ∧ e.node = node ∧ e.task = task := by
    rw [← he]
    exact ⟨rfl, rfl, rfl⟩
  have hupholds := upholds_enrolled hvacant
    (fun state hstate => (horderly.component_eq _ state hstate).1) task.fields
  have hdom := dom_enrolled page task.fields e
  have hregisters := (foldl_enroll_enrolled { page with effects := page.effects + 1 } e.owner
    hvacant e task.fields).registers
  have hkept : ∀ {errand}, errand ∈ .chore ⟨e.owner, node, .write task task.fields⟩ :: agenda →
      errand ≠ .chore ⟨e.owner, node, .write task task.fields⟩ → errand ∈ .run e :: agenda :=
    fun hmem hne => List.mem_cons_of_mem _ ((List.mem_cons.mp hmem).resolve_left hne)
  refine h.next hlaid horderly.belongs (fun o _ _ _ _ _ => hupholds.near o)
    (fun n hn => Or.inl ⟨hdom ▸ hn, rfl⟩) (fun o n other _ hwants _ => ?_)
    (fun _ _ _ _ _ _ _ _ _ hbears => by rwa [hdom])
    fun _ _ _ _ _ hmem => hkept hmem (by simp)
  by_cases hsame : o = e.owner ∧ n = node ∧ other = task
  · obtain ⟨rfl, rfl, rfl⟩ := hsame
    refine Or.inl (tends_of_enrolled (hupholds.near _) hvacant (horderly.belongs _ hvacant) hnode htask
      (fun field hfield hknows => (hregisters field e).mpr (Or.inr ⟨rfl, hfield, ?_⟩))
      List.mem_cons_self)
    rw [← resolves_of_knows horderly hvacant hknows]
    exact resolves_congr (by rfl) e.owner field
  · refine Or.inr ⟨fun hmem => hkept hmem fun heq => hsame ?_, fun state _ _ hrest =>
      hrest.imp (fun howes => howes.mono (fun x _ _ hmem => hkept hmem (by simp))
        fun x hx => due_enrolled task.fields x hx) fun hmeets => hmeets.congr (by rw [hdom])
          fun _ f _ _ _ => isMounted_congr ((calm_enrolled page task.fields e).fragment? f)⟩
    cases heq
    exact ⟨rfl, rfl, rfl⟩

/-- An effect writes to its line what its task is for, and leaves what other tasks have written. -/
theorem tended_runEffect (h : Tended past ⟨page, plan, .run e :: agenda⟩)
    (hlaid : page.Laid reading plan) (horderly : page.Orderly) (hfollows : page.Follows past)
    (mount : InstanceId → Page → Page) (hlive : page.dom.Live e.node)
    (hrole : plan.role e.node = .line e.owner sketch) (htask : e.task ∈ sketch.tasks) :
    Tended past ⟨runEffect mount page e, plan, agenda⟩ := by
  have hsuits := (hlaid.fits_of_role hlive hrole).2.1
  have hputs := runEffect_puts hlaid.valid mount htask hsuits
  have hwrites := writes_of_mem_tasks htask
  have hslot : ∀ j, (runEffect mount page e).slot j = page.slot j := fun j => by
    rw [slot, slots_runEffect mount page hwrites, slot]
  have hkept : ∀ {errand}, errand ∈ .run e :: agenda → errand ≠ .run e → errand ∈ agenda :=
    fun hmem hne => (List.mem_cons.mp hmem).resolve_left hne
  have hscope : ∀ state, page.holder? e.owner = some state → page.scope e.owner = state.scope :=
    hlaid.scope_eq horderly (hlaid.owner_not_vacant hlive (by rw [hrole]; rfl))
  have hother : ∀ n, n ≠ e.node → (runEffect mount page e).dom.content n = page.dom.content n :=
    fun n hn => by rw [hputs.content, if_neg hn]
  have hself : (runEffect mount page e).dom.content e.node =
      e.task.put (page.scope e.owner) (page.dom.content e.node) := by
    rw [hputs.content, if_pos rfl]
  refine h.next hlaid horderly.belongs (fun o _ _ _ _ _ => (Upholds.of_slot hslot).near o)
    (fun n hn => Or.inl ⟨(hputs.live n).mp hn, rfl⟩) (fun o n task _ hwants _ =>
      Or.inr ⟨fun hmem => hkept hmem (by simp), fun state hstate hdistinct hrest => ?_⟩)
    (fun o n line state _ hn hline hdistinct hstate hbears => ?_)
    fun _ _ _ _ _ hmem => hkept hmem (by simp)
  · by_cases hnode : n = e.node
    · subst hnode
      have howner := hwants.owner
      have hmem := hwants.task
      rw [hrole] at howner hmem hdistinct hrest ⊢
      obtain rfl : e.owner = o := Option.some.inj howner
      have hbears := h.bears e.owner e.node sketch state hlive hrole hdistinct hstate
      have hheld := hbears.distinct hsuits htask
      rw [meets_iff_done (writes_of_mem_tasks hmem), hself, hscope state hstate]
      by_cases hsame : task = e.task
      · rw [hsame]
        exact Or.inr (Task.done_put hsuits htask hheld)
      · refine hrest.imp (fun howes => howes.mono (fun x _ hx hmem => hkept hmem ?_)
          fun x hx => by rwa [hslot]) fun hmeets => ?_
        · exact ((meets_iff_done (writes_of_mem_tasks hmem)).mp hmeets).put hsuits hheld hdistinct
            hmem htask hsame
        · rintro heq
          cases heq
          exact hsame hx.symm
    · have hne : ∀ x : Effect, x.node = n → Errand.run x ≠ .run e := by
        rintro x hx heq
        cases heq
        exact hnode hx.symm
      exact hrest.imp (fun howes => howes.mono (fun x hx _ hmem => hkept hmem (hne x hx))
        fun x hx => by rwa [hslot]) fun hmeets => hmeets.congr (hother n hnode) fun _ f _ _ _ =>
          isMounted_congr (by rw [fragment?, hslot, fragment?])
  · by_cases hnode : n = e.node
    · subst hnode
      rw [hrole] at hline
      cases hline
      rw [hself, hscope state hstate]
      exact hbears.put hsuits htask (hfollows _ state hstate)
    · rwa [hother n hnode]

/-! #### Mounts and unmounts -/

variable {wish : Bool} {new : List Chore} {marked : List (Nat × NodeId)} {d d' : Dom}

/-- Below an instance that is attached, a fragment comes to be mounted or not as it is to be. -/
theorem Flip.toggled (h : Flip f page plan wish page' plan' new)
    (hparent : (page.slot f).parent.any page.isAttached = true) :
    (page' = page ∧ page.isMounted f = wish) ∨
      ∃ state root, Toggled f state root wish page page' := by
  cases h with
  | kept hstate => exact Or.inl ⟨rfl, isMounted_of_fragment? hstate⟩
  | hidden _ _ hhidden =>
      rw [hparent] at hhidden
      cases hhidden
  | unmounted hstate hattached hroot =>
      exact Or.inr ⟨_, _, toggled_unmount hstate hattached hroot⟩
  | remounted hstate _ _ hroot _ =>
      refine Or.inr ⟨_, _, toggled_setMounted hstate _ (fun node hnode => ?_) _ _⟩
      rw [hroot, Option.some.injEq] at hnode
      exact hnode
  | mounted hstate _ _ hroot _ _ =>
      refine Or.inr ⟨_, _, toggled_setMounted hstate _ (fun node hnode => ?_) _ _⟩
      rw [hroot] at hnode
      cases hnode

/-- The nodes of a new copy. -/
theorem Flip.nodes (h : Flip f page plan wish page' plan' new) (hlaid : page.Laid reading plan)
    (hacyclic : Acyclic page.up) :
    (∀ n, page.dom.Live n → page'.dom.Live n ∧ plan'.role n = plan.role n ∧
      page'.dom.content n = page.dom.content n) ∧
      ((∀ n, page'.dom.Live n → page.dom.Live n) ∨ ∃ blueprint marked,
        Sown f blueprint marked page.dom plan page'.dom plan' ∧
          new = blueprint.chores f marked) := by
  cases h with
  | kept _ | hidden _ _ _ => exact ⟨fun n hn => ⟨hn, rfl, rfl⟩, Or.inl fun _ hn => hn⟩
  | @unmounted state root hstate hattached hroot =>
      have hunlinked := Dom.detach_unlinked hlaid.valid root
      rw [unmount_eq hstate hattached hroot]
      exact ⟨fun n hn => ⟨(hunlinked.live n).mpr hn, rfl, hunlinked.content n⟩,
        Or.inl fun n hn => (hunlinked.live n).mp hn⟩
  | remounted hstate hdetached _ hroot hdom =>
      obtain ⟨_, hrelinked, _⟩ := hlaid.remount hacyclic hstate hdetached hroot hdom
        (.remounted f.number)
      exact ⟨fun n hn => ⟨(hrelinked.live n).mpr hn, rfl, hrelinked.content n⟩,
        Or.inl fun n hn => (hrelinked.live n).mp hn⟩
  | mounted _ _ _ _ _ hsown =>
      exact ⟨fun n hn => ⟨(hsown.old n hn).1, (hsown.old n hn).2.1, (hsown.old n hn).2.2.1⟩,
        Or.inr ⟨_, _, hsown, rfl⟩⟩

theorem Flip.sparesHosts (h : Flip f page plan wish page' plan' new) (hlaid : page.Laid reading plan)
    (hacyclic : Acyclic page.up) :
    Work.SparesHosts ⟨page, plan, agenda⟩ ⟨page', plan', agenda'⟩ := by
  intro n i hn hrole
  obtain ⟨hlive, hsame, hcontent⟩ := (h.nodes hlaid hacyclic).1 n hn
  exact ⟨hlive, hsame.trans hrole, hcontent⟩

theorem Flip.slots (h : Flip f page plan wish page' plan' new)
    (hparent : (page.slot f).parent.any page.isAttached = true) :
    Upholds page page' ∧ (∀ j, (page'.slot j).bindings.due = (page.slot j).bindings.due) ∧
      page'.isMounted f = wish ∧ ∀ g, g ≠ f → page'.isMounted g = page.isMounted g := by
  rcases h.toggled hparent with ⟨rfl, hmounted⟩ | ⟨state, root, htoggled⟩
  · exact ⟨.of_slot fun _ => rfl, fun _ => rfl, hmounted, fun _ _ => rfl⟩
  · exact ⟨htoggled.upholds, htoggled.due, isMounted_of_fragment? htoggled.fragment?,
      fun g hg => isMounted_congr (htoggled.fragment?_other hg)⟩

/-- What the nodes of a new copy call for is among its chores. -/
theorem Sown.calls (h : Sown o blueprint marked d plan d' plan') (hn : d'.Live n)
    (hnew : ¬ d.Live n) :
    (∀ task ∈ (plan'.role n).tasks,
      ⟨o, n, .write task task.fields⟩ ∈ blueprint.chores o marked) ∧
      ∀ i guard body, plan'.role n = .slot i guard body → i = o ∧ ∃ index directive,
        ⟨o, n, .guard index directive⟩ ∈ blueprint.chores o marked := by
  rcases h.plays n hn hnew with ⟨hrole, _⟩ | ⟨sketch, _, hrole, _, _, jobs, hjobs, hcalls⟩
  · rw [hrole]
    exact ⟨fun task htask => absurd htask List.not_mem_nil, fun i guard body heq => by cases heq⟩
  -- A node without a marker calls for nothing.
  have hchores : ∀ job ∈ jobs, ⟨o, n, job⟩ ∈ blueprint.chores o marked := by
    intro job hjob
    cases hmarker : d'.marker n with
    | none =>
        rw [hmarker] at hjobs
        rw [show jobs = [] from hjobs] at hjob
        cases hjob
    | some k =>
        rw [hmarker] at hjobs
        obtain ⟨definition, hget, rfl⟩ := hjobs
        have hdefinition : blueprint.definition? k = some definition := hget
        refine List.mem_flatMap.mpr ⟨(k, n), (h.marked_iff k n).mpr ⟨⟨hn, hnew⟩, hmarker⟩, ?_⟩
        rw [Blueprint.choresAt, hdefinition]
        exact List.mem_map_of_mem (List.mem_cons_of_mem _ hjob)
  rw [hrole]
  cases sketch with
  | guarded guard body =>
      obtain ⟨index, directive, rfl, _⟩ := hcalls
      refine ⟨fun task htask => absurd htask List.not_mem_nil, fun i guard body heq => ?_⟩
      cases heq
      exact ⟨rfl, index, directive, hchores _ List.mem_cons_self⟩
  | fixed content | text i | element tag attributes bindings kids =>
      refine ⟨fun task htask => ?_, fun i guard body heq => by cases heq⟩
      rw [Role.tasks_role, ← hcalls.1, List.mem_filterMap] at htask
      obtain ⟨job, hjob, htask⟩ := htask
      rcases hcalls.2 job hjob with ⟨other, _, rfl⟩ | ⟨name, rfl⟩ | ⟨binding, rfl⟩
      · cases htask
        exact hchores _ hjob
      · cases htask
      · cases htask

theorem Sown.owner_eq (h : Sown o blueprint marked d plan d' plan') (hn : d'.Live n)
    (hnew : ¬ d.Live n) (howner : (plan'.role n).owner? = some owner) : owner = o := by
  rcases h.plays n hn hnew with ⟨hrole, _⟩ | ⟨sketch, _, hrole, _⟩
  · rw [hrole] at howner
    exact (Option.some.inj howner).symm
  · rw [hrole, Role.owner?_role] at howner
    exact (Option.some.inj howner).symm

theorem Sown.ne_style (h : Sown o blueprint marked d plan d' plan') (hn : d'.Live n)
    (hnew : ¬ d.Live n) (c : InstanceId) : plan'.role n ≠ .style c := by
  rcases h.plays n hn hnew with ⟨hcopy, _⟩ | ⟨sketch, _, hline, _⟩
  · rw [hcopy]
    exact Role.noConfusion
  · rw [hline]
    cases sketch <;> exact Role.noConfusion

theorem Sown.bears {definition : Component} {past : Dict Json → Prop}
    (h : Sown o blueprint marked d plan d' plan')
    (hn : d'.Live n) (hnew : ¬ d.Live n) (hrole : plan'.role n = .line owner sketch)
    (hdistinct : sketch.Distinct) : sketch.Bears definition past (d'.content n) := by
  rcases h.plays n hn hnew with ⟨hcopy, _⟩ | ⟨line, _, hline, _, hcontent, _⟩
  · rw [hrole] at hcopy
    cases hcopy
  · rw [hrole] at hline
    cases line with
    | guarded guard body => cases hline
    | fixed content | text i | element tag attributes bindings kids =>
        cases hline
        rw [hcontent rfl]
        exact Sketch.bears_blank hdistinct

/-- A node of a new copy, with the chores of the copy on the agenda. -/
theorem Sown.fresh (h : Sown o blueprint marked d plan page'.dom plan') (hn : page'.dom.Live n)
    (hnew : ¬ d.Live n) :
    Work.Fresh ⟨page', plan', (blueprint.chores o marked).map .chore ++ agenda⟩ n where
  tends i task howner htask := by
    obtain rfl := h.owner_eq hn hnew howner
    have hmem := List.mem_append_left agenda
      (List.mem_map_of_mem (f := Errand.chore) ((h.calls hn hnew).1 task htask))
    exact ⟨Or.inl hmem, fun _ _ _ _ => Or.inl hmem⟩
  bears i sketch definition past hline hdistinct := h.bears hn hnew hline hdistinct
  planted i guard body hslot := by
    obtain ⟨rfl, index, directive, hmem⟩ := (h.calls hn hnew).2 i guard body hslot
    exact ⟨index, directive, List.mem_append_left _ (List.mem_map_of_mem hmem)⟩

/-- The nodes of a new copy are to be wired. -/
theorem tended_sown {dom : Dom} (h : Tended past ⟨page, plan, agenda⟩) (hlaid : page.Laid reading plan)
    (horderly : page.Orderly) (hsown : Sown o blueprint marked page.dom plan dom plan') :
    Tended past ⟨{ page with dom }, plan', (blueprint.chores o marked).map .chore ++ agenda⟩ := by
  have hupholds : Upholds page { page with dom } := .of_slot fun _ => rfl
  refine h.keep hlaid horderly.belongs (fun o _ _ _ _ _ => hupholds.near o)
    (fun _ _ _ howes => howes.mono (fun _ _ _ hmem => List.mem_append_right _ hmem) fun _ he => he)
    (fun n hn => ?_) (fun n hn _ => (hsown.old n hn).2.2.1) (fun _ => rfl)
    fun _ hmem _ => List.mem_append_right _ hmem
  by_cases hold : page.dom.Live n
  · exact Or.inl ⟨hold, (hsown.old n hold).2.1⟩
  · have hfresh : Work.Fresh
        ⟨{ page with dom }, plan', (blueprint.chores o marked).map .chore ++ agenda⟩ n :=
      Sown.fresh hsown hn hold
    exact Or.inr hfresh

/-- A fragment comes to be mounted or not, as its guard wants it. -/
theorem tended_flip (hflip : Flip f page plan wish page' plan' new)
    (h : Tended past ⟨page, plan, .run e :: agenda⟩) (hlaid : page.Laid reading plan)
    (hacyclic : Acyclic page.up)
    (hbelongs : ∀ o, (page.slot o).isVacant = false → (page.holder? o).isSome = true)
    (hlive : page.dom.Live e.node) (hrole : plan.role e.node = .anchor e.owner f guard body)
    (hattached : page.isAttached e.owner = true)
    (hwish : ∀ state, page.holder? e.owner = some state →
      wish = (guard.outcome state.scope).isTruthy) :
    Tended past ⟨page', plan', new.map .chore ++ agenda⟩ := by
  obtain ⟨_, _, ⟨fragment, hfragment, hanchor⟩, hup, _⟩ := hlaid.fits_of_role hlive hrole
  have hparent : (page.slot f).parent.any page.isAttached = true := by
    rw [show (page.slot f).parent = some e.owner from hup]
    exact hattached
  obtain ⟨hupholds, hdue, hmounted, hother⟩ := hflip.slots hparent
  obtain ⟨hold, hfresh⟩ := hflip.nodes hlaid hacyclic
  have hkept : ∀ {errand}, errand ∈ .run e :: agenda → errand ≠ .run e →
      errand ∈ new.map .chore ++ agenda :=
    fun hmem hne => List.mem_append_right _ ((List.mem_cons.mp hmem).resolve_left hne)
  refine h.next hlaid hbelongs (fun o _ _ _ _ _ => hupholds.near o) (fun n hn => ?_)
    (fun o n task _ hwants _ =>
      Or.inr ⟨fun hmem => hkept hmem (by simp), fun holder hholder _ hrest => ?_⟩)
    (fun _ n _ _ _ hn _ _ _ hbears => by rwa [(hold n hn).2.2])
    fun _ _ _ _ _ hmem => hkept hmem (by simp)
  · by_cases hn' : page.dom.Live n
    · exact Or.inl ⟨hn', (hold n hn').2.1⟩
    · rcases hfresh with hnone | ⟨blueprint, marked, hsown, rfl⟩
      · exact absurd (hnone n hn) hn'
      · exact Or.inr (hsown.fresh hn hn')
  · by_cases hnode : n = e.node
    · subst hnode
      have howner := hwants.owner
      have hmem := hwants.task
      rw [hrole] at howner hmem ⊢
      obtain rfl : e.owner = o := Option.some.inj howner
      obtain rfl := List.mem_singleton.mp hmem
      refine Or.inr fun i g other hanchor => ?_
      cases hanchor
      rw [hmounted, hwish holder hholder]
    · have hne : ∀ x : Effect, x.node = n → Errand.run x ≠ .run e := by
        rintro x hx heq
        cases heq
        exact hnode hx.symm
      refine hrest.imp (fun howes => howes.mono (fun x hx _ hmem => hkept hmem (hne x hx))
        fun x hx => by rwa [hdue]) fun hmeets => hmeets.congr (hold n hwants.live).2.2
          fun i g guard other hline => hother g ?_
      -- No other node is the anchor of the fragment.
      rintro rfl
      obtain ⟨_, _, ⟨state, hstate, rfl⟩, _⟩ := hlaid.fits_of_role hwants.live hline
      rw [hfragment, Option.some.injEq] at hstate
      exact hnode (by rw [← hstate, hanchor])

/-- A fragment gets an anchor, whose guard is still to be looked at. -/
theorem tended_planted {index : Nat} {directive : Directive Blueprint}
    (h : Tended past ⟨page, plan, .chore ⟨owner, old, .guard index directive⟩ :: agenda⟩)
    (hlaid : page.Laid reading plan) (horderly : page.Orderly)
    (hvacant : (page.slot owner).isVacant = false) (hlive : page.dom.Live old)
    (hslot : plan.role old = .slot owner directive.guard body)
    (ha : Anchored owner old anchor p blueprint f page page') :
    Tended past ⟨page'.enrolled directive.dependencies
        (page'.newEffect owner anchor (some f) (.guardFragment directive.guard)),
      ⟨Function.update plan.role anchor (.anchor owner f directive.guard body), plan.home⟩,
      .run (page'.newEffect owner anchor (some f) (.guardFragment directive.guard)) :: agenda⟩ := by
  generalize he : page'.newEffect owner anchor (some f) (.guardFragment directive.guard) = e
  obtain ⟨rfl, hnode, htask⟩ :
      e.owner = owner ∧ e.node = anchor ∧ e.task = .guardFragment directive.guard := by
    rw [← he]
    exact ⟨rfl, rfl, rfl⟩
  have hj := ha.joins
  have hvacant' : (page'.slot e.owner).isVacant = false := (hj.grows.lasts e.owner).vacant hvacant
  have hupholds := ha.upholds horderly hvacant directive.dependencies (e := e) rfl
  have hcalm := calm_enrolled page' directive.dependencies e
  have hregisters := (foldl_enroll_enrolled { page' with effects := page'.effects + 1 } e.owner
    hvacant' e directive.dependencies).registers
  have hdom : (page'.enrolled directive.dependencies e).dom = page'.dom := dom_enrolled _ _ _
  have hkept : ∀ {errand}, errand ∈ .chore ⟨e.owner, old, .guard index directive⟩ :: agenda →
      errand ≠ .chore ⟨e.owner, old, .guard index directive⟩ → errand ∈ .run e :: agenda :=
    fun hmem hne => List.mem_cons_of_mem _ ((List.mem_cons.mp hmem).resolve_left hne)
  have hself : Function.update plan.role anchor (.anchor e.owner f directive.guard body) anchor =
      .anchor e.owner f directive.guard body := Function.update_self _ _ _
  have hstay : ∀ n, page.dom.Live n → Function.update plan.role anchor
      (.anchor e.owner f directive.guard body) n = plan.role n := by
    rintro n hn
    refine Function.update_of_ne ?_ _ _
    rintro rfl
    exact ha.dom.fresh hn
  have hold : ∀ n, (page'.enrolled directive.dependencies e).dom.Live n →
      n = anchor ∨ (page.dom.Live n ∧ n ≠ old) := fun n hn => (ha.dom.live n).mp (hdom ▸ hn)
  refine h.next hlaid horderly.belongs (fun o _ _ _ _ _ => hupholds.near o) (fun n hn => ?_)
    (fun o n task _ hwants _ =>
      Or.inr ⟨fun hmem => hkept hmem (by simp), fun state _ _ hrest => ?_⟩)
    (fun o n sketch state _ hn hline _ _ hbears => ?_) fun o n i other hn hmem => hkept hmem ?_
  · rcases hold n hn with rfl | ⟨hlive, _⟩
    · refine Or.inr ⟨fun o task howner htasks => ?_, fun o sketch definition past hline => ?_,
        fun o guard body hother => ?_⟩ <;> dsimp only at *
      · rw [hself] at howner htasks
        obtain rfl : e.owner = o := Option.some.inj howner
        obtain rfl := List.mem_singleton.mp htasks
        refine tends_of_enrolled (hupholds.near _) hvacant (horderly.belongs _ hvacant) hnode htask
          (fun field hfield hknows => (hregisters field e).mpr (Or.inr ⟨rfl, hfield, ?_⟩))
          List.mem_cons_self
        rw [← hj.resolves horderly hvacant rfl hvacant hknows]
        exact resolves_congr (by rfl) e.owner field
      · rw [hself] at hline
        cases hline
      · rw [hself] at hother
        cases hother
    · exact Or.inl ⟨hlive, hstay n hlive⟩
  · have ho := hlaid.owner_not_vacant hwants.live hwants.owner
    have hne : n ≠ old := by
      rintro rfl
      have hmem := hwants.task
      rw [hslot] at hmem
      cases hmem
    refine hrest.imp (fun howes => howes.mono (fun x _ _ hmem => hkept hmem (by simp))
      fun x hx => due_enrolled _ x ?_) fun hmeets => hmeets.congr ?_ fun i g guard other hline => ?_
    · rwa [hj.bindings_other (hj.ne_of_not_vacant ho)]
    · rw [hdom, ha.dom.content n hwants.live hne]
    · obtain ⟨_, _, ⟨state, hstate, _⟩, _⟩ := hlaid.fits_of_role hwants.live hline
      have hg : g ≠ f := hj.ne_of_not_vacant (Instance.not_vacant_of_fragment? hstate)
      exact isMounted_congr ((hcalm.fragment? g).trans (hj.fragment?_other hg))
  · have hne : n ≠ old := by
      rintro rfl
      rw [hslot] at hline
      cases hline
    rwa [hdom, ha.dom.content n hn hne]
  · rintro heq
    cases heq
    rcases hold old hn with heq | ⟨_, hne⟩
    · exact ha.dom.fresh (heq ▸ hlive)
    · exact hne rfl

/-- The effects of an instance that were due are to run. -/
theorem tended_drained (h : Tended past ⟨page, plan, agenda⟩) (hlaid : page.Laid reading plan)
    (horderly : page.Orderly) {seen : List EffectId} (hunseen : page.Unseen seen) (o : InstanceId) :
    Tended past ⟨page.updateSlot o fun i =>
        { i with bindings := (page.slot o).bindings.clearChanges }, plan,
      (Bindings.unseen seen (page.slot o).bindings.due).map .run ++ agenda⟩ := by
  have hcalm := calm_mapBindings page o fun _ => (page.slot o).bindings.clearChanges
  have hother : ∀ j, j ≠ o → (page.updateSlot o fun i =>
      { i with bindings := (page.slot o).bindings.clearChanges }).slot j = page.slot j :=
    fun j hj => slot_updateSlot_of_ne hj _
  refine h.keep hlaid horderly.belongs (fun i _ _ _ _ _ => (upholds_drained page o).near i)
    (fun i n task howes => ?_)
    (fun _ hn => Or.inl ⟨hn, rfl⟩) (fun _ _ _ => rfl)
    (fun f => isMounted_congr (hcalm.fragment? f)) fun _ hmem _ => List.mem_append_right _ hmem
  obtain ⟨e, hnode, htask, hmem | hdue⟩ := howes
  · exact ⟨e, hnode, htask, Or.inl (List.mem_append_right _ hmem)⟩
  · by_cases hi : i = o
    · subst hi
      obtain ⟨x, hx, hid⟩ := Bindings.exists_mem_unseen hdue
        fun hseen => hunseen e.id hseen ⟨i, e, hdue, rfl⟩
      have hsame := horderly.effect_id i i x e
        (Bindings.holds_of_mem_due (Bindings.mem_unseen hx).1) (Bindings.holds_of_mem_due hdue) hid
      subst hsame
      exact ⟨x, hnode, htask, Or.inl (List.mem_append_left _ (List.mem_map_of_mem hx))⟩
    · exact ⟨e, hnode, htask, Or.inr (by rwa [hother i hi])⟩

/-- What is not vital may be dropped, as long as slots, nodes and mounts stay. -/
theorem tended_dropped {first : Errand} (h : Tended past ⟨page, plan, first :: agenda⟩)
    (hfirst : ¬ first.Vital) (hlaid : page.Laid reading plan) (horderly : page.Orderly)
    (hupholds : Upholds page page')
    (hdue : ∀ j, (page'.slot j).bindings.due = (page.slot j).bindings.due)
    (hlive : ∀ n, page'.dom.Live n → page.dom.Live n)
    (hcontent : ∀ n, page.dom.Live n → page'.dom.content n = page.dom.content n)
    (hmounted : ∀ f, page'.isMounted f = page.isMounted f) : Tended past ⟨page', plan, agenda⟩ :=
  h.keep hlaid horderly.belongs (fun o _ _ _ _ _ => hupholds.near o) (fun o _ _ howes => howes.mono
    (fun _ _ _ hmem => mem_of_vital hfirst hmem trivial) fun e he => by rwa [hdue])
    (fun n hn => Or.inl ⟨hlive n hn, rfl⟩) (fun n hn _ => hcontent n hn) hmounted
    fun _ hmem hvital => mem_of_vital hfirst hmem hvital

end Moves

/-- Whatever is done, instances keep what they have registered, and components their fields. -/
theorem Move.upholds {work work' : Work} {late : Prop} (hmove : Move c late work work')
    (hbusy : Busy reading work) (horderly : work.page.Orderly) : Upholds work.page work'.page := by
  have hlaid := hbusy.laid
  cases hmove with
  | unmark => exact .of_slot fun _ => rfl
  | @refer page _ owner node name => exact upholds_setReference page owner name node
  | @listen page _ owner node binding =>
      exact .of_slot (Rendering.akin_listen owner node page binding).slot
  | @enroll page _ owner node task fields _ _ _ hattached =>
      exact upholds_enrolled (e := page.newEffect owner node none task)
        (Instance.not_vacant_of_isAttached hattached)
        (fun state hstate => (horderly.component_eq _ state hstate).1) fields
  | @plant page _ _ _ _ _ _ _ _ directive _ _ _ hattached _ hanchored =>
      exact hanchored.upholds horderly (Instance.not_vacant_of_isAttached hattached)
        directive.dependencies rfl
  | @rewrite page _ _ _ _ mount _ _ _ htask =>
      exact .of_slot fun j => by
        rw [slot, slots_runEffect mount page (writes_of_mem_tasks htask), slot]
  | @turn page _ plan _ e f guard _ _ _ _ hattached hrole hflip =>
      have hslot : ∀ j, (page.checked e guard).2.slot j = page.slot j := fun j => by
        rw [slot, akin_counted_slots, slot]
      obtain ⟨_, _, _, hup, _⟩ :=
        hlaid.fits_of_role (hbusy.ready _ List.mem_cons_self).live hrole
      refine (Upholds.of_slot hslot).trans (hflip.slots ?_).1
      rw [hslot, show (page.slot f).parent = some e.owner from hup]
      exact (show (page.checked e guard).2.isAttached e.owner = true by rwa [isAttached, hslot])
  | @rest page _ o =>
      exact .of_update (fun _ => .of_record (fun _ => rfl) fun _ _ hx => hx) page o
  | @drain page _ o => exact upholds_drained page o

/-- A move keeps all tasks tended. -/
theorem Move.tended {work work' : Work} {late : Prop} (hmove : Move c late work work')
    (hbusy : Busy reading work) (horderly : work.page.Orderly) (hfollows : work.page.Follows past)
    (h : Tended past work) : Tended past work' := by
  have hlaid := hbusy.laid
  cases hmove with
  | @unmark page _ _ node _ _ =>
      have hlive : page.dom.Live node := (hbusy.ready _ List.mem_cons_self).live
      have hrewritten := Dom.setMarker_rewritten hlaid.valid hlive none
      exact tended_dropped h id hlaid horderly (.of_slot fun _ => rfl) (fun _ => rfl)
        (fun n hn => (hrewritten.live n).mp hn) (fun n _ => content_setMarker hlive none n)
        fun _ => rfl
  | @refer page _ owner node name _ _ =>
      have hidle := idle_setReference page owner name node
      exact tended_dropped h id hlaid horderly (upholds_setReference page owner name node)
        (fun j => congrArg Bindings.due
          (read_updateSlot (·.bindings) (fun i => i.bindings_mapComponent _) page _ j))
        (fun n hn => by rwa [hidle.dom] at hn) (fun n _ => by rw [hidle.dom])
        fun f => isMounted_congr (hidle.toCalm.fragment? f)
  | @listen page _ owner node binding _ _ =>
      have hakin := Rendering.akin_listen owner node page binding
      have hdom := dom_listen page owner node binding
      exact tended_dropped h id hlaid horderly (.of_slot hakin.slot) (fun j => by rw [hakin.slot])
        (fun n hn => by rwa [hdom] at hn) (fun n _ => by rw [hdom])
        fun f => isMounted_congr (by rw [fragment?, hakin.slot, fragment?])
  | enroll _ hattached hrole htask hfields =>
      subst hfields
      exact tended_enrolled h hlaid horderly (Instance.not_vacant_of_isAttached hattached)
  | plant _ hattached hrole hanchored =>
      exact tended_planted h hlaid horderly (Instance.not_vacant_of_isAttached hattached)
        (hbusy.ready _ List.mem_cons_self).live hrole hanchored
  | rewrite mount _ _ hrole htask =>
      exact tended_runEffect h hlaid horderly hfollows mount
        (hbusy.ready _ List.mem_cons_self).live hrole htask
  | @turn page _ plan _ e f guard _ _ _ _ hattached hrole hflip =>
      have hlive : page.dom.Live e.node := (hbusy.ready _ List.mem_cons_self).live
      have hvacant := hlaid.owner_not_vacant hlive (by rw [hrole]; rfl)
      have hdom := checked_dom page e guard
      have hslot : ∀ j, (page.checked e guard).2.slot j = page.slot j := fun j => by
        rw [slot, akin_counted_slots, slot]
      have hchecked : Tended past ⟨(page.checked e guard).2, plan, .run e :: _⟩ :=
        h.keep hlaid horderly.belongs (fun o _ _ _ _ _ => (Upholds.of_slot hslot).near o)
          (fun _ _ _ howes => howes.mono (fun _ _ _ hmem => hmem) fun x hx => by rwa [hslot])
          (fun n hn => Or.inl ⟨by rwa [hdom] at hn, rfl⟩) (fun n _ _ => by rw [hdom])
          (fun f => isMounted_congr (by rw [fragment?, hslot, fragment?])) fun _ hmem _ => hmem
      have hlaid' := (hbusy.checked e guard).laid
      refine tended_flip hflip hchecked hlaid' (hbusy.checked e guard).acyclic (fun o ho => ?_)
        (by rwa [hdom]) hrole (by rwa [isAttached, hslot]) fun state hstate => ?_
      · rw [hslot] at ho
        rw [holder?, hslot, component?, hslot]
        exact horderly.belongs o ho
      · rw [holder?, hslot, component?, hslot] at hstate
        rw [hlaid.scope_eq horderly hvacant state hstate]
  | @rest page _ o _ _ _ =>
      have hidle := idle_scheduled page o false
      have hsame : ∀ i : Instance, { i with scheduled := false }.bindings = i.bindings :=
        fun _ => rfl
      have hbindings := read_updateSlot (·.bindings) hsame page o
      exact h.keep hlaid horderly.belongs
        (fun i _ _ _ _ _ => (Upholds.of_update
          (fun _ => .of_record (fun _ => rfl) fun _ _ hx => hx) page o).near i)
        (fun _ _ _ howes => howes.mono (fun _ _ _ hmem => hmem) fun x hx => by rwa [hbindings])
        (fun _ hn => Or.inl ⟨hn, rfl⟩) (fun _ _ _ => rfl)
        (fun f => isMounted_congr (hidle.toCalm.fragment? f)) fun _ hmem _ => hmem
  | drain seen _ _ _ hunseen => exact tended_drained h hlaid horderly hunseen _

/-- A move makes no style sheets. -/
theorem Move.of_style {work work' : Work} {late : Prop} (hmove : Move c late work work')
    (hbusy : Busy reading work) (hn : work'.page.dom.Live n) (hrole : work'.plan.role n = .style f) :
    work.page.dom.Live n ∧ work.plan.role n = .style f := by
  have hlaid := hbusy.laid
  cases hmove with
  | @unmark page _ _ node _ _ =>
      have hlive : page.dom.Live node := (hbusy.ready _ List.mem_cons_self).live
      exact ⟨((Dom.setMarker_rewritten hlaid.valid hlive none).live n).mp hn, hrole⟩
  | refer | rest | drain => exact ⟨hn, hrole⟩
  | @listen page _ owner node binding =>
      exact ⟨by rwa [dom_listen page owner node binding] at hn, hrole⟩
  | enroll => exact ⟨by rwa [dom_enrolled] at hn, hrole⟩
  | @plant page page₁ _ _ _ _ anchor _ _ _ _ _ _ _ _ hanchored =>
      dsimp only at hn hrole ⊢
      rw [dom_enrolled] at hn
      by_cases hanchor : n = anchor
      · rw [hanchor, Function.update_self] at hrole
        cases hrole
      · rw [Function.update_of_ne hanchor] at hrole
        exact ⟨(((hanchored.dom.live n).mp hn).resolve_left hanchor).1, hrole⟩
  | rewrite mount _ _ hline htask =>
      have hlive := (hbusy.ready _ List.mem_cons_self).live
      have hputs := runEffect_puts hlaid.valid mount htask (hlaid.fits_of_role hlive hline).2.1
      exact ⟨(hputs.live n).mp hn, hrole⟩
  | @turn page _ plan _ e g guard _ _ _ _ _ _ hflip =>
      have hchecked := hbusy.checked e guard
      obtain ⟨hold, hfresh⟩ := hflip.nodes hchecked.laid hchecked.acyclic
      rw [checked_dom] at hold hfresh
      by_cases hlive : page.dom.Live n
      · exact ⟨hlive, (hold n hlive).2.1 ▸ hrole⟩
      · rcases hfresh with hnone | ⟨blueprint, marked, hsown, _⟩
        · exact absurd (hnone n hn) hlive
        · exact absurd hrole (hsown.ne_style hn hlive f)

/-- A move leaves the hosts of components alone. -/
theorem Move.sparesHosts {work work' : Work} {late : Prop} (hmove : Move c late work work')
    (hbusy : Busy reading work) : work.SparesHosts work' := by
  have hlaid := hbusy.laid
  intro n i hn hrole
  cases hmove with
  | @unmark page _ _ node _ _ =>
      have hlive : page.dom.Live node := (hbusy.ready _ List.mem_cons_self).live
      exact ⟨((Dom.setMarker_rewritten hlaid.valid hlive none).live n).mpr hn, hrole,
        content_setMarker hlive none n⟩
  | refer | rest | drain => exact ⟨hn, hrole, rfl⟩
  | @listen page _ owner node binding =>
      have hdom := dom_listen page owner node binding
      exact ⟨by rwa [hdom], hrole, by rw [hdom]⟩
  | enroll => exact ⟨by rwa [dom_enrolled], hrole, by rw [dom_enrolled]⟩
  | @plant _ _ _ _ _ old anchor _ _ _ _ _ _ _ hslot hanchored =>
      have hnew : n ≠ anchor := by
        rintro rfl
        exact hanchored.dom.fresh hn
      have hold : n ≠ old := by
        rintro rfl
        rw [show Plan.role _ n = _ from hrole] at hslot
        cases hslot
      refine ⟨?_, (Function.update_of_ne hnew _ _).trans hrole, ?_⟩
      · rw [dom_enrolled]
        exact (hanchored.dom.live n).mpr (Or.inr ⟨hn, hold⟩)
      · rw [dom_enrolled]
        exact hanchored.dom.content n hn hold
  | @rewrite _ _ e _ _ mount _ _ hline htask =>
      have hlive := (hbusy.ready _ List.mem_cons_self).live
      have hputs := runEffect_puts hlaid.valid mount htask (hlaid.fits_of_role hlive hline).2.1
      refine ⟨(hputs.live n).mpr hn, hrole, ?_⟩
      rw [hputs.content, if_neg]
      rintro rfl
      rw [show Plan.role _ e.node = _ from hrole] at hline
      cases hline
  | @turn page _ plan _ e g guard _ _ _ _ _ _ hflip =>
      have hchecked := hbusy.checked e guard
      have hkept := (hflip.nodes hchecked.laid hchecked.acyclic).1
      rw [checked_dom] at hkept
      obtain ⟨hlive, hsame, hcontent⟩ := hkept n hn
      exact ⟨hlive, hsame.trans hrole, hcontent⟩

end Page

end LiveMarkup
