import LiveMarkup.Proofs.Page.Mounting

/-!
What an update reaches. After an update of an instance nothing that is shown in it is dirty, and
what is not shown has been left as it was. The second part holds because an effect never unmounts
what its pass has already reached.
-/

namespace LiveMarkup.Page

variable {page page' page'' : Page} {inside : InstanceId → Prop} {depth : Nat}
  {mount : InstanceId → Page → Page} {a f g id o owner : InstanceId}

/-- `id` lies in `a`, and everything from `id` up to `a` is attached. -/
def ShownFrom (page : Page) (a id : InstanceId) : Prop :=
  page.Under a id ∧ ∀ i, page.Under a i → page.Under i id → page.isAttached i = true

/-- Nothing that is shown in `a` is dirty. -/
def Quiet (page : Page) (a : InstanceId) : Prop :=
  ∀ o, page.ShownFrom a o → (page.slot o).bindings.hasChanges = false

/-- Dirty fragments wait for an update. -/
def Diligent (page : Page) : Prop :=
  ∀ id, (page.fragment? id).isSome = true → (page.slot id).bindings.hasChanges = true →
    (page.slot id).scheduled = true

/-- What was due in `a` is still due. -/
def Untouched (a : InstanceId) (page page' : Page) : Prop :=
  ∀ o, (page.slot o).isVacant = false → page.Under a o →
    ∀ e ∈ (page.slot o).bindings.due, e ∈ (page'.slot o).bindings.due

/-- What is shown in `a` is clean, and what is not shown is as it was. -/
structure Swept (a : InstanceId) (page page' : Page) : Prop where
  clean : page'.Quiet a
  kept : ∀ o, (page.slot o).isVacant = false → page.Under a o → ¬ page'.ShownFrom a o →
    ∀ e ∈ (page.slot o).bindings.due, e ∈ (page'.slot o).bindings.due

/-- Nothing in `a` was mounted, unmounted or run. -/
structure Still (a : InstanceId) (page page' : Page) : Prop where
  attached : ∀ o, (page.slot o).isVacant = false → page.Under a o →
    page'.isAttached o = page.isAttached o
  untouched : Untouched a page page'

namespace ShownFrom

theorem attached_top (h : page.ShownFrom a id) : page.isAttached a = true :=
  h.2 a .self h.1

theorem in_child (h : page.ShownFrom a id) (hf : page.Under a f) (hid : page.Under f id) :
    page.ShownFrom f id :=
  ⟨hid, fun i hfi hi => h.2 i (hf.trans hfi) hi⟩

theorem of_child (h : page.ShownFrom f id) (hpage : page.Orderly) (hup : page.up f = some a)
    (ha : page.isAttached a = true) : page.ShownFrom a id := by
  refine ⟨(Above.of_up hup).trans h.1, ?_⟩
  intro i hai hi
  rcases hi.linear h.1 with hif | hfi
  · by_cases heq : f = i
    · exact heq ▸ h.attached_top
    · have hia := hif.above_up heq hup
      exact hpage.acyclic.antisymm hai hia ▸ ha
  · exact h.2 i hfi hi

end ShownFrom

theorem shownFrom_self (ha : page.isAttached a = true) (h : page.Orderly) : page.ShownFrom a a :=
  ⟨.self, fun _ hai hia => h.acyclic.antisymm hai hia ▸ ha⟩

theorem clean_of_vacant (h : page.Orderly) (hturn : Turn inside page page')
    (ho : (page.slot o).isVacant = true) :
    (page'.slot o).bindings.hasChanges = false := by
  by_contra hchanges
  rw [Bool.not_eq_false] at hchanges
  have hold := (hturn.kept o).changes hchanges
  rw [h.vacant_eq o ho] at hold
  cases hold

theorem clean_of_clean (hturn : Turn inside page page')
    (ho : (page.slot o).bindings.hasChanges = false) :
    (page'.slot o).bindings.hasChanges = false := by
  by_contra hchanges
  rw [Bool.not_eq_false] at hchanges
  rw [(hturn.kept o).changes hchanges] at ho
  cases ho

theorem Diligent.of_turn (h : page.Orderly) (hdiligent : page.Diligent)
    (hturn : Turn inside page page') : page'.Diligent := by
  intro id hfragment hchanges
  have hkept := hturn.kept id
  have hold : (page.slot id).bindings.hasChanges = true := hkept.changes hchanges
  cases hkind : (page.slot id).kind with
  | component state =>
      obtain ⟨⟨_, hstate⟩, _⟩ := hkept.component_state state (Instance.component?_of_kind hkind)
      rw [fragment?, Instance.fragment?_of_component? hstate] at hfragment
      cases hfragment
  | fragment state =>
      rw [hkept.settled hchanges]
      exact hdiligent id (by rw [fragment?, Instance.fragment?_of_kind hkind]; rfl) hold
  | vacant =>
      rw [clean_of_vacant h hturn (Instance.isVacant_iff.mpr hkind)] at hchanges
      cases hchanges

/-! ### Turns elsewhere -/

/-- A turn that changes nothing in `a`. -/
abbrev Aside (a : InstanceId) (page page' : Page) : Prop :=
  Turn (fun o => ¬ page.Under a o) page page'

theorem untouched_aside (hturn : Aside a page page') : Untouched a page page' := by
  intro o ho hao e he
  rwa [hturn.bindings_eq ho (not_not_intro hao)]

theorem still_aside (hturn : Aside a page page') : Still a page page' :=
  ⟨fun _ ho hao => hturn.isAttached_eq ho (not_not_intro hao), untouched_aside hturn⟩

section Aside

variable (h : page.Orderly)

include h

theorem shownFrom_aside (hturn : Aside a page page') (ho : (page.slot o).isVacant = false) :
    page'.ShownFrom a o ↔ page.ShownFrom a o := by
  have hattached : ∀ i, page.Under a i → page.Under i o →
      page'.isAttached i = page.isAttached i := by
    intro i hai hio
    exact hturn.isAttached_eq (h.not_vacant_of_under hio ho) (not_not_intro hai)
  have hunder : ∀ i, page'.Under i o ↔ page.Under i o := fun i => hturn.under_iff h ho
  constructor
  · rintro ⟨hao, hall⟩
    refine ⟨(hunder a).mp hao, ?_⟩
    intro i hai hio
    have hi := h.not_vacant_of_under hio ho
    rw [← hattached i hai hio]
    exact hall i ((hturn.under_iff h hi).mpr hai) ((hunder i).mpr hio)
  · rintro ⟨hao, hall⟩
    refine ⟨(hunder a).mpr hao, ?_⟩
    intro i hai hio
    have hio := (hunder i).mp hio
    have hai := (hturn.under_iff h (h.not_vacant_of_under hio ho)).mp hai
    rw [hattached i hai hio]
    exact hall i hai hio

theorem quiet_aside (hturn : Aside a page page') (hquiet : page.Quiet a) : page'.Quiet a := by
  intro o ho
  cases hvacant : (page.slot o).isVacant with
  | true => exact clean_of_vacant h hturn hvacant
  | false => exact clean_of_clean hturn (hquiet o ((shownFrom_aside h hturn hvacant).mp ho))

theorem Untouched.trans (hfirst : Turn inside page page') (hold : Untouched a page page')
    (hnew : Untouched a page' page'') : Untouched a page page'' := by
  intro o ho hao e he
  exact hnew o ((hfirst.kept o).not_vacant ho) ((hfirst.under_iff h ho).mpr hao) e
    (hold o ho hao e he)

theorem Still.trans (hfirst : Turn inside page page') (hold : Still a page page')
    (hnew : Still a page' page'') : Still a page page'' := by
  refine ⟨?_, hold.untouched.trans h hfirst hnew.untouched⟩
  intro o ho hao
  rw [hnew.attached o ((hfirst.kept o).not_vacant ho) ((hfirst.under_iff h ho).mpr hao),
    hold.attached o ho hao]

/-- What was left alone and is swept then is swept. -/
theorem Untouched.swept (hfirst : Turn inside page page') (hold : Untouched a page page')
    (hnew : Swept a page' page'') : Swept a page page'' := by
  refine ⟨hnew.clean, ?_⟩
  intro o ho hao hshown e he
  exact hnew.kept o ((hfirst.kept o).not_vacant ho) ((hfirst.under_iff h ho).mpr hao) hshown e
    (hold o ho hao e he)

theorem Swept.aside (h' : page'.Orderly) (hfirst : Turn inside page page')
    (hswept : Swept a page page') (hturn : Aside a page' page'') : Swept a page page'' := by
  refine ⟨quiet_aside h' hturn hswept.clean, ?_⟩
  intro o ho hao hshown e he
  have ho' := (hfirst.kept o).not_vacant ho
  have hao' := (hfirst.under_iff h ho).mpr hao
  rw [shownFrom_aside h' hturn ho'] at hshown
  exact untouched_aside hturn o ho' hao' e (hswept.kept o ho hao hshown e he)

/-- What is swept and then only looked at again stays swept. -/
theorem Swept.still (h' : page'.Orderly) {inside' : InstanceId → Prop}
    (hfirst : Turn inside page page') (hswept : Swept a page page')
    (hlast : Turn inside' page' page'')
    (hstill : Still a page' page'') (hagain : Swept a page' page'') : Swept a page page'' := by
  refine ⟨hagain.clean, ?_⟩
  intro o ho hao hshown e he
  have ho' := (hfirst.kept o).not_vacant ho
  have hao' := (hfirst.under_iff h ho).mpr hao
  refine hstill.untouched o ho' hao' e (hswept.kept o ho hao ?_ e he)
  rintro ⟨_, hall⟩
  refine hshown ⟨(hlast.under_iff h' ho').mpr hao', ?_⟩
  intro i hai hio
  have hio := (hlast.under_iff h' ho').mp hio
  have hi := h'.not_vacant_of_under hio ho'
  have hai := (hlast.under_iff h' hi).mp hai
  rw [hstill.attached i hi hai]
  exact hall i hai hio

end Aside

/-! ### Effects -/

/-- A fragment was left alone or swept. -/
def Handled (a : InstanceId) (page page' : Page) : Prop :=
  Untouched a page page' ∨ Swept a page page'

theorem Handled.after (h : page.Orderly) (hfirst : Turn inside page page')
    (huntouched : Untouched a page page') (hlast : Handled a page' page'') :
    Handled a page page'' := by
  rcases hlast with hlast | hlast
  · exact Or.inl (huntouched.trans h hfirst hlast)
  · exact Or.inr (huntouched.swept h hfirst hlast)

theorem Handled.before (h : page.Orderly) (h' : page'.Orderly) (hfirst : Turn inside page page')
    (hhandled : Handled a page page') (hlast : Aside a page' page'') : Handled a page page'' := by
  rcases hhandled with hhandled | hhandled
  · exact Or.inl (hhandled.trans h hfirst (untouched_aside hlast))
  · exact Or.inr (hhandled.aside h h' hfirst hlast)

/-- A way to mount that leaves a fragment alone or sweeps it. -/
def Sweeps (depth : Nat) (mount : InstanceId → Page → Page) : Prop :=
  ∀ page f, page.Orderly → page.Diligent → (page.fragment? f).isSome = true →
    (page.slot f).rank ≤ depth → Handled f page (mount f page)

theorem untouched_akin (hakin : Akin page page') : Untouched a page page' := by
  intro o _ _ e he
  rwa [hakin.slot o]

theorem runEffect_handled (hsweeps : Sweeps depth mount) (h : page.Orderly)
    (hdiligent : page.Diligent) {e : Effect} (hmade : e.id.number ≤ page.effects)
    (hmountable : Mountable depth e page) (hf : e.fragment = some f) :
    Handled f page (runEffect mount page e) := by
  have hrun := run_turn h hmade { page.stats with effectsRun := page.stats.effectsRun + 1 }
    (fun _ => False)
  have hran : Untouched f page { page with
      stats := { page.stats with effectsRun := page.stats.effectsRun + 1 }
      ran := e.id :: page.ran } := fun _ _ _ _ he => he
  obtain ⟨hfragment, hrank⟩ := hmountable f hf
  have hmounted : ∀ next : Page, Akin { page with
      stats := { page.stats with effectsRun := page.stats.effectsRun + 1 }
      ran := e.id :: page.ran } next → Handled f page (mount f next) := by
    intro next hakin
    have hnext := OrderlyTurn.trans_akin hrun hakin
    refine .after h hnext.turn (hran.trans h hrun.turn (untouched_akin hakin)) ?_
    refine hsweeps next f hnext.orderly (hdiligent.of_turn h hnext.turn) ?_ ?_
    · rw [fragment?, hakin.slot f]
      exact hfragment
    · rw [hakin.slot f]
      exact hrank
  have hplain : ∀ next : Page, Akin { page with
      stats := { page.stats with effectsRun := page.stats.effectsRun + 1 }
      ran := e.id :: page.ran } next → Handled f page next :=
    fun next hakin => Or.inl (hran.trans h hrun.turn (untouched_akin hakin))
  unfold runEffect
  split
  · exact hplain _ ((akin_evaluate _ _ _).trans (akin_writeText _ _ _))
  · exact hplain _ ((akin_evaluate _ _ _).trans (akin_writeText _ _ _))
  · exact hplain _ ((akin_evaluate _ _ _).trans (akin_writeAttribute _ _ _ _))
  · rename_i guard g _ hg
    rw [hf] at hg
    cases hg
    dsimp only
    split
    · exact hmounted _ (akin_evaluate _ _ _)
    · refine Or.inl fun o _ _ x hx => ?_
      rw [bindings_unmount, (akin_evaluate _ _ _).slot o]
      exact hx
  · rename_i g _ hg
    rw [hf] at hg
    cases hg
    exact hmounted _ (.refl _)
  · exact hplain _ (.refl _)

/-- Effects of one instance, each run once, handle every fragment in it. -/
theorem foldl_runEffect_handled (hmount : Mounts depth mount) (hsweeps : Sweeps depth mount)
    {effects : List Effect} (h : page.Orderly) (hdiligent : page.Diligent)
    (hrank : (page.slot id).rank ≤ depth + 1)
    (hheld : ∀ e ∈ effects, (page.slot id).bindings.Holds e)
    (hnodup : (effects.map (·.id)).Nodup) (hf : f ∈ (page.slot id).children) :
    Handled f page (effects.foldl (runEffect mount) page) := by
  induction effects generalizing page with
  | nil => exact Or.inl fun _ _ _ _ he => he
  | cons e rest ih =>
      rw [List.map_cons, List.nodup_cons] at hnodup
      have he := hheld e List.mem_cons_self
      have hid := (h.not_vacant_of_up ((h.mem_children id f).mp hf)).2
      have hmade := (h.effect_owner id e he).2
      have hmountable := mountable_of_held h hrank he
      have hfirst := runEffect_turn hmount h hmade hmountable
      have hid' := (hfirst.turn.kept id).not_vacant hid
      have hrank' : ((runEffect mount page e).slot id).rank ≤ depth + 1 := by
        rwa [hfirst.turn.rank_eq hid]
      have hheld' : ∀ x ∈ rest, ((runEffect mount page e).slot id).bindings.Holds x :=
        fun x hx => (hfirst.turn.kept id).holds (hheld x (List.mem_cons_of_mem _ hx))
      have hf' : f ∈ ((runEffect mount page e).slot id).children :=
        (hfirst.turn.kept id).children.subset hf
      rw [List.foldl_cons]
      by_cases hown : e.fragment = some f
      · have hrest := foldl_runEffect_turn hmount hfirst.orderly hid' hrank' hheld'
        refine (runEffect_handled hsweeps h hdiligent hmade hmountable hown).before h
          hfirst.orderly hfirst.turn (hrest.turn.mono ?_)
        rintro o _ ⟨x, hx, g, hg, hgo⟩ hfo
        have hg' := hfirst.orderly.effect_fragment id x g (hheld' x hx) hg
        have hsame := hfirst.orderly.eq_of_under_children hg' hf' hgo hfo
        subst hsame
        have heq := hfirst.orderly.effect_guard id x e g (hheld' x hx)
          ((hfirst.turn.kept id).holds he) hg hown
        exact hnodup.1 (heq ▸ List.mem_map_of_mem hx)
      · have haside : Aside f page (runEffect mount page e) := by
          refine hfirst.turn.mono ?_
          rintro o _ ⟨g, hg, hgo⟩ hfo
          have hg' := h.effect_fragment id e g he hg
          exact hown (h.eq_of_under_children hg' hf hgo hfo ▸ hg)
        exact .after h hfirst.turn (untouched_aside haside)
          (ih hfirst.orderly (hdiligent.of_turn h hfirst.turn) hrank' hheld' hnodup.2 hf')

theorem foldl_runEffect_attached (hmount : Mounts depth mount) {effects : List Effect}
    (h : page.Orderly) (hid : (page.slot id).isVacant = false)
    (hrank : (page.slot id).rank ≤ depth + 1)
    (hheld : ∀ e ∈ effects, (page.slot id).bindings.Holds e) :
    (effects.foldl (runEffect mount) page).isAttached id = page.isAttached id := by
  refine (foldl_runEffect_turn hmount h hid hrank hheld).turn.isAttached_eq hid ?_
  rintro ⟨e, he, g, hg, hgid⟩
  exact h.not_under_child (h.effect_fragment id e g (hheld e he) hg) hgid

/-! ### Updates -/

/-- What taking and running the changes of one instance does to it and to the fragments in it. -/
structure Opened (id : InstanceId) (page page' : Page) : Prop where
  clean : (page'.slot id).bindings.hasChanges = false
  attached : page'.isAttached id = page.isAttached id
  handled : ∀ f ∈ (page.slot id).children, Handled f page page'
  /-- An instance that was clean is all that was changed. -/
  still : (page.slot id).bindings.hasChanges = false → Turn (fun j => j = id) page page' ∧
    (page'.slot id).children = (page.slot id).children

theorem due_eq_nil {b : Bindings} (h : b.hasChanges = false) : b.due = [] := by
  refine List.eq_nil_iff_forall_not_mem.mpr fun e he => ?_
  rw [Bindings.hasChanges_of_mem_due he] at h
  cases h

theorem runChanged_opened (hmount : Mounts depth mount) (hsweeps : Sweeps depth mount)
    (h : page.Orderly) (hdiligent : page.Diligent) (hid : (page.slot id).isVacant = false)
    (hrank : (page.slot id).rank ≤ depth + 1) {seen : List EffectId} (hunseen : page.Unseen seen)
    {drained : Page} (hdrain : Draining id seen page page' drained) :
    Opened id page (runChanged mount id (page', seen)).1 := by
  have hid' := (hdrain.turn.kept id).not_vacant hid
  have hrank' : (drained.slot id).rank ≤ depth + 1 := by rwa [hdrain.turn.rank_eq hid]
  refine ⟨(runChanged_turn hmount h hid hrank hunseen hdrain).2.1, ?_, ?_, ?_⟩
  · rw [hdrain.run, foldl_runEffect_attached hmount hdrain.orderly hid' hrank'
      fun _ he => hdrain.held he]
    exact hdrain.attached
  · intro f hf
    have haside : Aside f page drained := by
      refine hdrain.turn.mono ?_
      rintro o _ rfl hunder
      exact h.not_under_child hf hunder
    refine .after h hdrain.turn (untouched_aside haside) ?_
    rw [hdrain.run]
    exact foldl_runEffect_handled hmount hsweeps hdrain.orderly (hdiligent.of_turn h hdrain.turn)
      hrank' (fun _ he => hdrain.held he) (Bindings.nodup_unseen _ _) (hdrain.children ▸ hf)
  · intro hclean
    rw [hdrain.run, due_eq_nil hclean]
    exact ⟨hdrain.turn, hdrain.children⟩

theorem refresh_opened (hmount : Mounts depth mount) (hsweeps : Sweeps depth mount)
    {state : Page × List EffectId} (h : state.1.Orderly) (hdiligent : state.1.Diligent)
    (hid : (state.1.fragment? id).isSome = true) (hrank : (state.1.slot id).rank ≤ depth + 1)
    (hunseen : state.1.Unseen state.2) : Opened id state.1 (refresh mount id state).1 := by
  obtain ⟨page, seen⟩ := state
  unfold refresh
  split
  · obtain ⟨fragment, hfragment⟩ := Option.isSome_iff_exists.mp hid
    obtain ⟨drained, hdrain⟩ := exists_draining_scheduled h hid seen
    exact runChanged_opened hmount hsweeps h hdiligent (Instance.not_vacant_of_fragment? hfragment)
      hrank hunseen hdrain
  · rename_i hscheduled
    refine ⟨?_, rfl, fun _ _ => Or.inl fun _ _ _ _ he => he, fun _ => ⟨.refl _ _, rfl⟩⟩
    rw [Bool.eq_false_iff]
    exact fun hchanges => hscheduled (hdiligent id hid hchanges)

/-- Sweeping one fragment after the other sweeps each of them. -/
theorem foldl_children_sweep (id : InstanceId)
    {step : Page × List EffectId → InstanceId → Page × List EffectId}
    (hstep : ∀ (state : Page × List EffectId) (f : InstanceId), state.1.Orderly →
      (state.1.fragment? f).isSome = true → (state.1.slot f).rank ≤ depth →
      state.1.Unseen state.2 → OrderlyTurn (state.1.Under f) [] state.1 (step state f).1 ∧
        (step state f).1.Unseen (step state f).2)
    (hsweep : ∀ (state : Page × List EffectId) (f : InstanceId), state.1.Orderly →
      state.1.Diligent → (state.1.fragment? f).isSome = true → (state.1.slot f).rank ≤ depth →
      state.1.Unseen state.2 → Swept f state.1 (step state f).1 ∧
        (state.1.Quiet f → Still f state.1 (step state f).1))
    {children : List InstanceId} {state : Page × List EffectId} (h : state.1.Orderly)
    (hdiligent : state.1.Diligent) (hrank : (state.1.slot id).rank ≤ depth + 1)
    (hunseen : state.1.Unseen state.2) (hchildren : children ⊆ (state.1.slot id).children)
    (hnodup : children.Nodup) (hf : f ∈ children) :
    Swept f state.1 (children.foldl step state).1 ∧
      (state.1.Quiet f → Still f state.1 (children.foldl step state).1) := by
  induction children generalizing state with
  | nil => simp at hf
  | cons g rest ih =>
      rw [List.nodup_cons] at hnodup
      have hg := hchildren List.mem_cons_self
      obtain ⟨hfragment, hgrank⟩ := child_ready h hrank hg
      obtain ⟨hfirst, hseen⟩ := hstep state g h hfragment hgrank hunseen
      have hid := (h.not_vacant_of_up ((h.mem_children id g).mp hg)).2
      have hrank' : ((step state g).1.slot id).rank ≤ depth + 1 := by
        rwa [hfirst.turn.rank_eq hid]
      have hchildren' : rest ⊆ ((step state g).1.slot id).children := fun x hx =>
        (hfirst.turn.kept id).children.subset (hchildren (List.mem_cons_of_mem _ hx))
      have hdiligent' := hdiligent.of_turn h hfirst.turn
      rw [List.foldl_cons]
      rcases List.mem_cons.mp hf with rfl | hf
      · obtain ⟨hswept, hstill⟩ := hsweep state f h hdiligent hfragment hgrank hunseen
        have hlast : Aside f (step state f).1 (rest.foldl step (step state f)).1 := by
          refine (foldl_children_turn id hstep hfirst.orderly hrank' hseen hchildren').1.turn.mono ?_
          rintro o _ ⟨x, hx, hxo⟩ hfo
          have hsame := hfirst.orderly.eq_of_under_children (hchildren' hx)
            ((hfirst.turn.kept id).children.subset hg) hxo hfo
          exact hnodup.1 (hsame ▸ hx)
        exact ⟨hswept.aside h hfirst.orderly hfirst.turn hlast,
          fun hquiet => (hstill hquiet).trans h hfirst.turn (still_aside hlast)⟩
      · have haside : Aside f state.1 (step state g).1 := by
          refine hfirst.turn.mono ?_
          intro o _ hgo hfo
          have hsame := h.eq_of_under_children hg (hchildren (List.mem_cons_of_mem _ hf)) hgo hfo
          exact hnodup.1 (hsame ▸ hf)
        obtain ⟨hswept, hstill⟩ := ih hfirst.orderly hdiligent' hrank' hseen hchildren' hnodup.2 hf
        exact ⟨(untouched_aside haside).swept h hfirst.turn hswept,
          fun hquiet => (still_aside haside).trans h hfirst.turn
            (hstill (quiet_aside h haside hquiet))⟩

/-- An instance is swept when its own changes are taken and the fragments in it are swept. -/
theorem swept_of_children (h : page.Orderly) (h' : page'.Orderly) (h'' : page''.Orderly)
    (hfirst : Turn inside page page') (hopened : Opened id page page')
    (hlast : Turn (fun j => ∃ f ∈ (page'.slot id).children, page'.Under f j) page' page'')
    (hid : (page.slot id).isVacant = false) (hattached : page.isAttached id = true)
    (hchildren : ∀ f ∈ (page'.slot id).children,
      Swept f page' page'' ∧ (page'.Quiet f → Still f page' page'')) : Swept id page page'' := by
  have hid' := (hfirst.kept id).not_vacant hid
  have hself : page''.isAttached id = true := by
    refine (hlast.isAttached_eq hid' ?_).trans (hopened.attached.trans hattached)
    rintro ⟨f, hf, hunder⟩
    exact h'.not_under_child hf hunder
  refine ⟨?_, ?_⟩
  · intro o ho
    cases hvacant : (page'.slot o).isVacant with
    | true => exact clean_of_vacant h' hlast hvacant
    | false =>
        have hio := (hlast.under_iff h' hvacant).mp ho.1
        rcases under_cases h' hio with rfl | ⟨f, hf, hfo⟩
        · exact clean_of_clean hlast hopened.clean
        · have hfo' := (hlast.under_iff h' hvacant).mpr hfo
          have hif := h''.under_of_child ((hlast.kept id).children.subset hf)
          exact (hchildren f hf).1.clean o (ho.in_child hif hfo')
  · intro o ho hio hshown
    have ho' := (hfirst.kept o).not_vacant ho
    rcases under_cases h hio with rfl | ⟨f, hf, hfo⟩
    · exact absurd (shownFrom_self hself h'') hshown
    · have hf' := (hfirst.kept id).children.subset hf
      have hup : page''.up f = some id :=
        (h''.mem_children id f).mp ((hlast.kept id).children.subset hf')
      have hnot : ¬ page''.ShownFrom f o :=
        fun hfrom => hshown (hfrom.of_child h'' hup hself)
      obtain ⟨hswept, hstill⟩ := hchildren f hf'
      have hall : Swept f page page'' := by
        rcases hopened.handled f hf with huntouched | hdone
        · exact huntouched.swept h hfirst hswept
        · exact hdone.still h h' hfirst hlast (hstill hdone.clean) hswept
      exact hall.kept o ho hfo hnot

/-- An update of what is clean already changes nothing that counts. -/
theorem still_of_children (h : page.Orderly) (h' : page'.Orderly) (hopened : Opened id page page')
    (hlast : Turn (fun j => ∃ f ∈ (page'.slot id).children, page'.Under f j) page' page'')
    (hid : (page.slot id).isVacant = false) (hattached : page.isAttached id = true)
    (hchildren : ∀ f ∈ (page'.slot id).children,
      Swept f page' page'' ∧ (page'.Quiet f → Still f page' page''))
    (hquiet : page.Quiet id) : Still id page page'' := by
  have hclean := hquiet id (shownFrom_self hattached h)
  obtain ⟨hfirst, hsame⟩ := hopened.still hclean
  have hhere : Still id page page' := by
    refine ⟨?_, ?_⟩
    · intro o ho _
      by_cases heq : o = id
      · rw [heq, hopened.attached]
      · exact hfirst.isAttached_eq ho heq
    · intro o ho _ e he
      by_cases heq : o = id
      · rw [heq, due_eq_nil hclean] at he
        cases he
      · rwa [hfirst.bindings_eq ho heq]
  have hstill : ∀ f ∈ (page'.slot id).children, Still f page' page'' := by
    intro f hf
    have hf' : f ∈ (page.slot id).children := hsame ▸ hf
    refine (hchildren f hf).2 (quiet_aside h (hfirst.mono ?_) ?_)
    · rintro o _ rfl hunder
      exact h.not_under_child hf' hunder
    · exact fun o ho => hquiet o (ho.of_child h ((h.mem_children id f).mp hf') hattached)
  refine hhere.trans h hfirst ⟨?_, ?_⟩
  · intro o ho hio
    rcases under_cases h' hio with rfl | ⟨f, hf, hfo⟩
    · refine hlast.isAttached_eq ho ?_
      rintro ⟨f, hf, hunder⟩
      exact h'.not_under_child hf hunder
    · exact (hstill f hf).attached o ho hfo
  · intro o ho hio e he
    rcases under_cases h' hio with rfl | ⟨f, hf, hfo⟩
    · rw [due_eq_nil hopened.clean] at he
      cases he
    · exact (hstill f hf).untouched o ho hfo e he

theorem rank_pos_of_fragment (hid : (page.fragment? id).isSome = true) :
    0 < (page.slot id).rank := by
  obtain ⟨state, hstate⟩ := Option.isSome_iff_exists.mp hid
  rw [Instance.rank_of_blueprint? (Instance.blueprint?_of_fragment? hstate)]
  obtain ⟨_, _, definitions⟩ := state.blueprint
  exact Nat.succ_pos _

theorem Still.refl (a : InstanceId) (page : Page) : Still a page page :=
  ⟨fun _ _ _ => rfl, fun _ _ _ _ he => he⟩

theorem updateFragment_sweep (hmount : Mounts depth mount) (hsweeps : Sweeps depth mount)
    {levels : Nat} {state : Page × List EffectId} (h : state.1.Orderly)
    (hdiligent : state.1.Diligent) (hid : (state.1.fragment? id).isSome = true)
    (hrank : (state.1.slot id).rank ≤ depth + 1) (hlevels : (state.1.slot id).rank ≤ levels)
    (hunseen : state.1.Unseen state.2) :
    Swept id state.1 (updateFragment mount levels state id).1 ∧
      (state.1.Quiet id → Still id state.1 (updateFragment mount levels state id).1) := by
  induction levels generalizing state id with
  | zero => exact absurd hlevels (Nat.not_le_of_lt (rank_pos_of_fragment hid))
  | succ levels ih =>
      rw [updateFragment_eq]
      split
      · rename_i hattached
        have hopened := refresh_opened hmount hsweeps h hdiligent hid hrank hunseen
        obtain ⟨hfirst, hseen⟩ := refresh_turn hmount h hid hrank hunseen
        obtain ⟨fragment, hfragment⟩ := Option.isSome_iff_exists.mp hid
        have hvacant := Instance.not_vacant_of_fragment? hfragment
        have hleft : ((refresh mount id state).1.slot id).rank ≤ min levels depth + 1 := by
          rw [hfirst.turn.rank_eq hvacant]
          omega
        have hturn : ∀ (next : Page × List EffectId) (f : InstanceId), next.1.Orderly →
            (next.1.fragment? f).isSome = true → (next.1.slot f).rank ≤ min levels depth →
            next.1.Unseen next.2 →
              OrderlyTurn (next.1.Under f) [] next.1 (updateFragment mount levels next f).1 ∧
                (updateFragment mount levels next f).1.Unseen
                  (updateFragment mount levels next f).2 :=
          fun next f hnext hf hfrank => updateFragment_turn hmount levels hnext hf (by omega)
        have hlast := (foldl_children_turn id hturn hfirst.orderly hleft hseen
          fun _ hx => hx).1
        have hchildren := fun f hf => foldl_children_sweep id (f := f) hturn
          (fun next f hnext hnextdiligent hf hfrank hnextseen =>
            ih hnext hnextdiligent hf (by omega) (by omega) hnextseen)
          hfirst.orderly (hdiligent.of_turn h hfirst.turn) hleft hseen (fun _ hx => hx)
          (hfirst.orderly.children_nodup id) hf
        exact ⟨swept_of_children h hfirst.orderly hlast.orderly hfirst.turn hopened hlast.turn
            hvacant hattached hchildren,
          still_of_children h hfirst.orderly hopened hlast.turn hvacant hattached hchildren⟩
      · rename_i hattached
        refine ⟨⟨?_, fun _ _ _ _ _ he => he⟩, fun _ => .refl id state.1⟩
        exact fun o ho => absurd ho.attached_top hattached

/-! ### Mounting -/

theorem remount_swept (hmount : Mounts depth mount) (hsweeps : Sweeps depth mount) {levels : Nat}
    (h : page.Orderly) (hdiligent : page.Diligent) {state : FragmentState}
    (hstate : page.fragment? id = some state) {root : NodeId} (hroot : state.root = some root)
    (hrank : (page.slot id).rank ≤ depth + 1) (hlevels : (page.slot id).rank ≤ levels)
    (anchor : NodeId) : Akin page (remount mount levels page id anchor root) ∨
      Swept id page (remount mount levels page id anchor root) := by
  unfold remount
  split
  · exact Or.inl (akin_report page _)
  · rename_i dom _
    have hvacant := Instance.not_vacant_of_fragment? hstate
    have hset := mounted_turn h hstate (fun node hnode => by rw [hroot] at hnode; cases hnode; rfl)
      dom (.remounted id.number)
    have hsame : Untouched id page
        (({ page with dom }.setMounted id root).report (.remounted id.number)) := by
      intro o _ _ e he
      change e ∈ (({ page with dom }.setMounted id root).slot o).bindings.due
      rw [bindings_setMounted]
      exact he
    generalize ({ page with dom }.setMounted id root).report (.remounted id.number) = next
      at hset hsame ⊢
    obtain ⟨root', attached, hstate', _⟩ := (hset.turn.kept id).fragment_state state hstate
    have hnext : (next, ([] : List EffectId)).1.Orderly := hset.orderly
    refine Or.inr (hsame.swept h hset.turn (updateFragment_sweep hmount hsweeps hnext
      (hdiligent.of_turn h hset.turn) ?_ ?_ ?_ (unseen_nil next)).1)
    · rw [fragment?, hstate']
      rfl
    · rwa [hset.turn.rank_eq hvacant]
    · rwa [hset.turn.rank_eq hvacant]

/-- Where nothing was in a clean instance, everything in it is new. -/
theorem quiet_of_childless (h : page.Orderly) (hturn : Turn inside page page')
    (hclean : (page.slot id).bindings.hasChanges = false) (hchildren : (page.slot id).children = []) :
    page'.Quiet id := by
  intro o ho
  cases hvacant : (page.slot o).isVacant with
  | true => exact clean_of_vacant h hturn hvacant
  | false =>
      rcases under_cases h ((hturn.under_iff h hvacant).mp ho.1) with rfl | ⟨f, hf, _⟩
      · exact clean_of_clean hturn hclean
      · rw [hchildren] at hf
        cases hf

theorem quiet_of_unmounted (h : page.Orderly) (hturn : Turn inside page page')
    {state : FragmentState} (hstate : page.fragment? id = some state) (hroot : state.root = none) :
    page'.Quiet id := by
  obtain ⟨hempty, hchildren, _⟩ := (h.fit id).unmounted state hstate hroot
  refine quiet_of_childless h hturn ?_ hchildren
  rw [hempty]
  rfl

theorem mountWithin_sweeps (depth : Nat) : Sweeps depth (mountWithin depth) := by
  induction depth with
  | zero => exact fun page f _ _ _ _ => Or.inl fun _ _ _ _ he => he
  | succ depth ih =>
      intro page f h hdiligent hfragment hrank
      obtain ⟨state, hstate⟩ := Option.isSome_iff_exists.mp hfragment
      rw [mountWithin, hstate]
      dsimp only
      split
      · exact Or.inl fun _ _ _ _ he => he
      · cases hroot : state.root with
        | some root =>
            rcases remount_swept (mountWithin_mounts depth) ih h hdiligent hstate hroot hrank hrank
              state.anchor with hakin | hswept
            · exact Or.inl (untouched_akin hakin)
            · exact Or.inr hswept
        | none =>
            -- Before its first mount a fragment has nothing that could be due.
            obtain ⟨hempty, hchildren, _⟩ := (h.fit f).unmounted state hstate hroot
            refine Or.inl fun o _ hunder e he => ?_
            rcases under_cases h hunder with rfl | ⟨g, hg, _⟩
            · rw [hempty] at he
              cases he
            · rw [hchildren] at hg
              cases hg

/-- A mount changes nothing or leaves the fragment quiet. -/
theorem mountWithin_quiet (h : page.Orderly) (hdiligent : page.Diligent)
    (hrank : (page.slot id).rank ≤ depth) :
    Akin page (mountWithin depth id page) ∨ (mountWithin depth id page).Quiet id := by
  cases depth with
  | zero => exact Or.inl (.refl page)
  | succ depth =>
      rw [mountWithin]
      split
      · exact Or.inl (.refl page)
      · rename_i state hstate
        split
        · exact Or.inl (.refl page)
        · split
          · rename_i root hroot
            rcases remount_swept (mountWithin_mounts depth) (mountWithin_sweeps depth) h hdiligent
              hstate hroot hrank hrank state.anchor with hakin | hswept
            · exact Or.inl hakin
            · exact Or.inr hswept.clean
          · rename_i hroot
            have hturn := mountFirst_turn (mountWithin_mounts depth) h hstate hroot hrank
              state.anchor
            exact Or.inr (quiet_of_unmounted h hturn.turn hstate hroot)

theorem mount_quiet (h : page.Orderly) (hdiligent : page.Diligent) (id : InstanceId) :
    Akin page (page.mount id) ∨ (page.mount id).Quiet id := by
  unfold mount
  cases hstate : page.fragment? id with
  | none => exact Or.inl (.refl page)
  | some state =>
      refine mountWithin_quiet h hdiligent ?_
      rw [Instance.rank_of_blueprint? (Instance.blueprint?_of_fragment? hstate)]

theorem runEffects_swept (h : page.Orderly) (hdiligent : page.Diligent) {state : ComponentState}
    (hstate : page.component? id = some state) (hconnected : state.connected = true) :
    Swept id page (page.runEffects id state.definition.blueprint.depth) := by
  have hmount := mountWithin_mounts state.definition.blueprint.depth
  have hsweeps := mountWithin_sweeps state.definition.blueprint.depth
  have hvacant := Instance.not_vacant_of_component? hstate
  have hrank := le_of_eq (Instance.rank_of_blueprint? (Instance.blueprint?_of_component? hstate))
  have hattached : page.isAttached id = true :=
    (Instance.isAttached_of_component? hstate).trans hconnected
  obtain ⟨drained, hdrain⟩ := exists_draining h hvacant []
    (.of_akin id (.refl page)) rfl (Or.inl rfl)
  obtain ⟨hfirst, _, hseen⟩ := runChanged_turn hmount h hvacant (Nat.le_succ_of_le hrank)
    (unseen_nil page) hdrain
  have hopened := runChanged_opened hmount hsweeps h hdiligent hvacant (Nat.le_succ_of_le hrank)
    (unseen_nil page) hdrain
  have hleft := hrank
  rw [← hfirst.turn.rank_eq hvacant] at hleft
  have hlast := (foldl_children_turn id (fun next f hnext hf hfrank =>
    updateFragment_turn hmount state.definition.blueprint.depth hnext hf
      (Nat.le_succ_of_le hfrank)) hfirst.orderly (Nat.le_succ_of_le hleft) hseen fun _ hx => hx).1
  refine swept_of_children h hfirst.orderly hlast.orderly hfirst.turn hopened hlast.turn hvacant
    hattached ?_
  intro f hf
  exact foldl_children_sweep id (fun next f hnext hf hfrank =>
      updateFragment_turn hmount state.definition.blueprint.depth hnext hf
        (Nat.le_succ_of_le hfrank))
    (fun next f hnext hnextdiligent hf hfrank hnextseen =>
      updateFragment_sweep hmount hsweeps hnext hnextdiligent hf (Nat.le_succ_of_le hfrank) hfrank
        hnextseen)
    hfirst.orderly (hdiligent.of_turn h hfirst.turn) (Nat.le_succ_of_le hleft) hseen
    (fun _ hx => hx) (hfirst.orderly.children_nodup id) hf

end LiveMarkup.Page
