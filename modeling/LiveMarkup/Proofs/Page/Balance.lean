import LiveMarkup.Proofs.Page.Moves

/-!
The balance of mounts: mounts and unmounts are counted right, and no mount has skipped its fragment.
Every move keeps it, so a mount or a pass does.
-/

namespace LiveMarkup.Page

variable {reading : Blueprint → List Sketch} {page page' page'' : Page} {plan plan' : Plan}
  {root : NodeId} {c f g owner : InstanceId} {state : FragmentState} {agenda : List Errand}
  {late : Prop}

def isMounted (page : Page) (f : InstanceId) : Bool :=
  (page.fragment? f).any (·.attached)

/-- The mounts that were not taken back are the ones of the mounted fragments. -/
structure Balanced (page : Page) : Prop where
  count : ∃ mounted : Finset InstanceId, (∀ f, f ∈ mounted ↔ page.isMounted f = true) ∧
    page.stats.mounts = page.stats.unmounts + mounted.card
  notices : ∀ notice ∈ page.notices, notice.skips = false

theorem isMounted_of_fragment? (hstate : page.fragment? f = some state) :
    page.isMounted f = state.attached := by
  rw [isMounted, hstate]
  rfl

theorem isMounted_congr (h : page'.fragment? f = page.fragment? f) :
    page'.isMounted f = page.isMounted f := by
  rw [isMounted, h, isMounted]

theorem isMounted_of_vacant (h : (page.slot f).isVacant = true) : page.isMounted f = false := by
  cases hstate : page.fragment? f with
  | none =>
      rw [isMounted, hstate]
      rfl
  | some state =>
      have hnot := Instance.not_vacant_of_fragment? hstate
      rw [h] at hnot
      cases hnot

theorem Balanced.same (h : page.Balanced) (hmounted : ∀ f, page'.isMounted f = page.isMounted f)
    (hmounts : page'.stats.mounts = page.stats.mounts)
    (hunmounts : page'.stats.unmounts = page.stats.unmounts)
    (hnotices : ∀ notice ∈ page'.notices, notice ∈ page.notices ∨ notice.skips = false) :
    page'.Balanced := by
  obtain ⟨mounted, hmem, hcount⟩ := h.count
  refine ⟨⟨mounted, fun f => ?_, ?_⟩, fun notice hnotice => ?_⟩
  · rw [hmem, hmounted]
  · rw [hmounts, hunmounts, hcount]
  · exact (hnotices notice hnotice).elim (h.notices notice) id

theorem Balanced.calm (h : page.Balanced) (hcalm : Calm page page') : page'.Balanced :=
  h.same (fun f => isMounted_congr (hcalm.fragment? f)) hcalm.mounts hcalm.unmounts hcalm.notices

theorem Balanced.mounted (h : page.Balanced) (hbefore : page.isMounted f = false)
    (hafter : page'.isMounted f = true)
    (hother : ∀ g, g ≠ f → page'.isMounted g = page.isMounted g)
    (hmounts : page'.stats.mounts = page.stats.mounts + 1)
    (hunmounts : page'.stats.unmounts = page.stats.unmounts)
    (hnotices : ∀ notice ∈ page'.notices, notice ∈ page.notices ∨ notice.skips = false) :
    page'.Balanced := by
  obtain ⟨mounted, hmem, hcount⟩ := h.count
  have hnot : f ∉ mounted := by
    rw [hmem, hbefore]
    exact Bool.false_ne_true
  refine ⟨⟨insert f mounted, fun g => ?_, ?_⟩, fun notice hnotice => ?_⟩
  · rw [Finset.mem_insert, hmem]
    by_cases hg : g = f
    · simp [hg, hafter]
    · simp [hg, hother g hg]
  · rw [Finset.card_insert_of_notMem hnot]
    omega
  · exact (hnotices notice hnotice).elim (h.notices notice) id

theorem Balanced.unmounted (h : page.Balanced) (hbefore : page.isMounted f = true)
    (hafter : page'.isMounted f = false)
    (hother : ∀ g, g ≠ f → page'.isMounted g = page.isMounted g)
    (hmounts : page'.stats.mounts = page.stats.mounts)
    (hunmounts : page'.stats.unmounts = page.stats.unmounts + 1)
    (hnotices : ∀ notice ∈ page'.notices, notice ∈ page.notices ∨ notice.skips = false) :
    page'.Balanced := by
  obtain ⟨mounted, hmem, hcount⟩ := h.count
  refine ⟨⟨mounted.erase f, fun g => ?_, ?_⟩, fun notice hnotice => ?_⟩
  · rw [Finset.mem_erase, hmem]
    by_cases hg : g = f
    · simp [hg, hafter]
    · simp [hg, hother g hg]
  · have hcard := Finset.card_erase_add_one ((hmem f).mpr hbefore)
    omega
  · exact (hnotices notice hnotice).elim (h.notices notice) id

/-- A new instance that is no mounted fragment. -/
theorem Balanced.joins (h : page.Balanced) {i : Instance} (hj : Joins f i page page')
    (hi : i.fragment?.any (·.attached) = false)
    (hmounts : page'.stats.mounts = page.stats.mounts)
    (hunmounts : page'.stats.unmounts = page.stats.unmounts)
    (hnotices : ∀ notice ∈ page'.notices, notice ∈ page.notices ∨ notice.skips = false) :
    page'.Balanced := by
  refine h.same (fun g => ?_) hmounts hunmounts hnotices
  by_cases hg : g = f
  · subst hg
    rw [isMounted_of_vacant hj.vacant, isMounted, fragment?, hj.slot_self, hi]
  · exact isMounted_congr (hj.fragment?_other hg)

theorem notices_report {notice : Notice} (h : notice.skips = false) :
    ∀ other ∈ (page.report notice).notices, other ∈ page.notices ∨ other.skips = false := by
  intro other hother
  rcases Array.mem_push.mp hother with hold | rfl
  · exact Or.inl hold
  · exact Or.inr h

theorem Balanced.unmount (h : page.Balanced) (f : InstanceId) : (page.unmount f).Balanced := by
  cases hstate : page.fragment? f with
  | none => rwa [unmount_of_fragment?_eq_none hstate]
  | some state =>
      have hother : ∀ g, g ≠ f → (page.unmount f).isMounted g = page.isMounted g := fun g hg => by
        rw [isMounted, fragment?, (unmount_retouch page f).other g hg, isMounted, fragment?]
      have hafter : (page.unmount f).isMounted f = false := by
        have hdetached := isAttached_unmount hstate
        cases hstate' : (page.unmount f).fragment? f with
        | none => rw [isMounted, hstate']; rfl
        | some state' =>
            rw [isMounted_of_fragment? hstate']
            rw [isAttached, Instance.isAttached_of_fragment? hstate'] at hdetached
            exact hdetached
      cases hattached : state.attached with
      | false =>
          have hsame : page.unmount f = page := by
            rw [Page.unmount, hstate]
            simp [hattached]
          rwa [hsame]
      | true =>
          refine h.unmounted ((isMounted_of_fragment? hstate).trans hattached) hafter hother ?_ ?_ ?_
          all_goals
            rw [Page.unmount, hstate]
            simp only [hattached]
            cases state.root <;> first | rfl | exact notices_report rfl

theorem Balanced.setMounted (h : page.Balanced) (hstate : page.fragment? f = some state)
    (hdetached : state.attached = false) (root : NodeId) (dom : Dom) {notice : Notice}
    (hnotice : notice.skips = false) :
    ((({ page with dom } : Page).setMounted f root).report notice).Balanced := by
  refine h.mounted ((isMounted_of_fragment? hstate).trans hdetached) ?_ (fun g hg => ?_) rfl rfl
    (notices_report hnotice)
  · have hslot := slot_setMounted { page with dom } (Instance.not_vacant_of_fragment? hstate) root
    have hafter : ((({ page with dom } : Page).setMounted f root).report notice).fragment? f =
        some { state with root := some root, attached := true } :=
      congrArg Instance.fragment? (hslot.trans (Instance.mapFragment_of_fragment? hstate _))
    exact isMounted_of_fragment? hafter
  · exact isMounted_congr
      (congrArg Instance.fragment? ((retouch_setMounted { page with dom } f root).other g hg))

theorem Balanced.flip (h : page.Balanced) {wish : Bool} {new : List Chore}
    (hflip : Flip f page plan wish page' plan' new) : page'.Balanced := by
  cases hflip with
  | kept _ => exact h
  | hidden _ _ _ => exact h
  | unmounted _ _ _ => exact h.unmount f
  | remounted hstate hdetached _ _ _ => exact h.setMounted hstate hdetached _ _ rfl
  | mounted hstate hdetached _ _ _ _ => exact h.setMounted hstate hdetached _ _ rfl

theorem Balanced.listen (h : page.Balanced) (owner : InstanceId) (node : NodeId)
    (binding : EventBinding) : (Page.listen owner node page binding).Balanced := by
  refine h.same (fun f => isMounted_congr ?_) ?_ ?_ ?_
  · rw [fragment?, (Rendering.akin_listen owner node page binding).slot, fragment?]
  all_goals
    unfold Page.listen
    cases binding.handler with
    | none => first | rfl | exact fun _ hnotice => Or.inl hnotice
    | some handler =>
        dsimp only
        cases page.missingMethod? owner handler <;>
          first | rfl | exact fun _ hnotice => Or.inl hnotice | exact notices_report rfl

theorem Anchored.balanced {old anchor p : NodeId} {blueprint : Blueprint} (h : page.Balanced)
    (ha : Anchored owner old anchor p blueprint f page page') : page'.Balanced := by
  obtain ⟨middle, hcalm, rfl⟩ := ha.calm
  have hcreated : ∀ page : Page,
      (page.createFragment owner blueprint anchor .empty).1.stats = page.stats ∧
        (page.createFragment owner blueprint anchor .empty).1.notices = page.notices := by
    intro page
    unfold createFragment occupy
    dsimp only
    split <;> exact ⟨rfl, rfl⟩
  obtain ⟨hstats, hnotices⟩ := hcreated middle
  refine h.joins ha.joins rfl ?_ ?_ ?_
  · rw [hstats, hcalm.mounts]
  · rw [hstats, hcalm.unmounts]
  · rw [hnotices]
    exact hcalm.notices

theorem Move.balanced {work work' : Work} (hmove : Move c late work work')
    (h : work.page.Balanced) : work'.page.Balanced := by
  cases hmove with
  | @unmark page _ _ node => exact h.calm (calm_editDom page (·.setMarker node none))
  | @refer page _ owner node name => exact h.calm (idle_setReference page owner name node).toCalm
  | @listen page _ owner node binding => exact h.listen owner node binding
  | @enroll page => exact h.calm (calm_enrolled page _ _)
  | @plant page page₁ _ _ _ _ _ _ _ _ _ _ _ _ _ ha =>
      exact (ha.balanced h).calm (calm_enrolled page₁ _ _)
  | @rewrite page _ _ _ _ mount _ _ _ htask =>
      exact h.calm (calm_runEffect mount page (writes_of_mem_tasks htask))
  | @turn page _ _ _ e _ guard _ _ _ _ _ _ hflip =>
      exact (h.calm (calm_checked page e guard)).flip hflip
  | @rest page _ o => exact h.calm (idle_scheduled page o false).toCalm
  | @drain page _ o =>
      exact h.calm (calm_mapBindings page o fun _ => (page.slot o).bindings.clearChanges)

theorem Flip.home {wish : Bool} {new : List Chore} (h : Flip f page plan wish page' plan' new) :
    plan'.home = plan.home := by
  cases h with
  | mounted _ _ _ _ hhome _ => exact hhome
  | kept _ | hidden _ _ _ | unmounted _ _ _ | remounted _ _ _ _ _ => rfl

theorem Move.home {work work' : Work} (hmove : Move c late work work') :
    work'.plan.home = work.plan.home := by
  cases hmove with
  | turn _ _ _ hflip => exact hflip.home
  | _ => rfl

end LiveMarkup.Page
