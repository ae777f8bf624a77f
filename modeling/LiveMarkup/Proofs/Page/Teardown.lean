import LiveMarkup.Proofs.Dom.Clearing
import LiveMarkup.Proofs.Page.Balance

/-!
Taking a component down. Its fragments go one by one, each with its element; every node that the
component rendered is freed, and the rest of the page keeps its layout.
-/

namespace LiveMarkup.Page

open Relation (ReflTransGen)

variable {reading : Blueprint → List Sketch} {old page page' : Page} {plan : Plan}
  {n p x root : NodeId} {c f g o j : InstanceId} {inside inside' : InstanceId → Prop}

/-! ### Cuts -/

/-- A step in taking down the fragments `inside`. -/
inductive Cut (inside : InstanceId → Prop) : Page → Page → Prop where
  | unmount {page : Page} {f : InstanceId} (hf : inside f) : Cut inside page (page.unmount f)
  | letGo {page : Page} {f : InstanceId} :
    Cut inside page (page.updateSlot f ({ · with children := [] }))
  | drop {page : Page} {f : InstanceId} (hf : inside f) (hdetached : page.isAttached f = false) :
    Cut inside page (page.drop f)

theorem Cut.mono (h : Cut inside page page') (hsub : ∀ j, inside j → inside' j) :
    Cut inside' page page' := by
  cases h with
  | unmount hf => exact .unmount (hsub _ hf)
  | letGo => exact .letGo
  | drop hf hdetached => exact .drop (hsub _ hf) hdetached

theorem cuts_mono (h : ReflTransGen (Cut inside) page page') (hsub : ∀ j, inside j → inside' j) :
    ReflTransGen (Cut inside') page page' :=
  h.lift id fun _ _ hcut => hcut.mono hsub

theorem foldl_retire_cuts (hold : old.Orderly) {retire : Page → InstanceId → Page}
    {children : List InstanceId} (hchildren : children ⊆ (old.slot o).children)
    (hnodup : children.Nodup)
    (hretire : ∀ page, ∀ f ∈ children, page.slots.size = old.slots.size → Rooted old f page →
      Cleared (old.Under f) page (retire page f) ∧
        ReflTransGen (Cut (old.Under f)) page (retire page f))
    (hsize : page.slots.size = old.slots.size) (hrooted : ∀ f ∈ children, Rooted old f page) :
    ReflTransGen (Cut fun j => ∃ f ∈ children, old.Under f j) page
      (children.foldl retire page) := by
  induction children generalizing page with
  | nil => exact .refl
  | cons f rest ih =>
      rw [List.nodup_cons] at hnodup
      have hrest : rest ⊆ (old.slot o).children := fun x hx =>
        hchildren (List.mem_cons_of_mem _ hx)
      obtain ⟨hcleared, hcuts⟩ := hretire page f List.mem_cons_self hsize
        (hrooted f List.mem_cons_self)
      have hlast := ih hrest hnodup.2
        (fun page g hg => hretire page g (List.mem_cons_of_mem _ hg)) (hcleared.size.trans hsize)
        fun g hg => Rooted.of_cleared hold (hchildren List.mem_cons_self) (hrest hg)
          (fun heq => hnodup.1 (heq ▸ hg)) hcleared (hrooted g (List.mem_cons_of_mem _ hg))
      refine (cuts_mono hcuts fun j hj => ⟨f, List.mem_cons_self, hj⟩).trans (cuts_mono hlast ?_)
      rintro j ⟨g, hg, hj⟩
      exact ⟨g, List.mem_cons_of_mem _ hg, hj⟩

theorem retireWithin_cuts (hold : old.Orderly) {depth : Nat}
    (hsize : page.slots.size = old.slots.size) (hf : (old.fragment? f).isSome = true)
    (hdepth : ∀ j, old.Under f j → f ∈ lineage old.up depth j) (hrooted : Rooted old f page) :
    ReflTransGen (Cut (old.Under f)) page (retireWithin depth page f) := by
  induction depth generalizing page f with
  | zero =>
      have hmem := hdepth f .self
      simp [lineage] at hmem
  | succ depth ih =>
      obtain ⟨state, hstate⟩ := Option.isSome_iff_exists.mp hf
      have hretouch := loosen_retouch page f
      have hslot := hrooted f .self
      have hbelow : ∀ g ∈ (old.slot f).children, ∀ j, old.Under g j → g ∈ lineage old.up depth j := by
        intro g hg j hgj
        have hup := (hold.mem_children f g).mp hg
        exact hold.acyclic.mem_lineage_child hup (hdepth j ((Above.of_up hup).trans hgj)) hgj
      have hclears : ∀ next, ∀ g ∈ (old.slot f).children, next.slots.size = old.slots.size →
          Rooted old g next → Cleared (old.Under g) next (retireWithin depth next g) :=
        fun next g hg hnext hrooted => retireWithin_cleared hold hnext
          (hold.not_vacant_of_mem_children hg) (hbelow g hg) hrooted
      have hcleared := foldl_retire_cleared hold (fun _ hx => hx) (hold.children_nodup f) hclears
        (hretouch.size.trans hsize) fun g hg => hrooted.loosen hold hg
      have hcuts := foldl_retire_cuts hold (fun _ hx => hx) (hold.children_nodup f)
        (fun next g hg hnext hrooted => ⟨hclears next g hg hnext hrooted,
          ih hnext (Option.isSome_iff_exists.mpr
            (hold.fragment_of_up ((hold.mem_children f g).mp hg))) (hbelow g hg) hrooted⟩)
        (hretouch.size.trans hsize) fun g hg => hrooted.loosen hold hg
      rw [retireWithin_eq, hslot]
      have hinside : ∀ j, (∃ g ∈ (old.slot f).children, old.Under g j) → old.Under f j := by
        rintro j ⟨g, hg, hj⟩
        exact (hold.under_of_child hg).trans hj
      refine (ReflTransGen.head (.unmount .self) (.single .letGo)).trans
        ((cuts_mono hcuts hinside).tail (.drop .self ?_))
      -- The fragment was unmounted first, and its children do not touch it.
      have hnot : ¬ ∃ g ∈ (old.slot f).children, old.Under g f := by
        rintro ⟨g, hg, hgf⟩
        exact hold.not_under_child hg hgf
      have hloose : (page.loosen f).isAttached f = (page.unmount f).isAttached f :=
        read_updateSlot (·.isAttached) (f := ({ · with children := [] })) (fun _ => rfl) _ f f
      have hstate' : page.fragment? f = some state := by
        rw [fragment?, hslot]
        exact hstate
      rw [isAttached, hcleared.other f hnot]
      exact hloose.trans (isAttached_unmount hstate')

theorem retireAll_cuts (h : page.Orderly) (c : InstanceId) :
    ReflTransGen (Cut (page.Inside c)) page (page.retireAll c) := by
  refine ReflTransGen.head .letGo (foldl_retire_cuts h (fun _ hx => hx) (h.children_nodup c) ?_
    (size_updateSlot page c _) ?_)
  · intro next f hf hsize hrooted
    have hvacant := h.not_vacant_of_mem_children hf
    have hup := (h.mem_children c f).mp hf
    refine ⟨retire_cleared h hsize hvacant hrooted, retireWithin_cuts h hsize
      (Option.isSome_iff_exists.mpr (h.fragment_of_up hup)) (fun j hfj => ?_) hrooted⟩
    rw [hsize]
    refine (h.bounded.mem_lineage_iff h.acyclic ?_).mpr hfj
    rcases hfj.cases_up with rfl | ⟨p, hp, _⟩
    · exact lt_size_of_not_vacant hvacant
    · exact lt_size_of_not_vacant (h.not_vacant_of_up hp).1
  · intro f hf j hfj
    rw [slot_letGo, if_neg]
    rintro rfl
    exact h.not_under_child hf hfj

/-! ### What is taken down -/

/-- A node of `c` or of a fragment in it. -/
def Owns (page : Page) (plan : Plan) (c : InstanceId) (x : NodeId) : Prop :=
  ∃ o, (plan.role x).owner? = some o ∧ page.Under c o

/-- A node that `c` has rendered. -/
def Sheds (page : Page) (plan : Plan) (c : InstanceId) (x : NodeId) : Prop :=
  page.Owns plan c x ∧ plan.role x ≠ .host c

/-- A node that is unlinked when `c` is taken down. -/
def Loosens (page : Page) (c : InstanceId) (x : NodeId) : Prop :=
  (∃ state, page.component? c = some state ∧ state.host = x) ∨
    ∃ f, page.Inside c f ∧ page.fragmentRoot? f = some x

theorem Inside.of_under (h : page.Orderly) (hunder : page.Under c f) (hne : f ≠ c) :
    page.Inside c f :=
  (under_cases h hunder).resolve_left hne

/-- A component lies in no other one. -/
theorem eq_of_under_component (h : page.Orderly) {state : ComponentState}
    (hstate : page.component? g = some state) (hunder : page.Under c g) : c = g :=
  hunder.eq_of_up_none (h.component_eq g state hstate).1

theorem Inside.of_root (h : page.Orderly) {state : ComponentState}
    (hstate : page.component? c = some state) (hroot : page.fragmentRoot? f = some x)
    (hunder : page.Under c f) : page.Inside c f := by
  refine .of_under h hunder ?_
  rintro rfl
  rw [fragmentRoot?, show page.fragment? f = none from Instance.fragment?_of_component? hstate]
    at hroot
  cases hroot

section Laid

variable (h : page.Laid reading plan)

include h

theorem Laid.eq_host {state : ComponentState} (hx : page.dom.Live x)
    (hrole : plan.role x = .host c) (hstate : page.component? c = some state) : x = state.host := by
  obtain ⟨⟨other, hother, hhost⟩, _⟩ := h.fits_of_role hx hrole
  rw [hstate, Option.some.injEq] at hother
  rw [hother, hhost]

theorem Laid.role_of_fragmentRoot? (hroot : page.fragmentRoot? f = some root) :
    page.dom.Live root ∧ ∃ body, plan.role root = .line f body := by
  obtain ⟨state, hstate, hnode⟩ := Option.bind_eq_some_iff.mp hroot
  obtain ⟨_, _, body, hsits⟩ := h.fragment f state hstate
  exact ⟨(hsits.root root hnode).1, body, (hsits.root root hnode).2⟩

theorem Laid.owner_of_ne_document (hx : page.dom.Live x) (hne : x ≠ page.document) :
    ∃ o, (plan.role x).owner? = some o := by
  have hfits := h.fits x hx
  generalize plan.role x = role at hfits
  cases role with
  | document => exact absurd hfits.1 hne
  | _ => exact ⟨_, rfl⟩

theorem Laid.owns_of_loosens (horderly : page.Orderly) (hx : page.Loosens c x) :
    page.Owns plan c x := by
  rcases hx with ⟨state, hstate, rfl⟩ | ⟨f, hinside, hroot⟩
  · exact ⟨c, by rw [h.component_role hstate]; rfl, .self⟩
  · obtain ⟨_, body, hrole⟩ := h.role_of_fragmentRoot? hroot
    exact ⟨f, by rw [hrole]; rfl, hinside.under horderly⟩

theorem Laid.sheds_fragmentRoot? (horderly : page.Orderly) (hinside : page.Inside c f)
    (hroot : page.fragmentRoot? f = some root) : page.Sheds plan c root := by
  obtain ⟨_, body, hrole⟩ := h.role_of_fragmentRoot? hroot
  refine ⟨h.owns_of_loosens horderly (Or.inr ⟨f, hinside, hroot⟩), fun hhost => ?_⟩
  rw [hrole] at hhost
  cases hhost

/-- What a node of a component is below belongs to the component too, or is the document. -/
theorem Laid.owns_parent (horderly : page.Orderly) {state : ComponentState}
    (hstate : page.component? c = some state) (hx : page.Owns plan c x)
    (hparent : page.dom.parent x = some p) : p = page.document ∨ page.Owns plan c p := by
  obtain ⟨f, hf, hunder⟩ := hx
  rcases h.owner_of_parent hparent hf with hdocument | ⟨o, ho, rfl | ⟨hup, _⟩⟩
  · exact Or.inl hdocument
  · exact Or.inr ⟨o, ho, hunder⟩
  · have hne : f ≠ c := by
      rintro rfl
      rw [up, (horderly.component_eq f state hstate).1] at hup
      cases hup
    exact Or.inr ⟨o, ho, hunder.above_up hne hup⟩

/-- What lies below a rendered node is rendered. -/
theorem Laid.sheds_of_below (hroot : page.Sheds plan c root) (hbelow : page.dom.Below root x)
    (hlive : page.dom.Live root) : page.Sheds plan c x := by
  obtain ⟨⟨o, ho, hunder⟩, hnot⟩ := hroot
  have hdocument : page.document ≠ root := by
    rintro rfl
    rw [h.document_role] at ho
    cases ho
  have hunderneath : ¬ page.dom.Below root page.document := fun hbelow =>
    hdocument.symm (hbelow.eq_of_up_none h.parent_document)
  rcases hbelow.cases_up with rfl | ⟨p, hp, hbelow'⟩
  · exact ⟨⟨o, ho, hunder⟩, hnot⟩
  · obtain ⟨f, hf⟩ := h.owner_of_ne_document (h.valid.live_below hbelow hlive) (by
      rintro rfl
      exact hunderneath hbelow)
    refine ⟨⟨f, hf, hunder.trans (h.under_of_below hbelow ho hf)⟩, fun hrole => ?_⟩
    obtain ⟨_, hnone | hplace⟩ := h.fits_of_role (h.valid.live_below hbelow hlive) hrole
    · rw [hp] at hnone
      cases hnone
    · rw [hp, Option.some.injEq] at hplace
      exact hunderneath (hplace ▸ hbelow')

/-- A role of a node that does not belong to `c` names nothing in `c`. -/
theorem Laid.not_under_of_mem_names (horderly : page.Orderly) {state : ComponentState}
    (hstate : page.component? c = some state) (hx : page.dom.Live x) (hnot : ¬ page.Owns plan c x)
    (hi : g ∈ (plan.role x).names) : ¬ page.Under c g := by
  have hfits := h.fits x hx
  intro hunder
  refine hnot ?_
  unfold Owns
  generalize plan.role x = role at hfits hi
  cases role with
  | document => cases hi
  | host i | shadow i | copy i | style i | line i sketch | slot i guard body =>
      rw [List.mem_singleton.mp hi] at hunder
      exact ⟨i, rfl, hunder⟩
  | anchor o f guard body =>
      refine ⟨o, rfl, ?_⟩
      rcases List.mem_cons.mp hi with rfl | hi
      · exact hunder
      · obtain rfl := List.mem_singleton.mp hi
        have hup := hfits.2.2.2.1
        refine hunder.above_up ?_ hup
        rintro rfl
        rw [up, (horderly.component_eq g state hstate).1] at hup
        cases hup

theorem Laid.not_sheds_host (horderly : page.Orderly) (hrole : plan.role x = .host g)
    (hlive : page.dom.Live x) : ¬ page.Sheds plan c x := by
  rintro ⟨⟨o, ho, hunder⟩, hne⟩
  rw [hrole] at ho
  cases ho
  obtain ⟨⟨other, hother, _⟩, _⟩ := h.fits_of_role hlive hrole
  rw [eq_of_under_component horderly hother hunder] at hne
  exact hne hrole

end Laid

/-! ### What cuts leave -/

theorem fragmentRoot?_unmount (page : Page) (f g : InstanceId) :
    (page.unmount f).fragmentRoot? g = page.fragmentRoot? g := by
  refine read_unmount (fun i => i.fragment?.bind (·.root)) (fun i => ?_) page f g
  cases hstate : i.fragment? with
  | none =>
      have hsame : i.mapFragment ({ · with attached := false }) = i := by
        unfold Instance.mapFragment
        split
        · rename_i state hkind
          rw [Instance.fragment?_of_kind hkind] at hstate
          cases hstate
        · rfl
      rw [hsame, hstate]
  | some state =>
      rw [Instance.mapFragment_of_fragment? hstate]
      rfl

theorem dom_unmount (page : Page) (f : InstanceId) :
    (page.unmount f).dom = page.dom ∨ ∃ root, page.fragmentRoot? f = some root ∧
      (page.unmount f).dom = (page.dom.detach root).1 := by
  cases hstate : page.fragment? f with
  | none => exact Or.inl (by rw [unmount_of_fragment?_eq_none hstate])
  | some state =>
      rw [fragmentRoot?_of_fragment? hstate, unmount, hstate]
      dsimp only
      cases state.attached with
      | false => exact Or.inl rfl
      | true =>
          cases state.root with
          | none => exact Or.inl rfl
          | some root => exact Or.inr ⟨root, rfl, rfl⟩

theorem fragment?_release (page : Page) (f g : InstanceId) :
    (page.release f).fragment? g = if g = f then none else page.fragment? g := by
  cases hvacant : (page.slot f).isVacant with
  | true =>
      have hsame : page.release f = page := by
        rw [release, if_pos hvacant]
      rw [hsame]
      split
      · rename_i heq
        rw [heq, fragment?, Instance.fragment?, Instance.isVacant_iff.mp hvacant]
      · rfl
  | false =>
      have hcleared := release_cleared page f hvacant
      split
      · rename_i heq
        rw [heq, fragment?, hcleared.emptied f rfl]
        rfl
      · rename_i hne
        rw [fragment?, hcleared.other g hne, fragment?]

theorem fragmentRoot?_release (page : Page) (f g : InstanceId) :
    (page.release f).fragmentRoot? g = if g = f then none else page.fragmentRoot? g := by
  rw [fragmentRoot?, fragment?_release]
  split <;> rfl

theorem dom_release (page : Page) (f : InstanceId) : (page.release f).dom = page.dom := by
  unfold release
  split <;> rfl

/-- What is left while `c` is taken down: of its fragments, the ones that are there have the elements
that they had, and the elements of the others are gone. -/
structure Withered (plan : Plan) (c : InstanceId) (old page : Page) : Prop where
  dom : Dom.Pruned (old.Loosens c) (old.Sheds plan c) old.dom page.dom
  root : ∀ f root, page.fragmentRoot? f = some root → old.fragmentRoot? f = some root
  gone : ∀ f root, old.fragmentRoot? f = some root →
    page.fragmentRoot? f = some root ∨ ¬ page.dom.Live root

theorem Withered.refl (h : page.Laid reading plan) (c : InstanceId) : Withered plan c page page :=
  ⟨.refl h.valid, fun _ _ hroot => hroot, fun _ _ hroot => Or.inl hroot⟩

namespace Withered

variable (h : Withered plan c old page)

include h

theorem unmount (hf : old.Inside c f) : Withered plan c old (page.unmount f) := by
  have hroots := fragmentRoot?_unmount page f
  refine ⟨?_, fun g root hroot => h.root g root (hroots g ▸ hroot), fun g root hroot => ?_⟩
  · rcases dom_unmount page f with hdom | ⟨root, hroot, hdom⟩
    · exact hdom ▸ h.dom
    · exact hdom ▸ h.dom.detach (Or.inr ⟨f, hf, h.root f root hroot⟩)
  · rw [hroots]
    refine (h.gone g root hroot).imp id fun hdead hlive => hdead ?_
    rcases dom_unmount page f with hdom | ⟨node, _, hdom⟩
    · rwa [hdom] at hlive
    · rw [hdom] at hlive
      exact ((Dom.detach_unlinked h.dom.valid node).live root).mp hlive

theorem letGo (f : InstanceId) :
    Withered plan c old (page.updateSlot f ({ · with children := [] })) := by
  have hroots : ∀ g, (page.updateSlot f ({ · with children := [] })).fragmentRoot? g =
      page.fragmentRoot? g := fun g =>
    read_updateSlot (fun i => i.fragment?.bind (·.root)) (f := ({ · with children := [] }))
      (fun _ => rfl) page f g
  refine ⟨h.dom, fun g root hroot => h.root g root (hroots g ▸ hroot), fun g root hroot => ?_⟩
  rw [hroots]
  exact h.gone g root hroot

/-- A slot may be freed once its element is. -/
theorem release (hgone : ∀ root, old.fragmentRoot? f = some root → ¬ page.dom.Live root) :
    Withered plan c old (page.release f) := by
  have hroots := fragmentRoot?_release page f
  refine ⟨by rw [dom_release]; exact h.dom, fun g root hroot => ?_, fun g root hroot => ?_⟩
  · rw [hroots] at hroot
    split at hroot
    · cases hroot
    · exact h.root g root hroot
  · rw [dom_release, hroots]
    split
    · rename_i hg
      exact Or.inr (hgone root (hg ▸ hroot))
    · exact h.gone g root hroot

theorem remove (hold : old.Laid reading plan) (horderly : old.Orderly) (hf : old.Inside c f)
    (hroot : old.fragmentRoot? f = some root) :
    Withered plan c old (page.editDom (·.remove root)) := by
  have hlive := (hold.role_of_fragmentRoot? hroot).1
  refine ⟨h.dom.remove fun x hx => ?_, h.root, fun g node hnode => ?_⟩
  · exact hold.sheds_of_below (hold.sheds_fragmentRoot? horderly hf hroot) (h.dom.below hx) hlive
  · refine (h.gone g node hnode).imp id fun hdead hstill => hdead ?_
    change (page.dom.remove root).Live node at hstill
    by_cases hthere : page.dom.Live root
    · exact (((Dom.remove_removed h.dom.valid hthere).live node).mp hstill).1
    · rwa [Dom.remove_of_not_live hthere] at hstill

theorem drop (hold : old.Laid reading plan) (horderly : old.Orderly) (hf : old.Inside c f) :
    Withered plan c old (page.drop f) := by
  unfold Page.drop
  cases hfelled : page.fragmentRoot? f with
  | none =>
      refine h.release fun root hroot => (h.gone f root hroot).resolve_left ?_
      rw [hfelled]
      exact (Option.some_ne_none root).symm
  | some root =>
      have hroot := h.root f root hfelled
      refine (h.remove hold horderly hf hroot).release fun node hnode => ?_
      rw [hroot, Option.some.injEq] at hnode
      exact hnode ▸ Dom.not_live_remove h.dom.valid root

end Withered

theorem Cut.withered (hold : old.Laid reading plan) (horderly : old.Orderly)
    (hcut : Cut (old.Inside c) page page') (h : Withered plan c old page) :
    Withered plan c old page' := by
  cases hcut with
  | unmount hf => exact h.unmount hf
  | letGo => exact h.letGo _
  | drop hf _ => exact h.drop hold horderly hf

theorem Laid.withered (h : page.Laid reading plan) (horderly : page.Orderly) (c : InstanceId) :
    Withered plan c page (page.retireAll c) := by
  have hcuts : ∀ {next}, ReflTransGen (Cut (page.Inside c)) page next →
      Withered plan c page next := by
    intro next hcuts
    induction hcuts with
    | refl => exact .refl h c
    | tail _ hcut ih => exact hcut.withered h horderly ih
  exact hcuts (retireAll_cuts horderly c)

/-! ### The store of a component that is taken down -/

theorem dom_dismantle (page : Page) (c : InstanceId) (state : ComponentState) :
    (page.dismantle c state).dom = ((if state.root = state.host then
      ((page.retireAll c).dom.children state.host).foldl Dom.remove (page.retireAll c).dom
      else (page.retireAll c).dom.remove state.root).detach state.host).1 := by
  unfold dismantle clearRoot
  dsimp only
  split
  · rename_i heq
    rw [heq]
    rfl
  · rfl

section Dismantled

variable {state : ComponentState} (h : page.Laid reading plan)
  (hstate : page.component? c = some state) (hconnected : state.connected = true)
  (horderly : page.Orderly)

include h hstate

/-- What lies under the host has been rendered. -/
theorem Laid.sheds_child (hx : page.dom.parent x = some state.host) : page.Sheds plan c x := by
  have hstands := h.component c state hstate
  have hne : state.host ≠ page.document := by
    intro heq
    have hrole := hstands.host_role
    rw [heq, h.document_role] at hrole
    cases hrole
  have hlive := (h.valid.live_of_parent hx).1
  refine ⟨?_, fun hrole => ?_⟩
  · obtain ⟨f, hf⟩ := h.owner_of_ne_document hlive (by
      rintro rfl
      rw [h.parent_document] at hx
      cases hx)
    rcases h.owner_of_parent hx hf with heq | ⟨o, ho, hcase⟩
    · exact absurd heq hne
    · rw [hstands.host_role] at ho
      cases ho
      rcases hcase with rfl | ⟨hup, _⟩
      · exact ⟨c, hf, .self⟩
      · exact ⟨f, hf, .of_up hup⟩
  · obtain ⟨_, hnone | hplace⟩ := h.fits_of_role hlive hrole
    · rw [hx] at hnone
      cases hnone
    · rw [hx, Option.some.injEq] at hplace
      exact hne hplace

include horderly in
/-- A rendered node is at the home of its component, below a rendered node or unlinked. -/
theorem Laid.sheds_parent (hx : page.Sheds plan c x) (hparent : page.dom.parent x = some p) :
    plan.home c = some p ∨ page.Sheds plan c p ∨ page.Loosens c x := by
  have hlive := (h.valid.live_of_parent hparent).1
  obtain ⟨⟨o, ho, hunder⟩, hhost⟩ := hx
  rcases h.parent_cases hparent with ⟨_, c', hrole⟩ | ⟨c', hrole, hplace⟩ |
    ⟨o', i, hhouses, hi, rfl | ⟨_, hroot⟩⟩
  · exact (h.not_sheds_host horderly hrole hlive ⟨⟨o, ho, hunder⟩, hhost⟩).elim
  · rw [hrole] at ho
    cases ho
    obtain ⟨hsome, _⟩ := h.fits_of_role hlive hrole
    obtain ⟨other, hother⟩ := Option.isSome_iff_exists.mp hsome
    obtain rfl := eq_of_under_component horderly hother hunder
    refine hplace.imp id fun hp => Or.inl ⟨⟨c, by rw [hp]; rfl, .self⟩, ?_⟩
    rw [hp]
    exact fun heq => (by cases heq)
  · rw [ho, Option.some.injEq] at hi
    subst hi
    rcases hhouses with hp | ⟨_, _, _, _, hp⟩
    · obtain ⟨other, hother, _⟩ := (h.home o p hp).state
      obtain rfl := eq_of_under_component horderly hother hunder
      exact Or.inl hp
    · refine Or.inr (Or.inl ⟨⟨o, by rw [hp]; rfl, hunder⟩, ?_⟩)
      rw [hp]
      exact fun heq => (by cases heq)
  · rw [ho, Option.some.injEq] at hi
    subst hi
    exact Or.inr (Or.inr (Or.inr ⟨o, Inside.of_root horderly hstate hroot hunder, hroot⟩))

include hconnected

theorem Laid.role_of_shadow (hne : state.root ≠ state.host) :
    page.dom.Live state.root ∧ plan.role state.root = .shadow c := by
  obtain ⟨hlive, hrole | hrole⟩ := (h.component c state hstate).root hconnected
  · exact absurd (h.eq_host hlive hrole hstate) hne
  · exact ⟨hlive, hrole⟩

include horderly

theorem Laid.pruned : Dom.Pruned (page.Loosens c) (page.Sheds plan c) page.dom
      (page.dismantle c state).dom ∧
    (∀ x, (page.dismantle c state).dom.Live x → (page.retireAll c).dom.Live x) ∧
    (state.root ≠ state.host → ¬ (page.dismantle c state).dom.Live state.root) ∧
    (state.root = state.host → (page.dismantle c state).dom.children state.host = []) ∧
    (page.dismantle c state).dom.parent state.host = none := by
  have hw := (h.withered horderly c).dom
  rw [dom_dismantle]
  generalize (page.retireAll c).dom = d at hw ⊢
  have hhost : page.Loosens c state.host := Or.inl ⟨state, hstate, rfl⟩
  split
  · rename_i heq
    have hkids : ∀ k ∈ d.children state.host, ∀ x, d.Below k x → page.Sheds plan c x := by
      intro k hk x hx
      have hk' := hw.link k _ ((hw.valid.mem_children _ k).mp hk)
      exact h.sheds_of_below (h.sheds_child hstate hk') (hw.below hx)
        (h.valid.live_of_parent hk').1
    have hcleared := hw.removeAll hkids
    have hfrom : Dom.Pruned (fun _ => False) (fun _ => True) d
        ((d.children state.host).foldl Dom.remove d) :=
      (Dom.Pruned.refl hw.valid).removeAll fun _ _ _ _ => trivial
    have hunlinked := Dom.detach_unlinked hcleared.valid state.host
    refine ⟨hcleared.detach hhost, fun x hx => hfrom.live x ((hunlinked.live x).mp hx),
      fun hne => absurd heq hne, fun _ => ?_, ?_⟩
    · have hself := (Dom.foldl_remove_cleared hw.valid state.host).self hw.valid
      rw [hunlinked.children, Dom.children, hself, List.filter_nil]
    · rw [hunlinked.parent, if_pos rfl]
  · rename_i hne
    obtain ⟨hlive, hrole⟩ := h.role_of_shadow hstate hconnected hne
    have hsheds : page.Sheds plan c state.root :=
      ⟨⟨c, by rw [hrole]; rfl, .self⟩, by rw [hrole]; exact fun heq => (by cases heq)⟩
    have hcleared := hw.remove fun x hx => h.sheds_of_below hsheds (hw.below hx) hlive
    have hfrom : Dom.Pruned (fun _ => False) (fun _ => True) d (d.remove state.root) :=
      (Dom.Pruned.refl hw.valid).remove fun _ _ => trivial
    have hunlinked := Dom.detach_unlinked hcleared.valid state.host
    refine ⟨hcleared.detach hhost, fun x hx => hfrom.live x ((hunlinked.live x).mp hx),
      fun _ hdead => ?_, fun heq => absurd heq hne, ?_⟩
    · exact Dom.not_live_remove hw.valid state.root ((hunlinked.live state.root).mp hdead)
    · rw [hunlinked.parent, if_pos rfl]

/-- The elements of the fragments are freed with their slots. -/
theorem Laid.felled_of_loosens (hx : page.Sheds plan c x) (hloose : page.Loosens c x) :
    ¬ (page.dismantle c state).dom.Live x := by
  obtain ⟨_, hretired, _⟩ := h.pruned hstate hconnected horderly
  intro hlive
  rcases hloose with ⟨other, hother, rfl⟩ | ⟨f, hf, hroot⟩
  · exact hx.2 (h.component_role hother)
  · refine ((h.withered horderly c).gone f x hroot).elim (fun hstill => ?_) fun hdead =>
      hdead (hretired x hlive)
    rw [fragmentRoot?, fragment?, (retireAll_cleared horderly c).emptied f hf] at hstill
    cases hstill

/-- Nothing is left at the home of the component. -/
theorem Laid.bare_home (hhome : ∀ n, plan.home c = some n → n = state.root)
    (hparent : (page.dismantle c state).dom.parent x = some p) : plan.home c ≠ some p := by
  obtain ⟨hpruned, _, hshadow, hkids, _⟩ := h.pruned hstate hconnected horderly
  intro hp
  rw [hhome p hp] at hparent
  by_cases heq : state.root = state.host
  · have hmem := (hpruned.valid.mem_children _ x).mpr hparent
    rw [heq, hkids heq] at hmem
    cases hmem
  · exact hshadow heq (hpruned.valid.live_of_parent hparent).2

/-- A rendered node without a parent is the root of its component or unlinked. -/
theorem Laid.sheds_orphan (hhome : ∀ n, plan.home c = some n → n = state.root)
    (hx : page.Sheds plan c x) (hlive : page.dom.Live x) (hparent : page.dom.parent x = none) :
    (x = state.root ∧ state.root ≠ state.host) ∨ page.Loosens c x := by
  have hstands := h.component c state hstate
  obtain ⟨⟨o, ho, hunder⟩, hhost⟩ := hx
  have hfits := h.fits x hlive
  have hnot : ∀ {P : NodeId → Prop}, ¬ ∃ p, page.dom.parent x = some p ∧ P p := by
    rintro P ⟨p, hp, _⟩
    rw [hparent] at hp
    cases hp
  generalize hrole : plan.role x = role at hfits ho
  cases role with
  | document => cases ho
  | host c' =>
      exact (h.not_sheds_host horderly hrole hlive ⟨⟨o, hrole ▸ ho, hunder⟩, hhost⟩).elim
  | shadow c' =>
      cases ho
      obtain ⟨⟨other, hother, _, hroot⟩, _⟩ := hfits
      obtain rfl := eq_of_under_component horderly hother hunder
      rw [hstate, Option.some.injEq] at hother
      subst hother
      refine Or.inl ⟨hroot.symm, fun heq => ?_⟩
      rw [← hroot, heq, hstands.host_role] at hrole
      cases hrole
  | copy c' =>
      cases ho
      obtain ⟨other, hother, _⟩ := (h.home o x hfits.1).state
      obtain rfl := eq_of_under_component horderly hother hunder
      have hroot := hhome x hfits.1
      obtain ⟨_, hrole' | hrole'⟩ := hstands.root hconnected <;>
      · rw [← hroot, hrole] at hrole'
        cases hrole'
  | style c' => exact (hnot hfits.2).elim
  | line o' sketch =>
      cases ho
      rcases hfits.2.2 with hroot | hhouses
      · exact Or.inr (Or.inr ⟨o, Inside.of_root horderly hstate hroot hunder, hroot⟩)
      · exact (hnot hhouses).elim
  | slot o' guard body => exact (hnot hfits.2).elim
  | anchor o' f guard body => exact (hnot hfits.2.2.2.2).elim

/-- Every node that the component rendered is freed. -/
theorem Laid.shed (hhome : ∀ n, plan.home c = some n → n = state.root)
    (hx : page.Sheds plan c x) : ¬ (page.dismantle c state).dom.Live x := by
  obtain ⟨hpruned, _, hshadow, _⟩ := h.pruned hstate hconnected horderly
  intro hlive
  revert hx
  -- Upwards from a node that is left, everything would be left, but at the top nothing is.
  refine hpruned.valid.induction_up (P := fun x => ¬ page.Sheds plan c x) (fun x hlive ih hx => ?_)
    hlive
  have hfixed : ¬ page.Loosens c x := fun hx' =>
    h.felled_of_loosens hstate hconnected horderly hx hx' hlive
  have hparent := hpruned.parent x hlive hfixed
  cases hup : page.dom.parent x with
  | some p =>
      rw [hup] at hparent
      rcases h.sheds_parent hstate horderly hx hup with hp | hp | hx'
      · exact h.bare_home hstate hconnected horderly hhome hparent hp
      · exact ih p hparent hp
      · exact hfixed hx'
  | none =>
      rcases h.sheds_orphan hstate hconnected horderly hhome hx (hpruned.live x hlive) hup with
        ⟨rfl, hne⟩ | hx'
      · exact hshadow hne hlive
      · exact hfixed hx'

/-! ### The layout of what is left -/

/-- What does not belong to the component stays. -/
theorem Laid.left_of_not_owns (hx : page.dom.Live x) (hnot : ¬ page.Owns plan c x) :
    (page.dismantle c state).dom.Live x ∧
      (page.dismantle c state).dom.content x = page.dom.content x ∧
        (page.dismantle c state).dom.parent x = page.dom.parent x := by
  obtain ⟨hpruned, _⟩ := h.pruned hstate hconnected horderly
  have hlive := hpruned.stays x hx fun hsheds => hnot hsheds.1
  exact ⟨hlive, hpruned.content x hlive,
    hpruned.parent x hlive fun hloose => hnot (h.owns_of_loosens horderly hloose)⟩

theorem Laid.left_children (hnot : ¬ page.Owns plan c p) (hne : p ≠ page.document) :
    (page.dismantle c state).dom.children p = page.dom.children p := by
  obtain ⟨hpruned, _⟩ := h.pruned hstate hconnected horderly
  refine hpruned.children_eq h.valid fun x hx => ?_
  have hparent := (h.valid.mem_children p x).mp hx
  have hkid : ¬ page.Owns plan c x := fun howns =>
    (h.owns_parent horderly hstate howns hparent).elim hne hnot
  exact ⟨fun hsheds => hkid hsheds.1, fun hloose => hkid (h.owns_of_loosens horderly hloose)⟩

/-- What taking `c` down leaves: all that does not belong to `c`, as it was, and the host of `c`. -/
structure Left (plan : Plan) (c : InstanceId) (page page' : Page) : Prop where
  document : page'.document = page.document
  slot : ∀ i, ¬ page.Under c i → page'.slot i = page.slot i
  there : ∀ i, (page'.slot i).isVacant = false → i ≠ c → ¬ page.Under c i
  live : ∀ n, page'.dom.Live n → page.dom.Live n ∧ (plan.role n ≠ .host c → ¬ page.Owns plan c n)
  node : ∀ n, page.dom.Live n → ¬ page.Owns plan c n → page'.dom.Live n ∧
    page'.dom.content n = page.dom.content n ∧ page'.dom.parent n = page.dom.parent n
  children : ∀ n, ¬ page.Owns plan c n → n ≠ page.document →
    page'.dom.children n = page.dom.children n
  link : ∀ x p, page'.dom.parent x = some p → page.dom.parent x = some p

theorem Laid.left (hhome : ∀ n, plan.home c = some n → n = state.root) :
    Left plan c page (page.dismantle c state) := by
  obtain ⟨hpruned, _⟩ := h.pruned hstate hconnected horderly
  have hempty : Emptied c page (page.dismantle c state) :=
    dismantle_emptied horderly (by rw [hstate]; rfl)
  exact {
    document := hempty.document
    slot := fun i hi =>
      hempty.other i (fun heq => hi (heq ▸ .self)) fun hin => hi (hin.under horderly)
    there := fun i hi hne hunder => by
      rw [hempty.inside i (.of_under horderly hunder hne)] at hi
      cases hi
    live := fun n hn => ⟨hpruned.live n hn, fun hne howns =>
      h.shed hstate hconnected horderly hhome ⟨howns, hne⟩ hn⟩
    node := fun n hn hnot => h.left_of_not_owns hstate hconnected horderly hn hnot
    children := fun n hnot hne => h.left_children hstate hconnected horderly hnot hne
    link := hpruned.link }

end Dismantled

theorem not_owns_of_owner (howner : (plan.role n).owner? = some o) (hnot : ¬ page.Under c o) :
    ¬ page.Owns plan c n := by
  rintro ⟨i, hi, hunder⟩
  rw [howner, Option.some.injEq] at hi
  exact hnot (hi ▸ hunder)

namespace Left

variable (hleft : Left plan c page page') (h : page.Laid reading plan)

include hleft h

theorem of_owner (hn : page.dom.Live n) (howner : (plan.role n).owner? = some o)
    (hnot : ¬ page.Under c o) :
    page'.dom.Live n ∧ page'.dom.children n = page.dom.children n := by
  have howns := not_owns_of_owner howner hnot
  refine ⟨(hleft.node n hn howns).1, hleft.children n howns ?_⟩
  rintro rfl
  rw [h.document_role] at howner
  cases howner

theorem fits {state : ComponentState} (horderly : page.Orderly)
    (hstate : page.component? c = some state) (hn : page.dom.Live n)
    (hnot : ¬ page.Owns plan c n) :
    page'.Fits ⟨plan.role, Function.update plan.home c none⟩ n (plan.role n) := by
  obtain ⟨_, hcontent, hparent⟩ := hleft.node n hn hnot
  have hnames := fun i hi => h.not_under_of_mem_names (g := i) horderly hstate hn hnot hi
  refine (h.fits n hn).mono hleft.document (fun i hi => .of_slot (hleft.slot i (hnames i hi)))
    (fun i hi m hm => ?_) (fun hsuits => hcontent.symm ▸ hsuits) hparent fun _ _ => rfl
  refine (Function.update_of_ne ?_ _ _).trans hm
  rintro rfl
  exact hnames i hi .self

theorem sits {state : FragmentState} (hf : page'.fragment? f = some state) (hne : f ≠ c) :
    ∃ o guard body,
      page'.Sits ⟨plan.role, Function.update plan.home c none⟩ f state o guard body := by
  have hnot := hleft.there f (Instance.not_vacant_of_fragment? hf) hne
  rw [fragment?, hleft.slot f hnot] at hf
  obtain ⟨o, guard, body, hsits⟩ := h.fragment f state hf
  have hout : ¬ page.Under c o := fun hunder => hnot (.step hsits.up hunder)
  have hroots : ∀ root, state.root = some root → page'.dom.Live root := fun root hroot =>
    (hleft.of_owner h (hsits.root root hroot).1 (by rw [(hsits.root root hroot).2]; rfl) hnot).1
  exact ⟨o, guard, body, {
    up := by
      rw [up, hleft.slot f hnot]
      exact hsits.up
    anchor_live :=
      (hleft.of_owner h hsits.anchor_live (by rw [hsits.anchor_role]; rfl) hout).1
    anchor_role := hsits.anchor_role
    tells := hsits.tells
    proper := hsits.proper
    element := hsits.element
    locals := hsits.locals
    root := fun root hroot => ⟨hroots root hroot, (hsits.root root hroot).2⟩
    rendered := hsits.rendered
    attached := fun root hroot hattached => by
      obtain ⟨p, hp⟩ := hsits.attached root hroot hattached
      obtain ⟨q, hq, hqlive, hhouses⟩ := h.house_of_anchor hsits
      have hpq := (h.valid.mem_children p _).mp (hp.subset List.mem_cons_self)
      rw [hq, Option.some.injEq] at hpq
      subst hpq
      exact ⟨q, by rwa [(hleft.of_owner h hqlive (h.owner_of_houses hhouses) hout).2]⟩
    detached := fun root hroot hdetached => by
      have hnone := hsits.detached root hroot hdetached
      refine Option.eq_none_iff_forall_ne_some.mpr fun p hp => ?_
      rw [hleft.link root p hp] at hnone
      cases hnone }⟩

theorem stands {state : ComponentState} (hstate : page'.component? g = some state) (hne : g ≠ c) :
    page'.Stands reading ⟨plan.role, Function.update plan.home c none⟩ g state := by
  have hnot := hleft.there g (Instance.not_vacant_of_component? hstate) hne
  rw [component?, hleft.slot g hnot] at hstate
  have hstands := h.component g state hstate
  refine ⟨(hleft.of_owner h hstands.host_live (by rw [hstands.host_role]; rfl) hnot).1,
    hstands.host_role, fun hconnected => ?_, hstands.tells, hstands.proper⟩
  obtain ⟨hlive, hrole⟩ := hstands.root hconnected
  refine ⟨(hleft.of_owner h hlive ?_ hnot).1, hrole⟩
  rcases hrole with hrole | hrole <;> rw [hrole] <;> rfl

theorem dwells (horderly : page.Orderly) (hhome : plan.home g = some n) (hne : g ≠ c) :
    page'.Dwells reading ⟨plan.role, Function.update plan.home c none⟩ g n := by
  have hdwells := h.home g n hhome
  obtain ⟨state, hstate, hconnected, hlines⟩ := hdwells.state
  have hnot : ¬ page.Under c g := fun hunder =>
    hne (eq_of_under_component horderly hstate hunder).symm
  obtain ⟨hlive, hkids⟩ := hleft.of_owner h hdwells.live (o := g)
    (by rcases hdwells.role with hrole | hrole | hrole <;> rw [hrole] <;> rfl) hnot
  refine ⟨hlive, hdwells.role, state, ?_, hconnected, ?_⟩
  · rw [component?, hleft.slot g hnot]
    exact hstate
  · rw [hkids]
    exact hlines

end Left

/-- The rest of a page keeps its layout when a component is taken down. -/
theorem Laid.dismantle {state : ComponentState} (h : page.Laid reading plan)
    (hstate : page.component? c = some state) (hconnected : state.connected = true)
    (horderly : page.Orderly) (hhome : ∀ n, plan.home c = some n → n = state.root) :
    (page.dismantle c state).Laid reading ⟨plan.role, Function.update plan.home c none⟩ := by
  obtain ⟨hpruned, _, _, _, hloose⟩ := h.pruned hstate hconnected horderly
  have hleft := h.left hstate hconnected horderly hhome
  have hself : (page.dismantle c state).component? c =
      some { state with references := .empty, connected := false, root := state.host } := by
    rw [component?, (dismantle_emptied horderly (by rw [hstate]; rfl)).self, resetComponent_eq hstate]
    rfl
  have hstands := h.component c state hstate
  have hdocument : ¬ page.Owns plan c page.document := by
    rintro ⟨o, ho, _⟩
    rw [h.document_role] at ho
    cases ho
  exact {
    valid := hpruned.valid
    document_live := by
      rw [hleft.document]
      exact (hleft.node _ h.document_live hdocument).1
    document_role := by
      rw [hleft.document]
      exact h.document_role
    fits := fun n hn => by
      change (page.dismantle c state).Fits _ n (plan.role n)
      obtain ⟨hlive, hnot⟩ := hleft.live n hn
      by_cases hhost : plan.role n = .host c
      · obtain rfl := h.eq_host hlive hhost hstate
        rw [hhost]
        exact ⟨⟨_, hself, rfl⟩, Or.inl hloose⟩
      · exact hleft.fits h horderly hstate hlive (hnot hhost)
    lines := fun n i tag attributes bindings kids hn hrole => by
      have hrole' : plan.role n = .line i (.element tag attributes bindings kids) := hrole
      obtain ⟨hlive, hnot⟩ := hleft.live n hn
      rw [hleft.children n (hnot (by rw [hrole']; exact fun heq => (by cases heq)))]
      · exact h.lines n i tag attributes bindings kids hlive hrole
      · rintro rfl
        rw [h.document_role] at hrole'
        cases hrole'
    fragment := fun f state' hf => hleft.sits h hf (by
      rintro rfl
      rw [fragment?, Instance.fragment?_of_component? hself] at hf
      cases hf)
    component := fun g other hother => by
      by_cases hg : g = c
      · subst hg
        rw [hself, Option.some.injEq] at hother
        subst hother
        exact ⟨hpruned.stays _ hstands.host_live fun hsheds => hsheds.2 hstands.host_role,
          hstands.host_role, fun hfalse => (by cases hfalse), hstands.tells, hstands.proper⟩
      · exact hleft.stands h hother hg
    home := fun g n hn => by
      have hg : g ≠ c := by
        rintro rfl
        have hnone : Function.update plan.home g none g = some n := hn
        rw [Function.update_self] at hnone
        cases hnone
      exact hleft.dwells h horderly ((Function.update_of_ne hg _ _).symm.trans hn) hg }

end LiveMarkup.Page
