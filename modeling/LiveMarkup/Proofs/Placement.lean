import LiveMarkup.Proofs.Page.Lifetime
import Mathlib.Data.Nat.Count

/-!
Where fragments are. Whatever was asked of a page, the anchor of every fragment is among the nodes that
the instance around the fragment has rendered, the element of a mounted fragment is right after the
anchor, and mounts are counted right.
-/

namespace LiveMarkup

/-- A component whose template was read from markup, and whose scripts leave the document alone. -/
structure Component.FromMarkup (definition : Component) : Prop where
  compiled : ∃ (r : Registry) (markup : String) (made : Shared Blueprint), r.Reached ∧
    (r.compile markup).1 = .ok made ∧ definition.blueprint = made.value
  edits : definition.Edits fun _ => False

theorem Component.FromMarkup.ofMarkup {markup : String}
    (hcompiles : (Registry.builtin.compile markup).1.isOk = true) (tag : String) :
    (Component.ofMarkup tag markup).FromMarkup := by
  cases hmade : (Registry.builtin.compile markup).1 with
  | error e =>
      rw [hmade] at hcompiles
      cases hcompiles
  | ok made =>
      rw [Component.ofMarkup, hmade]
      refine ⟨⟨.builtin, markup, made, .builtin, hmade, rfl⟩, ⟨fun hooks hsome => ?_,
        fun name body hget => ?_⟩⟩
      · cases hsome
      · cases hget

theorem Component.FromMarkup.addProperty {definition : Component} (h : definition.FromMarkup)
    (name : String) (spec : PropertySpec) : (definition.addProperty name spec).FromMarkup :=
  ⟨h.compiled, ⟨h.edits.hooks, h.edits.methods⟩⟩

theorem Component.FromMarkup.addMethod {definition : Component} (h : definition.FromMarkup)
    (name : String) {body : Script} (hbody : body.Edits fun _ => False) :
    (definition.addMethod name body).FromMarkup := by
  refine ⟨h.compiled, ⟨h.edits.hooks, fun other found hget => ?_⟩⟩
  rw [Component.addMethod, Dict.get?_insert] at hget
  split at hget
  · cases hget
    exact hbody
  · exact h.edits.methods other found hget

/-- The lines of templates that were read from markup. -/
theorem exists_reading : ∃ reading : Blueprint → List Sketch, ∀ definition : Component,
    definition.FromMarkup → Page.Legible reading definition := by
  classical
  refine ⟨fun blueprint => if h : ∃ sketches, blueprint.Says sketches ∧ Sketch.ProperAll sketches
    then h.choose else [], fun definition hdefinition => ?_⟩
  obtain ⟨r, markup, made, hreached, hmade, heq⟩ := hdefinition.compiled
  obtain ⟨sketches, hsketches, hsaid⟩ := Registry.compile_says hreached.honest hmade
  have hexists : ∃ sketches, definition.blueprint.Says sketches ∧ Sketch.ProperAll sketches :=
    ⟨sketches, heq ▸ hsaid, Sketch.proper_of_markup hsketches⟩
  rw [Page.Legible, dif_pos hexists]
  exact hexists.choose_spec

namespace Page

variable {reading : Blueprint → List Sketch} {known : Component → Prop} {page page' : Page}
  {plan : Plan}
  {n root document : NodeId} {c f o : InstanceId} {state : FragmentState}

/-- The node below which a connected component or a rendered fragment has its nodes. -/
def base? (page : Page) (o : InstanceId) : Option NodeId :=
  match (page.slot o).kind with
  | .component state => if state.connected then some state.root else none
  | .fragment state => state.root
  | .vacant => none

/-- The nodes of a fragment are in their places. -/
structure InPlace (page : Page) (f : InstanceId) (state : FragmentState) : Prop where
  anchor : page.dom.Live state.anchor ∧ page.dom.content state.anchor = .comment anchorText
  inside : ∃ o base p, (page.slot f).parent = some o ∧ page.base? o = some base ∧
    page.dom.parent state.anchor = some p ∧ page.dom.contains base p = true
  attached : state.attached = true → ∃ root p before after, state.root = some root ∧
    page.dom.Live root ∧ (page.dom.content root).isElement = true ∧
      page.dom.parent state.anchor = some p ∧
        page.dom.children p = before ++ state.anchor :: root :: after
  detached : state.attached = false → ∀ root, state.root = some root →
    page.dom.Live root ∧ page.dom.parent root = none

/-- Fragments are in their places, as many are attached as were mounted and not unmounted, and no mount
has skipped its fragment. -/
structure Settled (page : Page) : Prop where
  place : ∀ f state, page.fragment? f = some state → page.InPlace f state
  count : page.stats.mounts =
    page.stats.unmounts + Nat.count (fun i => page.isMounted ⟨i⟩ = true) page.slots.size
  skipped : ∀ f, Notice.anchorDetached f ∉ page.notices ∧ Notice.rootMissing f ∉ page.notices

theorem base?_of_component {state : ComponentState} (hstate : page.component? c = some state)
    (hconnected : state.connected = true) : page.base? c = some state.root := by
  rw [base?, Instance.kind_of_component? hstate]
  exact if_pos hconnected

theorem base?_of_fragmentRoot? (hroot : page.fragmentRoot? f = some root) :
    page.base? f = some root := by
  obtain ⟨state, hstate, hroot⟩ := Option.bind_eq_some_iff.mp hroot
  rw [base?, Instance.kind_of_fragment? hstate]
  exact hroot

/-- What houses the lines of an instance is below what it has rendered. -/
theorem Rested.below_base (h : page.Rested reading plan) (hn : page.dom.Live n)
    (hhouses : plan.Houses o n) : ∃ base, page.base? o = some base ∧ page.dom.Below base n := by
  have hlaid := h.busy.laid
  have hstep : ∀ n, page.dom.Live n → (∀ p, page.dom.parent n = some p → plan.Houses o p →
      ∃ base, page.base? o = some base ∧ page.dom.Below base p) → plan.Houses o n →
        ∃ base, page.base? o = some base ∧ page.dom.Below base n := by
    rintro n hn ih (hhome | ⟨tag, attributes, bindings, kids, hline⟩)
    · obtain ⟨state, hstate, rfl⟩ := h.home o n hhome
      obtain ⟨other, hother, hconnected, _⟩ := (hlaid.home o _ hhome).state
      rw [hstate, Option.some.injEq] at hother
      exact ⟨state.root, base?_of_component hstate (hother ▸ hconnected), .self⟩
    · obtain ⟨_, _, hroot | ⟨p, hp, hhouses⟩⟩ := hlaid.fits_of_role hn hline
      · exact ⟨n, base?_of_fragmentRoot? hroot, .self⟩
      · obtain ⟨base, hbase, hbelow⟩ := ih p hp hhouses
        exact ⟨base, hbase, .step hp hbelow⟩
  exact hlaid.valid.induction_up (P := fun n => plan.Houses o n →
    ∃ base, page.base? o = some base ∧ page.dom.Below base n) hstep hn hhouses

theorem Rested.inPlace (h : page.Rested reading plan) (hstate : page.fragment? f = some state) :
    page.InPlace f state := by
  have hlaid := h.busy.laid
  obtain ⟨o, guard, body, hsits⟩ := hlaid.fragment f state hstate
  obtain ⟨p, hp, hlive, hhouses⟩ := hlaid.house_of_anchor hsits
  obtain ⟨_, hcontent, _⟩ := hlaid.fits_of_role hsits.anchor_live hsits.anchor_role
  obtain ⟨base, hbase, hbelow⟩ := h.below_base hlive hhouses
  refine ⟨⟨hsits.anchor_live, hcontent⟩, ⟨o, base, p, hsits.up, hbase, hp,
    (Dom.contains_iff hlaid.valid hlive).mpr hbelow⟩, fun hattached => ?_, fun hdetached root hroot =>
    ⟨(hsits.root root hroot).1, hsits.detached root hroot hdetached⟩⟩
  obtain ⟨root, hroot⟩ := hsits.rendered hattached
  obtain ⟨hrootlive, hrole⟩ := hsits.root root hroot
  obtain ⟨q, before, after, hq⟩ := hsits.attached root hroot hattached
  have hsuits := (hlaid.fits_of_role hrootlive hrole).2.1
  have hkids : page.dom.children q = before ++ state.anchor :: root :: after := by
    rw [← hq]
    simp
  refine ⟨root, q, before, after, hroot, hrootlive, ?_, ?_, hkids⟩
  · have helement := hsits.element
    cases body with
    | element tag attributes bindings kids =>
        obtain ⟨held, hheld⟩ := hsuits
        rw [hheld]
        rfl
    | fixed _ | text _ | guarded _ _ => cases helement
  · refine (hlaid.valid.mem_children q state.anchor).mp ?_
    rw [hkids]
    simp

theorem Balanced.count_eq (h : page.Balanced) : page.stats.mounts =
    page.stats.unmounts + Nat.count (fun i => page.isMounted ⟨i⟩ = true) page.slots.size := by
  obtain ⟨mounted, hmem, hcount⟩ := h.count
  have hmounted : mounted = ((Finset.range page.slots.size).filter fun i =>
      page.isMounted ⟨i⟩ = true).image InstanceId.mk := by
    ext f
    rw [hmem, Finset.mem_image]
    constructor
    · intro hf
      refine ⟨f.number, Finset.mem_filter.mpr ⟨Finset.mem_range.mpr ?_, hf⟩, rfl⟩
      refine lt_size_of_not_vacant (Bool.eq_false_iff.mpr fun hvacant => ?_)
      rw [isMounted_of_vacant hvacant] at hf
      cases hf
    · rintro ⟨i, hi, rfl⟩
      exact (Finset.mem_filter.mp hi).2
  rw [hcount, hmounted, Finset.card_image_of_injective _ fun _ _ heq => InstanceId.mk.inj heq,
    Nat.count_eq_card_filter_range]

theorem Rested.settled (h : page.Rested reading plan) : page.Settled where
  place f state hstate := h.inPlace hstate
  count := h.balanced.count_eq
  skipped f := by
    constructor
    · exact fun hmem => by cases h.balanced.notices _ hmem
    · exact fun hmem => by cases h.balanced.notices _ hmem

/-- The empty document is at rest. -/
theorem start_rested (reading : Blueprint → List Sketch) (styles : StyleAttacher) :
    (start styles).Rested reading ⟨fun _ => .document, fun _ => none⟩ := by
  have hmade : Dom.Made .fragment (start styles).document .empty (start styles).dom :=
    Dom.create_made Dom.empty_valid .fragment
  have hslot := slot_start styles
  have hlive : ∀ n, (start styles).dom.Live n ↔ n = (start styles).document := by
    intro n
    rw [hmade.live_iff, or_iff_left]
    rw [Dom.Live, Dom.node_of_size_le (Nat.zero_le _)]
    exact Bool.noConfusion
  have hnone : (start styles).dom.parent (start styles).document = none := by
    rw [Dom.parent, hmade.node, if_pos rfl]
    rfl
  have hempty : ∀ i, (start styles).component? i = none ∧ (start styles).fragment? i = none := by
    intro i
    rw [component?, fragment?, hslot]
    exact ⟨rfl, rfl⟩
  refine ⟨⟨{
    valid := hmade.valid
    document_live := hmade.live
    document_role := rfl
    fits := fun n hn => ⟨(hlive n).mp hn, by rw [(hlive n).mp hn, hnone]⟩
    lines := fun _ _ _ _ _ _ _ hrole => by cases hrole
    fragment := fun f state hstate => by
      rw [(hempty f).2] at hstate
      cases hstate
    component := fun c state hstate => by
      rw [(hempty c).1] at hstate
      cases hstate
    home := fun _ _ hhome => by cases hhome }, (start_orderly styles).acyclic, fun o e he => ?_,
    fun _ hmem => absurd hmem List.not_mem_nil, List.Pairwise.nil⟩, ⟨⟨∅, fun f => ?_, rfl⟩,
    fun _ hmem => absurd hmem (Array.not_mem_empty _)⟩, fun _ _ hhome => by cases hhome⟩
  · rw [hslot] at he
    exact absurd he Bindings.not_holds_empty
  · rw [isMounted, (hempty f).2]
    simp

theorem start_tidy (reading : Blueprint → List Sketch) (known : Component → Prop)
    (styles : StyleAttacher) :
    (start styles).Tidy reading known (start styles).document where
  rested := ⟨_, start_rested reading styles⟩
  document := rfl
  declared tag definition hget := by cases hget
  made c state hstate := by
    rw [component?, slot_start] at hstate
    cases hstate

theorem tidy_after {styles : StyleAttacher} {requests : List Request}
    (hplain : ∀ request ∈ requests,
      request.Plain (Component.Native reading known) (start styles).document) :
    (after styles requests).Tidy reading known (start styles).document := by
  induction requests using List.reverseRecOn with
  | nil => exact start_tidy reading known styles
  | append_singleton requests request ih =>
      rw [after_append]
      exact (ih fun other hother => hplain other (List.mem_append_left _ hother)).serve
        (awaits_after styles requests)
        (hplain request (List.mem_append_right _ (List.mem_singleton_self request)))

/-- Whatever is asked of components that were read from markup and are connected under the document,
their fragments are in their places. -/
theorem settled_after (styles : StyleAttacher) (requests : List Request)
    (hplain : ∀ request ∈ requests,
      request.Plain Component.FromMarkup (start styles).document) :
    (after styles requests).Settled := by
  obtain ⟨reading, hreading⟩ := exists_reading
  have htidy : (after styles requests).Tidy reading (fun _ => True) (start styles).document :=
    tidy_after fun request hrequest => (hplain request hrequest).imp fun definition hfrom =>
      ⟨hreading definition hfrom, hfrom.edits, trivial⟩
  obtain ⟨plan, hrested⟩ := htidy.rested
  exact hrested.settled

/-- The count is shown once it is one; its fragment is then taken out and put back by hand. -/
def countAndToggle : List Request :=
  countToOne ++ [.runFrame, .unmount ⟨1⟩, .mount ⟨1⟩]

theorem plain_countAndToggle : ∀ request ∈ countAndToggle,
    request.Plain Component.FromMarkup (start .elements).document := by
  have hcounter : counter.FromMarkup :=
    Component.FromMarkup.addProperty (.ofMarkup (by decide +kernel) "x-counter") "n" _
  intro request hrequest
  simp only [countAndToggle, countToOne, List.cons_append, List.nil_append, List.mem_cons,
    List.not_mem_nil, or_false] at hrequest
  rcases hrequest with rfl | rfl | rfl | rfl | rfl | rfl | rfl
  · exact hcounter
  · trivial
  · rfl
  all_goals trivial

theorem settled_after_toggle :
    (∀ request ∈ countAndToggle, request.Plain Component.FromMarkup (start .elements).document) ∧
      (after .elements countAndToggle).isMounted ⟨1⟩ = true ∧
        (after .elements countAndToggle).Settled :=
  ⟨plain_countAndToggle, by decide +kernel, settled_after .elements countAndToggle plain_countAndToggle⟩

end Page

end LiveMarkup
