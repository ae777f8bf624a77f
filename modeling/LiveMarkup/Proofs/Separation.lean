import LiveMarkup.Proofs.Dom.Copies
import LiveMarkup.Proofs.Page.Alone
import LiveMarkup.Proofs.Page.Attuned

/-!
# Components apart

Taking a component down leaves every other one as it is: the slots of the other instances, the nodes
below their hosts and below what they have rendered, and the markup that they show
(`disconnect_unharmed`). A component that is connected, worked with and taken down again has left
nothing behind (`disconnect_returned`): the same nodes are live as before, as many instances are there,
and all that is left of the component is its host and its fields.
-/

namespace LiveMarkup

/-! ### The markup of a tree -/

namespace Tree

variable {α : Type}

theorem htmlAll_map_congr {f g : α → Tree} {items : List α}
    (h : ∀ x ∈ items, (f x).html = (g x).html) :
    htmlAll (items.map f) = htmlAll (items.map g) := by
  induction items with
  | nil => rfl
  | cons x rest ih =>
      rw [List.forall_mem_cons] at h
      rw [List.map_cons, List.map_cons, htmlAll, htmlAll, h.1, ih h.2]

end Tree

namespace Dom

variable {d d' : Dom} {n : NodeId}

/-- The markup of a node is written from the contents of what lies below it; markers do not show. -/
theorem html_congr (h : d.Valid) (h' : d'.Valid) (hn : d.Live n)
    (hcontent : ∀ x, d.Below n x → d'.content x = d.content x)
    (hchildren : ∀ x, d.Below n x → d'.children x = d.children x) : d'.html n = d.html n := by
  have hstep : ∀ x, d.Live x → (∀ c ∈ d.children x, d.Below n c → d'.html c = d.html c) →
      d.Below n x → d'.html x = d.html x := by
    intro x _ ih hx
    have hkids : Tree.htmlAll ((d.children x).map d'.tree) = Tree.htmlAll ((d.children x).map d.tree) :=
      Tree.htmlAll_map_congr fun c hc => ih c hc (hx.trans (h.below_of_mem_children hc))
    rw [html, html, tree_eq h, tree_eq h', hcontent x hx, hchildren x hx]
    cases d.content x <;> simp only [Tree.html, hkids]
  exact h.induction (P := fun x => d.Below n x → d'.html x = d.html x) hstep hn .self

theorem innerHtml_congr (h : d.Valid) (h' : d'.Valid) (hn : d.Live n)
    (hcontent : ∀ x, d.Below n x → d'.content x = d.content x)
    (hchildren : ∀ x, d.Below n x → d'.children x = d.children x) :
    d'.innerHtml n = d.innerHtml n := by
  rw [innerHtml, innerHtml, tree_eq h, tree_eq h', hchildren n .self]
  refine Tree.htmlAll_map_congr fun c hc => ?_
  have hbelow := h.below_of_mem_children hc
  exact html_congr h h' (h.live_below hbelow hn) (fun x hx => hcontent x (hbelow.trans hx))
    fun x hx => hchildren x (hbelow.trans hx)

end Dom

namespace Page

variable {reading : Blueprint → List Sketch} {known : Component → Prop} {page page' hooked : Page}
  {plan : Plan} {n x document : NodeId} {c i : InstanceId} {state : ComponentState}

/-! ### Nodes of other components -/

/-- A node that an instance has its nodes below: a host, or what they are rendered into. -/
inductive Bears (page : Page) (i : InstanceId) : NodeId → Prop where
  | host {state : ComponentState} : page.component? i = some state → Bears page i state.host
  | base {n : NodeId} : page.base? i = some n → Bears page i n

theorem Laid.owner_of_bears (h : page.Laid reading plan) (hn : page.Bears i n) :
    page.dom.Live n ∧ (plan.role n).owner? = some i := by
  cases hn with
  | host hstate =>
      have hstands := h.component i _ hstate
      exact ⟨hstands.host_live, congrArg Role.owner? hstands.host_role⟩
  | base hbase =>
      unfold base? at hbase
      split at hbase
      · rename_i state hkind
        split at hbase
        · rename_i hconnected
          cases hbase
          have hstate : page.component? i = some state := by
            rw [component?, Instance.component?, hkind]
          obtain ⟨hlive, hrole⟩ := (h.component i state hstate).root hconnected
          refine ⟨hlive, ?_⟩
          rcases hrole with hrole | hrole <;> exact congrArg Role.owner? hrole
        · cases hbase
      · rename_i state hkind
        have hroot : page.fragmentRoot? i = some n := by
          rw [fragmentRoot?, fragment?, Instance.fragment?, hkind]
          exact hbase
        obtain ⟨hlive, body, hrole⟩ := h.role_of_fragmentRoot? hroot
        exact ⟨hlive, congrArg Role.owner? hrole⟩
      · cases hbase

/-- What lies below a node that is neither the document nor the component's is not the component's
either. -/
theorem Laid.not_owns_below (h : page.Laid reading plan) (horderly : page.Orderly)
    (hstate : page.component? c = some state) (hn : ¬ page.Owns plan c n) (hne : n ≠ page.document)
    (hbelow : page.dom.Below n x) : ¬ page.Owns plan c x ∧ x ≠ page.document := by
  induction hbelow with
  | self => exact ⟨hn, hne⟩
  | @step x p hparent _ ih =>
      refine ⟨fun howns => ?_, ?_⟩
      · rcases h.owns_parent horderly hstate howns hparent with hdocument | howns
        · exact ih.2 hdocument
        · exact ih.1 howns
      · rintro rfl
        rw [(h.fits_of_role h.document_live h.document_role).2] at hparent
        cases hparent

/-- What lies below the nodes of another component is not the component's. -/
theorem Laid.not_owns_elsewhere (h : page.Laid reading plan) (horderly : page.Orderly)
    (hstate : page.component? c = some state) (helse : page.Elsewhere c i) (hn : page.Bears i n)
    (hbelow : page.dom.Below n x) :
    page.dom.Live x ∧ ¬ page.Owns plan c x ∧ x ≠ page.document := by
  obtain ⟨hlive, howner⟩ := h.owner_of_bears hn
  have hnot : ¬ page.Under c i := fun hunder => helse.other
    ((horderly.component_of_under hunder).trans (horderly.component_eq c state hstate).2)
  have hne : n ≠ page.document := by
    rintro rfl
    rw [h.document_role] at howner
    cases howner
  exact ⟨h.valid.live_below hbelow hlive, h.not_owns_below horderly hstate
    (not_owns_of_owner howner hnot) hne hbelow⟩

/-! ### Taking a component down -/

/-- All that does not belong to the component `c` is as it was. -/
structure Unharmed (c : InstanceId) (page page' : Page) : Prop where
  slots : SparesSlots c page page'
  listeners : ∀ l, l.component ≠ c → (l ∈ page'.listeners ↔ l ∈ page.listeners)
  node : ∀ i n x, page.Elsewhere c i → page.Bears i n → page.dom.Below n x → page'.dom.Live x ∧
    page'.dom.content x = page.dom.content x ∧ page'.dom.parent x = page.dom.parent x ∧
      page'.dom.children x = page.dom.children x

namespace Unharmed

theorem bears (h : Unharmed c page page') (helse : page.Elsewhere c i) (hn : page.Bears i n) :
    page'.Bears i n := by
  have hslot := h.slots.slot i helse
  cases hn with
  | host hstate => exact .host (by rwa [component?, hslot])
  | base hbase => exact .base (by rwa [base?, hslot])

theorem below (h : Unharmed c page page') (helse : page.Elsewhere c i) (hn : page.Bears i n)
    (hbelow : page.dom.Below n x) : page'.dom.Below n x := by
  induction hbelow with
  | self => exact .self
  | step hparent hbelow ih =>
      refine .step ?_ ih
      rw [(h.node i n _ helse hn (.step hparent hbelow)).2.2.1]
      exact hparent

theorem trans {page'' : Page} (h : Unharmed c page page') (h' : Unharmed c page' page'') :
    Unharmed c page page'' where
  slots := h.slots.trans h'.slots
  listeners l hl := (h'.listeners l hl).trans (h.listeners l hl)
  node i n x helse hn hbelow := by
    obtain ⟨_, hcontent, hparent, hchildren⟩ := h.node i n x helse hn hbelow
    obtain ⟨hlive, hcontent', hparent', hchildren'⟩ :=
      h'.node i n x (h.slots.elsewhere helse) (h.bears helse hn) (h.below helse hn hbelow)
    exact ⟨hlive, hcontent'.trans hcontent, hparent'.trans hparent, hchildren'.trans hchildren⟩

/-- Scripts of the component write attributes of its host. -/
theorem of_repaints (h : page.Laid reading plan) (horderly : page.Orderly)
    (hstate : page.component? c = some state) (hslots : SparesSlots c page page')
    (hrepaints : Repaints c page page') : Unharmed c page page' where
  slots := hslots
  listeners l _ := by rw [hrepaints.listeners]
  node i n x helse hn hbelow := by
    obtain ⟨hlive, hnot, _⟩ := h.not_owns_elsewhere horderly hstate helse hn hbelow
    refine ⟨(hrepaints.live x).mpr hlive, hrepaints.content x fun other hother => ?_,
      by rw [hrepaints.parent], by rw [hrepaints.children]⟩
    rintro rfl
    exact hnot ⟨c, congrArg Role.owner? (h.component_role hother), .self⟩

/-- A connected component sees the markup that it saw before. -/
theorem html?_eq (h : Unharmed c page page') (hvalid : page.dom.Valid) (hvalid' : page'.dom.Valid)
    (helse : page.Elsewhere c i) (hstate : page.component? i = some state)
    (hconnected : state.connected = true) (hlive : page.dom.Live state.root) :
    page'.html? i = page.html? i := by
  have hbears : page.Bears i state.root := .base (base?_of_component hstate hconnected)
  have hstate' : page'.component? i = some state := by
    rwa [component?, h.slots.slot i helse]
  rw [html?, html?, hstate, hstate', Option.map_some, Option.map_some, Option.some.injEq]
  exact Dom.innerHtml_congr hvalid hvalid' hlive
    (fun x hx => (h.node i _ x helse hbears hx).2.1)
    fun x hx => (h.node i _ x helse hbears hx).2.2.2

end Unharmed

theorem Rested.dismantle_unharmed (h : page.Rested reading plan) (horderly : page.Orderly)
    (hstate : page.component? c = some state) (hconnected : state.connected = true) :
    Unharmed c page (page.dismantle c state) := by
  have hlaid := h.busy.laid
  have hleft := hlaid.left hstate hconnected horderly fun _ hn => h.home_eq hstate hn
  refine ⟨(h.dismantle_spares horderly hstate hconnected).slots, fun l hl => ?_,
    fun i n x helse hn hbelow => ?_⟩
  · rw [listeners_dismantle horderly, List.mem_filter]
    exact and_iff_left (by simpa using hl)
  · obtain ⟨hlive, hnot, hne⟩ := hlaid.not_owns_elsewhere horderly hstate helse hn hbelow
    obtain ⟨hlive', hcontent, hparent⟩ := hleft.node x hlive hnot
    exact ⟨hlive', hcontent, hparent, hleft.children x hnot hne⟩

theorem Tidy.disconnect_unharmed (h : page.Tidy reading known document) (horderly : page.Orderly)
    (hdone : page.disconnect c = .ok page') : Unharmed c page page' := by
  obtain ⟨plan, hrested⟩ := h.rested
  cases hstate : page.component? c with
  | none =>
      rw [Page.disconnect, hstate] at hdone
      cases hdone
  | some state =>
      rw [disconnect_eq hstate, Except.ok.injEq] at hdone
      rw [← hdone]
      split
      · rename_i hconnected
        have halone : Alone reading known document c page plan page :=
          .refl horderly h hstate hrested
        obtain ⟨hhook, hrepaints⟩ := callHook_respects halone.repaints_respects
          (fun _ hedits => hedits.removed) ⟨halone, .of_dom rfl rfl⟩
        obtain ⟨plan', hrested', hspares⟩ := hhook.rested
        obtain ⟨fields, hfields⟩ := (callHook_written horderly c Hooks.removed
          fun _ hedits => hedits.removed).component?_eq c
        rw [hstate] at hfields
        have hunharmed : Unharmed c page (page.callHook c (·.removed)) :=
          .of_repaints hrested.busy.laid horderly hstate hspares.slots hrepaints
        have hgone := hunharmed.trans (hrested'.dismantle_unharmed hhook.orderly hfields hconnected)
        exact hgone
      · exact .of_repaints hrested.busy.laid horderly hstate (.of_slot c fun _ => rfl)
          (.of_dom rfl rfl)

/-- Whatever was asked of components that were read from markup and are connected under the document,
taking one of them down leaves all others as they are. -/
theorem disconnect_unharmed (styles : StyleAttacher) {requests : List Request}
    (hplain : ∀ request ∈ requests, request.Plain Component.FromMarkup (start styles).document)
    (hdone : (after styles requests).disconnect c = .ok page') :
    Unharmed c (after styles requests) page' ∧ ∀ i state, i ≠ c →
      (after styles requests).component? i = some state → state.connected = true →
        page'.html? i = (after styles requests).html? i := by
  obtain ⟨reading, hhandling⟩ := handling_after hplain
  have horderly := hhandling.awaits.orderly
  have hunharmed := hhandling.tidy.disconnect_unharmed horderly hdone
  refine ⟨hunharmed, fun i state hne hstate hconnected => ?_⟩
  obtain ⟨plan, hrested⟩ := hhandling.tidy.rested
  obtain ⟨_, hrested'⟩ := (hhandling.tidy.disconnect horderly hdone).rested
  have helse : (after styles requests).Elsewhere c i := by
    refine ⟨Instance.not_vacant_of_component? hstate, ?_⟩
    rwa [(horderly.component_eq i state hstate).2]
  exact hunharmed.html?_eq hhandling.valid hrested'.busy.laid.valid helse hstate hconnected
    ((hrested.busy.laid.component i state hstate).root hconnected).1

/-! ### What belongs to a component that is not connected -/

/-- Style sheets are at the home of their component. -/
theorem Laid.ne_style_of_homeless (h : page.Laid reading plan) (hhome : plan.home c = none)
    (hn : page.dom.Live n) : plan.role n ≠ .style c := by
  have hstep : ∀ n, page.dom.Live n → (∀ p, page.dom.parent n = some p → plan.role p ≠ .style c) →
      plan.role n ≠ .style c := by
    intro n hn ih hrole
    obtain ⟨_, p, hp, hhome' | hstyle⟩ := h.fits_of_role hn hrole
    · rw [hhome] at hhome'
      cases hhome'
    · exact ih p hp hstyle
  exact h.valid.induction_up (P := fun n => plan.role n ≠ .style c) hstep hn

/-- A component that is not connected has its host alone. -/
theorem Rested.eq_host_of_idle (h : page.Rested reading plan)
    (hstate : page.component? c = some state) (hidle : state.connected = false)
    (hn : page.dom.Live n) (howner : (plan.role n).owner? = some c) : n = state.host := by
  have hlaid := h.busy.laid
  have hhome := hlaid.home_of_idle hstate hidle
  have hfits := hlaid.fits n hn
  generalize hrole : plan.role n = role at hfits howner
  cases role with
  | document => cases howner
  | host i =>
      cases howner
      exact hlaid.eq_host hn hrole hstate
  | shadow i =>
      cases howner
      obtain ⟨⟨other, hother, hconnected, _⟩, _⟩ := hfits
      rw [hstate, Option.some.injEq] at hother
      rw [← hother, hidle] at hconnected
      cases hconnected
  | copy i =>
      cases howner
      obtain ⟨hcopy, _⟩ := hfits
      rw [hhome] at hcopy
      cases hcopy
  | style i =>
      cases howner
      exact absurd hrole (hlaid.ne_style_of_homeless hhome hn)
  | line _ _ | slot _ _ _ | anchor _ _ _ _ =>
      refine absurd ?_ (h.owner_ne_of_idle hstate hidle hn (by rw [hrole]; rfl))
      rw [hrole]
      exact howner

section Idle

variable (horderly : page.Orderly) (hstate : page.component? c = some state)
  (hidle : state.connected = false)

include horderly hstate hidle

theorem Rested.live_iff_of_idle (h : page.Rested reading plan) :
    page.dom.Live n ↔ page.Foreign plan c n ∨ n = state.host := by
  constructor
  · intro hn
    by_cases howner : (plan.role n).owner? = some c
    · exact Or.inr (h.eq_host_of_idle hstate hidle hn howner)
    · refine Or.inl ⟨hn, fun o ho => ?_⟩
      have hthere := h.busy.laid.owner_not_vacant hn ho
      refine ⟨hthere, fun hcomponent => howner ?_⟩
      rw [ho, horderly.eq_of_idle hstate hidle hthere hcomponent]
  · rintro (hn | rfl)
    · exact hn.live
    · exact (h.busy.laid.component c state hstate).host_live

theorem isVacant_eq_false_iff_of_idle :
    (page.slot i).isVacant = false ↔ page.Elsewhere c i ∨ i = c := by
  constructor
  · intro hi
    by_cases hcomponent : (page.slot i).component = c
    · exact Or.inr (horderly.eq_of_idle hstate hidle hi hcomponent)
    · exact Or.inl ⟨hi, hcomponent⟩
  · rintro (helse | rfl)
    · exact helse.there
    · exact Instance.not_vacant_of_component? hstate

end Idle

/-! ### The number of instances -/

/-- The components and fragments of a page. -/
def liveInstances (page : Page) : List InstanceId :=
  slotsInUse InstanceId.mk (fun i => !(page.slot i).isVacant) page.slots.size

theorem mem_liveInstances : i ∈ page.liveInstances ↔ (page.slot i).isVacant = false := by
  rw [liveInstances, mem_slotsInUse InstanceId.number (fun _ => rfl) fun _ => rfl,
    Bool.not_eq_true', and_iff_right_iff_imp]
  intro hi
  by_contra hsize
  rw [slot_of_size_le (Nat.le_of_not_lt hsize)] at hi
  cases hi

theorem Orderly.liveCount_eq (h : page.Orderly) :
    page.liveCount = page.liveInstances.length :=
  length_slotsInUse InstanceId.number (fun _ => rfl) (fun _ => rfl) h.free_nodup fun i => by
    rw [h.mem_free, Bool.not_eq_false']

theorem liveCount_congr (h : page.Orderly) (h' : page'.Orderly)
    (hsame : ∀ i, (page'.slot i).isVacant = false ↔ (page.slot i).isVacant = false) :
    page'.liveCount = page.liveCount := by
  rw [h.liveCount_eq, h'.liveCount_eq]
  refine List.Perm.length_eq ((List.perm_ext_iff_of_nodup (slotsInUse_nodup InstanceId.number
    fun _ => rfl) (slotsInUse_nodup InstanceId.number fun _ => rfl)).mpr fun i => ?_)
  exact mem_liveInstances.trans ((hsame i).trans mem_liveInstances.symm)

/-! ### Connected and taken down again -/

/-- Nothing is left of the component `c` but its host and its fields. -/
structure Bare (page : Page) (c : InstanceId) : Prop where
  state : ∃ state, page.component? c = some state ∧ state.connected = false ∧
    state.references = .empty ∧ page.dom.parent state.host = none
  children : (page.slot c).children = []
  effects : ∀ e, ¬ (page.slot c).bindings.Holds e
  clean : (page.slot c).bindings.hasChanges = false
  queue : c ∉ page.queue
  listeners : ∀ l ∈ page.listeners, l.component ≠ c

theorem Rested.dismantle_bare (h : page.Rested reading plan) (horderly : page.Orderly)
    (hstate : page.component? c = some state) (hconnected : state.connected = true) :
    (page.dismantle c state).Bare c := by
  have hempty : Emptied c page (page.dismantle c state) :=
    dismantle_emptied horderly (by rw [hstate]; rfl)
  have hslot := hempty.slot_self hstate
  refine ⟨⟨_, by rw [component?, hslot]; rfl, rfl, rfl, ?_⟩, by rw [hslot], fun e => ?_, ?_, ?_,
    fun l hl => ?_⟩
  · exact (h.busy.laid.pruned hstate hconnected horderly).2.2.2.2
  · rw [hslot]
    exact Bindings.not_holds_clearEffects
  · rw [hslot]
    exact Bindings.hasChanges_clearEffects
  · rw [hempty.queue, List.mem_filter]
    simp
  · rw [listeners_dismantle horderly, List.mem_filter, decide_eq_true_eq] at hl
    exact hl.2

/-- The component `c`, which was not connected on `page`, has been there and has left nothing behind. -/
structure Returned (c : InstanceId) (page page' : Page) : Prop where
  slots : SparesSlots c page page'
  live : ∀ n, page'.dom.Live n ↔ page.dom.Live n
  content : ∀ n, page.dom.Live n → (∀ state, page.component? c = some state → n ≠ state.host) →
    page'.dom.content n = page.dom.content n
  size : page'.dom.size = page.dom.size
  liveCount : page'.liveCount = page.liveCount
  bare : page'.Bare c

/-- A component that is not connected before and after the work. -/
theorem Alone.returned {base : Page} {old : ComponentState}
    (h : Alone reading known document c base plan page) (hbase : base.Rested reading plan)
    (horderly : base.Orderly) (hold : base.component? c = some old)
    (hidle : old.connected = false) (hbare : page.Bare c) : Returned c base page := by
  obtain ⟨plan', hrested, hspares⟩ := h.rested
  obtain ⟨state, hstate, hidle', _, _⟩ := hbare.state
  have hhost : state.host = old.host := by
    obtain ⟨first, last, hfirst, hlast, hsame⟩ := h.self
    rw [hold, Option.some.injEq] at hfirst
    rw [hstate, Option.some.injEq] at hlast
    rw [hlast, hsame, hfirst]
  have hforeign : ∀ n, page.Foreign plan' c n ↔ base.Foreign plan c n := fun n =>
    ⟨hspares.new n, hspares.foreign⟩
  have hlive : ∀ n, page.dom.Live n ↔ base.dom.Live n := fun n => by
    rw [hrested.live_iff_of_idle h.orderly hstate hidle',
      hbase.live_iff_of_idle horderly hold hidle, hforeign, hhost]
  refine ⟨hspares.slots, hlive, fun n hn hne => ?_, ?_, ?_, hbare⟩
  · rcases (hbase.live_iff_of_idle horderly hold hidle).mp hn with hn | rfl
    · exact (hspares.node n hn).2.2
    · exact absurd rfl (hne old hold)
  · exact Dom.size_of_live_iff hbase.busy.laid.valid hrested.busy.laid.valid List.nodup_nil
      (by simpa using hlive) (by simp)
  · refine liveCount_congr horderly h.orderly fun i => ?_
    rw [isVacant_eq_false_iff_of_idle h.orderly hstate hidle',
      isVacant_eq_false_iff_of_idle horderly hold hidle]
    exact or_congr_left ⟨hspares.slots.there i, hspares.slots.elsewhere⟩

theorem Alone.disconnect_bare {base : Page} (h : Alone reading known document c base plan page)
    (hstate : page.component? c = some state) (hconnected : state.connected = true)
    (hdone : page.disconnect c = .ok page') : page'.Bare c := by
  have hhook := h.callHook (·.removed) fun _ _ hedits => hedits.removed
  obtain ⟨fields, hfields⟩ := (callHook_written h.orderly c Hooks.removed
    fun _ hedits => hedits.removed).component?_eq c
  obtain ⟨plan', hrested, _⟩ := hhook.rested
  rw [hstate] at hfields
  rw [disconnect_eq hstate, Except.ok.injEq, if_pos hconnected] at hdone
  have hbare := hrested.dismantle_bare hhook.orderly hfields hconnected
  rw [← hdone]
  exact hbare

/-- Whatever was asked of components that were read from markup and are connected under the document:
when one of them is connected, anything is asked of it alone and it is taken down, it has left nothing
behind. -/
theorem disconnect_returned (styles : StyleAttacher) {requests later : List Request}
    (hplain : ∀ request ∈ requests, request.Plain Component.FromMarkup (start styles).document)
    {old : ComponentState} (hold : (after styles requests).component? c = some old)
    (hidle : old.connected = false)
    (hlater : (after styles requests).Confined c later)
    (hstate : (after styles (requests ++ later)).component? c = some state)
    (hconnected : state.connected = true)
    (hdone : (after styles (requests ++ later)).disconnect c = .ok page') :
    Returned c (after styles requests) page' := by
  obtain ⟨reading, hhandling⟩ := handling_after hplain
  obtain ⟨plan, hrested⟩ := hhandling.tidy.rested
  have horderly := hhandling.awaits.orderly
  have hafter : after styles (requests ++ later) = later.foldl serve (after styles requests) :=
    List.foldl_append
  rw [hafter] at hstate hdone
  obtain ⟨halone, _⟩ := (Alone.refl horderly hhandling.tidy hold hrested).serve_all
    hhandling.awaits hlater
  exact (halone.disconnect hdone).returned hrested horderly hold hidle
    (halone.disconnect_bare hstate hconnected hdone)

end Page

end LiveMarkup
