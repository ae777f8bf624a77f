import LiveMarkup.Proofs.Page.Layout

/-!
Changes of a page that leave its layout right: nodes are written to, and the element of a fragment
comes after its anchor or leaves it. What lies below a node belongs to what lies in its instance.
-/

namespace LiveMarkup

/-- Whether a node gives its place to an anchor. -/
def Role.isSlot : Role → Bool
  | .slot _ _ _ => true
  | _ => false

/-- Whether nothing hangs below a node with a role. -/
def Role.isLeaf : Role → Bool
  | .line _ sketch => !sketch.isElement
  | .slot _ _ _ => true
  | .anchor _ _ _ _ => true
  | _ => false

namespace Page

variable {reading : Blueprint → List Sketch} {page page' : Page} {plan plan' : Plan}
  {n p x root : NodeId} {c f g o owner : InstanceId} {guard : Interpolation} {body : Sketch}
  {state : FragmentState}

/-- Nodes that are no slots stay and keep their roles. -/
def Abides (page : Page) (plan : Plan) (page' : Page) (plan' : Plan) : Prop :=
  ∀ n, page.dom.Live n → (plan.role n).isSlot = false →
    page'.dom.Live n ∧ plan'.role n = plan.role n

theorem isSlot_of_owner {role : Role} (h : role = .host c ∨ role = .shadow c ∨ role = .copy c) :
    role.isSlot = false := by
  rcases h with rfl | rfl | rfl <;> rfl

section Mono

variable (hgrows : Grows page page') (habides : Abides page plan page' plan')

include hgrows habides

theorem Sits.mono (h : page.Sits plan f state o guard body)
    (hstate : page.fragment? f = some state)
    (hadjacent : ∀ root p, state.root = some root →
      [state.anchor, root] <:+: page.dom.children p →
        ∃ q, [state.anchor, root] <:+: page'.dom.children q)
    (hparent : ∀ root, state.root = some root → page.dom.parent root = none →
      page'.dom.parent root = none) : page'.Sits plan' f state o guard body := by
  have hanchor := habides state.anchor h.anchor_live (by rw [h.anchor_role]; rfl)
  have hroot : ∀ root, state.root = some root →
      page'.dom.Live root ∧ plan'.role root = plan.role root := fun root hroot =>
    habides root (h.root root hroot).1 (by rw [(h.root root hroot).2]; rfl)
  exact {
    up := ((hgrows.lasts f).up (Instance.not_vacant_of_fragment? hstate)).trans h.up
    anchor_live := hanchor.1
    anchor_role := hanchor.2.trans h.anchor_role
    tells := h.tells
    proper := h.proper
    element := h.element
    locals := h.locals
    root := fun root hstands => ⟨(hroot root hstands).1,
      (hroot root hstands).2.trans (h.root root hstands).2⟩
    rendered := h.rendered
    attached := fun root hstands hattached => by
      obtain ⟨p, hp⟩ := h.attached root hstands hattached
      exact hadjacent root p hstands hp
    detached := fun root hstands hdetached =>
      hparent root hstands (h.detached root hstands hdetached) }

theorem Dwells.mono (h : page.Dwells reading plan c n)
    (hlines : plan'.lines c (page'.dom.children n) = plan.lines c (page.dom.children n)) :
    page'.Dwells reading plan' c n := by
  obtain ⟨hlive, hrole⟩ := habides n h.live (isSlot_of_owner h.role)
  obtain ⟨state, hstate, hconnected, hreads⟩ := h.state
  obtain ⟨state', hstate', hdefinition, _, hkeep⟩ := (hgrows.lasts c).component state hstate
  refine ⟨hlive, ?_, state', hstate', (hkeep hconnected).1, ?_⟩
  · rw [hrole]
    exact h.role
  · rw [hlines, hreads, hdefinition]

end Mono

theorem Stands.mono {state state' : ComponentState} (h : page.Stands reading plan c state)
    (habides : Abides page plan page' plan') (hdefinition : state'.definition = state.definition)
    (hhost : state'.host = state.host)
    (hroot : state'.connected = true → state.connected = true ∧ state'.root = state.root) :
    page'.Stands reading plan' c state' := by
  obtain ⟨hlive, hrole⟩ := habides state.host h.host_live (by rw [h.host_role]; rfl)
  refine ⟨hhost ▸ hlive, ?_, fun hconnected => ?_, ?_, ?_⟩
  · rw [hhost, hrole, h.host_role]
  · obtain ⟨hbefore, hsame⟩ := hroot hconnected
    obtain ⟨hlive', hrole'⟩ := h.root hbefore
    obtain ⟨hstay, hkept⟩ := habides state.root hlive'
      (by rcases hrole' with hrole' | hrole' <;> rw [hrole'] <;> rfl)
    rw [hsame, hkept]
    exact ⟨hstay, hrole'⟩
  · rw [hdefinition]
    exact h.tells
  · rw [hdefinition]
    exact h.proper

theorem Laid.stands (h : page.Laid reading plan) (hkeeps : Keeps page page')
    (habides : Abides page plan page' plan') {state' : ComponentState}
    (hstate' : page'.component? c = some state') : page'.Stands reading plan' c state' := by
  obtain ⟨state, hstate, hsame⟩ := hkeeps.back c state' hstate'
  obtain ⟨_, hagain, hdefinition, hhost, hroot⟩ := (hkeeps.lasts c).component state hstate
  rw [hstate', Option.some.injEq] at hagain
  subst hagain
  refine (h.component c state hstate).mono habides hdefinition hhost fun hconnected => ?_
  rw [hsame] at hconnected
  exact ⟨hconnected, (hroot hconnected).2⟩

/-! ### New nodes -/

/-- Old nodes stay where they are, hosts aside, which may go under the document or leave it. No
fragment is new. -/
structure Enlarged (reading : Blueprint → List Sketch) (page : Page) (plan : Plan) (page' : Page)
    (plan' : Plan) : Prop extends Grows page page' where
  valid : page'.dom.Valid
  old : ∀ n, page.dom.Live n → page'.dom.Live n ∧ plan'.role n = plan.role n
  suits : ∀ n, page.dom.Live n → (plan.role n).Suits (page.dom.content n) →
    (plan.role n).Suits (page'.dom.content n)
  parent : ∀ n, page.dom.Live n → page'.dom.parent n = page.dom.parent n ∨
    (∃ c, plan.role n = .host c) ∧
      (page'.dom.parent n = none ∨ page'.dom.parent n = some page.document)
  lines : ∀ n o, page.dom.Live n → (plan.role n).owner? = some o →
    plan'.lines o (page'.dom.children n) = plan.lines o (page.dom.children n)
  adjacent : ∀ a b p o f guard body, plan.role a = .anchor o f guard body →
    [a, b] <:+: page.dom.children p → [a, b] <:+: page'.dom.children p
  fits : ∀ n, page'.dom.Live n → ¬ page.dom.Live n → page'.Fits plan' n (plan'.role n)
  new_lines : ∀ n o tag attributes bindings kids, page'.dom.Live n → ¬ page.dom.Live n →
    plan'.role n = .line o (.element tag attributes bindings kids) →
      plan'.lines o (page'.dom.children n) = kids
  fragments : ∀ f state, page'.fragment? f = some state → page.fragment? f = some state
  components : ∀ c state, page'.component? c = some state → page'.Stands reading plan' c state
  home : ∀ c n, plan.home c = some n → plan'.home c = some n
  dwells : ∀ c n, plan'.home c = some n → plan.home c ≠ some n → page'.Dwells reading plan' c n

theorem Enlarged.laid (he : Enlarged reading page plan page' plan') (h : page.Laid reading plan) :
    page'.Laid reading plan' := by
  have habides : Abides page plan page' plan' := fun n hn _ => he.old n hn
  exact {
    valid := he.valid
    document_live := by
      rw [he.document]
      exact (he.old _ h.document_live).1
    document_role := by
      rw [he.document, (he.old _ h.document_live).2]
      exact h.document_role
    fits := fun n hn => by
      by_cases hold : page.dom.Live n
      · have hfits := h.fits n hold
        rw [(he.old n hold).2]
        rcases he.parent n hold with hparent | ⟨⟨c, hrole⟩, hplace⟩
        · exact hfits.mono he.document (fun i _ => he.lasts i) (fun c _ => he.home c)
            (he.suits n hold) hparent fun p hp => (he.old p (h.valid.live_of_parent hp).2).2
        · rw [hrole] at hfits ⊢
          obtain ⟨⟨state, hstate, hhost⟩, _⟩ := hfits
          obtain ⟨state', hstate', _, hhost', _⟩ := (he.lasts c).component state hstate
          refine ⟨⟨state', hstate', hhost'.trans hhost⟩, ?_⟩
          rwa [he.document]
      · exact he.fits n hn hold
    lines := fun n o tag attributes bindings kids hn hrole => by
      by_cases hold : page.dom.Live n
      · rw [(he.old n hold).2] at hrole
        rw [he.lines n o hold (by rw [hrole]; rfl)]
        exact h.lines n o tag attributes bindings kids hold hrole
      · exact he.new_lines n o tag attributes bindings kids hn hold hrole
    fragment := fun f state hstate => by
      have hstate' := he.fragments f state hstate
      obtain ⟨o, guard, body, hsits⟩ := h.fragment f state hstate'
      refine ⟨o, guard, body, hsits.mono he.toGrows habides hstate' (fun root p _ hp =>
        ⟨p, he.adjacent _ _ _ _ _ _ _ hsits.anchor_role hp⟩) fun root hroot hnone => ?_⟩
      obtain ⟨hlive, hrole⟩ := hsits.root root hroot
      rcases he.parent root hlive with hparent | ⟨⟨c, hhost⟩, _⟩
      · rw [hparent, hnone]
      · rw [hrole] at hhost
        cases hhost
    component := he.components
    home := fun c n hhome => by
      by_cases hold : plan.home c = some n
      · have hdwells := h.home c n hold
        refine hdwells.mono he.toGrows habides (he.lines n c hdwells.live ?_)
        rcases hdwells.role with hrole | hrole | hrole <;> rw [hrole] <;> rfl
      · exact he.dwells c n hhome hold }

/-! ### Writing to nodes -/

/-- Nothing is moved, and what nodes hold goes on suiting their roles. -/
theorem Laid.still (h : page.Laid reading plan) (hkeeps : Keeps page page')
    (hfragments : ∀ f, page'.fragment? f = page.fragment? f)
    (hdom : Dom.Rewritten page.dom page'.dom)
    (hsuits : ∀ n, page.dom.Live n → (plan.role n).Suits (page.dom.content n) →
      (plan.role n).Suits (page'.dom.content n)) : page'.Laid reading plan := by
  have hnone : ∀ n, page'.dom.Live n → ¬ page.dom.Live n → False := fun n hn hnew =>
    hnew ((hdom.live n).mp hn)
  refine Enlarged.laid {
    toGrows := hkeeps.toGrows
    valid := hdom.valid h.valid
    old := fun n hn => ⟨(hdom.live n).mpr hn, rfl⟩
    suits := hsuits
    parent := fun n _ => Or.inl (hdom.parent n)
    lines := fun n o _ _ => by rw [hdom.children]
    adjacent := fun a b p _ _ _ _ _ hab => by rwa [hdom.children]
    fits := fun n hn hnew => (hnone n hn hnew).elim
    new_lines := fun n _ _ _ _ _ hn hnew => (hnone n hn hnew).elim
    fragments := fun f state hstate => by rwa [hfragments] at hstate
    components := fun c state hstate =>
      h.stands hkeeps (fun n hn _ => ⟨(hdom.live n).mpr hn, rfl⟩) hstate
    home := fun _ _ hhome => hhome
    dwells := fun _ _ hhome hnot => absurd hhome hnot } h

theorem rewritten_of_eq {d d' : Dom} (h : d' = d) : Dom.Rewritten d d' := by
  rw [h]
  exact ⟨rfl, rfl, fun _ => Iff.rfl, fun _ => rfl, fun _ => rfl, fun _ _ => rfl⟩

/-! ### Mounting and unmounting -/

/-- A fragment has been mounted or unmounted. -/
structure Toggled (f : InstanceId) (state : FragmentState) (root : NodeId) (attached : Bool)
    (page page' : Page) : Prop where
  before : page.fragment? f = some state
  slot : page'.slot f =
    { page.slot f with kind := .fragment { state with root := some root, attached } }
  other : ∀ j, j ≠ f → page'.slot j = page.slot j
  keep : ∀ node, state.root = some node → root = node
  document : page'.document = page.document

namespace Toggled

variable {attached : Bool} (h : Toggled f state root attached page page')

include h

theorem fragment? : page'.fragment? f = some { state with root := some root, attached } := by
  rw [Page.fragment?, h.slot]
  rfl

theorem fragment?_other (hne : g ≠ f) : page'.fragment? g = page.fragment? g := by
  rw [Page.fragment?, h.other g hne, Page.fragment?]

theorem component? (c : InstanceId) : page'.component? c = page.component? c := by
  by_cases hc : c = f
  · subst hc
    have hnone : page.component? c = none :=
      Instance.component?_of_fragment? h.before
    rw [hnone, Page.component?, h.slot]
    rfl
  · rw [Page.component?, h.other c hc, Page.component?]

theorem place (j : InstanceId) : (page'.slot j).parent = (page.slot j).parent ∧
    (page'.slot j).component = (page.slot j).component ∧
      (page'.slot j).isVacant = (page.slot j).isVacant := by
  by_cases hj : j = f
  · subst hj
    rw [h.slot]
    exact ⟨rfl, rfl, (Instance.not_vacant_of_fragment? h.before).symm⟩
  · rw [h.other j hj]
    exact ⟨rfl, rfl, rfl⟩

theorem keeps : Keeps page page' where
  document := h.document
  lasts j := {
    vacant := fun hj => (h.place j).2.2.trans hj
    up := fun _ => (h.place j).1
    component := fun state hstate =>
      ⟨state, (h.component? j).trans hstate, rfl, rfl, fun hconnected => ⟨hconnected, rfl⟩⟩
    fragment := fun old hold => by
      by_cases hg : j = f
      · subst hg
        rw [h.before, Option.some.injEq] at hold
        subst hold
        exact ⟨some root, attached, h.fragment?, fun node hnode => congrArg some (h.keep node hnode)⟩
      · exact ⟨old.root, old.attached, (h.fragment?_other hg).trans hold, fun _ hnode => hnode⟩ }
  back c state hstate := ⟨state, (h.component? c).symm.trans hstate, rfl⟩

end Toggled

/-- The element `root` of a fragment comes under `p`, after `anchor`, or leaves it. Nothing else among
the old nodes is moved, and new nodes are where their roles want them. -/
structure Shifted (anchor root p : NodeId) (page : Page) (plan : Plan) (page' : Page)
    (plan' : Plan) : Prop where
  home : plan'.home = plan.home
  valid : page'.dom.Valid
  stay : ∀ n, page.dom.Live n → page'.dom.Live n ∧ plan'.role n = plan.role n ∧
    page'.dom.content n = page.dom.content n
  parent : ∀ n, page.dom.Live n → n ≠ root → page'.dom.parent n = page.dom.parent n
  kids : (page'.dom.children p).filter (· ≠ root) = (page.dom.children p).filter (· ≠ root)
  children : ∀ n, page.dom.Live n → n ≠ p → page'.dom.children n = page.dom.children n
  adjacent : ∀ a b, a ≠ anchor → a ≠ root → b ≠ root →
    [a, b] <:+: page.dom.children p → [a, b] <:+: page'.dom.children p
  fits : ∀ n, page'.dom.Live n → ¬ page.dom.Live n → page'.Fits plan' n (plan'.role n)
  lines : ∀ n o tag attributes bindings kids, page'.dom.Live n → ¬ page.dom.Live n →
    plan'.role n = .line o (.element tag attributes bindings kids) →
      plan'.lines o (page'.dom.children n) = kids

/-- Where the element of a fragment is found after the fragment was mounted or unmounted. -/
structure Poised (f : InstanceId) (body : Sketch) (anchor root : NodeId) (attached : Bool)
    (page' : Page) (plan' : Plan) : Prop where
  live : page'.dom.Live root
  role : plan'.role root = .line f body
  placed : attached = true → ∃ q, [anchor, root] <:+: page'.dom.children q
  loose : attached = false → page'.dom.parent root = none

section Shifted

variable {attached : Bool} (hs : Shifted state.anchor root p page plan page' plan')

include hs

theorem Shifted.abides : Abides page plan page' plan' :=
  fun n hn _ => ⟨(hs.stay n hn).1, (hs.stay n hn).2.1⟩

/-- Where the element is no line, the lines below old nodes stay the same. -/
theorem Shifted.lines_eq (h : page.Laid reading plan)
    (hforeign : ∀ i, (plan.role p).owner? = some i → (plan'.role root).sketch? i = none)
    (hn : page.dom.Live n) (ho : (plan.role n).owner? = some o) :
    plan'.lines o (page'.dom.children n) = plan.lines o (page.dom.children n) := by
  have hroles : plan'.lines o (page.dom.children n) = plan.lines o (page.dom.children n) :=
    Plan.lines_congr fun x hx => by
      rw [(hs.stay x (h.valid.live_of_mem_children hx)).2.1]
  by_cases hnp : n = p
  · subst hnp
    rw [← hroles, ← Plan.lines_filter fun _ => hforeign o ho, hs.kids,
      Plan.lines_filter fun _ => hforeign o ho]
  · rw [hs.children n hn hnp, hroles]

theorem Toggled.sits (htoggled : Toggled f state root attached page page')
    (hsits : page.Sits plan f state o guard body)
    (hpoised : Poised f body state.anchor root attached page' plan') :
    page'.Sits plan' f { state with root := some root, attached } o guard body := by
  have hvacant := Instance.not_vacant_of_fragment? htoggled.before
  obtain ⟨hanchor, hrole⟩ := hs.abides state.anchor hsits.anchor_live
    (by rw [hsits.anchor_role]; rfl)
  exact {
    up := ((htoggled.keeps.lasts f).up hvacant).trans hsits.up
    anchor_live := hanchor
    anchor_role := hrole.trans hsits.anchor_role
    tells := hsits.tells
    proper := hsits.proper
    element := hsits.element
    locals := hsits.locals
    root := fun node hnode => by
      cases hnode
      exact ⟨hpoised.live, hpoised.role⟩
    rendered := fun _ => ⟨root, rfl⟩
    attached := fun node hnode hattached => by
      cases hnode
      exact hpoised.placed hattached
    detached := fun node hnode hdetached => by
      cases hnode
      exact hpoised.loose hdetached }

/-- The other fragments keep their anchors and elements. -/
theorem Toggled.sits_other (h : page.Laid reading plan)
    (htoggled : Toggled f state root attached page page')
    (hsits : page.Sits plan f state o guard body) (hrole : plan'.role root = .line f body)
    {other : FragmentState} (hother : page.fragment? g = some other) (hg : g ≠ f) :
    ∃ o guard body, page'.Sits plan' g other o guard body := by
  obtain ⟨i, guard', body', hsits'⟩ := h.fragment g other hother
  have hanchors : other.anchor ≠ state.anchor := by
    intro heq
    have hroles := hsits'.anchor_role
    rw [heq, hsits.anchor_role] at hroles
    exact hg (by injection hroles with _ hf; exact hf.symm)
  have hanchor_ne : other.anchor ≠ root := by
    rintro rfl
    rw [(hs.stay _ hsits'.anchor_live).2.1, hsits'.anchor_role] at hrole
    cases hrole
  have hroots : ∀ node, other.root = some node → node ≠ root := by
    rintro node hnode rfl
    obtain ⟨hold, hline⟩ := hsits'.root node hnode
    rw [(hs.stay node hold).2.1, hline] at hrole
    injection hrole with hf
    exact hg hf
  refine ⟨i, guard', body', hsits'.mono htoggled.keeps.toGrows hs.abides hother
    (fun node q hnode hq => ?_) fun node hnode hnone => ?_⟩
  · by_cases hqp : q = p
    · subst hqp
      exact ⟨q, hs.adjacent _ _ hanchors hanchor_ne (hroots node hnode) hq⟩
    · have hmem : other.anchor ∈ page.dom.children q := hq.subset List.mem_cons_self
      refine ⟨q, ?_⟩
      rwa [hs.children q (h.valid.live_of_parent ((h.valid.mem_children q _).mp hmem)).2 hqp]
  · rw [hs.parent node (hsits'.root node hnode).1 (hroots node hnode)]
    exact hnone

end Shifted

/-- Mounting or unmounting a fragment keeps the layout. -/
theorem Laid.toggle {attached : Bool} (h : page.Laid reading plan) (hacyclic : Acyclic page.up)
    (htoggled : Toggled f state root attached page page')
    (hsits : page.Sits plan f state o guard body) (hhouses : plan.Houses o p)
    (hs : Shifted state.anchor root p page plan page' plan')
    (hpoised : Poised f body state.anchor root attached page' plan') : page'.Laid reading plan' := by
  have hgrows := htoggled.keeps.toGrows
  -- The element is no line of the instance around the fragment.
  have hforeign : ∀ i, (plan.role p).owner? = some i → (plan'.role root).sketch? i = none := by
    intro i hi
    rw [h.owner_of_houses hhouses, Option.some.injEq] at hi
    subst hi
    rw [hpoised.role]
    refine if_neg ?_
    rintro rfl
    exact hacyclic f f hsits.up .self
  have hroot : page'.fragmentRoot? f = some root := fragmentRoot?_of_fragment? htoggled.fragment?
  exact {
    valid := hs.valid
    document_live := by
      rw [htoggled.document]
      exact (hs.stay _ h.document_live).1
    document_role := by
      rw [htoggled.document, (hs.stay _ h.document_live).2.1]
      exact h.document_role
    fits := fun n hn => by
      by_cases hold : page.dom.Live n
      · obtain ⟨_, hsamerole, hcontent⟩ := hs.stay n hold
        have hfit := h.fits n hold
        by_cases hnroot : n = root
        · subst hnroot
          rw [← hsamerole, hpoised.role] at hfit
          rw [hpoised.role]
          exact ⟨(hgrows.lasts f).vacant (Instance.not_vacant_of_fragment? htoggled.before),
            hcontent ▸ hfit.2.1, Or.inl hroot⟩
        · rw [hsamerole]
          exact hfit.mono hgrows.document (fun i _ => hgrows.lasts i)
            (fun _ _ _ hn => hs.home ▸ hn) (fun hsuits => hcontent ▸ hsuits)
            (hs.parent n hold hnroot) fun q hq => (hs.stay q (h.valid.live_of_parent hq).2).2.1
      · exact hs.fits n hn hold
    lines := fun n i tag attributes bindings kids hn hline => by
      by_cases hold : page.dom.Live n
      · rw [(hs.stay n hold).2.1] at hline
        rw [hs.lines_eq h hforeign hold (by rw [hline]; rfl)]
        exact h.lines n i tag attributes bindings kids hold hline
      · exact hs.lines n i tag attributes bindings kids hn hold hline
    fragment := fun g other hother => by
      by_cases hg : g = f
      · subst hg
        rw [htoggled.fragment?, Option.some.injEq] at hother
        subst hother
        exact ⟨o, guard, body, htoggled.sits hs hsits hpoised⟩
      · rw [htoggled.fragment?_other hg] at hother
        exact htoggled.sits_other hs h hsits hpoised.role hother hg
    component := fun c state hstate => h.stands htoggled.keeps hs.abides hstate
    home := fun c n hn => by
      rw [hs.home] at hn
      have hdwells := h.home c n hn
      refine hdwells.mono hgrows hs.abides (hs.lines_eq h hforeign hdwells.live ?_)
      rcases hdwells.role with hrole | hrole | hrole <;> rw [hrole] <;> rfl }

/-! ### Owners -/

/-- What a node has for a parent: the document for hosts, an element of the styles for styles, and
what houses the lines that the node is among. -/
theorem Laid.parent_cases (h : page.Laid reading plan) (hx : page.dom.parent x = some p) :
    (p = page.document ∧ ∃ c, plan.role x = .host c) ∨
      (∃ c, plan.role x = .style c ∧ (plan.home c = some p ∨ plan.role p = .style c)) ∨
        ∃ o i, plan.Houses o p ∧ (plan.role x).owner? = some i ∧
          (o = i ∨ (page.up i = some o ∧ page.fragmentRoot? i = some x)) := by
  have hfits := h.fits x (h.valid.live_of_parent hx).1
  have hhouse : ∀ {i}, (∃ q, page.dom.parent x = some q ∧ plan.Houses i q) →
      plan.Houses i p := by
    rintro i ⟨q, hq, hhouses⟩
    rw [hx, Option.some.injEq] at hq
    exact hq ▸ hhouses
  have hparentless : page.dom.parent x ≠ none := by
    rw [hx]
    exact Option.some_ne_none p
  generalize hrole : plan.role x = role at hfits
  cases role with
  | document | shadow c | copy c => exact absurd hfits.2 hparentless
  | host c =>
      have hdocument := hfits.2.resolve_left hparentless
      rw [hx, Option.some.injEq] at hdocument
      exact Or.inl ⟨hdocument, c, rfl⟩
  | style c =>
      obtain ⟨_, q, hq, hplace⟩ := hfits
      rw [hx, Option.some.injEq] at hq
      subst hq
      exact Or.inr (Or.inl ⟨c, rfl, hplace⟩)
  | line i sketch =>
      refine Or.inr (Or.inr ?_)
      rcases hfits.2.2 with hroot | hhouses
      · obtain ⟨state, hstate, hstands⟩ := Option.bind_eq_some_iff.mp hroot
        obtain ⟨o, guard, body, hsits⟩ := h.fragment i state hstate
        have hattached : state.attached = true := by
          by_contra hdetached
          exact hparentless (hsits.detached x hstands (Bool.not_eq_true _ ▸ hdetached))
        obtain ⟨q, hq⟩ := hsits.attached x hstands hattached
        have hxq := (h.valid.mem_children q x).mp
          (hq.subset (List.mem_cons_of_mem _ List.mem_cons_self))
        rw [hx, Option.some.injEq] at hxq
        subst hxq
        have hanchor := (h.valid.mem_children p state.anchor).mp (hq.subset List.mem_cons_self)
        obtain ⟨_, _, _, _, r, hr, hhouses⟩ :=
          h.fits_of_role hsits.anchor_live hsits.anchor_role
        rw [hanchor, Option.some.injEq] at hr
        subst hr
        exact ⟨o, i, hhouses, rfl, Or.inr ⟨hsits.up, hroot⟩⟩
      · exact ⟨i, i, hhouse hhouses, rfl, Or.inl rfl⟩
  | slot i guard body =>
      exact Or.inr (Or.inr ⟨i, i, hhouse hfits.2, rfl, Or.inl rfl⟩)
  | anchor i g guard body =>
      exact Or.inr (Or.inr ⟨i, i, hhouse hfits.2.2.2.2, rfl, Or.inl rfl⟩)

/-- A node belongs to the instance that its parent belongs to, or to a fragment in it whose element
it is. -/
theorem Laid.owner_of_parent (h : page.Laid reading plan) (hx : page.dom.parent x = some p)
    (hi : (plan.role x).owner? = some f) : p = page.document ∨
      ∃ o, (plan.role p).owner? = some o ∧
        (o = f ∨ (page.up f = some o ∧ page.fragmentRoot? f = some x)) := by
  rcases h.parent_cases hx with ⟨hdocument, _⟩ | ⟨c, hrole, hplace⟩ | ⟨o, i, hhouses, howner, hcase⟩
  · exact Or.inl hdocument
  · rw [hrole] at hi
    cases hi
    refine Or.inr ⟨f, ?_, Or.inl rfl⟩
    rcases hplace with hhome | hstyle
    · exact h.owner_of_houses (Or.inl hhome)
    · rw [hstyle]
      rfl
  · rw [hi, Option.some.injEq] at howner
    subst howner
    exact Or.inr ⟨o, h.owner_of_houses hhouses, hcase⟩

/-- Nothing hangs below a node that is not for an element or a component. -/
theorem Laid.children_of_leaf (h : page.Laid reading plan) (hleaf : (plan.role n).isLeaf = true) :
    page.dom.children n = [] := by
  refine List.eq_nil_iff_forall_not_mem.mpr fun x hx => ?_
  rcases h.parent_cases ((h.valid.mem_children n x).mp hx) with
    ⟨rfl, _⟩ | ⟨c, _, hhome | hstyle⟩ | ⟨i, _, hhouses, _⟩
  · rw [h.document_role] at hleaf
    cases hleaf
  · rcases (h.home c n hhome).role with hrole | hrole | hrole <;> rw [hrole] at hleaf <;>
      cases hleaf
  · rw [hstyle] at hleaf
    cases hleaf
  · rcases h.role_of_houses hhouses with ⟨_, _, _, _, hrole⟩ | hrole | hrole | hrole <;>
      rw [hrole] at hleaf <;> cases hleaf

theorem Laid.children_of_slot (h : page.Laid reading plan)
    (hrole : plan.role n = .slot o guard body) : page.dom.children n = [] :=
  h.children_of_leaf (by rw [hrole]; rfl)

theorem Laid.parent_document (h : page.Laid reading plan) :
    page.dom.parent page.document = none :=
  (h.fits_of_role h.document_live h.document_role).2

/-- What lies below a node of an instance belongs to what lies in the instance. -/
theorem Laid.under_of_below (h : page.Laid reading plan) (hbelow : page.dom.Below root x)
    (ho : (plan.role root).owner? = some o) (hf : (plan.role x).owner? = some f) :
    page.Under o f := by
  induction hbelow generalizing f with
  | self =>
      rw [ho, Option.some.injEq] at hf
      exact hf ▸ .self
  | step hparent hup ih =>
      rcases h.owner_of_parent hparent hf with rfl | ⟨i, hi, rfl | ⟨hstep, _⟩⟩
      · have hroot := hup.eq_of_up_none h.parent_document
        rw [hroot, h.document_role] at ho
        cases ho
      · exact ih hi
      · exact .step hstep (ih hi)

theorem Laid.not_below_root (h : page.Laid reading plan) (hacyclic : Acyclic page.up)
    (hup : page.up f = some o) (hrole : plan.role root = .line f body) (hhouses : plan.Houses o p) :
    ¬ page.dom.Below root p := fun hbelow =>
  hacyclic f o hup
    (h.under_of_below hbelow (by rw [hrole]; rfl) (h.owner_of_houses hhouses))

theorem Laid.house_of_anchor (h : page.Laid reading plan)
    (hsits : page.Sits plan f state o guard body) :
    ∃ p, page.dom.parent state.anchor = some p ∧ page.dom.Live p ∧ plan.Houses o p := by
  obtain ⟨_, _, _, _, p, hp, hhouses⟩ := h.fits_of_role hsits.anchor_live hsits.anchor_role
  exact ⟨p, hp, (h.valid.live_of_parent hp).2, hhouses⟩

/-! ### The ways to mount and unmount -/

theorem toggled_setMounted (hstate : page.fragment? f = some state) (root : NodeId)
    (hkeep : ∀ node, state.root = some node → root = node) (dom : Dom) (notice : Notice) :
    Toggled f state root true page
      (({ page with dom } : Page).setMounted f root |>.report notice) where
  before := hstate
  slot := by
    have hslot := slot_setMounted { page with dom } (Instance.not_vacant_of_fragment? hstate) root
    exact hslot.trans (Instance.mapFragment_of_fragment? hstate _)
  other j hj := (retouch_setMounted { page with dom } f root).other j hj
  keep := hkeep
  document := rfl

theorem unmount_eq (hstate : page.fragment? f = some state) (hattached : state.attached = true)
    (hroot : state.root = some root) :
    page.unmount f = ({ page with
      dom := (page.dom.detach root).1
      slots := page.slots.modify f.number (·.mapFragment ({ · with attached := false }))
      stats.unmounts := page.stats.unmounts + 1 } : Page).report (.unmounted f.number) := by
  rw [unmount, hstate]
  simp only [hattached, hroot]
  rfl

theorem toggled_unmount (hstate : page.fragment? f = some state) (hattached : state.attached = true)
    (hroot : state.root = some root) : Toggled f state root false page (page.unmount f) where
  before := hstate
  slot := by
    rw [unmount_eq hstate hattached hroot]
    have hslot := slot_updateSlot_of_lt (lt_size_of_not_vacant
      (Instance.not_vacant_of_fragment? hstate)) (·.mapFragment ({ · with attached := false }))
    rw [Instance.mapFragment_of_fragment? hstate] at hslot
    rw [hroot.symm]
    exact hslot
  other j hj := (unmount_retouch page f).other j hj
  keep node hnode := by
    rw [hroot, Option.some.injEq] at hnode
    exact hnode
  document := by rw [unmount_eq hstate hattached hroot]; rfl

theorem Laid.unmount (h : page.Laid reading plan) (hacyclic : Acyclic page.up)
    (hstate : page.fragment? f = some state) (hattached : state.attached = true)
    (hroot : state.root = some root) : (page.unmount f).Laid reading plan := by
  obtain ⟨o, guard, body, hsits⟩ := h.fragment f state hstate
  obtain ⟨p, hanchor, hp, hhouses⟩ := h.house_of_anchor hsits
  obtain ⟨hlive, hrole⟩ := hsits.root root hroot
  obtain ⟨q, hq⟩ := hsits.attached root hroot hattached
  have hqp : q = p := by
    have hq' := (h.valid.mem_children q _).mp (hq.subset List.mem_cons_self)
    rw [hanchor, Option.some.injEq] at hq'
    exact hq'.symm
  subst hqp
  have hup : page.dom.parent root = some q :=
    (h.valid.mem_children q root).mp (hq.subset (List.mem_cons_of_mem _ List.mem_cons_self))
  have hdom : (page.unmount f).dom = (page.dom.detach root).1 := by
    rw [unmount_eq hstate hattached hroot]
    rfl
  have hunlinked := Dom.detach_unlinked h.valid root
  have hlive' : ∀ n, page.dom.Live n → (page.unmount f).dom.Live n := fun n hn => by
    rw [hdom]
    exact (hunlinked.live n).mpr hn
  have hparent : ∀ n, (page.unmount f).dom.parent n = if n = root then none else
      page.dom.parent n := fun n => by
    rw [hdom]
    exact hunlinked.parent n
  have hchildren : ∀ n, (page.unmount f).dom.children n =
      (page.dom.children n).filter (· ≠ root) := fun n => by
    rw [hdom]
    exact hunlinked.children n
  have hold : ∀ n, (page.unmount f).dom.Live n → page.dom.Live n := fun n hn => by
    rw [hdom] at hn
    exact (hunlinked.live n).mp hn
  refine h.toggle hacyclic (toggled_unmount hstate hattached hroot) hsits hhouses {
    home := rfl
    valid := by
      rw [hdom]
      exact Dom.detach_valid h.valid root
    stay := fun n hn => ⟨hlive' n hn, rfl, by rw [hdom]; exact hunlinked.content n⟩
    parent := fun n _ hne => by rw [hparent, if_neg hne]
    kids := by
      rw [hchildren, List.filter_filter]
      simp
    children := fun n _ hne => by
      rw [hchildren, Dom.filter_ne_of_not_mem]
      intro hmem
      rw [(h.valid.mem_children n root).mp hmem, Option.some.injEq] at hup
      exact hne hup
    adjacent := fun a b _ ha hb hab => by
      have hkept := hab.filter (· ≠ root)
      rw [hchildren]
      simpa [ha, hb] using hkept
    fits := fun n hn hnew => absurd (hold n hn) hnew
    lines := fun n _ _ _ _ _ hn hnew => absurd (hold n hn) hnew }
    ⟨hlive' root hlive, hrole, fun hfalse => (by cases hfalse),
      fun _ => by rw [hparent, if_pos rfl]⟩

theorem Laid.remount (h : page.Laid reading plan) (hacyclic : Acyclic page.up) {dom : Dom}
    (hstate : page.fragment? f = some state) (hdetached : state.attached = false)
    (hroot : state.root = some root) (hdom : dom = (page.dom.insertAfter state.anchor root).1)
    (notice : Notice) :
    (page.dom.insertAfter state.anchor root).2 = true ∧ Dom.Relinked page.dom dom ∧
      ((({ page with dom } : Page).setMounted f root).report notice).Laid reading plan := by
  obtain ⟨o, guard, body, hsits⟩ := h.fragment f state hstate
  obtain ⟨p, hanchor, hp, hhouses⟩ := h.house_of_anchor hsits
  obtain ⟨hlive, hrole⟩ := hsits.root root hroot
  have hnone := hsits.detached root hroot hdetached
  obtain ⟨hdone, before, after, hsplit, hplaced, hvalid⟩ := Dom.insertAfter_placed h.valid hanchor
    hlive (by rw [hnone]; exact fun heq => (by cases heq))
    (h.not_below_root hacyclic hsits.up hrole hhouses)
  rw [← hdom] at hplaced hvalid
  refine ⟨hdone, hplaced.toRelinked, ?_⟩
  have hnot := h.valid.not_mem_children_of_parent hnone
  have hchildren : ∀ n, n ≠ p → dom.children n = page.dom.children n := fun n hne => by
    rw [hplaced.children, if_neg hne, Dom.filter_ne_of_not_mem (hnot n)]
  have hkids : dom.children p = before ++ state.anchor :: root :: after := by
    rw [hplaced.children, if_pos rfl]
  have hne : root ≠ state.anchor := by
    rintro rfl
    rw [hanchor] at hnone
    cases hnone
  have htoggled := toggled_setMounted hstate root (fun node hnode => by
    rw [hroot, Option.some.injEq] at hnode
    exact hnode) dom notice
  refine h.toggle hacyclic htoggled hsits hhouses {
    home := rfl
    valid := hvalid
    stay := fun n hn => ⟨(hplaced.live n).mpr hn, rfl, hplaced.content n⟩
    parent := fun n _ hn => (hplaced.parent n).trans (if_neg hn)
    kids := by
      change (dom.children p).filter _ = _
      rw [hkids, hsplit]
      simp [hne.symm]
    children := fun n _ hn => hchildren n hn
    adjacent := fun a b ha _ _ hab => by
      change [a, b] <:+: dom.children p
      rw [hsplit] at hab
      rw [hkids]
      exact infix_insert ha hab
    fits := fun n hn hnew => absurd ((hplaced.live n).mp hn) hnew
    lines := fun n _ _ _ _ _ hn hnew => absurd ((hplaced.live n).mp hn) hnew }
    ⟨(hplaced.live root).mpr hlive, hrole, fun _ => ⟨p, ?_⟩, fun hfalse => (by cases hfalse)⟩
  change _ <:+: dom.children p
  rw [hkids]
  exact ⟨before, after, by simp⟩

end Page

end LiveMarkup
