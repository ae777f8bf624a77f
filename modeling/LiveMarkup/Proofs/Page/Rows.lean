import LiveMarkup.Proofs.Page.Current

/-!
How the lines of an instance follow one another: below the node that houses them there is a node for
each of them, and the element of a mounted fragment comes right after its anchor.
-/

namespace LiveMarkup.Page

variable {reading : Blueprint → List Sketch} {page : Page} {plan : Plan}
  {a n p r x : NodeId} {c f o : InstanceId} {sketch : Sketch} {nodes : List NodeId}

/-- The nodes that stand for a sketch among the lines of an instance. -/
inductive Fills (page : Page) (plan : Plan) (o : InstanceId) : Sketch → List NodeId → Prop
  | line {x : NodeId} {sketch : Sketch} (hx : plan.role x = .line o sketch) :
    Fills page plan o sketch [x]
  | shut {x : NodeId} {f : InstanceId} {guard : Interpolation} {body : Sketch}
    (hx : plan.role x = .anchor o f guard body) (hmounted : page.isMounted f = false) :
    Fills page plan o (.guarded guard body) [x]
  | shown {x r : NodeId} {f : InstanceId} {guard : Interpolation} {body : Sketch}
    (hx : plan.role x = .anchor o f guard body) (hmounted : page.isMounted f = true)
    (hr : plan.role r = .line f body) : Fills page plan o (.guarded guard body) [x, r]

inductive FillsAll (page : Page) (plan : Plan) (o : InstanceId) :
    List Sketch → List NodeId → Prop
  | nil : FillsAll page plan o [] []
  | cons {sketch : Sketch} {sketches : List Sketch} {first rest : List NodeId}
    (hfirst : Fills page plan o sketch first) (hrest : FillsAll page plan o sketches rest) :
    FillsAll page plan o (sketch :: sketches) (first ++ rest)

/-- The anchor and the element of a fragment that is mounted. -/
def Pair (page : Page) (f : InstanceId) (a r : NodeId) : Prop :=
  ∃ state, page.fragment? f = some state ∧ state.attached = true ∧ state.anchor = a ∧
    state.root = some r

/-- Anchors and their elements are not torn apart. -/
def Paired (page : Page) (nodes : List NodeId) : Prop :=
  ∀ f a r, page.Pair f a r → a ∈ nodes ∨ r ∈ nodes → [a, r] <:+: nodes

theorem Pair.roles (h : page.Pair f a r) (hlaid : page.Laid reading plan) :
    ∃ o guard body, page.up f = some o ∧ plan.role a = .anchor o f guard body ∧
      plan.role r = .line f body := by
  obtain ⟨state, hstate, _, rfl, hroot⟩ := h
  obtain ⟨o, guard, body, hsits⟩ := hlaid.fragment f state hstate
  exact ⟨o, guard, body, hsits.up, hsits.anchor_role, (hsits.root r hroot).2⟩

/-- A node is the anchor of one fragment only. -/
theorem Pair.eq_of_anchor (h : page.Pair f a r) {guard : Interpolation} {body : Sketch}
    (hrole : plan.role a = .anchor o c guard body) (hlaid : page.Laid reading plan) : f = c := by
  obtain ⟨_, _, _, _, hanchor, _⟩ := h.roles hlaid
  rw [hrole, Role.anchor.injEq] at hanchor
  exact hanchor.2.1.symm

theorem Laid.paired (h : page.Laid reading plan) (p : NodeId) :
    page.Paired (page.dom.children p) := by
  rintro f a r ⟨state, hstate, hattached, rfl, hroot⟩ hmem
  obtain ⟨o, guard, body, hsits⟩ := h.fragment f state hstate
  obtain ⟨q, hq⟩ := hsits.attached r hroot hattached
  have hparent : ∀ x ∈ [state.anchor, r], page.dom.parent x = some q := fun x hx =>
    (h.valid.mem_children q x).mp (hq.subset hx)
  have hqp : q = p := by
    rcases hmem with hmem | hmem
    · exact Option.some.inj ((hparent _ (by simp)).symm.trans ((h.valid.mem_children p _).mp hmem))
    · exact Option.some.inj ((hparent _ (by simp)).symm.trans ((h.valid.mem_children p _).mp hmem))
  exact hqp ▸ hq

/-- Behind a node that is not an anchor of a mounted fragment, the pairs are what they were. -/
theorem Paired.tail (h : page.Paired (x :: nodes)) (hx : ∀ f r, ¬ page.Pair f x r) :
    page.Paired nodes := by
  intro f a r hpair hmem
  have hrun := h f a r hpair (hmem.imp (List.mem_cons_of_mem _) (List.mem_cons_of_mem _))
  rcases List.infix_cons_iff.mp hrun with hfront | hrun
  · exact absurd ((List.cons_prefix_cons.mp hfront).1 ▸ hpair) (hx f r)
  · exact hrun

/-- The element of a fragment is not the first node of a row. -/
theorem Paired.not_head (h : page.Paired (x :: nodes)) (hnodup : (x :: nodes).Nodup) :
    ¬ page.Pair f a x := by
  intro hpair
  have hnot := (List.nodup_cons.mp hnodup).1
  rcases List.infix_cons_iff.mp (h f a x hpair (Or.inr List.mem_cons_self)) with hfront | hrun
  · exact hnot ((List.cons_prefix_cons.mp hfront).2.subset (List.mem_singleton_self x))
  · exact hnot (hrun.subset (by simp))

/-- The element of a mounted fragment is the next node after its anchor. -/
theorem Paired.next (h : page.Paired (x :: nodes)) (hnodup : (x :: nodes).Nodup)
    (hpair : page.Pair f x r) : ∃ rest, nodes = r :: rest := by
  have hnot := (List.nodup_cons.mp hnodup).1
  rcases List.infix_cons_iff.mp (h f x r hpair (Or.inl List.mem_cons_self)) with hfront | hrun
  · obtain ⟨rest, hrest⟩ := (List.cons_prefix_cons.mp hfront).2
    exact ⟨rest, hrest.symm⟩
  · exact absurd (hrun.subset List.mem_cons_self) hnot

theorem Paired.behind (h : page.Paired (x :: r :: nodes)) (hlaid : page.Laid reading plan)
    (hnodup : (x :: r :: nodes).Nodup) (hpair : page.Pair f x r) : page.Paired nodes := by
  obtain ⟨hx, hnodup⟩ := List.nodup_cons.mp hnodup
  obtain ⟨_, _, _, _, _, hr⟩ := hpair.roles hlaid
  intro g a y hother hmem
  have hrun := h g a y hother (hmem.imp
    (fun ha => List.mem_cons_of_mem _ (List.mem_cons_of_mem _ ha))
    fun hy => List.mem_cons_of_mem _ (List.mem_cons_of_mem _ hy))
  rcases List.infix_cons_iff.mp hrun with hfront | hrun
  · obtain ⟨hax, hfront⟩ := List.cons_prefix_cons.mp hfront
    obtain ⟨hyr, _⟩ := List.cons_prefix_cons.mp hfront
    rcases hmem with ha | hy
    · exact absurd (List.mem_cons_of_mem _ (hax ▸ ha)) hx
    · exact absurd (hyr ▸ hy) (List.nodup_cons.mp hnodup).1
  · rcases List.infix_cons_iff.mp hrun with hfront | hrun
    · obtain ⟨_, _, _, _, hrole, _⟩ := hother.roles hlaid
      rw [(List.cons_prefix_cons.mp hfront).1, hr] at hrole
      cases hrole
    · exact hrun

/-- What a node may be that stands among the lines of an instance. -/
def Lodges (page : Page) (plan : Plan) (o : InstanceId) (x : NodeId) : Prop :=
  (∃ sketch, plan.role x = .line o sketch) ∨
    (∃ f guard body state, plan.role x = .anchor o f guard body ∧
      page.fragment? f = some state ∧ state.anchor = x ∧ page.up f = some o) ∨
    ∃ f a, page.Pair f a x

/-- Nodes that keep anchors and elements together stand for lines. -/
theorem Paired.fillsAll (h : page.Paired nodes) (hlaid : page.Laid reading plan)
    (horderly : page.Orderly) (hnodup : nodes.Nodup) (hlodges : ∀ x ∈ nodes, page.Lodges plan o x) :
    page.FillsAll plan o (plan.lines o nodes) nodes := by
  induction hlength : nodes.length using Nat.strong_induction_on generalizing nodes with
  | _ length ih =>
      cases nodes with
      | nil => exact .nil
      | cons x rest =>
          have hcons := List.nodup_cons.mp hnodup
          have hrest : ∀ y ∈ rest, page.Lodges plan o y :=
            fun y hy => hlodges y (List.mem_cons_of_mem _ hy)
          rcases hlodges x List.mem_cons_self with
            ⟨sketch, hx⟩ | ⟨f, guard, body, state, hx, hstate, hanchor, hup⟩ | ⟨f, a, hpair⟩
          · have hlines : plan.lines o (x :: rest) = sketch :: plan.lines o rest := by
              simp [Plan.lines, hx, Role.sketch?]
            have htail := h.tail fun f r hpair => by
              obtain ⟨_, _, _, _, hrole, _⟩ := hpair.roles hlaid
              rw [hx] at hrole
              cases hrole
            rw [hlines]
            exact .cons (.line hx) (ih rest.length (by simp [← hlength]) htail hcons.2 hrest rfl)
          · have hlines : plan.lines o (x :: rest) = .guarded guard body :: plan.lines o rest := by
              simp [Plan.lines, hx, Role.sketch?]
            rw [hlines]
            cases hattached : state.attached with
            | false =>
                have htail := h.tail fun g r hpair => by
                  have hg := hpair.eq_of_anchor hx hlaid
                  obtain ⟨other, hother, hshown, _⟩ := hpair
                  rw [hg, hstate, Option.some.injEq] at hother
                  rw [← hother, hattached] at hshown
                  cases hshown
                refine .cons (.shut hx ?_) (ih rest.length (by simp [← hlength]) htail hcons.2 hrest rfl)
                exact (isMounted_of_fragment? hstate).trans hattached
            | true =>
                obtain ⟨_, _, _, hsits⟩ := hlaid.fragment f state hstate
                obtain ⟨r, hroot⟩ := hsits.rendered hattached
                have hpair : page.Pair f x r := ⟨state, hstate, hattached, hanchor, hroot⟩
                obtain ⟨_, _, _, _, hx', hr⟩ := hpair.roles hlaid
                obtain ⟨more, rfl⟩ := h.next hnodup hpair
                rw [hx, Role.anchor.injEq] at hx'
                obtain ⟨rfl, _, rfl, rfl⟩ := hx'
                have hskip : plan.lines o (r :: more) = plan.lines o more := by
                  have hne : f ≠ o := by
                    rintro rfl
                    exact horderly.acyclic f f hup .self
                  simp [Plan.lines, hr, Role.sketch?, hne]
                rw [hskip]
                have hshown : page.Fills plan o (.guarded guard body) [x, r] :=
                  .shown hx ((isMounted_of_fragment? hstate).trans hattached) hr
                have hshorter : more.length < length := by
                  rw [← hlength, List.length_cons, List.length_cons]
                  omega
                have hmore := ih more.length hshorter
                  (h.behind hlaid hnodup hpair) (List.nodup_cons.mp hcons.2).2
                  (fun y hy => hrest y (List.mem_cons_of_mem _ hy)) rfl
                exact FillsAll.cons hshown hmore
          · exact absurd hpair (h.not_head hnodup)

/-- What is below a node that houses lines, style sheets and slots aside. -/
theorem Laid.lodges (h : page.Laid reading plan) (hhouses : plan.Houses o p)
    (hx : x ∈ page.dom.children p) (hstyle : ∀ i, plan.role x ≠ .style i)
    (hslot : (plan.role x).isSlot = false) : page.Lodges plan o x := by
  have hparent := (h.valid.mem_children p x).mp hx
  have howner := h.owner_of_houses hhouses
  have hsame : ∀ {i}, (∃ q, page.dom.parent x = some q ∧ plan.Houses i q) → i = o := by
    rintro i ⟨q, hq, hother⟩
    rw [hparent, Option.some.injEq] at hq
    have hi := h.owner_of_houses hother
    rw [← hq, howner, Option.some.injEq] at hi
    exact hi.symm
  have hsome : page.dom.parent x ≠ none := by
    rw [hparent]
    exact Option.some_ne_none p
  have hfits := h.fits x (h.valid.live_of_mem_children hx)
  generalize hrole : plan.role x = role at hfits hstyle hslot
  cases role with
  | document | shadow i | copy i => exact absurd hfits.2 hsome
  | host i =>
      have hdocument := hfits.2.resolve_left hsome
      rw [hparent, Option.some.injEq] at hdocument
      rw [hdocument, h.document_role] at howner
      cases howner
  | style i => exact absurd rfl (hstyle i)
  | slot i guard body => cases hslot
  | line i sketch =>
      rcases hfits.2.2 with hroot | hhouse
      · obtain ⟨state, hstate, hroot⟩ := Option.bind_eq_some_iff.mp hroot
        obtain ⟨_, _, _, hsits⟩ := h.fragment i state hstate
        have hattached : state.attached = true := by
          by_contra hdetached
          exact hsome (hsits.detached x hroot (by simpa using hdetached))
        exact Or.inr (Or.inr ⟨i, state.anchor, state, hstate, hattached, rfl, hroot⟩)
      · exact Or.inl ⟨sketch, by rw [hrole, hsame hhouse]⟩
  | anchor i f guard body =>
      obtain ⟨_, _, ⟨state, hstate, hanchor⟩, hup, hhouse⟩ := hfits
      obtain rfl := hsame hhouse
      exact Or.inr (Or.inl ⟨f, guard, body, state, hrole, hstate, hanchor, hup⟩)

theorem Laid.fillsAll (h : page.Laid reading plan) (horderly : page.Orderly)
    (hhouses : plan.Houses o p) (hplain : ∀ x ∈ page.dom.children p,
      (∀ i, plan.role x ≠ .style i) ∧ (plan.role x).isSlot = false) :
    page.FillsAll plan o (plan.lines o (page.dom.children p)) (page.dom.children p) :=
  (h.paired p).fillsAll h horderly (h.valid.children_nodup p) fun x hx =>
    h.lodges hhouses hx (hplain x hx).1 (hplain x hx).2

end LiveMarkup.Page
