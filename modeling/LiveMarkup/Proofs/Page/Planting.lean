import LiveMarkup.Proofs.Page.Reshape

/-!
New nodes in a layout: a copy of a template plays the roles of its sketch, and an anchor with a new
fragment takes the place of a slot.
-/

namespace LiveMarkup

/-- The element of a template of one element. -/
theorem Blueprint.Says.inner {blueprint : Blueprint} {body : Sketch}
    (h : blueprint.Says [body])
    (helement : body.isElement = true) : ∃ inner,
      blueprint.dom.tree blueprint.root = .node .fragment none [inner] ∧
        inner.content.isElement = true ∧ Sketch.Realizes blueprint.definitions body inner := by
  obtain ⟨trees, htree, inner, rest, rfl, hinner, hrest⟩ := h.trees
  have hnil : rest = [] := hrest
  subst hnil
  refine ⟨inner, htree, ?_, hinner⟩
  cases body with
  | element tag attributes bindings kids =>
      obtain ⟨_, _, rfl, _⟩ := hinner
      rfl
  | fixed content | text i | guarded guard body => cases helement

namespace Page

variable {reading : Blueprint → List Sketch} {page page' page'' : Page} {plan plan' plan'' : Plan}
  {n p x root : NodeId} {c f g o owner : InstanceId} {guard : Interpolation} {body : Sketch}
  {state : FragmentState}

/-! ### Copies -/

section Plays

variable {d : Dom} {definitions : List (NodeDefinition Blueprint)}

theorem lines_of_plays (hplays : Plays d definitions f plan.role n) {tag : String}
    {attributes : List Attribute} {bindings : List AttributeBinding} {kids : List Sketch}
    (hrole : plan.role n = .line o (.element tag attributes bindings kids)) :
    plan.lines o (d.children n) = kids := by
  obtain ⟨sketch, _, hsketch, hkids, _⟩ := hplays
  rw [hrole] at hsketch
  cases sketch with
  | guarded guard body => cases hsketch
  | fixed content | text i => cases hsketch
  | element tag' attributes' bindings' kids' =>
      cases hsketch
      exact Plan.lines_of_roles hkids

theorem houses_of_plays (hplays : Plays d definitions o plan.role p)
    (hn : n ∈ d.children p) : plan.Houses o p := by
  obtain ⟨sketch, _, hsketch, hkids, _⟩ := hplays
  cases sketch with
  | element tag attributes bindings kids =>
      exact Or.inr ⟨tag, attributes, bindings, kids, hsketch⟩
  | fixed content | text i | guarded guard body =>
      have hnil : d.children p = [] := List.map_eq_nil_iff.mp hkids
      rw [hnil] at hn
      cases hn

theorem fits_of_plays (hplays : Plays page.dom definitions o plan.role n)
    (hvacant : (page.slot o).isVacant = false)
    (hplace : (∃ p, page.dom.parent n = some p ∧ plan.Houses o p) ∨
      (page.fragmentRoot? o = some n ∧ (plan.role n).isSlot = false)) :
    page.Fits plan n (plan.role n) := by
  obtain ⟨sketch, _, hsketch, _, hcontent, _⟩ := hplays
  rw [hsketch] at hplace ⊢
  cases sketch with
  | guarded guard body =>
      rcases hplace with hhouses | ⟨_, hfalse⟩
      · exact ⟨hvacant, hhouses⟩
      · cases hfalse
  | fixed content =>
      exact ⟨hvacant, hcontent rfl, hplace.symm.imp (·.1) id⟩
  | text i =>
      exact ⟨hvacant, ⟨"", hcontent rfl⟩, hplace.symm.imp (·.1) id⟩
  | element tag attributes bindings kids =>
      exact ⟨hvacant, ⟨attributes, hcontent rfl⟩, hplace.symm.imp (·.1) id⟩

end Plays

/-- A copy of the template of `o` has been made. `marked` are its nodes with a marker. -/
structure Sown (o : InstanceId) (blueprint : Blueprint) (marked : List (Nat × NodeId)) (d : Dom)
    (plan : Plan) (d' : Dom) (plan' : Plan) : Prop where
  old : ∀ n, d.Live n → d'.Live n ∧ plan'.role n = plan.role n ∧ d'.content n = d.content n ∧
    d'.marker n = d.marker n
  plays : ∀ n, d'.Live n → ¬ d.Live n → (plan'.role n = .copy o ∧ d'.marker n = none) ∨
    Plays d' blueprint.definitions o plan'.role n
  marked_iff : ∀ k n, (k, n) ∈ marked ↔ (d'.Live n ∧ ¬ d.Live n) ∧ d'.marker n = some k
  marked_nodup : (marked.map (·.2)).Nodup

theorem Laid.sprout (h : page.Laid reading plan) (hacyclic : Acyclic page.up)
    (hstate : page.fragment? f = some state) (hroot : state.root = none) {dom : Dom}
    {copy : Dom.Copy} (hcopy : state.blueprint.instantiate page.dom = (dom, copy)) :
    ∃ root, dom.firstElementChild? copy.root = some root ∧
      (dom.insertAfter state.anchor root).2 = true ∧ ∀ dom',
        dom' = (dom.insertAfter state.anchor root).1 → ∀ notice, ∃ plan',
          ((({ page with dom := dom'.remove copy.root } : Page).setMounted f root).report
            notice).Laid reading plan' ∧ plan'.home = plan.home ∧
          Sown f state.blueprint (copy.marked.filter fun entry => dom.contains root entry.2)
            page.dom plan (dom'.remove copy.root) plan' := by
  classical
  obtain ⟨o, guard, body, hsits⟩ := h.fragment f state hstate
  obtain ⟨p, hanchor, hp, hhouses⟩ := h.house_of_anchor hsits
  obtain ⟨inner, htree, hinner, hrealizes⟩ := hsits.tells.inner hsits.element
  have hgraft : page.dom.graft (.node .fragment none [inner]) = (dom, copy) := by
    rw [← htree]
    exact hcopy
  obtain ⟨root, hfirst, hdone, hsprouted⟩ :=
    Dom.sprout_sprouted h.valid hanchor hinner hgraft
  refine ⟨root, hfirst, hdone, fun dom' hdom' notice => ?_⟩
  rw [← hdom'] at hsprouted
  generalize dom'.remove copy.root = d at hsprouted ⊢
  generalize hmarked : copy.marked.filter (fun entry => dom.contains root entry.2) = marked
    at hsprouted ⊢
  have hnew := fun n => hsprouted.new_iff n
  have hroot' := (hnew root).mpr .self
  obtain ⟨role, hrole, hplays⟩ := exists_role hsprouted.valid f body hroot'.1 hsits.proper
    (hsprouted.tree ▸ hrealizes)
  have hline : role root = .line f body := by
    rw [hrole]
    cases body with
    | element tag attributes bindings kids => rfl
    | fixed content | text i | guarded guard body => cases hsits.element
  -- Old nodes keep their roles, the nodes of the copy play the new ones.
  let plan' : Plan := ⟨fun n => if page.dom.Live n then plan.role n else role n, plan.home⟩
  have hold : ∀ n, page.dom.Live n → plan'.role n = plan.role n := fun n hn => if_pos hn
  have hfresh : ∀ n, ¬ page.dom.Live n → plan'.role n = role n := fun n hn => if_neg hn
  have hcopied : ∀ n, d.Live n → ¬ page.dom.Live n →
      Plays d state.blueprint.definitions f plan'.role n := by
    intro n hn hn'
    have hbelow := (hnew n).mp ⟨hn, hn'⟩
    refine (hplays n hbelow).congr (hfresh n hn') fun x hx => hfresh x ?_
    exact ((hnew x).mpr (hbelow.trans (hsprouted.valid.below_of_mem_children hx))).2
  obtain ⟨before, after, hsplit, hkids⟩ := hsprouted.siblings
  have hne : root ≠ state.anchor := by
    rintro rfl
    exact hroot'.2 hsits.anchor_live
  have hnotold : ∀ n, page.dom.Live n → n ≠ root := by
    rintro n hn rfl
    exact hroot'.2 hn
  have htoggled := toggled_setMounted hstate root (fun node hnode => by
    rw [hroot] at hnode
    cases hnode) d notice
  refine ⟨plan', ?_, rfl, ⟨fun n hn => ⟨hsprouted.live n hn, hold n hn, hsprouted.content n hn,
    hsprouted.marker n hn⟩, fun n hn hn' => Or.inr (hcopied n hn hn'), fun k n => ?_,
      hsprouted.marked_nodup⟩⟩
  · refine h.toggle hacyclic htoggled hsits hhouses {
      home := rfl
      valid := hsprouted.valid
      stay := fun n hn => ⟨hsprouted.live n hn, hold n hn, hsprouted.content n hn⟩
      parent := fun n hn _ => hsprouted.parent n hn
      kids := by
        change (d.children p).filter _ = _
        rw [hkids, hsplit]
        simp [hne.symm]
      children := fun n hn hnp => hsprouted.children n hn hnp
      adjacent := fun a b ha _ _ hab => by
        change [a, b] <:+: d.children p
        rw [hsplit] at hab
        rw [hkids]
        exact infix_insert ha hab
      fits := fun n hn hn' => ?_
      lines := fun n i tag attributes bindings kids hn hn' hrole =>
        lines_of_plays (hcopied n hn hn') hrole }
      ⟨hroot'.1, (hfresh root hroot'.2).trans hline, fun _ => ⟨p, ?_⟩,
        fun hfalse => (by cases hfalse)⟩
    · refine fits_of_plays (hcopied n hn hn') ((htoggled.keeps.lasts f).vacant
        (Instance.not_vacant_of_fragment? hstate)) ?_
      by_cases hn'' : n = root
      · subst hn''
        refine Or.inr ⟨fragmentRoot?_of_fragment? htoggled.fragment?, ?_⟩
        rw [hfresh n hn', hline]
        rfl
      · have hbelow := (hnew n).mp ⟨hn, hn'⟩
        rcases hbelow.cases_up with heq | ⟨q, hq, hbelow'⟩
        · exact absurd heq hn''
        · obtain ⟨hq', hqnew⟩ := (hnew q).mpr hbelow'
          exact Or.inl ⟨q, hq, houses_of_plays (hcopied q hq' hqnew)
            ((hsprouted.valid.mem_children q n).mpr hq)⟩
    · change _ <:+: d.children p
      rw [hkids]
      exact ⟨before, after, by simp⟩
  · rw [hsprouted.marked_iff, ← hnew]

/-! ### Anchors -/

theorem Joins.grows {i : Instance} (hj : Joins f i page page') : Grows page page' := by
  refine ⟨hj.document, fun j => ?_⟩
  by_cases hf : j = f
  · -- The slot was empty.
    have hnot : ∀ {P : Prop}, (page.slot j).isVacant = false → P := by
      intro P hvacant
      rw [hf, hj.vacant] at hvacant
      cases hvacant
    exact ⟨hnot, hnot, fun _ hstate => hnot (Instance.not_vacant_of_component? hstate),
      fun _ hstate => hnot (Instance.not_vacant_of_fragment? hstate)⟩
  · have hslot := hj.slot_other j hf
    refine ⟨fun hvacant => by rwa [hslot], fun _ => hj.up_other hf, fun state hstate => ?_,
      fun state hstate => ?_⟩
    · refine ⟨state, ?_, rfl, rfl, fun hconnected => ⟨hconnected, rfl⟩⟩
      rw [component?, hslot]
      exact hstate
    · refine ⟨state.root, state.attached, ?_, fun _ hnode => hnode⟩
      rw [fragment?, hslot]
      exact hstate

/-- A new fragment with an anchor of its own in place of `old`. -/
structure Anchored (owner : InstanceId) (old anchor p : NodeId) (blueprint : Blueprint)
    (f : InstanceId) (page page' : Page) : Prop where
  dom : Dom.Replanted old anchor p (.comment anchorText) page.dom page'.dom
  joins : Joins f ⟨some owner, (page.slot owner).component, .empty, [], false,
    .fragment ⟨blueprint, anchor, none, false, .empty⟩⟩ page page'
  calm : ∃ middle, Calm page middle ∧
    page' = (middle.createFragment owner blueprint anchor .empty).1

theorem anchored_anchored (hvalid : page.dom.Valid) (horderly : page.Orderly)
    (hvacant : (page.slot owner).isVacant = false) {old anchor : NodeId} {index : Nat}
    {directive : Directive Blueprint} (hparent : page.dom.parent old = some p)
    (hchildren : page.dom.children old = [])
    (hanchored : page.anchored owner old index directive = (page', anchor, f)) :
    Anchored owner old anchor p directive.blueprint f page page' := by
  have hakin := (Rendering.akin_reportMismatch page index directive old).trans
    (Rendering.akin_placeAnchor _ old)
  have hcalm := (calm_reportMismatch page index directive old).trans (calm_placeAnchor _ old)
  have hdom : (page.reportMismatch index directive old).dom = page.dom := by
    unfold reportMismatch
    split <;> rfl
  obtain ⟨hdone, hreplanted⟩ := Dom.replant_replanted hvalid hparent hchildren
    (.comment anchorText)
  have hplace : ((page.reportMismatch index directive old).placeAnchor old).2 =
      (page.dom.create (.comment anchorText)).2 ∧
      ((page.reportMismatch index directive old).placeAnchor old).1.dom =
        (((page.dom.create (.comment anchorText)).1.replaceWith old
          (page.dom.create (.comment anchorText)).2).1.remove old) := by
    unfold placeAnchor
    rw [hdom]
    dsimp only
    generalize (page.dom.create (.comment anchorText)).1.replaceWith old
      (page.dom.create (.comment anchorText)).2 = replaced at hdone ⊢
    obtain ⟨dom, done⟩ := replaced
    subst hdone
    exact ⟨rfl, rfl⟩
  unfold anchored at hanchored
  generalize (page.reportMismatch index directive old).placeAnchor old = placed
    at hakin hcalm hplace hanchored
  obtain ⟨middle, node⟩ := placed
  obtain ⟨hnode, hmiddle⟩ := hplace
  dsimp only at hakin hcalm hnode hmiddle
  have hpage : (middle.createFragment owner directive.blueprint node .empty).1 = page' :=
    congrArg (·.1) hanchored
  have hanchor : node = anchor := congrArg (·.2.1) hanchored
  have hnext : middle.nextSlot = f := congrArg (·.2.2) hanchored
  rw [← hnode, hanchor] at hmiddle hreplanted
  rw [hanchor] at hpage
  have hmade := createFragment_joins (horderly.of_akin hakin)
    (by rw [hakin.slot]; exact hvacant) directive.blueprint anchor .empty
  rw [hpage, hnext, hakin.slot] at hmade
  have hdom' : page'.dom = middle.dom := by
    rw [← hpage]
    unfold createFragment occupy
    dsimp only
    split <;> rfl
  refine ⟨?_, hmade.of_akin hakin, middle, hcalm, hpage.symm⟩
  rw [hdom', hmiddle]
  exact hreplanted

theorem Joins.keeps {i : Instance} (hj : Joins f i page page') (hi : i.component? = none) :
    Keeps page page' where
  toGrows := hj.grows
  back c state hstate := by
    refine ⟨state, ?_, rfl⟩
    by_cases hc : c = f
    · subst hc
      rw [component?, hj.slot_self, hi] at hstate
      cases hstate
    · rw [component?, hj.slot_other c hc] at hstate
      exact hstate

theorem Joins.fragment?_other {i : Instance} (hj : Joins f i page page') (hne : g ≠ f) :
    page'.fragment? g = page.fragment? g := by
  rw [fragment?, hj.slot_other g hne, fragment?]
  rfl

namespace Anchored

variable {old anchor : NodeId} {blueprint : Blueprint}
  (ha : Anchored owner old anchor p blueprint f page page')

include ha

theorem fragment? : page'.fragment? f = some ⟨blueprint, anchor, none, false, .empty⟩ := by
  rw [Page.fragment?, ha.joins.slot_self]
  rfl

theorem up : page'.up f = some owner := by
  rw [Page.up, ha.joins.slot_self]

section Roles

variable {plan' : Plan} (hrole : plan.role old = .slot owner guard body)
  (hsame : ∀ n, page.dom.Live n → plan'.role n = plan.role n)

include hrole hsame

theorem abides : Abides page plan page' plan' := by
  intro n hn hno
  refine ⟨(ha.dom.live n).mpr (Or.inr ⟨hn, ?_⟩), hsame n hn⟩
  rintro rfl
  rw [hrole] at hno
  cases hno

/-- The anchor stands for what the slot stood for. -/
theorem lines_eq (h : page.Laid reading plan) (hself : plan'.role anchor = .anchor owner f guard body)
    (hn : page.dom.Live n) (hno : n ≠ old) (i : InstanceId) :
    plan'.lines i (page'.dom.children n) = plan.lines i (page.dom.children n) := by
  rw [ha.dom.children n hn hno, Plan.lines, List.filterMap_map]
  refine List.filterMap_congr fun c hc => ?_
  rw [Function.comp_apply]
  split
  · rename_i heq
    rw [heq, hself, hrole]
    rfl
  · rw [hsame c (h.valid.live_of_mem_children hc)]

/-- The other fragments keep their anchors and elements. -/
theorem sits_other (h : page.Laid reading plan) {state : FragmentState}
    (hstate : page.fragment? g = some state) :
    ∃ o guard body, page'.Sits plan' g state o guard body := by
  obtain ⟨o, guard', body', hsits⟩ := h.fragment g state hstate
  have hanchor : state.anchor ≠ old := by
    intro heq
    have hroles := hsits.anchor_role
    rw [heq, hrole] at hroles
    cases hroles
  have hroot : ∀ root, state.root = some root → root ≠ old := by
    rintro root hnode rfl
    have hroles := (hsits.root root hnode).2
    rw [hrole] at hroles
    cases hroles
  refine ⟨o, guard', body', hsits.mono (ha.joins.keeps rfl).toGrows (ha.abides hrole hsame) hstate
    (fun root r hnode hr => ⟨r, ?_⟩) fun root hnode hnone => ?_⟩
  · have hmem : state.anchor ∈ page.dom.children r := hr.subset List.mem_cons_self
    have hr' := (h.valid.live_of_parent ((h.valid.mem_children r _).mp hmem)).2
    have hno : r ≠ old := by
      rintro rfl
      rw [h.children_of_slot hrole] at hmem
      cases hmem
    rw [ha.dom.children r hr' hno]
    have hmap := hr.map fun c => if c = old then anchor else c
    simpa [hanchor, hroot root hnode] using hmap
  · rw [ha.dom.parent root (hsits.root root hnode).1 (hroot root hnode)]
    exact hnone

end Roles

theorem laid (h : page.Laid reading plan) (hlive : page.dom.Live old)
    (hrole : plan.role old = .slot owner guard body) (hup : page.dom.parent old = some p)
    (htells : blueprint.Says [body]) (hproper : body.Proper) (helement : body.isElement = true) :
    page'.Laid reading
      ⟨Function.update plan.role anchor (.anchor owner f guard body), plan.home⟩ := by
  have hdom := ha.dom
  have hkeeps := ha.joins.keeps rfl
  have hgrows := hkeeps.toGrows
  obtain ⟨hvacant, q, hq, hhouses⟩ := h.fits_of_role hlive hrole
  rw [hup, Option.some.injEq] at hq
  subst hq
  generalize hplan : (⟨Function.update plan.role anchor (.anchor owner f guard body), plan.home⟩ :
    Plan) = plan'
  have hhome : plan'.home = plan.home := by rw [← hplan]
  have hsame : ∀ n, page.dom.Live n → plan'.role n = plan.role n := by
    intro n hn
    rw [← hplan]
    refine Function.update_of_ne ?_ _ _
    rintro rfl
    exact hdom.fresh hn
  have hself : plan'.role anchor = .anchor owner f guard body := by
    rw [← hplan]
    exact Function.update_self _ _ _
  have habides := ha.abides hrole hsame
  have hcases : ∀ n, page'.dom.Live n → n ≠ anchor → page.dom.Live n ∧ n ≠ old := fun n hn hno =>
    ((hdom.live n).mp hn).resolve_left hno
  exact {
    valid := hdom.valid
    document_live := by
      rw [ha.joins.document]
      exact (habides _ h.document_live (by rw [h.document_role]; rfl)).1
    document_role := by
      rw [ha.joins.document, hsame _ h.document_live]
      exact h.document_role
    fits := fun n hn => by
      by_cases hanchor : n = anchor
      · subst hanchor
        have hhouses' : plan'.Houses owner p := by
          rwa [Plan.Houses, hhome, hsame p (h.valid.live_of_parent hup).2]
        rw [hself]
        exact ⟨(hgrows.lasts owner).vacant hvacant, hdom.content_new, ⟨_, ha.fragment?, rfl⟩, ha.up, p,
          hdom.parent_new, hhouses'⟩
      · obtain ⟨hold, hno⟩ := hcases n hn hanchor
        rw [hsame n hold]
        exact (h.fits n hold).mono hgrows.document (fun i _ => hgrows.lasts i)
          (fun _ _ _ hn => hhome ▸ hn)
          (fun hsuits => (hdom.content n hold hno).symm ▸ hsuits) (hdom.parent n hold hno)
          fun r hr => hsame r (h.valid.live_of_parent hr).2
    lines := fun n i tag attributes bindings kids hn hline => by
      by_cases hanchor : n = anchor
      · subst hanchor
        rw [hself] at hline
        cases hline
      · obtain ⟨hold, hno⟩ := hcases n hn hanchor
        rw [hsame n hold] at hline
        rw [ha.lines_eq hrole hsame h hself hold hno]
        exact h.lines n i tag attributes bindings kids hold hline
    fragment := fun g state hstate => by
      by_cases hg : g = f
      · subst hg
        rw [ha.fragment?, Option.some.injEq] at hstate
        subst hstate
        exact ⟨owner, guard, body, {
          up := ha.up
          anchor_live := (hdom.live _).mpr (Or.inl rfl)
          anchor_role := hself
          tells := htells
          proper := hproper
          element := helement
          locals := rfl
          root := fun _ hnode => (by cases hnode)
          rendered := fun hattached => (by cases hattached)
          attached := fun _ hnode => (by cases hnode)
          detached := fun _ hnode => (by cases hnode) }⟩
      · rw [ha.joins.fragment?_other hg] at hstate
        exact ha.sits_other hrole hsame h hstate
    component := fun c state hstate => h.stands hkeeps habides hstate
    home := fun c n hn => by
      rw [hhome] at hn
      have hdwells := h.home c n hn
      refine hdwells.mono hgrows habides (ha.lines_eq hrole hsame h hself hdwells.live ?_ c)
      rintro rfl
      rcases hdwells.role with hrole' | hrole' | hrole' <;> rw [hrole] at hrole' <;> cases hrole' }

end Anchored

end Page

end LiveMarkup
