import LiveMarkup.Proofs.Page.Teardown

/-!
How a component comes into a layout: it is made with a host, the host goes under the document, a copy
of the template is wired by itself, and its lines move into the root, where style sheets join them.
-/

namespace LiveMarkup

namespace Page

variable {reading : Blueprint → List Sketch} {page page' : Page} {plan plan' : Plan}
  {n p x root host : NodeId} {c f o : InstanceId} {role : Role} {state : ComponentState}
  {agenda : List Errand}

theorem Busy.enlarged (h : Busy reading ⟨page, plan, []⟩)
    (he : Enlarged reading page plan page' plan') (hup : ∀ j, page'.up j = page.up j)
    (hheld : ∀ o e, (page'.slot o).bindings.Holds e → (page.slot o).bindings.Holds e) :
    Busy reading ⟨page', plan', []⟩ := by
  have hsame : page'.up = page.up := funext hup
  refine h.next (he.laid h.laid) (hsame ▸ h.acyclic) (fun n hn _ => he.old n hn)
    (fun o e he' => Or.inl (hheld o e he')) (fun _ hnone => absurd hnone List.not_mem_nil)
    List.Pairwise.nil

/-! ### A node by itself -/

/-- At most the node `n`, without parent and children, is new. -/
structure Lone (n : NodeId) (role : Role) (d : Dom) (plan : Plan) (d' : Dom) (plan' : Plan) :
    Prop where
  valid : d'.Valid
  old : ∀ x, d.Live x → d'.Live x ∧ plan'.role x = plan.role x ∧ d'.content x = d.content x
  parent : ∀ x, d'.parent x = d.parent x
  children : ∀ x, d'.children x = d.children x
  new : ∀ x, d'.Live x → ¬ d.Live x → x = n ∧ plan'.role x = role
  home : plan'.home = plan.home

theorem Lone.refl {d : Dom} (hvalid : d.Valid) : Lone n role d plan d plan :=
  ⟨hvalid, fun _ hx => ⟨hx, rfl, rfl⟩, fun _ => rfl, fun _ => rfl,
    fun _ hx hnew => absurd hx hnew, rfl⟩

theorem Lone.of_made {d d' : Dom} {made : Content} (hvalid : d.Valid)
    (h : Dom.Made made n d d') (plan : Plan) (role : Role) :
    Lone n role d plan d' ⟨Function.update plan.role n role, plan.home⟩ := by
  have hne : ∀ {x}, d.Live x → x ≠ n := by
    rintro x hx rfl
    exact h.fresh hx
  refine ⟨h.valid, fun x hx => ⟨h.live_iff.mpr (Or.inr hx), Function.update_of_ne (hne hx) _ _, ?_⟩,
    fun x => ?_, fun x => ?_, fun x hx hnew => ?_, rfl⟩
  · rw [Dom.content, h.node, if_neg (hne hx), Dom.content]
  · rw [Dom.parent, h.node]
    split
    · rename_i heq
      rw [heq, Dom.parent_of_not_live hvalid h.fresh]
      rfl
    · rfl
  · rw [Dom.children, h.node]
    split
    · rename_i heq
      rw [heq, Dom.children_of_not_live hvalid h.fresh]
      rfl
    · rfl
  · have heq := (h.live_iff.mp hx).resolve_right hnew
    exact ⟨heq, by rw [heq]; exact Function.update_self _ _ _⟩

theorem Lone.enlarged (h : page.Laid reading plan)
    (hlone : Lone n role page.dom plan page'.dom plan') (hgrows : Grows page page')
    (hrole : ∀ o sketch, role ≠ .line o sketch)
    (hfits : page'.dom.Live n → ¬ page.dom.Live n → page'.Fits plan' n role)
    (hfragments : ∀ f state, page'.fragment? f = some state → page.fragment? f = some state)
    (hcomponents : ∀ c state, page'.component? c = some state →
      page'.Stands reading plan' c state) : Enlarged reading page plan page' plan' where
  toGrows := hgrows
  valid := hlone.valid
  old x hx := ⟨(hlone.old x hx).1, (hlone.old x hx).2.1⟩
  suits x hx hsuits := by
    rw [(hlone.old x hx).2.2]
    exact hsuits
  parent x _ := Or.inl (hlone.parent x)
  lines x o _ _ := by
    rw [hlone.children]
    exact Plan.lines_congr fun y hy => by
      rw [(hlone.old y (h.valid.live_of_mem_children hy)).2.1]
  adjacent a b p _ _ _ _ _ hab := by rwa [hlone.children]
  fits x hx hnew := by
    obtain ⟨rfl, hself⟩ := hlone.new x hx hnew
    rw [hself]
    exact hfits hx hnew
  new_lines x o _ _ _ _ hx hnew hline := by
    rw [(hlone.new x hx hnew).2] at hline
    exact absurd hline (hrole o _)
  fragments := hfragments
  components := hcomponents
  home c x hx := by rwa [hlone.home]
  dwells c x hx hnot := by
    rw [hlone.home] at hx
    exact absurd hx hnot

/-- The nodes that are new all have a role, and nothing is written to the others. -/
structure Added (role : Role) (d : Dom) (plan : Plan) (d' : Dom) (plan' : Plan) : Prop where
  old : ∀ x, d.Live x → d'.Live x ∧ plan'.role x = plan.role x ∧ d'.content x = d.content x
  new : ∀ x, d'.Live x → ¬ d.Live x → plan'.role x = role
  home : plan'.home = plan.home

theorem Added.refl (role : Role) (d : Dom) (plan : Plan) : Added role d plan d plan :=
  ⟨fun _ hx => ⟨hx, rfl, rfl⟩, fun _ hx hnew => absurd hx hnew, rfl⟩

theorem Added.trans {d d' d'' : Dom} {plan'' : Plan} (h : Added role d plan d' plan')
    (h' : Added role d' plan' d'' plan'') : Added role d plan d'' plan'' where
  old x hx := by
    obtain ⟨hlive, hrole, hcontent⟩ := h.old x hx
    obtain ⟨hlive', hrole', hcontent'⟩ := h'.old x hlive
    exact ⟨hlive', hrole'.trans hrole, hcontent'.trans hcontent⟩
  new x hx hnew := by
    by_cases hx' : d'.Live x
    · rw [(h'.old x hx').2.1]
      exact h.new x hx' hnew
    · exact h'.new x hx hx'
  home := h'.home.trans h.home

theorem Lone.added {d d' : Dom} (h : Lone n role d plan d' plan') : Added role d plan d' plan' :=
  ⟨h.old, fun x hx hnew => (h.new x hx hnew).2, h.home⟩

/-! ### A new component -/

/-- A component whose template is one that was read from markup. -/
def Legible (reading : Blueprint → List Sketch) (definition : Component) : Prop :=
  definition.blueprint.Says (reading definition.blueprint) ∧
    Sketch.ProperAll (reading definition.blueprint)

theorem slot_of_joins {i : Instance} (hj : Joins c i page page') (hparent : i.parent = none)
    (hne : o ≠ c) : page'.slot o = page.slot o := by
  rw [hj.slot_other o hne, hparent, if_neg (fun heq => by cases heq)]

theorem Busy.create (h : Busy reading ⟨page, plan, []⟩) (horderly : page.Orderly)
    {definition : Component} (hlegible : Legible reading definition) (tag : String) {dom : Dom}
    (hmade : page.dom.createElement tag = (dom, host)) :
    Busy reading ⟨{ page with dom }.occupy (newComponent page.nextSlot definition host),
      ⟨Function.update plan.role host (.host page.nextSlot), plan.home⟩, []⟩ := by
  have hj := create_joins horderly definition dom host
  have hslot := fun {o} (ho : o ≠ page.nextSlot) => slot_of_joins hj rfl ho
  have hdom : ({ page with dom }.occupy (newComponent page.nextSlot definition host)).dom = dom := by
    unfold occupy
    split <;> rfl
  have hfresh : Dom.Made (.element (tag.map Char.toLower) []) host page.dom dom := by
    have hcreate := Dom.create_made h.laid.valid (.element (tag.map Char.toLower) [])
    rw [Dom.createElement] at hmade
    rwa [hmade] at hcreate
  have hlone := Lone.of_made h.laid.valid hfresh plan (.host page.nextSlot)
  have hself : ({ page with dom }.occupy (newComponent page.nextSlot definition host)).component?
      page.nextSlot = some ⟨definition, host, host, definition.defaults, .empty, false⟩ := by
    rw [component?, hj.slot_self]
    rfl
  have hempty : page.slot page.nextSlot = .alone page.nextSlot .vacant :=
    horderly.vacant_eq _ hj.vacant
  generalize { page with dom }.occupy (newComponent page.nextSlot definition host) = page'
    at hj hslot hdom hself ⊢
  rw [← hdom] at hlone hfresh
  refine h.enlarged (hlone.enlarged h.laid hj.grows (fun _ _ heq => by cases heq) (fun _ _ => ?_)
    (fun f state hf => ?_) fun c state hstate => ?_) (fun j => ?_) fun o e he => ?_
  · refine ⟨⟨_, hself, rfl⟩, Or.inl ?_⟩
    rw [hlone.parent, Dom.parent_of_not_live h.laid.valid hfresh.fresh]
  · have hne : f ≠ page.nextSlot := by
      rintro rfl
      rw [fragment?, Instance.fragment?_of_component? hself] at hf
      cases hf
    rwa [fragment?, hslot hne] at hf
  · by_cases hc : c = page.nextSlot
    · subst hc
      rw [hself, Option.some.injEq] at hstate
      subst hstate
      exact ⟨hfresh.live, Function.update_self _ _ _, fun hfalse => (by cases hfalse), hlegible.1,
        hlegible.2⟩
    · rw [component?, hslot hc] at hstate
      exact (h.laid.component c state hstate).mono
        (fun x hx _ => ⟨(hlone.old x hx).1, (hlone.old x hx).2.1⟩) rfl rfl
        fun hconnected => ⟨hconnected, rfl⟩
  · by_cases hc : j = page.nextSlot
    · rw [hc, up, hj.slot_self, up, hempty]
      rfl
    · rw [up, hslot hc, up]
  · by_cases hc : o = page.nextSlot
    · rw [hc, hj.slot_self] at he
      exact absurd he (not_holds_foldl_ensure _ (fun _ => Bindings.not_holds_empty) e)
    · rwa [hslot hc] at he

/-! ### The host -/

theorem Laid.place (h : page.Laid reading plan) (hstate : page.component? c = some state) :
    Dom.Placed page.document state.host
      ((page.dom.children page.document).filter (· ≠ state.host) ++ [state.host]) page.dom
        (page.dom.appendChild page.document state.host) := by
  have hstands := h.component c state hstate
  refine Dom.appendChild_placed h.valid h.document_live hstands.host_live fun hbelow => ?_
  have hrole := hstands.host_role
  rw [hbelow.eq_of_up_none h.parent_document, h.document_role] at hrole
  cases hrole

theorem Busy.place (h : Busy reading ⟨page, plan, []⟩) (hstate : page.component? c = some state) :
    Busy reading ⟨page.editDom (·.appendChild page.document state.host), plan, []⟩ := by
  have hlaid := h.laid
  have hstands := hlaid.component c state hstate
  have hplaced := hlaid.place hstate
  have hvalid := Dom.appendChild_valid hlaid.valid hlaid.document_live hstands.host_live
  -- Nothing but the document has a host among its children.
  have hchildren : ∀ n, n ≠ page.document →
      (page.dom.appendChild page.document state.host).children n = page.dom.children n := by
    intro n hn
    rw [hplaced.children, if_neg hn, Dom.filter_ne_of_not_mem]
    intro hmem
    have hparent := (hlaid.valid.mem_children n _).mp hmem
    obtain ⟨_, hnone | hdocument⟩ := hlaid.fits_of_role hstands.host_live hstands.host_role
    · rw [hparent] at hnone
      cases hnone
    · rw [hparent, Option.some.injEq] at hdocument
      exact hn hdocument
  have hakin := akin_editDom page (·.appendChild page.document state.host)
  have hkeeps := keeps_of_akin hakin
  refine h.enlarged {
    toGrows := hkeeps.toGrows
    valid := hvalid
    old := fun n hn => ⟨(hplaced.live n).mpr hn, rfl⟩
    suits := fun n _ hsuits => by
      rw [editDom, hplaced.content]
      exact hsuits
    parent := fun n _ => by
      rw [editDom, hplaced.parent]
      split
      · rename_i heq
        exact Or.inr ⟨⟨c, heq ▸ hstands.host_role⟩, Or.inr rfl⟩
      · exact Or.inl rfl
    lines := fun n o _ ho => by
      rw [editDom, hchildren]
      rintro rfl
      rw [hlaid.document_role] at ho
      cases ho
    adjacent := fun a b p o f guard body hrole hab => by
      rw [editDom, hchildren]
      · exact hab
      · rintro rfl
        have hmem := (hlaid.valid.mem_children _ a).mp (hab.subset List.mem_cons_self)
        rcases hlaid.parent_cases hmem with ⟨_, c', hhost⟩ | ⟨c', hstyle, _⟩ | ⟨o', i, hhouses, _⟩
        · rw [hrole] at hhost
          cases hhost
        · rw [hrole] at hstyle
          cases hstyle
        · have howner := hlaid.owner_of_houses hhouses
          rw [hlaid.document_role] at howner
          cases howner
    fits := fun n hn hnew => absurd ((hplaced.live n).mp hn) hnew
    new_lines := fun n _ _ _ _ _ hn hnew => absurd ((hplaced.live n).mp hn) hnew
    fragments := fun f state hf => by rwa [fragment?, hakin.slot] at hf
    components := fun c' other hother => hlaid.stands hkeeps
      (fun n hn _ => ⟨(hplaced.live n).mpr hn, rfl⟩) hother
    home := fun _ _ hhome => hhome
    dwells := fun _ _ hhome hno => absurd hhome hno } (fun _ => rfl) fun _ _ he => he

/-! ### The root -/

theorem Laid.home_of_idle (h : page.Laid reading plan) (hstate : page.component? c = some state)
    (hidle : state.connected = false) : plan.home c = none := by
  refine Option.eq_none_iff_forall_ne_some.mpr fun n hn => ?_
  obtain ⟨other, hother, hconnected, _⟩ := (h.home c n hn).state
  rw [hstate, Option.some.injEq] at hother
  rw [← hother, hidle] at hconnected
  cases hconnected

theorem Laid.makeRoot (h : page.Laid reading plan) (hstate : page.component? c = some state)
    {made : Page} (hmade : page.makeRoot state = (made, root)) :
    ∃ plan', Lone root (.shadow c) page.dom plan made.dom plan' ∧ made.dom.Live root ∧
      (plan'.role root = .host c ∨ plan'.role root = .shadow c) := by
  have hstands := h.component c state hstate
  unfold Page.makeRoot at hmade
  split at hmade
  · have hfresh := Dom.create_made h.valid .fragment
    obtain ⟨rfl, rfl⟩ := Prod.mk.inj hmade
    exact ⟨_, .of_made h.valid hfresh plan (.shadow c), hfresh.live,
      Or.inr (Function.update_self _ _ _)⟩
  · obtain ⟨rfl, rfl⟩ := Prod.mk.inj hmade
    exact ⟨plan, .refl h.valid, hstands.host_live, Or.inl hstands.host_role⟩

theorem Busy.attach (h : Busy reading ⟨page, plan, []⟩) (hstate : page.component? c = some state)
    (hidle : state.connected = false) {made : Page} (hmade : page.makeRoot state = (made, root)) :
    ∃ plan', Busy reading ⟨made.attach c root, plan', []⟩ ∧
      Added (.shadow c) page.dom plan made.dom plan' := by
  obtain ⟨plan', hlone, hlive, hrole⟩ := h.laid.makeRoot hstate hmade
  have hakin : Akin page made := by
    have hroot := akin_makeRoot page state
    rwa [hmade] at hroot
  have hstands := h.laid.component c state hstate
  have hstate' : made.component? c = some state := by rwa [component?, hakin.slot]
  have hslot := slot_attach hstate' root
  have hself : (made.attach c root).component? c = some { state with root, connected := true } := by
    rw [component?, hslot, if_pos rfl]
    rfl
  have hother : ∀ j, j ≠ c → (made.attach c root).slot j = page.slot j := fun j hj => by
    rw [hslot, if_neg hj, hakin.slot]
  have habides : Abides page plan (made.attach c root) plan' := fun x hx _ =>
    ⟨(hlone.old x hx).1, (hlone.old x hx).2.1⟩
  have hbindings : ∀ j e, ((made.attach c root).slot j).bindings.Holds e →
      (page.slot j).bindings.Holds e := by
    intro j e he
    rw [hslot] at he
    split at he
    · rename_i heq
      rw [← hakin.slot]
      exact Bindings.holds_clearChanges.mp he
    · rwa [hakin.slot] at he
  have hup : ∀ j, (made.attach c root).up j = page.up j := by
    intro j
    rw [up, hslot, hakin.slot]
    split <;> rfl
  have hgrows : Grows page (made.attach c root) := by
    refine ⟨hakin.document, fun j => ?_⟩
    by_cases hj : j = c
    · subst hj
      refine ⟨fun _ => Instance.not_vacant_of_component? hself, fun _ => hup j,
        fun other hcomponent => ?_, fun other hfragment => ?_⟩
      · rw [hstate, Option.some.injEq] at hcomponent
        subst hcomponent
        refine ⟨_, hself, rfl, rfl, fun hconnected => ?_⟩
        rw [hidle] at hconnected
        cases hconnected
      · rw [fragment?, Instance.fragment?_of_component? hstate] at hfragment
        cases hfragment
    · exact .of_slot (hother j hj)
  refine ⟨plan', h.enlarged (hlone.enlarged h.laid hgrows
    (fun _ _ heq => by cases heq) (fun _ hnew => ?_) (fun f old hf => ?_)
    fun c' other hcomponent => ?_) hup hbindings, hlone.added⟩
  · refine ⟨⟨_, hself, rfl, rfl⟩, ?_⟩
    exact (hlone.parent root).trans (Dom.parent_of_not_live h.laid.valid hnew)
  · by_cases hf' : f = c
    · subst hf'
      rw [fragment?, Instance.fragment?_of_component? hself] at hf
      cases hf
    · rwa [fragment?, hother f hf'] at hf
  · by_cases hc : c' = c
    · subst hc
      rw [hself, Option.some.injEq] at hcomponent
      subst hcomponent
      obtain ⟨hhost, hhostrole⟩ := habides state.host hstands.host_live
        (by rw [hstands.host_role]; rfl)
      exact ⟨hhost, hhostrole.trans hstands.host_role, fun _ => ⟨hlive, hrole⟩, hstands.tells,
        hstands.proper⟩
    · rw [component?, hother c' hc] at hcomponent
      exact (h.laid.component c' other hcomponent).mono habides rfl rfl
        fun hconnected => ⟨hconnected, rfl⟩

/-! ### The copy -/

/-- A copy of the template of `c` has been made, with a role for each of its nodes. The root of the
copy is the home of `c`. -/
structure Seeded (c : InstanceId) (blueprint : Blueprint) (sketches : List Sketch) (copy : Dom.Copy)
    (d : Dom) (plan : Plan) (d' : Dom) (plan' : Plan) : Prop where
  new_iff : ∀ x, (d'.Live x ∧ ¬ d.Live x) ↔ d'.Below copy.root x
  old : ∀ x, d.Live x → plan'.role x = plan.role x
  self : plan'.role copy.root = .copy c
  home : plan'.home = Function.update plan.home c (some copy.root)
  plays : ∀ x, d'.Live x → ¬ d.Live x → x = copy.root ∨ Plays d' blueprint.definitions c plan'.role x
  lines : plan'.lines c (d'.children copy.root) = sketches

theorem exists_seeded {d d' : Dom} {trees : List Tree} {copy : Dom.Copy} {blueprint : Blueprint}
    {sketches : List Sketch} (hgrafted : Dom.Grafted (.node .fragment none trees) copy d d')
    (hproper : Sketch.ProperAll sketches)
    (hrealizes : Sketch.RealizesAll blueprint.definitions sketches trees) (c : InstanceId)
    (plan : Plan) : ∃ plan', Seeded c blueprint sketches copy d plan d' plan' := by
  classical
  have hnew : ∀ x, (d'.Live x ∧ ¬ d.Live x) ↔ d'.Below copy.root x := fun x => by
    rw [hgrafted.new_iff]
    simp
  have hrootnew := ((hnew copy.root).mpr .self).2
  obtain ⟨_, _, hkids⟩ := Tree.node.inj
    ((Dom.tree_eq hgrafted.valid copy.root).symm.trans hgrafted.tree)
  rw [← hkids] at hrealizes
  obtain ⟨role, hroles, hplays⟩ := exists_roles hgrafted.valid c _
    (fun x hx => hgrafted.valid.live_of_mem_children hx) (hgrafted.valid.pairwise_apart copy.root)
    hproper hrealizes
  let plan' : Plan := ⟨fun x => if d.Live x then plan.role x
    else if x = copy.root then .copy c else role x, Function.update plan.home c (some copy.root)⟩
  have hbelow : ∀ k ∈ d'.children copy.root, ∀ x, d'.Below k x → plan'.role x = role x := by
    intro k hk x hx
    have hparent := (hgrafted.valid.mem_children copy.root k).mp hk
    refine (if_neg ((hnew x).mpr ((Above.of_up hparent).trans hx)).2).trans (if_neg ?_)
    rintro rfl
    exact hgrafted.valid.acyclic k copy.root hparent hx
  refine ⟨plan', hnew, fun x hx => if_pos hx, (if_neg hrootnew).trans (if_pos rfl), rfl,
    fun x hx hx' => ?_, ?_⟩
  · refine (hgrafted.valid.below_cases ((hnew x).mp ⟨hx, hx'⟩)).imp id fun ⟨k, hk, hkx⟩ => ?_
    exact (hplays k hk x hkx).congr (hbelow k hk x hkx) fun y hy =>
      hbelow k hk y (hkx.trans (hgrafted.valid.below_of_mem_children hy))
  · exact Plan.lines_of_roles ((List.map_congr_left fun k hk => hbelow k hk k .self).trans hroles)

section Seeded

variable {blueprint : Blueprint} {sketches : List Sketch} {trees : List Tree} {copy : Dom.Copy}
  {dom : Dom} (hs : Seeded c blueprint sketches copy page.dom plan dom plan')
  (hgrafted : Dom.Grafted (.node .fragment none trees) copy page.dom dom)

include hs hgrafted

theorem Seeded.sown : Sown c blueprint copy.marked page.dom plan dom plan' := by
  obtain ⟨_, hmarker, _⟩ := Tree.node.inj
    ((Dom.tree_eq hgrafted.valid copy.root).symm.trans hgrafted.tree)
  refine ⟨fun x hx => ⟨hgrafted.live x hx, hs.old x hx, hgrafted.content x hx,
    hgrafted.marker x hx⟩, fun x hx hx' => ?_, hgrafted.marked_iff, hgrafted.marked_nodup⟩
  exact (hs.plays x hx hx').imp (fun heq => by rw [heq]; exact ⟨hs.self, hmarker⟩) id

/-- The nodes of the copy are where their roles want them. -/
theorem Seeded.fits (hvacant : (page.slot c).isVacant = false) (hx : dom.Live x)
    (hnew : ¬ page.dom.Live x) : ({ page with dom } : Page).Fits plan' x (plan'.role x) := by
  have hhome : plan'.home c = some copy.root := by
    rw [hs.home]
    exact Function.update_self _ _ _
  rcases hs.plays x hx hnew with rfl | hplay
  · rw [hs.self]
    exact ⟨hhome, hgrafted.parentless⟩
  · refine fits_of_plays hplay hvacant (Or.inl ?_)
    rcases ((hs.new_iff x).mp ⟨hx, hnew⟩).cases_up with rfl | ⟨p, hp, hbelow⟩
    · obtain ⟨sketch, _, hsketch, _⟩ := hplay
      rw [hs.self] at hsketch
      cases sketch <;> cases hsketch
    · obtain ⟨hplive, hpnew⟩ := (hs.new_iff p).mpr hbelow
      refine ⟨p, hp, ?_⟩
      rcases hs.plays p hplive hpnew with rfl | hplay'
      · exact Or.inl hhome
      · exact houses_of_plays hplay' ((hgrafted.valid.mem_children p x).mpr hp)

theorem Seeded.enlarged (h : page.Laid reading plan) (hstate : page.component? c = some state)
    (hconnected : state.connected = true) (hhome : plan.home c = none)
    (hreads : sketches = reading state.definition.blueprint) :
    Enlarged reading page plan { page with dom } plan' where
  toGrows := (keeps_of_akin (akin_dom page dom)).toGrows
  valid := hgrafted.valid
  old x hx := ⟨hgrafted.live x hx, hs.old x hx⟩
  suits x hx hsuits := by
    rw [hgrafted.content x hx]
    exact hsuits
  parent x hx := Or.inl (hgrafted.parent x hx)
  lines x o hx _ := by
    rw [hgrafted.children x hx]
    exact Plan.lines_congr fun y hy => by rw [hs.old y (h.valid.live_of_mem_children hy)]
  adjacent a b p _ _ _ _ _ hab := by
    have hmem : a ∈ page.dom.children p := hab.subset List.mem_cons_self
    rwa [hgrafted.children p (h.valid.live_of_parent ((h.valid.mem_children p a).mp hmem)).2]
  fits x hx hnew := hs.fits hgrafted (Instance.not_vacant_of_component? hstate) hx hnew
  new_lines x o _ _ _ _ hx hnew hrole := by
    rcases hs.plays x hx hnew with rfl | hplay
    · rw [hs.self] at hrole
      cases hrole
    · exact lines_of_plays hplay hrole
  fragments _ _ hf := hf
  components c' other hother := h.stands (keeps_of_akin (akin_dom page dom))
    (fun x hx _ => ⟨hgrafted.live x hx, hs.old x hx⟩) hother
  home c' x hx := by
    rw [hs.home, Function.update_of_ne]
    · exact hx
    · rintro rfl
      rw [hhome] at hx
      cases hx
  dwells c' x hx hno := by
    rw [hs.home] at hx
    by_cases hc : c' = c
    · subst hc
      rw [Function.update_self, Option.some.injEq] at hx
      subst hx
      exact ⟨((hs.new_iff _).mpr .self).1, Or.inr (Or.inr hs.self), state, hstate, hconnected,
        hs.lines.trans hreads⟩
    · exact absurd ((Function.update_of_ne hc _ _).symm.trans hx) hno

end Seeded

/-- A connected component without a home gets a copy of its template, by itself. -/
theorem Busy.sow (h : Busy reading ⟨page, plan, []⟩) (hstate : page.component? c = some state)
    (hconnected : state.connected = true) (hhome : plan.home c = none) {dom : Dom}
    {copy : Dom.Copy} (hcopy : state.definition.blueprint.instantiate page.dom = (dom, copy)) :
    ∃ plan', Busy reading ⟨{ page with dom }, plan',
        (state.definition.blueprint.chores c copy.marked).map .chore⟩ ∧
      plan'.home = Function.update plan.home c (some copy.root) ∧ ¬ page.dom.Live copy.root ∧
        Sown c state.definition.blueprint copy.marked page.dom plan dom plan' := by
  have hstands := h.laid.component c state hstate
  obtain ⟨trees, htree, hrealizes⟩ := hstands.tells.trees
  have hgrafted : Dom.Grafted (.node .fragment none trees) copy page.dom dom := by
    have hgraft := Dom.graft_grafted
      (state.definition.blueprint.dom.tree state.definition.blueprint.root) h.laid.valid
    rw [show page.dom.graft _ = (dom, copy) from hcopy, htree] at hgraft
    exact hgraft
  obtain ⟨plan', hs⟩ := exists_seeded hgrafted hstands.proper hrealizes c plan
  have hsown := hs.sown hgrafted
  have hlarge := hs.enlarged hgrafted h.laid hstate hconnected hhome rfl
  refine ⟨plan', h.next (hlarge.laid h.laid) h.acyclic (fun x hx _ => hlarge.old x hx)
    (fun o e he => Or.inl he) (fun errand herrand => ?_) hsown.apart, hs.home,
    ((hs.new_iff _).mpr .self).2, hsown⟩
  obtain ⟨chore, hchore, rfl⟩ := List.mem_map.mp herrand
  exact (hsown.suits hchore).1

/-! ### The lines in the root -/

/-- Nothing but lines and styles of a component that is at home elsewhere would be under its root. -/
theorem Laid.root_bare (h : page.Laid reading plan)
    (hrole : plan.role root = .host c ∨ plan.role root = .shadow c)
    (hhome : plan.home c ≠ some root) : page.dom.children root = [] := by
  refine List.eq_nil_iff_forall_not_mem.mpr fun x hx => ?_
  have hone : ∀ o, plan.home o = some root → o = c := by
    intro o ho
    rcases (h.home o root ho).role with hrole' | hrole' | hrole' <;>
      rcases hrole with hrole | hrole <;> rw [hrole] at hrole' <;> cases hrole' <;> rfl
  rcases h.parent_cases ((h.valid.mem_children root x).mp hx) with
    ⟨rfl, _⟩ | ⟨o, _, ho | hstyle⟩ | ⟨o, _, ho | ⟨_, _, _, _, hline⟩, _⟩
  · rcases hrole with hrole | hrole <;> rw [h.document_role] at hrole <;> cases hrole
  · exact hhome (hone o ho ▸ ho)
  · rcases hrole with hrole | hrole <;> rw [hrole] at hstyle <;> cases hstyle
  · exact hhome (hone o ho ▸ ho)
  · rcases hrole with hrole | hrole <;> rw [hrole] at hline <;> cases hline

/-- The children of `source`, which goes, come under `target`. -/
def rehome (page : Page) (source target : NodeId) : Page :=
  page.editDom fun dom => (dom.moveChildren source target).remove source

section Settle

variable (h : page.Laid reading plan) (hstate : page.component? c = some state)
  (hconnected : state.connected = true) (hhome : plan.home c = some n) (hrole : plan.role n = .copy c)

include h hhome hrole

/-- What is at home at the copy is at home at the root. -/
theorem Laid.home_settled (root : NodeId) (hp : plan.home o = some p) :
    Function.update plan.home c (some root) o = some (if p = n then root else p) := by
  by_cases ho : o = c
  · subst ho
    rw [hhome, Option.some.injEq] at hp
    rw [if_pos hp.symm]
    exact Function.update_self _ _ _
  · rw [if_neg]
    · exact (Function.update_of_ne ho _ _).trans hp
    · rintro rfl
      rcases (h.home o p hp).role with hrole' | hrole' | hrole' <;> rw [hrole] at hrole' <;>
        cases hrole'
      exact ho rfl

include hstate hconnected

theorem Laid.rehomed :
    Dom.Rehomed n state.root page.dom (page.rehome n state.root).dom ∧ n ≠ state.root ∧
      page.dom.children state.root = [] := by
  obtain ⟨hroot, hrootrole⟩ := (h.component c state hstate).root hconnected
  have hlive := (h.home c n hhome).live
  obtain ⟨_, hparent⟩ := h.fits_of_role hlive hrole
  have hne : n ≠ state.root := by
    rintro rfl
    rcases hrootrole with hrole' | hrole' <;> rw [hrole] at hrole' <;> cases hrole'
  have hbare := h.root_bare hrootrole fun heq => hne (by
    rw [hhome, Option.some.injEq] at heq
    exact heq)
  refine ⟨Dom.rehome_rehomed h.valid hlive hroot (fun hbelow => ?_) hparent hbare, hne, hbare⟩
  rcases hbelow.cases_up with heq | ⟨p, hp, hbelow'⟩
  · exact hne heq.symm
  · obtain ⟨_, hnone | hdocument⟩ | ⟨_, hnone⟩ : page.Fits plan state.root (.host c) ∨
        page.Fits plan state.root (.shadow c) :=
      hrootrole.imp (h.fits_of_role hroot) (h.fits_of_role hroot)
    · rw [hp] at hnone
      cases hnone
    · rw [hp, Option.some.injEq] at hdocument
      subst hdocument
      rw [hbelow'.eq_of_up_none h.parent_document, h.document_role] at hrole
      cases hrole
    · rw [hp] at hnone
      cases hnone

theorem Laid.parent_settled (hx : page.dom.Live x) (hxn : x ≠ n) :
    (page.rehome n state.root).dom.parent x =
      (page.dom.parent x).map fun p => if p = n then state.root else p := by
  rw [(h.rehomed hstate hconnected hhome hrole).1.parent x hx hxn]
  cases page.dom.parent x with
  | none => rw [if_neg (fun heq => by cases heq), Option.map_none]
  | some p =>
      simp only [Option.some.injEq, Option.map_some]
      split <;> rfl

theorem Laid.houses_settled (hx : page.dom.Live x) (hxn : x ≠ n)
    (hhouses : ∃ p, page.dom.parent x = some p ∧ plan.Houses o p) :
    ∃ p, (page.rehome n state.root).dom.parent x = some p ∧
      Plan.Houses ⟨plan.role, Function.update plan.home c (some state.root)⟩ o p := by
  obtain ⟨p, hp, hhouse⟩ := hhouses
  have hparent := h.parent_settled hstate hconnected hhome hrole hx hxn
  rw [hp, Option.map_some] at hparent
  refine ⟨_, hparent, hhouse.imp (h.home_settled hhome hrole state.root) fun hline => ?_⟩
  rwa [if_neg]
  rintro rfl
  obtain ⟨_, _, _, _, hline⟩ := hline
  rw [hrole] at hline
  cases hline

theorem Laid.fits_settled (hx : (page.rehome n state.root).dom.Live x) :
    (page.rehome n state.root).Fits
      ⟨plan.role, Function.update plan.home c (some state.root)⟩ x (plan.role x) := by
  obtain ⟨hdom, _⟩ := h.rehomed hstate hconnected hhome hrole
  obtain ⟨hold, hxn⟩ := (hdom.live x).mp hx
  have hfits := h.fits x hold
  have hcontent := hdom.content x hold hxn
  have hparent := h.parent_settled hstate hconnected hhome hrole hold hxn
  have hnone : page.dom.parent x = none → (page.rehome n state.root).dom.parent x = none := by
    intro hnone
    rw [hparent, hnone, Option.map_none]
  have hhouses : ∀ {o}, (∃ p, page.dom.parent x = some p ∧ plan.Houses o p) → _ :=
    h.houses_settled hstate hconnected hhome hrole hold hxn
  generalize plan.role x = role at hfits
  cases role with
  | document => exact ⟨hfits.1, hnone hfits.2⟩
  | host i =>
      refine ⟨hfits.1, hfits.2.imp hnone fun hplace => ?_⟩
      rw [hparent, hplace, Option.map_some, if_neg]
      · rfl
      · rintro rfl
        rw [h.document_role] at hrole
        cases hrole
  | shadow i => exact ⟨hfits.1, hnone hfits.2⟩
  | copy i =>
      refine ⟨(h.home_settled hhome hrole state.root hfits.1).trans ?_, hnone hfits.2⟩
      rw [if_neg hxn]
  | style i =>
      obtain ⟨hsome, p, hp, hhome' | hstyle⟩ := hfits
      · rw [hp, Option.map_some] at hparent
        exact ⟨hsome, _, hparent, Or.inl (h.home_settled hhome hrole state.root hhome')⟩
      · rw [hp, Option.map_some, if_neg] at hparent
        · exact ⟨hsome, p, hparent, Or.inr hstyle⟩
        · rintro rfl
          rw [hrole] at hstyle
          cases hstyle
  | line i sketch =>
      refine ⟨hfits.1, ?_, hfits.2.2.imp id hhouses⟩
      rw [hcontent]
      exact hfits.2.1
  | slot i guard body => exact ⟨hfits.1, hhouses hfits.2⟩
  | anchor i f guard body =>
      exact ⟨hfits.1, hcontent.trans hfits.2.1, hfits.2.2.1, hfits.2.2.2.1, hhouses hfits.2.2.2.2⟩

theorem Laid.sits_settled {old : FragmentState} {guard : Interpolation} {body : Sketch}
    (hsits : page.Sits plan f old o guard body) :
    (page.rehome n state.root).Sits
      ⟨plan.role, Function.update plan.home c (some state.root)⟩ f old o guard body := by
  obtain ⟨hdom, hne, hbare⟩ := h.rehomed hstate hconnected hhome hrole
  have hstay : ∀ {x}, page.dom.Live x → plan.role x ≠ .copy c →
      (page.rehome n state.root).dom.Live x ∧ x ≠ n := by
    intro x hx hnot
    have hxn : x ≠ n := by
      rintro rfl
      exact hnot hrole
    exact ⟨(hdom.live x).mpr ⟨hx, hxn⟩, hxn⟩
  have hline : ∀ {root}, old.root = some root → plan.role root ≠ .copy c := fun hr => by
    rw [(hsits.root _ hr).2]
    exact fun heq => (by cases heq)
  have hanchor : plan.role old.anchor ≠ .copy c := by
    rw [hsits.anchor_role]
    exact fun heq => (by cases heq)
  exact {
    up := hsits.up
    anchor_live := (hstay hsits.anchor_live hanchor).1
    anchor_role := hsits.anchor_role
    tells := hsits.tells
    proper := hsits.proper
    element := hsits.element
    locals := hsits.locals
    root := fun root hr => ⟨(hstay (hsits.root root hr).1 (hline hr)).1, (hsits.root root hr).2⟩
    rendered := hsits.rendered
    attached := fun root hr hattached => by
      obtain ⟨p, hp⟩ := hsits.attached root hr hattached
      have hmem : old.anchor ∈ page.dom.children p := hp.subset List.mem_cons_self
      have hlive := (h.valid.live_of_parent ((h.valid.mem_children p _).mp hmem)).2
      by_cases hpn : p = n
      · refine ⟨state.root, ?_⟩
        rw [hdom.children _ ((h.component c state hstate).root hconnected).1 (Ne.symm hne),
          if_pos rfl, ← hpn]
        exact hp
      · refine ⟨p, ?_⟩
        rwa [hdom.children p hlive hpn, if_neg]
        rintro rfl
        rw [hbare] at hmem
        cases hmem
    detached := fun root hr hdetached => by
      rw [h.parent_settled hstate hconnected hhome hrole (hsits.root root hr).1
        (hstay (hsits.root root hr).1 (hline hr)).2, hsits.detached root hr hdetached]
      rfl }

theorem Laid.dwells_settled
    (hx : Function.update plan.home c (some state.root) o = some x) :
    (page.rehome n state.root).Dwells reading
      ⟨plan.role, Function.update plan.home c (some state.root)⟩ o x := by
  obtain ⟨hdom, hne, _⟩ := h.rehomed hstate hconnected hhome hrole
  obtain ⟨hroot, hrootrole⟩ := (h.component c state hstate).root hconnected
  by_cases ho : o = c
  · subst ho
    rw [Function.update_self, Option.some.injEq] at hx
    subst hx
    obtain ⟨other, hother, hon, hlines⟩ := (h.home o n hhome).state
    refine ⟨(hdom.live _).mpr ⟨hroot, Ne.symm hne⟩,
      hrootrole.elim Or.inl fun hshadow => Or.inr (Or.inl hshadow), other, hother, hon, ?_⟩
    rw [hdom.children _ hroot (Ne.symm hne), if_pos rfl]
    exact hlines
  · rw [Function.update_of_ne ho] at hx
    have hdwells := h.home o x hx
    obtain ⟨other, hother, hon, hlines⟩ := hdwells.state
    have hdiffer : ∀ role, plan.role x = role → role.owner? = some o := by
      rintro role rfl
      rcases hdwells.role with hrole' | hrole' | hrole' <;> rw [hrole'] <;> rfl
    have hxn : x ≠ n := by
      rintro rfl
      exact ho (Option.some.inj (hdiffer _ hrole)).symm
    have hxr : x ≠ state.root := by
      rintro rfl
      rcases hrootrole with hrole' | hrole' <;> exact ho (Option.some.inj (hdiffer _ hrole')).symm
    refine ⟨(hdom.live x).mpr ⟨hdwells.live, hxn⟩, hdwells.role, other, hother, hon, ?_⟩
    rw [hdom.children x hdwells.live hxn, if_neg hxr]
    exact hlines

/-- The lines of a component move from the copy into its root. -/
theorem Laid.settle : (page.rehome n state.root).Laid reading
    ⟨plan.role, Function.update plan.home c (some state.root)⟩ := by
  obtain ⟨hdom, hne, _⟩ := h.rehomed hstate hconnected hhome hrole
  obtain ⟨hroot, hrootrole⟩ := (h.component c state hstate).root hconnected
  have hstay : ∀ {x}, page.dom.Live x → plan.role x ≠ .copy c →
      (page.rehome n state.root).dom.Live x := fun hx hnot => (hdom.live _).mpr ⟨hx, by
    rintro rfl
    exact hnot hrole⟩
  exact {
    valid := hdom.valid
    document_live := hstay h.document_live fun heq => (by cases h.document_role.symm.trans heq)
    document_role := h.document_role
    fits := fun x hx => h.fits_settled hstate hconnected hhome hrole hx
    lines := fun x i tag attributes bindings kids hx hline => by
      obtain ⟨hold, hxn⟩ := (hdom.live x).mp hx
      rw [hdom.children x hold hxn, if_neg]
      · exact h.lines x i tag attributes bindings kids hold hline
      · rintro rfl
        rcases hrootrole with hrole' | hrole' <;>
          rw [show plan.role state.root = _ from hline] at hrole' <;> cases hrole'
    fragment := fun f old hold => by
      obtain ⟨o, guard, body, hsits⟩ := h.fragment f old hold
      exact ⟨o, guard, body, h.sits_settled hstate hconnected hhome hrole hsits⟩
    component := fun i other hi => by
      have hstands := h.component i other hi
      refine ⟨hstay hstands.host_live fun heq => ?_, hstands.host_role, fun hon => ?_, hstands.tells,
        hstands.proper⟩
      · rw [hstands.host_role] at heq
        cases heq
      · obtain ⟨hlive, hrole'⟩ := hstands.root hon
        refine ⟨hstay hlive fun heq => ?_, hrole'⟩
        rcases hrole' with hrole' | hrole' <;> rw [hrole'] at heq <;> cases heq
    home := fun o x hx => h.dwells_settled hstate hconnected hhome hrole hx }

end Settle

theorem Busy.settle (h : Busy reading ⟨page, plan, []⟩) (hstate : page.component? c = some state)
    (hconnected : state.connected = true) (hhome : plan.home c = some n)
    (hrole : plan.role n = .copy c) :
    Busy reading ⟨page.rehome n state.root,
      ⟨plan.role, Function.update plan.home c (some state.root)⟩, []⟩ where
  laid := h.laid.settle hstate hconnected hhome hrole
  acyclic := h.acyclic
  tied o e he := by
    have hbinds := h.tied o e he
    refine hbinds.congr ?_ rfl
    refine ((h.laid.rehomed hstate hconnected hhome hrole).1.live _).mpr ⟨hbinds.1, ?_⟩
    rintro rfl
    obtain ⟨_, ⟨_, hline, _⟩ | ⟨_, _, _, _, _, hanchor⟩⟩ := hbinds
    · cases hrole.symm.trans hline
    · cases hrole.symm.trans hanchor
  ready _ hnone := absurd hnone List.not_mem_nil
  apart := List.Pairwise.nil

/-! ### Style sheets -/

theorem Busy.adorn (h : Busy reading ⟨page, plan, []⟩) {dom : Dom} {previous : Option NodeId}
    (hhome : plan.home c = some root)
    (hprevious : ∀ x, previous = some x → plan.role x = .style c)
    (hadorned : Dom.Adorned root n previous page.dom dom) :
    ∃ plan', Busy reading ⟨{ page with dom }, plan', []⟩ ∧
      Added (.style c) page.dom plan dom plan' ∧ plan'.role n = .style c := by
  classical
  have hvalid := h.laid.valid
  have hdwells := h.laid.home c root hhome
  obtain ⟨state, hstate, _⟩ := hdwells.state
  let plan' : Plan := ⟨fun x => if page.dom.Live x then plan.role x else .style c, plan.home⟩
  have hold : ∀ x, page.dom.Live x → plan'.role x = plan.role x := fun x hx => if_pos hx
  have hfresh : ∀ x, ¬ page.dom.Live x → plan'.role x = .style c := fun x hx => if_neg hx
  have hself := hfresh n hadorned.fresh.2
  have hkeeps := keeps_of_akin (akin_dom page dom)
  have hroles : ∀ o p, plan'.lines o (page.dom.children p) = plan.lines o (page.dom.children p) :=
    fun o p => Plan.lines_congr fun y hy => by rw [hold y (hvalid.live_of_mem_children hy)]
  refine ⟨plan', h.enlarged {
    toGrows := hkeeps.toGrows
    valid := hadorned.valid
    old := fun x hx => ⟨hadorned.live x hx, hold x hx⟩
    suits := fun x hx hsuits => by
      rw [hadorned.content x hx]
      exact hsuits
    parent := fun x hx => Or.inl (hadorned.parent x hx)
    lines := fun x o hx _ => by
      change plan'.lines o (dom.children x) = _
      by_cases hxr : x = root
      · have hnone : ∀ o, (plan'.role n).sketch? o = none := fun o => by rw [hself]; rfl
        rw [hxr, ← Plan.lines_filter fun _ => hnone o, hadorned.kids, hroles]
      · rw [hadorned.children x hx hxr, hroles]
    adjacent := fun a b p o f guard body hrole hab => by
      by_cases hpr : p = root
      · subst hpr
        refine hadorned.adjacent a b (fun heq => ?_) hab
        rw [hprevious a heq] at hrole
        cases hrole
      · have hmem : a ∈ page.dom.children p := hab.subset List.mem_cons_self
        change [a, b] <:+: dom.children p
        rwa [hadorned.children p (hvalid.live_of_parent ((hvalid.mem_children p a).mp hmem)).2 hpr]
    fits := fun x hx hnew => by
      rw [hfresh x hnew]
      refine ⟨Option.isSome_iff_exists.mpr ⟨state, hstate⟩, ?_⟩
      rcases hadorned.new x hx hnew with hparent | hparent
      · exact ⟨root, hparent, Or.inl hhome⟩
      · exact ⟨n, hparent, Or.inr hself⟩
    new_lines := fun x o _ _ _ _ _ hnew hrole => by
      rw [hfresh x hnew] at hrole
      cases hrole
    fragments := fun _ _ hf => hf
    components := fun c' other hother =>
      h.laid.stands hkeeps (fun x hx _ => ⟨hadorned.live x hx, hold x hx⟩) hother
    home := fun _ _ hx => hx
    dwells := fun _ _ hx hno => absurd hx hno } (fun _ => rfl) fun _ _ he => he, ?_, hself⟩
  exact ⟨fun x hx => ⟨hadorned.live x hx, hold x hx, hadorned.content x hx⟩,
    fun x _ hnew => hfresh x hnew, rfl⟩

theorem Busy.attachSheets (h : Busy reading ⟨page, plan, []⟩) (hhome : plan.home c = some root)
    (previous : Option NodeId)
    (hprevious : ∀ x, previous = some x → plan.role x = .style c ∧ page.dom.parent x = some root)
    (sheets : List String) :
    ∃ plan', Busy reading ⟨{ page with dom := LiveMarkup.attachSheets page.dom root previous sheets },
      plan', []⟩ ∧ Added (.style c) page.dom plan
        (LiveMarkup.attachSheets page.dom root previous sheets) plan' := by
  induction sheets generalizing page plan previous with
  | nil => exact ⟨plan, h, .refl _ _ _⟩
  | cons sheet rest ih =>
      have hadorned := Dom.attachSheet_adorned h.laid.valid (h.laid.home c root hhome).live
        (fun x hx => (hprevious x hx).2) sheet
      rw [LiveMarkup.attachSheets]
      generalize attachSheet page.dom root previous sheet = attached at hadorned ⊢
      obtain ⟨dom, style⟩ := attached
      obtain ⟨plan', hbusy, hadded, hrole⟩ := h.adorn hhome (fun x hx => (hprevious x hx).1) hadorned
      obtain ⟨plan'', hbusy', hadded'⟩ := ih hbusy (by rw [hadded.home]; exact hhome)
        (some style) (fun x hx => by
          cases hx
          exact ⟨hrole, hadorned.parent_new⟩)
      exact ⟨plan'', hbusy', hadded.trans hadded'⟩

theorem Busy.attachStyles (h : Busy reading ⟨page, plan, []⟩) (hhome : plan.home c = some root)
    (attacher : StyleAttacher) (sheets : List String) :
    ∃ plan', Busy reading ⟨page.editDom fun dom => attacher.attach dom root sheets, plan', []⟩ ∧
      Added (.style c) page.dom plan (attacher.attach page.dom root sheets) plan' := by
  cases attacher with
  | elements =>
      exact h.attachSheets hhome none (fun _ heq => by cases heq) _
  | count =>
      have hmade := Dom.create_made h.laid.valid
        (.comment ("styles:" ++ toString sheets.length))
      have hadorned : Dom.Adorned root _ none page.dom _ :=
        hmade.potted.append h.laid.valid (h.laid.home c root hhome).live
      obtain ⟨plan', hbusy, hadded, _⟩ := h.adorn hhome (fun _ heq => by cases heq) hadorned
      exact ⟨plan', hbusy, hadded⟩

end Page

end LiveMarkup
