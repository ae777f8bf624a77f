import LiveMarkup.Proofs.Page.Roles

/-!
The layout of a page: who plays which role among its nodes. Lines hang below the node that houses
their instance, an anchor knows its fragment and the fragment its anchor, and the element of a
mounted fragment is right after the anchor.
-/

namespace LiveMarkup

/-- A content that a node for a sketch may hold. -/
def Sketch.Suits : Sketch → Content → Prop
  | .fixed content, held => held = content
  | .text _, held => ∃ s, held = .text s
  | .element tag _ _ _, held => ∃ attributes, held = .element tag attributes
  | .guarded _ _, _ => False

/-- A content that a node with a role may hold. -/
def Role.Suits : Role → Content → Prop
  | .line _ sketch, held => sketch.Suits held
  | .anchor _ _ _ _, held => held = .comment Page.anchorText
  | _, _ => True

/-- The instances that a role is about. -/
def Role.names : Role → List InstanceId
  | .document => []
  | .host c => [c]
  | .shadow c => [c]
  | .copy c => [c]
  | .style c => [c]
  | .line o _ => [o]
  | .slot o _ _ => [o]
  | .anchor o f _ _ => [o, f]

/-- The roles of nodes, and where the lines of connected components are. -/
structure Plan where
  role : NodeId → Role
  home : InstanceId → Option NodeId

namespace Plan

/-- The lines of an instance that are not its own element hang at `p`. -/
def Houses (plan : Plan) (o : InstanceId) (p : NodeId) : Prop :=
  plan.home o = some p ∨ ∃ tag attributes bindings kids,
    plan.role p = .line o (.element tag attributes bindings kids)

/-- What some nodes stand for among the lines of an instance. -/
def lines (plan : Plan) (o : InstanceId) (nodes : List NodeId) : List Sketch :=
  nodes.filterMap fun x => (plan.role x).sketch? o

variable {plan plan' : Plan} {o : InstanceId} {nodes : List NodeId} {x : NodeId}

theorem lines_congr (h : ∀ x ∈ nodes, (plan'.role x).sketch? o = (plan.role x).sketch? o) :
    plan'.lines o nodes = plan.lines o nodes :=
  List.filterMap_congr h

/-- Nodes that have just been made for some sketches. -/
theorem lines_of_roles {sketches : List Sketch}
    (h : nodes.map plan.role = sketches.map (Sketch.role o)) : plan.lines o nodes = sketches := by
  have hmap : plan.lines o nodes = (nodes.map plan.role).filterMap (·.sketch? o) := by
    rw [List.filterMap_map]
    rfl
  have hsome : ∀ sketch ∈ sketches, (Role.sketch? o ∘ Sketch.role o) sketch = some sketch :=
    fun sketch _ => Role.sketch?_role o sketch
  rw [hmap, h, List.filterMap_map]
  exact (List.filterMap_congr hsome).trans List.filterMap_some

theorem lines_filter (h : x ∈ nodes → (plan.role x).sketch? o = none) :
    plan.lines o (nodes.filter (· ≠ x)) = plan.lines o nodes := by
  induction nodes with
  | nil => rfl
  | cons y rest ih =>
      have hrest := ih fun hx => h (List.mem_cons_of_mem _ hx)
      by_cases hy : y = x
      · have hnone : (plan.role y).sketch? o = none := hy ▸ h (hy ▸ List.mem_cons_self)
        rw [List.filter_cons_of_neg (by simp [hy]), hrest]
        simp [lines, hnone]
      · rw [List.filter_cons_of_pos (by simp [hy])]
        simp only [lines, List.filterMap_cons] at hrest ⊢
        rw [hrest]

end Plan

namespace Page

/-- A node is where its role wants it. -/
def Fits (page : Page) (plan : Plan) (n : NodeId) : Role → Prop
  | .document => n = page.document ∧ page.dom.parent n = none
  | .host c => (∃ state, page.component? c = some state ∧ state.host = n) ∧
      (page.dom.parent n = none ∨ page.dom.parent n = some page.document)
  | .shadow c => (∃ state, page.component? c = some state ∧ state.connected = true ∧
      state.root = n) ∧ page.dom.parent n = none
  | .copy c => plan.home c = some n ∧ page.dom.parent n = none
  | .style c => (page.component? c).isSome = true ∧ ∃ p, page.dom.parent n = some p ∧
      (plan.home c = some p ∨ plan.role p = .style c)
  | .line o sketch => (page.slot o).isVacant = false ∧ sketch.Suits (page.dom.content n) ∧
      (page.fragmentRoot? o = some n ∨ ∃ p, page.dom.parent n = some p ∧ plan.Houses o p)
  | .slot o _ _ => (page.slot o).isVacant = false ∧
      ∃ p, page.dom.parent n = some p ∧ plan.Houses o p
  | .anchor o f _ _ => (page.slot o).isVacant = false ∧
      page.dom.content n = .comment anchorText ∧
        (∃ state, page.fragment? f = some state ∧ state.anchor = n) ∧ page.up f = some o ∧
          ∃ p, page.dom.parent n = some p ∧ plan.Houses o p

/-- A fragment is where its anchor is. -/
structure Sits (page : Page) (plan : Plan) (f : InstanceId) (state : FragmentState)
    (o : InstanceId) (guard : Interpolation) (body : Sketch) : Prop where
  up : page.up f = some o
  anchor_live : page.dom.Live state.anchor
  anchor_role : plan.role state.anchor = .anchor o f guard body
  tells : state.blueprint.Says [body]
  proper : body.Proper
  element : body.isElement = true
  locals : state.locals = .empty
  root : ∀ root, state.root = some root → page.dom.Live root ∧ plan.role root = .line f body
  rendered : state.attached = true → ∃ root, state.root = some root
  attached : ∀ root, state.root = some root → state.attached = true →
    ∃ p, [state.anchor, root] <:+: page.dom.children p
  detached : ∀ root, state.root = some root → state.attached = false →
    page.dom.parent root = none

/-- A component has its host, and a root once it is connected. -/
structure Stands (reading : Blueprint → List Sketch) (page : Page) (plan : Plan) (c : InstanceId)
    (state : ComponentState) : Prop where
  host_live : page.dom.Live state.host
  host_role : plan.role state.host = .host c
  root : state.connected = true → page.dom.Live state.root ∧
    (plan.role state.root = .host c ∨ plan.role state.root = .shadow c)
  tells : state.definition.blueprint.Says (reading state.definition.blueprint)
  proper : Sketch.ProperAll (reading state.definition.blueprint)

/-- The lines of a connected component are at its home. -/
structure Dwells (reading : Blueprint → List Sketch) (page : Page) (plan : Plan) (c : InstanceId)
    (n : NodeId) : Prop where
  live : page.dom.Live n
  role : plan.role n = .host c ∨ plan.role n = .shadow c ∨ plan.role n = .copy c
  state : ∃ state, page.component? c = some state ∧ state.connected = true ∧
    plan.lines c (page.dom.children n) = reading state.definition.blueprint

structure Laid (reading : Blueprint → List Sketch) (page : Page) (plan : Plan) : Prop where
  valid : page.dom.Valid
  document_live : page.dom.Live page.document
  document_role : plan.role page.document = .document
  fits : ∀ n, page.dom.Live n → page.Fits plan n (plan.role n)
  lines : ∀ n o tag attributes bindings kids, page.dom.Live n →
    plan.role n = .line o (.element tag attributes bindings kids) →
      plan.lines o (page.dom.children n) = kids
  fragment : ∀ f state, page.fragment? f = some state → ∃ o guard body,
    page.Sits plan f state o guard body
  component : ∀ c state, page.component? c = some state → page.Stands reading plan c state
  home : ∀ c n, plan.home c = some n → page.Dwells reading plan c n

variable {reading : Blueprint → List Sketch} {page page' page'' : Page} {plan plan' : Plan}
  {n p x : NodeId} {c f o owner : InstanceId}

/-! ### Instances that stay -/

/-- An instance keeps its place, its template and the nodes that it has. -/
structure Lasts (i : InstanceId) (page page' : Page) : Prop where
  vacant : (page.slot i).isVacant = false → (page'.slot i).isVacant = false
  up : (page.slot i).isVacant = false → page'.up i = page.up i
  component : ∀ state, page.component? i = some state → ∃ state',
    page'.component? i = some state' ∧ state'.definition = state.definition ∧
      state'.host = state.host ∧
        (state.connected = true → state'.connected = true ∧ state'.root = state.root)
  fragment : ∀ state, page.fragment? i = some state → ∃ root attached,
    page'.fragment? i = some { state with root, attached } ∧
      ∀ node, state.root = some node → root = some node

structure Grows (page page' : Page) : Prop where
  document : page'.document = page.document
  lasts : ∀ i, Lasts i page page'

/-- Besides, no component is new or was connected. -/
structure Keeps (page page' : Page) : Prop extends Grows page page' where
  back : ∀ c state', page'.component? c = some state' → ∃ state,
    page.component? c = some state ∧ state'.connected = state.connected

theorem Lasts.of_slot (h : page'.slot f = page.slot f) : Lasts f page page' where
  vacant hf := by rwa [h]
  up _ := congrArg Instance.parent h
  component state hstate :=
    ⟨state, by rwa [component?, h], rfl, rfl, fun hconnected => ⟨hconnected, rfl⟩⟩
  fragment state hstate :=
    ⟨state.root, state.attached, by rwa [fragment?, h], fun _ hnode => hnode⟩

theorem Lasts.fragmentRoot? (h : Lasts f page page') (hroot : page.fragmentRoot? f = some n) :
    page'.fragmentRoot? f = some n := by
  obtain ⟨state, hstate, hnode⟩ := Option.bind_eq_some_iff.mp hroot
  obtain ⟨root, attached, hstate', hkeep⟩ := h.fragment state hstate
  rw [fragmentRoot?_of_fragment? hstate']
  exact hkeep n hnode

theorem Calm.component? (h : Calm page page') {state : ComponentState}
    (hstate : page.component? c = some state) :
    ∃ fields references, page'.component? c = some { state with fields, references } :=
  Instance.component?_of_form (h.form c) hstate

theorem Calm.keeps (h : Calm page page') : Keeps page page' where
  document := h.document
  lasts i := {
    vacant := fun hi => (h.isVacant i).trans hi
    up := fun _ => h.up i
    component := fun _ hstate => by
      obtain ⟨fields, references, hstate'⟩ := h.component? hstate
      exact ⟨_, hstate', rfl, rfl, fun hconnected => ⟨hconnected, rfl⟩⟩
    fragment := fun state hstate =>
      ⟨state.root, state.attached, (h.fragment? i).trans hstate, fun _ hnode => hnode⟩ }
  back c state' hstate' := by
    obtain ⟨fields, references, hstate⟩ := Instance.component?_of_form (h.form c).symm hstate'
    exact ⟨_, hstate, rfl⟩

/-- What a node is for stays right when the node and the role of its parent stay. -/
theorem Fits.mono {role : Role} (h : page.Fits plan n role)
    (hdocument : page'.document = page.document) (hlasts : ∀ i ∈ role.names, Lasts i page page')
    (hhome : ∀ c ∈ role.names, ∀ n, plan.home c = some n → plan'.home c = some n)
    (hcontent : role.Suits (page.dom.content n) → role.Suits (page'.dom.content n))
    (hparent : page'.dom.parent n = page.dom.parent n)
    (hrole : ∀ p, page.dom.parent n = some p → plan'.role p = plan.role p) :
    page'.Fits plan' n role := by
  have hhouses : ∀ {o}, o ∈ role.names → (∃ p, page.dom.parent n = some p ∧ plan.Houses o p) →
      ∃ p, page'.dom.parent n = some p ∧ plan'.Houses o p := by
    rintro o ho ⟨p, hp, hhouse⟩
    refine ⟨p, hparent.trans hp, ?_⟩
    rw [Plan.Houses, hrole p hp]
    exact hhouse.imp (hhome o ho p) id
  cases role with
  | document => exact ⟨h.1.trans hdocument.symm, hparent.trans h.2⟩
  | host c =>
      obtain ⟨⟨state, hstate, hhost⟩, hup⟩ := h
      obtain ⟨state', hstate', _, hhost', _⟩ :=
        (hlasts c (List.mem_singleton_self c)).component state hstate
      refine ⟨⟨state', hstate', hhost'.trans hhost⟩, ?_⟩
      rwa [hparent, hdocument]
  | shadow c =>
      obtain ⟨⟨state, hstate, hconnected, hroot⟩, hup⟩ := h
      obtain ⟨state', hstate', _, _, hkeep⟩ :=
        (hlasts c (List.mem_singleton_self c)).component state hstate
      exact ⟨⟨state', hstate', (hkeep hconnected).1, (hkeep hconnected).2.trans hroot⟩,
        hparent.trans hup⟩
  | copy c => exact ⟨hhome c (List.mem_singleton_self c) n h.1, hparent.trans h.2⟩
  | style c =>
      obtain ⟨hcomponent, p, hp, hplace⟩ := h
      obtain ⟨state, hstate⟩ := Option.isSome_iff_exists.mp hcomponent
      obtain ⟨state', hstate', _⟩ :=
        (hlasts c (List.mem_singleton_self c)).component state hstate
      refine ⟨by rw [hstate']; rfl, p, hparent.trans hp, ?_⟩
      rw [hrole p hp]
      exact hplace.imp (hhome c (List.mem_singleton_self c) p) id
  | line o sketch =>
      have howner := hlasts o (List.mem_singleton_self o)
      exact ⟨howner.vacant h.1, hcontent h.2.1, h.2.2.imp howner.fragmentRoot?
        (hhouses (List.mem_singleton_self o))⟩
  | slot o guard body =>
      exact ⟨(hlasts o (List.mem_singleton_self o)).vacant h.1,
        hhouses (List.mem_singleton_self o) h.2⟩
  | anchor o f guard body =>
      obtain ⟨hvacant, hcomment, ⟨state, hstate, hanchor⟩, hup, hhouse⟩ := h
      have hf := hlasts f (List.mem_cons_of_mem _ (List.mem_singleton_self f))
      obtain ⟨root, attached, hstate', _⟩ := hf.fragment state hstate
      refine ⟨(hlasts o List.mem_cons_self).vacant hvacant, hcontent hcomment,
        ⟨_, hstate', hanchor⟩, ?_, hhouses List.mem_cons_self hhouse⟩
      exact (hf.up (Instance.not_vacant_of_fragment? hstate)).trans hup

/-! ### Reading a layout -/

namespace Laid

variable (h : page.Laid reading plan)

include h

theorem fits_of_role {role : Role} (hn : page.dom.Live n) (hrole : plan.role n = role) :
    page.Fits plan n role :=
  hrole ▸ h.fits n hn

theorem component_role {state : ComponentState} (hstate : page.component? c = some state) :
    plan.role state.host = .host c :=
  (h.component c state hstate).host_role

/-- The role of a node that houses lines. -/
theorem role_of_houses (hhouse : plan.Houses o p) :
    (∃ tag attributes bindings kids, plan.role p = .line o (.element tag attributes bindings kids)) ∨
      plan.role p = .host o ∨ plan.role p = .shadow o ∨ plan.role p = .copy o := by
  rcases hhouse with hhome | hline
  · exact Or.inr (h.home o p hhome).role
  · exact Or.inl hline

theorem owner_of_houses (hhouse : plan.Houses o p) : (plan.role p).owner? = some o := by
  rcases h.role_of_houses hhouse with ⟨_, _, _, _, hrole⟩ | hrole | hrole | hrole <;>
    rw [hrole] <;> rfl

/-- The instance that a node belongs to is there. -/
theorem owner_not_vacant (hn : page.dom.Live n) (howner : (plan.role n).owner? = some o) :
    (page.slot o).isVacant = false := by
  have hfits := h.fits n hn
  generalize plan.role n = role at hfits howner
  cases role with
  | document => cases howner
  | host c | shadow c =>
      cases howner
      obtain ⟨⟨state, hstate, _⟩, _⟩ := hfits
      exact Instance.not_vacant_of_component? hstate
  | copy c =>
      cases howner
      obtain ⟨state, hstate, _⟩ := (h.home o n hfits.1).state
      exact Instance.not_vacant_of_component? hstate
  | style c =>
      cases howner
      obtain ⟨state, hstate⟩ := Option.isSome_iff_exists.mp hfits.1
      exact Instance.not_vacant_of_component? hstate
  | line o sketch | slot o guard body | anchor o f guard body =>
      cases howner
      exact hfits.1

end Laid

end Page

end LiveMarkup
