import LiveMarkup.Proofs.Arena

/-!
What the nodes of a copy of a template are for: each of them plays a role, as a line of the sketch or
in the place of a guarded one, and what its definition calls for belongs to that role.
-/

namespace LiveMarkup

/-! ### Lines of a sketch -/

namespace Sketch

def isElement : Sketch → Bool
  | .element _ _ _ _ => true
  | _ => false

def isGuarded : Sketch → Bool
  | .guarded _ _ => true
  | _ => false

/-- What a node for a sketch holds before anything is written to it. -/
def blank : Sketch → Content
  | .fixed content => content
  | .text _ => .text ""
  | .element tag attributes _ _ => .element tag attributes
  | .guarded _ _ => .comment Page.anchorText

/-- The lines below a sketch. -/
def kids : Sketch → List Sketch
  | .element _ _ _ kids => kids
  | _ => []

/-- What is written to a node for a sketch. -/
def tasks : Sketch → List Task
  | .text i => [.writeText i]
  | .element _ _ bindings _ => bindings.map fun b => .writeAttribute b.name b.interpolation
  | _ => []

mutual

/-- A sketch in which guards are put on elements only. -/
def Proper : Sketch → Prop
  | .fixed content => content.isElement = false
  | .text _ => True
  | .element _ _ _ kids => ProperAll kids
  | .guarded _ body => body.isElement = true ∧ Proper body

def ProperAll : List Sketch → Prop
  | [] => True
  | sketch :: rest => Proper sketch ∧ ProperAll rest

end

mutual

theorem proper_of_tree : ∀ (tree : Tree) {sketch : Sketch}, ofTree? tree = some sketch →
    sketch.Proper
  | .node content _ below, sketch, h => by
      rw [ofTree?.eq_def] at h
      cases content with
      | fragment => cases h
      | text s =>
          dsimp only at h
          split at h
          · obtain ⟨i, _, rfl⟩ := Option.map_eq_some_iff.mp h
            trivial
          · cases h
            rfl
      | comment s =>
          cases h
          rfl
      | element tag attributes =>
          simp only [Option.bind_eq_bind, Option.bind_eq_some_iff] at h
          obtain ⟨bindings, _, children, hchildren, h⟩ := h
          have hproper := proper_of_trees below hchildren
          split at h
          · obtain ⟨guard, _, rfl⟩ := Option.map_eq_some_iff.mp h
            exact ⟨rfl, hproper⟩
          · cases h
            exact hproper

theorem proper_of_trees : ∀ (trees : List Tree) {sketches : List Sketch},
    ofTrees? trees = some sketches → ProperAll sketches
  | [], sketches, h => by
      cases h
      trivial
  | tree :: rest, sketches, h => by
      rw [ofTrees?] at h
      simp only [Option.bind_eq_bind, Option.bind_eq_some_iff, Option.some.injEq] at h
      obtain ⟨sketch, hsketch, more, hmore, rfl⟩ := h
      exact ⟨proper_of_tree tree hsketch, proper_of_trees rest hmore⟩

end

theorem proper_of_markup {markup : String} {sketches : List Sketch}
    (h : ofMarkup? markup = some sketches) : ProperAll sketches := by
  unfold ofMarkup? at h
  split at h
  · cases h
  · exact proper_of_trees _ h

end Sketch

/-! ### Jobs -/

/-- The fields that a task reads. -/
def Task.fields : Task → Names
  | .writeText i => i.dependencies
  | .writeUpper i => i.dependencies
  | .writeAttribute _ i => i.dependencies
  | .guardFragment guard => guard.dependencies
  | .mountFragment => []

def Job.task? : Job → Option Task
  | .write task _ => some task
  | _ => none

/-- The jobs that a node for a sketch calls for, besides taking its marker away. -/
def Sketch.Calls (sketch : Sketch) (jobs : List Job) : Prop :=
  match sketch with
  | .guarded guard body => ∃ index directive, jobs = [.guard index directive] ∧
      directive.guard = guard ∧ directive.blueprint.Says [body] ∧ body.Proper ∧
        body.isElement = true
  | line => jobs.filterMap (·.task?) = line.tasks ∧ ∀ job ∈ jobs,
      (∃ task ∈ line.tasks, job = .write task task.fields) ∨ (∃ name, job = .refer name) ∨
        ∃ binding, job = .listen binding

/-- The jobs that a marker calls for. -/
def JobsOf (definitions : List (NodeDefinition Blueprint)) (jobs : List Job) :
    Option Nat → Prop
  | none => jobs = []
  | some k => ∃ definition, definitions[k]? = some definition ∧
      jobs = definition.features.flatMap definition.jobs

theorem NodeDefinition.IsText.calls {definition : NodeDefinition Blueprint} {i : Interpolation}
    (h : definition.IsText i) :
    (Sketch.text i).Calls (definition.features.flatMap definition.jobs) := by
  rw [h.2]
  simp only [List.flatMap_cons, List.flatMap_nil, List.append_nil, NodeDefinition.jobs, h.1,
    List.map_cons, List.map_nil]
  refine ⟨rfl, fun job hjob => Or.inl ⟨.writeText i, List.mem_singleton_self _, ?_⟩⟩
  exact List.mem_singleton.mp hjob

theorem flatMap_of_nodup {features : List Feature} {β : Type} (hnodup : features.Nodup)
    {f : Feature → List β} (feature : Feature) (hnil : ∀ other, other ≠ feature → f other = [])
    (hmem : f feature ≠ [] → feature ∈ features) : features.flatMap f = f feature := by
  induction features with
  | nil =>
      by_contra hne
      exact List.not_mem_nil (hmem fun heq => hne heq.symm)
  | cons head rest ih =>
      rw [List.nodup_cons] at hnodup
      rw [List.flatMap_cons]
      by_cases hhead : head = feature
      · subst hhead
        have hrest : rest.flatMap f = [] := List.flatMap_eq_nil_iff.mpr fun other hother =>
          hnil other fun heq => hnodup.1 (heq ▸ hother)
        rw [hrest, List.append_nil]
      · rw [hnil head hhead, List.nil_append]
        exact ih hnodup.2 fun hne => (List.mem_cons.mp (hmem hne)).resolve_left (Ne.symm hhead)

theorem NodeDefinition.IsPlain.calls {definition : NodeDefinition Blueprint}
    {bindings : List AttributeBinding} (h : definition.IsPlain bindings) (tag : String)
    (attributes : List Attribute) (children : List Sketch) :
    (Sketch.element tag attributes bindings children).Calls
      (definition.features.flatMap definition.jobs) := by
  have hjobs : ∀ feature ∈ definition.features, ∀ job ∈ definition.jobs feature,
      (∃ task ∈ (Sketch.element tag attributes bindings children).tasks,
        job = .write task task.fields) ∨ (∃ name, job = .refer name) ∨
          ∃ binding, job = .listen binding := by
    intro feature hfeature job hjob
    rcases h.features feature hfeature with rfl | rfl | rfl
    · obtain ⟨name, _, rfl⟩ := List.mem_map.mp hjob
      exact Or.inr (Or.inl ⟨name, rfl⟩)
    · obtain ⟨binding, _, rfl⟩ := List.mem_map.mp hjob
      exact Or.inr (Or.inr ⟨binding, rfl⟩)
    · obtain ⟨binding, hbinding, rfl⟩ := List.mem_map.mp hjob
      rw [h.attributes] at hbinding
      exact Or.inl ⟨_, List.mem_map_of_mem hbinding, rfl⟩
  have htasks : (definition.jobs .binding).filterMap (·.task?) =
      (Sketch.element tag attributes bindings children).tasks := by
    rw [NodeDefinition.jobs, h.attributes, List.filterMap_map]
    exact congrFun List.filterMap_eq_map bindings
  refine ⟨?_, fun job hjob => ?_⟩
  · have hsplit : (definition.features.flatMap definition.jobs).filterMap (·.task?) =
        definition.features.flatMap fun feature =>
          if feature = .binding then (definition.jobs .binding).filterMap (·.task?) else [] := by
      rw [List.filterMap_flatMap]
      refine List.flatMap_congr fun feature hfeature => ?_
      rcases h.features feature hfeature with rfl | rfl | rfl
      · cases hreference : definition.reference <;>
          simp [NodeDefinition.jobs, hreference, Job.task?]
      · simp [NodeDefinition.jobs, List.filterMap_map, Job.task?]
      · rw [if_pos rfl]
    rw [hsplit, ← htasks]
    refine (flatMap_of_nodup h.nodup .binding (fun other hne => if_neg hne) ?_).trans
      (if_pos rfl)
    rw [if_pos rfl, htasks]
    intro hne
    refine h.binding ?_
    rintro rfl
    exact hne rfl
  · obtain ⟨feature, hfeature, hjob⟩ := List.mem_flatMap.mp hjob
    exact hjobs feature hfeature job hjob

/-! ### Roles -/

/-- What a node of a page is for. -/
inductive Role where
  | document
  | host (c : InstanceId)
  /-- The root of a component apart from its host. -/
  | shadow (c : InstanceId)
  /-- The root of a copy that is being wired. -/
  | copy (c : InstanceId)
  | style (c : InstanceId)
  /-- The node for a sketch without a guard, of an instance. -/
  | line (o : InstanceId) (sketch : Sketch)
  /-- The node that stands for a guarded sketch until its fragment is made. -/
  | slot (o : InstanceId) (guard : Interpolation) (body : Sketch)
  /-- The comment that the fragment of a guarded sketch follows. -/
  | anchor (o f : InstanceId) (guard : Interpolation) (body : Sketch)

/-- The role of a fresh node for a sketch. -/
def Sketch.role (o : InstanceId) : Sketch → Role
  | .guarded guard body => .slot o guard body
  | line => .line o line

namespace Role

/-- The instance that a node belongs to. -/
def owner? : Role → Option InstanceId
  | .document => none
  | .host c => some c
  | .shadow c => some c
  | .copy c => some c
  | .style c => some c
  | .line o _ => some o
  | .slot o _ _ => some o
  | .anchor o _ _ _ => some o

/-- The sketch that a node stands for among the lines of an instance. -/
def sketch? (o : InstanceId) : Role → Option Sketch
  | .line o' sketch => if o' = o then some sketch else none
  | .slot o' guard body => if o' = o then some (.guarded guard body) else none
  | .anchor o' _ guard body => if o' = o then some (.guarded guard body) else none
  | _ => none

theorem sketch?_role (o : InstanceId) (sketch : Sketch) :
    (sketch.role o).sketch? o = some sketch := by
  cases sketch <;> simp [Sketch.role, sketch?]

theorem owner?_role (o : InstanceId) (sketch : Sketch) : (sketch.role o).owner? = some o := by
  cases sketch <;> rfl

end Role

/-- A node of a fresh copy plays its role. -/
def Plays (d : Dom) (definitions : List (NodeDefinition Blueprint)) (o : InstanceId)
    (role : NodeId → Role) (x : NodeId) : Prop :=
  ∃ sketch : Sketch, sketch.Proper ∧ role x = sketch.role o ∧
    (d.children x).map role = sketch.kids.map (Sketch.role o) ∧
      (sketch.isGuarded = false → d.content x = sketch.blank) ∧
        ∃ jobs, JobsOf definitions jobs (d.marker x) ∧ sketch.Calls jobs

variable {d : Dom} {definitions : List (NodeDefinition Blueprint)} {o : InstanceId}
  {role role' : NodeId → Role} {n x : NodeId}

theorem Plays.congr (h : Plays d definitions o role x) (hself : role' x = role x)
    (hchildren : ∀ c ∈ d.children x, role' c = role c) : Plays d definitions o role' x := by
  obtain ⟨sketch, hproper, hrole, hkids, hrest⟩ := h
  exact ⟨sketch, hproper, hself.trans hrole, (List.map_congr_left hchildren).trans hkids, hrest⟩

theorem Dom.Valid.pairwise_apart (hvalid : d.Valid) (n : NodeId) :
    (d.children n).Pairwise fun a b => ∀ x, d.Below a x → ¬ d.Below b x :=
  (hvalid.children_nodup n).imp_of_mem fun ha hb hne _ hax hbx =>
    hne (hvalid.eq_of_below_children ha hb hax hbx)

/-- A node without children plays its role by itself. -/
theorem exists_role_of_leaf (hvalid : d.Valid) {sketch : Sketch} {n : NodeId}
    (hchildren : d.children n = []) (h : Plays d definitions o (fun _ => sketch.role o) n) :
    ∃ role : NodeId → Role, role n = sketch.role o ∧
      ∀ x, d.Below n x → Plays d definitions o role x := by
  refine ⟨fun _ => sketch.role o, rfl, fun x hx => ?_⟩
  rw [hvalid.eq_of_below hchildren hx]
  exact h

mutual

/-- The nodes of a copy play roles. -/
theorem exists_role (hvalid : d.Valid) (o : InstanceId) : ∀ (sketch : Sketch) {n : NodeId},
    d.Live n → sketch.Proper → Sketch.Realizes definitions sketch (d.tree n) →
    ∃ role : NodeId → Role, role n = sketch.role o ∧
      ∀ x, d.Below n x → Plays d definitions o role x
  | .fixed content, n, hn, hproper, h => by
      rw [Sketch.Realizes, Dom.tree_eq hvalid, Tree.leaf, Tree.node.injEq] at h
      obtain ⟨⟨hcontent, hmarker, hchildren⟩, _⟩ := h
      rw [List.map_eq_nil_iff] at hchildren
      have hleaf : (d.children n).map (fun _ => (Sketch.fixed content).role o) = [] := by
        rw [hchildren]
        rfl
      refine exists_role_of_leaf hvalid hchildren
        ⟨.fixed content, hproper, rfl, hleaf, fun _ => hcontent, [], ?_, rfl, ?_⟩
      · rw [hmarker]
        rfl
      · exact fun _ hjob => absurd hjob List.not_mem_nil
  | .text i, n, hn, hproper, h => by
      obtain ⟨k, definition, htree, hget, htext⟩ := h
      rw [Dom.tree_eq hvalid, Tree.node.injEq] at htree
      obtain ⟨hcontent, hmarker, hchildren⟩ := htree
      rw [List.map_eq_nil_iff] at hchildren
      have hleaf : (d.children n).map (fun _ => (Sketch.text i).role o) = [] := by
        rw [hchildren]
        rfl
      refine exists_role_of_leaf hvalid hchildren
        ⟨.text i, hproper, rfl, hleaf, fun _ => hcontent, _, ?_, htext.calls⟩
      rw [hmarker]
      exact ⟨definition, hget, rfl⟩
  | .guarded guard body, n, hn, hproper, h => by
      obtain ⟨k, id, definition, directive, htree, hget, hguard, hdirective, hinner, inner,
        htemplate, _, hbody⟩ := h
      rw [Dom.tree_eq hvalid, Tree.node.injEq] at htree
      obtain ⟨_, hmarker, hchildren⟩ := htree
      rw [List.map_eq_nil_iff] at hchildren
      have hleaf : (d.children n).map (fun _ => (Sketch.guarded guard body).role o) = [] := by
        rw [hchildren]
        rfl
      refine exists_role_of_leaf hvalid hchildren
        ⟨.guarded guard body, hproper, rfl, hleaf, fun hfalse => (by cases hfalse),
        [.guard definition.index directive], ?_, definition.index, directive, rfl, hdirective,
        ⟨hinner, [inner], htemplate, inner, [], rfl, hbody, rfl⟩, hproper.2, hproper.1⟩
      rw [hmarker]
      refine ⟨definition, hget, ?_⟩
      rw [hguard.2]
      simp [NodeDefinition.jobs, hguard.1]
  | .element tag attributes bindings children, n, hn, hproper, h => by
      obtain ⟨marker, trees, htree, hmarks, hall⟩ := h
      rw [Dom.tree_eq hvalid, Tree.node.injEq] at htree
      obtain ⟨hcontent, hmarker, rfl⟩ := htree
      obtain ⟨role, hroles, hplays⟩ := exists_roles hvalid o children
        (fun c hc => hvalid.live_of_mem_children hc) (hvalid.pairwise_apart n) hproper hall
      have hkids : ∀ c ∈ d.children n, (if c = n then (Sketch.element tag attributes bindings
          children).role o else role c) = role c := by
        intro c hc
        refine if_neg ?_
        rintro rfl
        exact hvalid.not_mem_children_self hc
      refine ⟨fun x => if x = n then (Sketch.element tag attributes bindings children).role o
        else role x, if_pos rfl, fun x hx => ?_⟩
      rcases hvalid.below_cases hx with rfl | ⟨c, hc, hcx⟩
      · refine ⟨.element tag attributes bindings children, hproper, if_pos rfl,
          (List.map_congr_left hkids).trans hroles, fun _ => hcontent, ?_⟩
        rw [hmarker]
        cases marker with
        | none =>
            have hnone : bindings = [] := hmarks
            subst hnone
            exact ⟨[], rfl, rfl, fun _ hjob => absurd hjob List.not_mem_nil⟩
        | some k =>
            obtain ⟨definition, hget, hplain⟩ := hmarks
            exact ⟨_, ⟨definition, hget, rfl⟩, hplain.calls tag attributes children⟩
      · have hbelow : ∀ y, d.Below c y → (if y = n then (Sketch.element tag attributes bindings
            children).role o else role y) = role y := by
          intro y hcy
          refine if_neg ?_
          rintro rfl
          exact hvalid.acyclic c y ((hvalid.mem_children y c).mp hc) hcy
        exact (hplays c hc x hcx).congr (hbelow x hcx) fun y hy =>
          hbelow y (hcx.trans (hvalid.below_of_mem_children hy))

theorem exists_roles (hvalid : d.Valid) (o : InstanceId) : ∀ (sketches : List Sketch)
    {nodes : List NodeId}, (∀ n ∈ nodes, d.Live n) →
    nodes.Pairwise (fun a b => ∀ x, d.Below a x → ¬ d.Below b x) → Sketch.ProperAll sketches →
    Sketch.RealizesAll definitions sketches (nodes.map d.tree) →
    ∃ role : NodeId → Role, nodes.map role = sketches.map (Sketch.role o) ∧
      ∀ n ∈ nodes, ∀ x, d.Below n x → Plays d definitions o role x
  | [], nodes, hlive, hapart, hproper, h => by
      have hnil : nodes = [] := List.map_eq_nil_iff.mp h
      subst hnil
      exact ⟨fun _ => .document, rfl, fun _ hn => absurd hn List.not_mem_nil⟩
  | sketch :: rest, nodes, hlive, hapart, hproper, h => by
      classical
      obtain ⟨tree, trees, htrees, hfirst, hrest⟩ := h
      obtain ⟨n, more, rfl, rfl, rfl⟩ := List.map_eq_cons_iff.mp htrees
      rw [List.pairwise_cons] at hapart
      obtain ⟨head, hhead, hplays⟩ := exists_role hvalid o sketch (hlive n List.mem_cons_self)
        hproper.1 hfirst
      obtain ⟨tail, htail, hplays'⟩ := exists_roles hvalid o rest
        (fun x hx => hlive x (List.mem_cons_of_mem _ hx)) hapart.2 hproper.2 hrest
      have hother : ∀ m ∈ more, ∀ x, d.Below m x → (if d.Below n x then head x else tail x) =
          tail x := fun m hm x hmx => if_neg fun hnx => hapart.1 m hm x hnx hmx
      refine ⟨fun x => if d.Below n x then head x else tail x, ?_, fun m hm x hx => ?_⟩
      · rw [List.map_cons, List.map_cons, if_pos .self, hhead, ← htail]
        exact congrArg _ (List.map_congr_left fun m hm => hother m hm m .self)
      · rcases List.mem_cons.mp hm with rfl | hm
        · exact (hplays x hx).congr (if_pos hx) fun y hy =>
            if_pos (hx.trans (hvalid.below_of_mem_children hy))
        · exact (hplays' m hm x hx).congr (hother m hm x hx) fun y hy =>
            hother m hm y (hx.trans (hvalid.below_of_mem_children hy))

end

end LiveMarkup
