import LiveMarkup.Proofs.Markup.Parsed
import LiveMarkup.Proofs.Template.Offer

/-!
The walk over a parsed template. It turns what lies below a node into what it compiles to, and leaves
everything beside and above as it was.
-/

namespace LiveMarkup

/-! ### Directives leave their element -/

section Directives

variable {attributes : List Attribute}

theorem isDirective_congr {a b : Attribute} (h : a.name = b.name) :
    a.isDirective = b.isDirective := by
  simp [Attribute.isDirective, h]

/-- Taking attributes away by the names of all directives leaves what is no directive. -/
theorem foldl_eraseP_directives (names : List String) :
    ∀ {attributes : List Attribute},
      names.Perm ((attributes.filter (·.isDirective)).map (·.name)) →
      names.foldl (fun rest name => rest.eraseP (·.name = name)) attributes =
        attributes.filter fun a => !a.isDirective := by
  induction names with
  | nil =>
      intro attributes hperm
      have hnone : attributes.filter (·.isDirective) = [] :=
        List.map_eq_nil_iff.mp (List.nil_perm.mp hperm)
      rw [List.foldl_nil, eq_comm, List.filter_eq_self]
      intro a ha
      have hnot := List.filter_eq_nil_iff.mp hnone a ha
      simpa using hnot
  | cons name names ih =>
      intro attributes hperm
      have hmem : name ∈ (attributes.filter (·.isDirective)).map (·.name) :=
        hperm.subset List.mem_cons_self
      obtain ⟨a, ha, rfl⟩ := List.mem_map.mp hmem
      obtain ⟨hmem, hdirective⟩ := List.mem_filter.mp ha
      obtain ⟨b, before, after, hbefore, hb, hsplit, herased⟩ :=
        List.exists_of_eraseP (p := fun b => decide (b.name = a.name)) hmem (by simp)
      have hname : b.name = a.name := by simpa using hb
      have hb' : b.isDirective = true := (isDirective_congr hname).trans hdirective
      rw [List.foldl_cons, herased, ih]
      · rw [hsplit, List.filter_append, List.filter_append, List.filter_cons_of_neg (by simp [hb'])]
      · rw [hsplit, List.filter_append, List.filter_cons_of_pos hb', List.map_append, List.map_cons,
          hname] at hperm
        rw [List.filter_append, List.map_append]
        exact (hperm.trans List.perm_middle).cons_inv

end Directives

namespace Compile

variable {nodes marks : List Feature} {w w' w'' : Workbench} {p node : NodeId}
  {before after ids : List NodeId}

/-- The nodes between `before` and `after` have become `ids`. -/
structure Reworked (nodes marks : List Feature) (p : NodeId) (before after ids : List NodeId)
    (w w' : Workbench) : Prop where
  sound : w'.registry.Sound nodes marks
  valid : w'.dom.Valid
  children : w'.dom.children p = before ++ ids ++ after
  place : w'.dom.content p = w.dom.content p ∧ w'.dom.marker p = w.dom.marker p ∧
    w'.dom.parent p = w.dom.parent p
  above : ∀ x, w.dom.Live x → ¬ w.dom.Below p x → w'.dom.node x = w.dom.node x
  beside : ∀ s ∈ before ++ after, ∀ x, w.dom.Below s x → w'.dom.node x = w.dom.node x

theorem Reworked.refl (hsound : w.registry.Sound nodes marks) (hvalid : w.dom.Valid)
    (hchildren : w.dom.children p = before ++ ids ++ after) :
    Reworked nodes marks p before after ids w w :=
  ⟨hsound, hvalid, hchildren, ⟨rfl, rfl, rfl⟩, fun _ _ _ => rfl, fun _ _ _ _ => rfl⟩

theorem Reworked.live (h : Reworked nodes marks p before after ids w w') (hvalid : w.dom.Valid)
    {x : NodeId} (hx : w.dom.Live x) (hnot : ¬ w.dom.Below p x) : w'.dom.Below p x → False := by
  intro hbelow
  refine hnot ((Above.congr_up fun m hm => ?_).mp hbelow)
  have hm' : ¬ w.dom.Below p m := fun hpm => hnot (hpm.trans hm)
  rw [Dom.parent, h.above m (hvalid.live_of_below hm hx) hm', Dom.parent]

/-- One node after the other. -/
theorem Reworked.append {more : List NodeId} {id : NodeId} (hvalid : w.dom.Valid)
    (hfirst : Reworked nodes marks p before (more ++ after) [id] w w')
    {ids : List NodeId} (hrest : Reworked nodes marks p (before ++ [id]) after ids w' w'') :
    Reworked nodes marks p before after (id :: ids) w w'' := by
  obtain ⟨hcontent, hmarker, hparent⟩ := hfirst.place
  obtain ⟨hcontent', hmarker', hparent'⟩ := hrest.place
  refine ⟨hrest.sound, hrest.valid, ?_,
    ⟨hcontent'.trans hcontent, hmarker'.trans hmarker, hparent'.trans hparent⟩, ?_, ?_⟩
  · rw [hrest.children]
    simp
  · intro x hx hnot
    have hsame := hfirst.above x hx hnot
    rw [hrest.above x (by rwa [Dom.Live, hsame]) (hfirst.live hvalid hx hnot), hsame]
  · intro s hs x hx
    have hs' : s ∈ before ++ (more ++ after) := by
      rcases List.mem_append.mp hs with hs | hs
      · exact List.mem_append_left _ hs
      · exact List.mem_append_right _ (List.mem_append_right _ hs)
    have hs'' : s ∈ before ++ [id] ++ after := by
      rcases List.mem_append.mp hs with hs | hs
      · exact List.mem_append_left _ (List.mem_append_left _ hs)
      · exact List.mem_append_right _ hs
    have hbelow : w'.dom.Below s x := hx.congr fun m hm _ => by
      rw [Dom.parent, hfirst.beside s hs' m hm, Dom.parent]
    rw [hrest.beside s hs'' x hbelow, hfirst.beside s hs' x hx]

/-- A change of what lies below one child changes nothing else of its parent. -/
theorem Reworked.of_below {id : NodeId} (hvalid : w.dom.Valid)
    (hchildren : w.dom.children p = before ++ id :: after)
    (hsound' : w'.registry.Sound nodes marks) (hvalid' : w'.dom.Valid)
    (hsame : ∀ x, w.dom.Live x → ¬ w.dom.Below id x → w'.dom.node x = w.dom.node x) :
    Reworked nodes marks p before after [id] w w' := by
  have hmem : id ∈ w.dom.children p := by
    rw [hchildren]
    simp
  have hparent := (hvalid.mem_children p id).mp hmem
  have hp : w'.dom.node p = w.dom.node p :=
    hsame p (hvalid.live_of_parent hparent).2 (hvalid.acyclic id p hparent)
  have hnodup := hvalid.children_nodup p
  rw [hchildren, List.nodup_append, List.nodup_cons] at hnodup
  refine ⟨hsound', hvalid', ?_, ⟨?_, ?_, ?_⟩, ?_, ?_⟩
  · rw [Dom.children, hp]
    change w.dom.children p = _
    rw [hchildren]
    simp
  · rw [Dom.content, hp, Dom.content]
  · rw [Dom.marker, hp, Dom.marker]
  · rw [Dom.parent, hp, Dom.parent]
  · exact fun x hx hnot => hsame x hx fun hbelow =>
      hnot ((hvalid.below_of_mem_children hmem).trans hbelow)
  · intro s hs x hx
    have hs' : s ∈ w.dom.children p := by
      rw [hchildren]
      simp only [List.mem_append, List.mem_cons] at hs ⊢
      tauto
    refine hsame x (hvalid.live_below hx (hvalid.live_of_mem_children hs')) fun hbelow => ?_
    obtain rfl := hvalid.eq_of_below_children hs' hmem hx hbelow
    rcases List.mem_append.mp hs with hs | hs
    · exact hnodup.2.2 s hs s List.mem_cons_self rfl
    · exact hnodup.2.1.1 hs

/-- Putting another node in the place of a child changes nothing else of its parent. -/
theorem Reworked.of_replaced {id new : NodeId} (hvalid : w.dom.Valid)
    (hchildren : w.dom.children p = before ++ id :: after)
    (hsound' : w'.registry.Sound nodes marks) (hvalid' : w'.dom.Valid)
    (hnew : w'.dom.children p = before ++ new :: after)
    (hplace : w'.dom.content p = w.dom.content p ∧ w'.dom.marker p = w.dom.marker p ∧
      w'.dom.parent p = w.dom.parent p)
    (hsame : ∀ x, w.dom.Live x → x ≠ p → x ≠ id → w'.dom.node x = w.dom.node x) :
    Reworked nodes marks p before after [new] w w' := by
  have hmem : id ∈ w.dom.children p := by
    rw [hchildren]
    simp
  have hnodup := hvalid.children_nodup p
  rw [hchildren, List.nodup_append, List.nodup_cons] at hnodup
  refine ⟨hsound', hvalid', ?_, hplace, ?_, ?_⟩
  · rw [hnew]
    simp
  · intro x hx hnot
    refine hsame x hx ?_ ?_
    · rintro rfl
      exact hnot .self
    · rintro rfl
      exact hnot (hvalid.below_of_mem_children hmem)
  · intro s hs x hx
    have hs' : s ∈ w.dom.children p := by
      rw [hchildren]
      simp only [List.mem_append, List.mem_cons] at hs ⊢
      tauto
    refine hsame x (hvalid.live_below hx (hvalid.live_of_mem_children hs')) ?_ ?_
    · rintro rfl
      exact hvalid.acyclic s x ((hvalid.mem_children x s).mp hs') hx
    · rintro rfl
      obtain rfl := hvalid.eq_of_below_children hs' hmem hx .self
      rcases List.mem_append.mp hs with hs | hs
      · exact hnodup.2.2 s hs s List.mem_cons_self rfl
      · exact hnodup.2.1.1 hs

/-- What the walk over some siblings does. -/
def Walks (nodes marks : List Feature) (below : List Tree) : Prop :=
  ∀ (w w' : Workbench) (p : NodeId) (before after ids : List NodeId),
    w.registry.Sound nodes marks → w.dom.Valid → w.dom.Live p →
    w.dom.children p = before ++ ids ++ after → ids.map w.dom.tree = below →
    Gives (walkAll below ids) w () w' →
    ∃ ids' added, Reworked nodes marks p before after ids' w w' ∧
      w'.definitions = w.definitions ++ added ∧
        Tree.CompileTo nodes marks w.definitions.length below (ids'.map w'.dom.tree) added

/-- A node that stays in the template has been compiled, with what lies below it. -/
structure Plain (nodes marks : List Feature) (node : NodeId) (tree : Tree)
    (added : List (NodeDefinition Blueprint)) (w w' : Workbench) : Prop where
  sound : w'.registry.Sound nodes marks
  valid : w'.dom.Valid
  definitions : w'.definitions = w.definitions ++ added
  same : ∀ x, w.dom.Live x → ¬ w.dom.Below node x → w'.dom.node x = w.dom.node x
  compiled : Tree.CompileTo nodes marks w.definitions.length [tree] [w'.dom.tree node] added

theorem plain_walked {tag : String} {attributes : List Attribute} {below : List Tree}
    (hwalks : Walks nodes marks below) (hsound : w.registry.Sound nodes marks)
    (hvalid : w.dom.Valid) (hnone : ∀ a ∈ attributes, a.isDirective = false)
    (htree : w.dom.tree node = .node (.element tag attributes) none below)
    (hvisit : Gives (visitPlain node) w () w')
    (hbelow : Gives (walkAll below (w.dom.children node)) w' () w'') :
    ∃ added, Plain nodes marks node (.node (.element tag attributes) none below) added w w'' := by
  rw [Dom.tree_eq hvalid, Tree.node.injEq] at htree
  obtain ⟨hcontent, hmarker, hchildren⟩ := htree
  obtain ⟨own, hvisited⟩ := visitPlain_visited hsound hvalid hcontent hmarker hvisit
  have hnode := hvisited.node
  have hlive : w.dom.Live node := by
    by_contra hnot
    rw [Dom.content, hvalid.vacant_eq node hnot] at hcontent
    cases hcontent
  have hlive' : w'.dom.Live node := by
    rw [Dom.Live, hnode, if_pos rfl]
    exact hlive
  have hkids : w'.dom.children node = w.dom.children node := by
    rw [Dom.children, hnode, if_pos rfl]
    rfl
  have hparents : ∀ x, w'.dom.parent x = w.dom.parent x := by
    intro x
    rw [Dom.parent, hnode]
    split
    · rename_i heq
      rw [heq]
      rfl
    · rfl
  have hdown : ∀ {a x : NodeId}, w'.dom.Below a x ↔ w.dom.Below a x := fun {a x} => by
    rw [Dom.Below, funext hparents]
  have htrees : (w.dom.children node).map w'.dom.tree = below := by
    rw [← hchildren]
    refine List.map_congr_left fun c hc => ?_
    refine Dom.tree_congr_node hvalid hvisited.valid (hvalid.live_of_mem_children hc) fun x hx => ?_
    rw [hnode, if_neg]
    rintro rfl
    exact hvalid.acyclic c x ((hvalid.mem_children x c).mp hc) hx
  have hstart : w'.dom.children node = [] ++ w.dom.children node ++ [] := by
    rw [hkids, List.nil_append, List.append_nil]
  obtain ⟨ids, more, hreworked, hlater, hcompiled⟩ :=
    hwalks _ _ _ _ _ _ hvisited.sound hvisited.valid hlive' hstart htrees hbelow
  have hids : w''.dom.children node = ids := by
    rw [hreworked.children]
    simp
  obtain ⟨hcontent', hmarker', -⟩ := hreworked.place
  refine ⟨own.toList ++ more, hreworked.sound, hreworked.valid, ?_, ?_, ?_⟩
  · rw [hlater, hvisited.definitions, List.append_assoc]
  · intro x hx hnot
    have hne : x ≠ node := by
      rintro rfl
      exact hnot .self
    have hsame : w'.dom.node x = w.dom.node x := by rw [hnode, if_neg hne]
    rw [hreworked.above x (by rwa [Dom.Live, hsame]) (mt hdown.mp hnot), hsame]
  · rw [hvisited.definitions, List.length_append] at hcompiled
    rw [Dom.tree_eq hreworked.valid, hids, hcontent', hmarker', Dom.content, Dom.marker, hnode,
      if_pos rfl]
    exact .element hnone hvisited.owns hcompiled

/-! ### Templates within templates -/

theorem gives_nested {build : Compile NodeId} {blueprint : Blueprint}
    (h : Gives (nested build) w blueprint w') :
    ∃ root inner, Gives build { w with dom := Dom.empty, definitions := [] } root inner ∧
      blueprint = ⟨inner.dom, root, inner.definitions⟩ ∧
      ∃ notices, w' =
        { w with registry := { inner.registry with notices } } := by
  simp only [nested, gives_bind, gives_get, gives_set, gives_modify, report, gives_pure] at h
  obtain ⟨_, _, ⟨rfl, rfl⟩, _, _, rfl, root, inner, hbuild, _, _, ⟨rfl, rfl⟩, _, _, rfl, _, _, rfl,
    rfl, rfl⟩ := h
  exact ⟨root, inner, hbuild, rfl, _, rfl⟩

/-- A copy of an element in a store of its own, below a fragment and without its directive: the
store, the fragment and the copy. -/
def isolate (source : Dom) (node : NodeId) (directive : String) : Dom × NodeId × NodeId :=
  let (dom, root) := Dom.empty.create .fragment
  let (dom, copy) := dom.importFrom source node
  ((dom.eraseAttribute copy.root directive).appendChild root copy.root, root, copy.root)

theorem gives_nestedElement {inside : List NodeId → Compile Unit} {directive : String}
    {blueprint : Blueprint} (h : Gives (nestedElement inside node directive) w blueprint w') :
    ∃ visited inner,
      Gives (visitPlain (isolate w.dom node directive).2.2)
        { w with dom := (isolate w.dom node directive).1, definitions := [] } () visited ∧
      Gives (inside ((isolate w.dom node directive).1.children (isolate w.dom node directive).2.2))
        visited () inner ∧
      blueprint = ⟨inner.dom, (isolate w.dom node directive).2.1, inner.definitions⟩ ∧
      ∃ notices, w' = { w with registry := { inner.registry with notices } } := by
  simp only [nestedElement, gives_bind, gives_get] at h
  obtain ⟨_, _, ⟨rfl, rfl⟩, h⟩ := h
  obtain ⟨root, inner, hbuild, rfl, hlast⟩ := gives_nested h
  simp only [gives_bind, gives_get, gives_pure, create, gives_set] at hbuild
  obtain ⟨_, _, ⟨_, _, ⟨rfl, rfl⟩, _, _, rfl, rfl, rfl⟩, _, _, ⟨rfl, rfl⟩, _, _, hedit, _, visited,
    hvisit, _, _, hinside, rfl, rfl⟩ := hbuild
  obtain rfl := gives_edit hedit
  exact ⟨visited, _, hvisit, hinside, rfl, hlast⟩

/-- What isolating an element gives. -/
structure Isolated (content : Content) (below : List Tree) (d : Dom) (root copy : NodeId) :
    Prop where
  valid : d.Valid
  root_live : d.Live root
  root_content : d.content root = .fragment
  root_marker : d.marker root = none
  root_parent : d.parent root = none
  children : d.children root = [copy]
  tree : d.tree copy = .node content none below

theorem isolate_isolated {source : Dom} {content : Content} {below : List Tree}
    (directive : String) (htree : source.tree node = .node content none below) :
    Isolated (content.eraseAttribute directive) below (isolate source node directive).1
      (isolate source node directive).2.1 (isolate source node directive).2.2 := by
  have hmade := Dom.create_made Dom.empty_valid .fragment
  unfold isolate
  generalize Dom.empty.create .fragment = made at hmade ⊢
  obtain ⟨d, root⟩ := made
  dsimp only at hmade ⊢
  have hgraft := Dom.graft_grafted (source.tree node) hmade.valid
  rw [Dom.importFrom]
  generalize d.graft (source.tree node) = grafted at hgraft ⊢
  obtain ⟨d', copy⟩ := grafted
  dsimp only at hgraft ⊢
  rw [htree] at hgraft
  obtain ⟨hcopy, hfresh⟩ := hgraft.fresh (List.mem_singleton_self _)
  have hroot := hgraft.live root hmade.live
  have hmadeNode : d.node root = .alone .fragment := (hmade.node root).trans (if_pos rfl)
  -- The directive is erased from the copy, and the copy is put below the new root.
  have herased := Dom.eraseAttribute_rewritten hgraft.valid copy.root directive
  have hretagged := eraseAttribute_retagged hgraft.valid copy.root directive
  have hroot' := (herased.live root).mpr hroot
  have hcopy' := (herased.live copy.root).mpr hcopy
  have hnot : ¬ (d'.eraseAttribute copy.root directive).Below copy.root root := by
    rw [herased.below_iff]
    exact hgraft.not_below hmade.live
  have hne : root ≠ copy.root := (Dom.ne_of_not_below hnot).symm
  have hplaced := Dom.appendChild_placed hretagged.valid hroot' hcopy' hnot
  have hlast := hplaced.valid hretagged.valid hroot' hcopy' hnot (List.perm_append_singleton _ _)
  have hrootNode : (d'.eraseAttribute copy.root directive).node root = d'.node root :=
    (hretagged.node root).trans (if_neg hne)
  refine ⟨hlast, (hplaced.live root).mpr hroot', ?_, ?_, ?_, ?_, ?_⟩
  · rw [hplaced.content, Dom.content, hrootNode]
    exact (hgraft.content root hmade.live).trans (congrArg Node.content hmadeNode)
  · rw [hplaced.marker, Dom.marker, hrootNode]
    exact (hgraft.marker root hmade.live).trans (congrArg Node.marker hmadeNode)
  · rw [hplaced.parent, if_neg hne, herased.parent, hgraft.parent root hmade.live]
    exact congrArg Node.parent hmadeNode
  · rw [hplaced.children, if_pos rfl, herased.children, hgraft.children root hmade.live,
      Dom.children, hmadeNode]
    rfl
  · have hparentless : (d'.eraseAttribute copy.root directive).parent copy.root = none := by
      rw [herased.parent, hgraft.parentless]
    have hcontent := Dom.content_of_tree hgraft.valid copy.root
    rw [hgraft.tree] at hcontent
    rw [hplaced.tree hretagged.valid hlast hcopy' hparentless hnot,
      hretagged.tree hgraft.valid hgraft.tree hcopy, ← hcontent]
    rfl

/-- The template of an element with a directive, the directive taken away. -/
theorem nestedElement_compiled {tag directive : String} {attributes rest : List Attribute}
    {below : List Tree} {blueprint : Blueprint} (hwalks : Walks nodes marks below)
    (hsound : w.registry.Sound nodes marks)
    (htree : w.dom.tree node = .node (.element tag attributes) none below)
    (hrest : attributes.eraseP (·.name = directive) = rest)
    (hnone : ∀ a ∈ rest, a.isDirective = false)
    (h : Gives (nestedElement (walkAll below) node directive) w blueprint w') :
    Aside nodes marks w w' ∧ blueprint.dom.Valid ∧ ∃ inner,
      blueprint.dom.tree blueprint.root = .node .fragment none [inner] ∧
      Tree.CompileTo nodes marks 0 [.node (.element tag rest) none below] [inner]
        blueprint.definitions := by
  obtain ⟨visited, inner, hvisit, hinside, rfl, notices, rfl⟩ := gives_nestedElement h
  have hisolated := isolate_isolated directive htree
  rw [Content.eraseAttribute, hrest] at hisolated
  generalize isolate w.dom node directive = isolated at hvisit hinside hisolated ⊢
  obtain ⟨d, root, copy⟩ := isolated
  dsimp only at hvisit hinside hisolated ⊢
  have hsound' : ({ w with dom := d, definitions := [] } : Workbench).registry.Sound nodes marks :=
    hsound
  obtain ⟨added, hplain⟩ :=
    plain_walked hwalks hsound' hisolated.valid hnone hisolated.tree hvisit hinside
  have hmem : copy ∈ d.children root := by
    rw [hisolated.children]
    exact List.mem_singleton_self copy
  have hroot : inner.dom.node root = d.node root :=
    hplain.same root hisolated.root_live
      (hisolated.valid.acyclic copy root ((hisolated.valid.mem_children root copy).mp hmem))
  have hdefinitions : inner.definitions = added := hplain.definitions
  refine ⟨⟨rfl, rfl, hplain.sound.adorn _ _ _⟩, hplain.valid, inner.dom.tree copy, ?_, ?_⟩
  · have hchildren : inner.dom.children root = [copy] := by
      rw [Dom.children, hroot]
      exact hisolated.children
    rw [Dom.tree_eq hplain.valid, hchildren, Dom.content, Dom.marker, hroot]
    refine Tree.node.injEq _ _ _ _ _ _ |>.mpr
      ⟨hisolated.root_content, hisolated.root_marker, rfl⟩
  · rw [hdefinitions]
    exact hplain.compiled

/-! ### Directives -/

/-- A new node with a marker stands where `node` stood. -/
structure Substituted (p node new : NodeId) (content : Content) (marker : Option Nat)
    (d d' : Dom) : Prop where
  valid : d'.Valid
  fresh : ¬ d.Live new
  tree : d'.tree new = .node content marker []
  children : ∀ before after, d.children p = before ++ node :: after →
    d'.children p = before ++ new :: after
  place : d'.content p = d.content p ∧ d'.marker p = d.marker p ∧ d'.parent p = d.parent p
  removed : d'.tree node = d.tree node
  same : ∀ x, d.Live x → x ≠ p → x ≠ node → d'.node x = d.node x

theorem substituted {d : Dom} (hvalid : d.Valid) (hparent : d.parent node = some p)
    (content : Content) (marker : Option Nat) :
    ((d.create content).1.replaceWith node (d.create content).2).2 = true ∧
      Substituted p node (d.create content).2 content marker d
        (((d.create content).1.replaceWith node (d.create content).2).1.setMarker
          (d.create content).2 marker) := by
  obtain ⟨hdone, hs⟩ := Dom.supplant_supplanted hvalid hparent content
  refine ⟨hdone, ?_⟩
  generalize ((d.create content).1.replaceWith node (d.create content).2).1 = d' at hs ⊢
  generalize (d.create content).2 = new at hs ⊢
  obtain ⟨hnode, hp⟩ := hvalid.live_of_parent hparent
  have hnew := (hs.live new).mpr (Or.inl rfl)
  have hmarked := Dom.setMarker_rewritten hs.valid hnew marker
  have hlast := hmarked.valid hs.valid
  have hkept : ∀ x, d.Live x → (d'.setMarker new marker).node x = d'.node x := by
    intro x hx
    rw [Dom.node_setMarker hnew, if_neg]
    rintro rfl
    exact hs.fresh hx
  have hcontent : ∀ x, d.Live x → (d'.setMarker new marker).content x = d.content x :=
    fun x hx => (congrArg Node.content (hkept x hx)).trans (hs.content x hx)
  have hmarker : ∀ x, d.Live x → (d'.setMarker new marker).marker x = d.marker x :=
    fun x hx => (congrArg Node.marker (hkept x hx)).trans (hs.marker x hx)
  have hchildren : ∀ x, d.Live x → x ≠ p →
      (d'.setMarker new marker).children x = d.children x := fun x hx hne =>
    (hmarked.children x).trans (hs.children_other hvalid hparent hx hne)
  refine ⟨hlast, hs.fresh, ?_, ?_, ⟨hcontent p hp, hmarker p hp, ?_⟩, ?_, ?_⟩
  · have hself : (d'.setMarker new marker).node new = { d'.node new with marker } :=
      (Dom.node_setMarker hnew marker new).trans (if_pos rfl)
    rw [Dom.tree_eq hlast, hmarked.children, hs.children_new, Dom.content, Dom.marker, hself]
    exact congrArg (Tree.node · marker []) hs.content_new
  · intro before after hsplit
    exact (hmarked.children p).trans (hs.children_split hvalid hsplit)
  · have hne : p ≠ node := by
      rintro rfl
      exact hvalid.acyclic p p hparent .self
    rw [hmarked.parent, hs.parent p hp, if_neg hne]
  · refine Dom.tree_congr hvalid hlast hnode (fun x hx => hcontent x (hvalid.live_below hx hnode))
      (fun x hx => hmarker x (hvalid.live_below hx hnode))
      fun x hx => hchildren x (hvalid.live_below hx hnode) ?_
    rintro rfl
    exact hvalid.acyclic node x hparent hx
  · intro x hx hxp hxn
    refine Dom.node_ext (hcontent x hx) ?_ (hchildren x hx hxp) (hmarker x hx) ?_
    · rw [hmarked.parent, hs.parent x hx, if_neg hxn]
    · exact ⟨fun _ => hx, fun _ => (hmarked.live x).mpr ((hs.live x).mpr (Or.inr hx))⟩

theorem foldl_eraseAttribute_retagged {tag : String} (discarded : List Attribute) :
    ∀ {attributes : List Attribute} {d : Dom}, d.Valid →
      d.content node = .element tag attributes →
      Retagged node
        (.element tag ((discarded.map (·.name)).foldl
          (fun rest name => rest.eraseP (·.name = name)) attributes)) d
        (discarded.foldl (fun d a => d.eraseAttribute node a.name) d) := by
  induction discarded with
  | nil =>
      intro attributes d hvalid hcontent
      rw [List.map_nil, List.foldl_nil, List.foldl_nil, ← hcontent]
      exact .refl hvalid node
  | cons a rest ih =>
      intro attributes d hvalid hcontent
      have hfirst := eraseAttribute_retagged hvalid node a.name
      refine hfirst.trans (ih hfirst.valid ?_)
      rw [hfirst.content, hcontent]
      rfl

/-- The steps that take a conditional element out of the template. -/
theorem prepareDirective_conditional (inside : List NodeId → Compile Unit)
    (definition : NodeDefinition Blueprint) (node : NodeId) (a : Attribute) :
    prepareDirective inside definition node a .conditional =
      (if Markup.hasSpan a.value then askRegistry (·.interpolation a.value)
        else askRegistry (·.expression a.value)) >>= fun guard =>
      nestedElement inside node a.name >>= fun blueprint =>
      freshWord >>= fun word =>
      create (.element placeholderTag
        [⟨"id", "enso-" ++ toString definition.index ++ "-" ++ word⟩]) >>= fun placeholder =>
      replace node placeholder >>= fun placed =>
      if placed then
        pure (some ({ definition with
          directive := some ⟨"if", "enso-" ++ toString definition.index ++ "-" ++ word, blueprint,
            guard⟩ }, placeholder))
      else pure none := by
  simp only [prepareDirective]
  by_cases hspan : Markup.hasSpan a.value = true
  · rw [if_pos hspan, if_pos hspan]
  · rw [if_neg hspan, if_neg hspan]

/-- What preparing a conditional element goes through. -/
theorem gives_prepareDirective {inside : List NodeId → Compile Unit}
    {definition : NodeDefinition Blueprint} {a : Attribute}
    {prepared : Option (NodeDefinition Blueprint × NodeId)}
    (h : Gives (prepareDirective inside definition node a .conditional) w prepared w') :
    ∃ guard asked blueprint nestled word content,
      Gives (if Markup.hasSpan a.value then askRegistry (·.interpolation a.value)
        else askRegistry (·.expression a.value)) w guard asked ∧
      Gives (nestedElement inside node a.name) asked blueprint nestled ∧
      content = .element placeholderTag [⟨"id", placeholderId definition.index word⟩] ∧
      w' = { nestled with
        registry := (nestled.registry.share ()).2
        dom := ((w.dom.create content).1.replaceWith node (w.dom.create content).2).1 } ∧
      prepared =
        if ((w.dom.create content).1.replaceWith node (w.dom.create content).2).2 then
          some ({ definition with
            directive := some ⟨"if", placeholderId definition.index word, blueprint, guard⟩ },
            (w.dom.create content).2)
        else none := by
  rw [prepareDirective_conditional] at h
  simp only [gives_bind] at h
  obtain ⟨guard, asked, hguard, blueprint, nestled, hnested, word, freshened, hword, placeholder,
    created, hcreate, placed, replaced, hreplace, hprepared⟩ := h
  have hasked : asked.dom = w.dom := by
    split at hguard
    · rw [(gives_askRegistry hguard).2]
    · rw [(gives_askRegistry hguard).2]
  have hnestled : nestled.dom = w.dom := by
    obtain ⟨_, _, _, _, _, _, rfl⟩ := gives_nestedElement hnested
    exact hasked
  simp only [freshWord, gives_bind, gives_get, gives_set, gives_pure] at hword
  obtain ⟨_, _, ⟨rfl, rfl⟩, _, _, rfl, rfl, rfl⟩ := hword
  simp only [create, gives_bind, gives_get, gives_set, gives_pure] at hcreate
  obtain ⟨_, _, ⟨rfl, rfl⟩, _, _, rfl, rfl, rfl⟩ := hcreate
  simp only [replace, gives_bind, gives_get, gives_set, gives_pure] at hreplace
  obtain ⟨_, _, ⟨rfl, rfl⟩, _, _, rfl, rfl, rfl⟩ := hreplace
  dsimp only at hprepared
  rw [hnestled] at hprepared
  refine ⟨guard, asked, blueprint, nestled, uniqueText (nestled.registry.share ()).1.stamp, _, hguard,
    hnested, rfl, ?_⟩
  split at hprepared
  · rename_i hplaced
    obtain ⟨rfl, rfl⟩ := gives_pure.mp hprepared
    exact ⟨rfl, (if_pos hplaced).symm⟩
  · rename_i hplaced
    obtain ⟨rfl, rfl⟩ := gives_pure.mp hprepared
    exact ⟨rfl, (if_neg hplaced).symm⟩

theorem gives_prepareConditional {inside : List NodeId → Compile Unit}
    {definition : NodeDefinition Blueprint} {a : Attribute}
    {prepared : Option (NodeDefinition Blueprint × NodeId)} (hsound : w.registry.Sound nodes marks)
    (hvalid : w.dom.Valid) (hparent : w.dom.parent node = some p)
    (hif : Text.sameIgnoringAsciiCase a.name "*if" = true)
    (h : Gives (prepareDirective inside definition node a .conditional) w prepared w') :
    ∃ guard asked blueprint nestled word content, Sketch.guard? a = some guard ∧
      Aside nodes marks w asked ∧
      Gives (nestedElement inside node a.name) asked blueprint nestled ∧
      (nestled.registry.Sound nodes marks → w'.registry.Sound nodes marks) ∧
      w'.definitions = w.definitions ∧
      content = .element placeholderTag [⟨"id", placeholderId definition.index word⟩] ∧
      w'.dom = ((w.dom.create content).1.replaceWith node (w.dom.create content).2).1 ∧
      prepared = some ({ definition with
        directive := some ⟨"if", placeholderId definition.index word, blueprint, guard⟩ },
        (w.dom.create content).2) := by
  obtain ⟨guard, asked, blueprint, nestled, word, content, hguard, hnested, hcontent, rfl, rfl⟩ :=
    gives_prepareDirective h
  have hasked : Sketch.guard? a = some guard ∧ Aside nodes marks w asked := by
    rw [Sketch.guard?, if_pos hif]
    split at hguard
    · rename_i hspan
      obtain ⟨hvalue, haside⟩ := askInterpolation_aside hsound hguard
      rw [if_pos hspan, hvalue]
      exact ⟨rfl, haside⟩
    · rename_i hspan
      obtain ⟨hvalue, haside⟩ := askExpression_aside hsound hguard
      rw [if_neg hspan, hvalue]
      exact ⟨rfl, haside⟩
  have hdefinitions : nestled.definitions = w.definitions := by
    obtain ⟨_, _, _, _, _, _, rfl⟩ := gives_nestedElement hnested
    exact hasked.2.definitions
  exact ⟨guard, asked, blueprint, nestled, word, content, hasked.1, hasked.2, hnested,
    fun hsound' => hsound'.adorn _ _ _, hdefinitions, hcontent, rfl,
    if_pos (substituted hvalid hparent content none).1⟩

/-- An element without a parent has no place for a placeholder. -/
theorem gives_prepareConditional_parentless {inside : List NodeId → Compile Unit}
    {definition : NodeDefinition Blueprint} {a : Attribute}
    {prepared : Option (NodeDefinition Blueprint × NodeId)} (hvalid : w.dom.Valid)
    (hlive : w.dom.Live node) (hparent : w.dom.parent node = none)
    (h : Gives (prepareDirective inside definition node a .conditional) w prepared w') :
    prepared = none ∧ w'.dom.Valid ∧ w'.dom.Live node ∧ w'.dom.parent node = none := by
  obtain ⟨_, _, _, _, _, content, _, _, _, rfl, rfl⟩ := gives_prepareDirective h
  have hmade := Dom.create_made hvalid content
  generalize w.dom.create content = made at hmade ⊢
  obtain ⟨d, new⟩ := made
  dsimp only at hmade ⊢
  have hnode : d.node node = w.dom.node node := by
    rw [hmade.node, if_neg]
    rintro rfl
    exact hmade.fresh hlive
  have hparent' : d.parent node = none := by
    rw [Dom.parent, hnode]
    exact hparent
  rw [Dom.replaceWith_of_parentless hparent']
  refine ⟨if_neg Bool.false_ne_true, hmade.valid, ?_, hparent'⟩
  rw [Dom.Live, hnode]
  exact hlive

/-- What taking an element with a directive out of the template goes through. -/
theorem gives_offerDirective {inside : List NodeId → Compile Unit}
    {definition : NodeDefinition Blueprint} {a : Attribute}
    (helement : (w.dom.content node).isElement = true) (hsound : w.registry.Sound nodes marks)
    (hvalid : w.dom.Valid) (hparent : w.dom.parent node = some p) {features : List Feature}
    (hbuiltin : ∀ feature ∈ features, feature ∈ Feature.builtin)
    (h : Gives (offerDirective inside definition node a features) w () w') :
    Feature.conditional ∈ features ∧ ∃ guard asked blueprint nestled word content,
      Sketch.guard? a = some guard ∧ Aside nodes marks w asked ∧
      Gives (nestedElement inside node a.name) asked blueprint nestled ∧
      (nestled.registry.Sound nodes marks → w'.registry.Sound nodes marks) ∧
      content = .element placeholderTag [⟨"id", placeholderId definition.index word⟩] ∧
      w'.dom = ((w.dom.create content).1.replaceWith node (w.dom.create content).2).1.setMarker
        (w.dom.create content).2 (some definition.index) ∧
      w'.definitions = w.definitions ++ [NodeDefinition.claim { definition with
        directive := some ⟨"if", placeholderId definition.index word, blueprint, guard⟩ }
        .conditional] := by
  induction features with
  | nil => exact absurd h not_gives_throw
  | cons feature rest ih =>
      have ih' := ih fun other hother => hbuiltin other (List.mem_cons_of_mem _ hother)
      have haccepts : feature.accepts (w.dom.content node) (some a) = feature.appliesTo a := by
        simp [Feature.accepts, helement]
      simp only [offerDirective, gives_bind, gives_get] at h
      obtain ⟨_, _, ⟨rfl, rfl⟩, h⟩ := h
      rw [haccepts] at h
      have hpass : Gives (offerDirective inside definition node a rest) w () w' → _ :=
        fun hrest => (ih' hrest).imp_left (List.mem_cons_of_mem feature)
      split at h
      · rename_i happlies
        obtain ⟨prepared, next, hprepare, h⟩ := gives_bind.mp h
        have hmem := hbuiltin feature List.mem_cons_self
        simp only [Feature.builtin, List.mem_cons, List.not_mem_nil, or_false] at hmem
        rcases hmem with rfl | rfl | rfl | rfl | rfl
        · cases happlies
        · obtain ⟨guard, asked, blueprint, nestled, word, content, hguard, haside, hnested, hsound',
            hdefinitions, hcontent, hdom, rfl⟩ :=
            gives_prepareConditional hsound hvalid hparent happlies hprepare
          obtain rfl := gives_claim h
          refine ⟨List.mem_cons_self, guard, asked, blueprint, nestled, word, content, hguard, haside,
            hnested, hsound', hcontent, ?_, ?_⟩
          · rw [index_claim, hdom]
          · rw [hdefinitions]
        all_goals
          obtain ⟨rfl, rfl⟩ := gives_pure.mp hprepare
          exact hpass h
      · exact hpass h

/-- No feature takes an element out that has no parent. -/
theorem not_offerDirective_of_parentless {inside : List NodeId → Compile Unit}
    {definition : NodeDefinition Blueprint} {a : Attribute} {features : List Feature}
    (hbuiltin : ∀ feature ∈ features, feature ∈ Feature.builtin) (hvalid : w.dom.Valid)
    (hlive : w.dom.Live node) (hparent : w.dom.parent node = none) :
    ¬ Gives (offerDirective inside definition node a features) w () w' := by
  induction features generalizing w with
  | nil => exact not_gives_throw
  | cons feature rest ih =>
      have ih' := fun {w : Workbench} =>
        @ih w fun other hother => hbuiltin other (List.mem_cons_of_mem _ hother)
      intro h
      simp only [offerDirective, gives_bind, gives_get] at h
      obtain ⟨_, _, ⟨rfl, rfl⟩, h⟩ := h
      split at h
      · obtain ⟨prepared, next, hprepare, h⟩ := gives_bind.mp h
        have hmem := hbuiltin feature List.mem_cons_self
        simp only [Feature.builtin, List.mem_cons, List.not_mem_nil, or_false] at hmem
        rcases hmem with rfl | rfl | rfl | rfl | rfl
        case inr.inl =>
          obtain ⟨rfl, hvalid', hlive', hparent'⟩ :=
            gives_prepareConditional_parentless hvalid hlive hparent hprepare
          exact ih' hvalid' hlive' hparent' h
        all_goals
          obtain ⟨rfl, rfl⟩ := gives_pure.mp hprepare
          exact ih' hvalid hlive hparent h
      · exact ih' hvalid hlive hparent h

/-- Dropping the directives that are not kept. -/
theorem gives_visitDirective {inside : List NodeId → Compile Unit} {kept : Attribute}
    {discarded : List Attribute} (hsound : w.registry.Sound nodes marks)
    (h : Gives (visitDirective inside node kept discarded) w () w') :
    ∃ cleared : Workbench, cleared.registry.Sound nodes marks ∧
      cleared.definitions = w.definitions ∧
      cleared.dom = discarded.foldl (fun dom a => dom.eraseAttribute node a.name) w.dom ∧
      Gives (offerDirective inside (.unclaimed w.definitions.length) node kept nodes) cleared ()
        w' := by
  rw [visitDirective] at h
  obtain ⟨definition, _, hdefinition, h⟩ := gives_bind.mp h
  obtain ⟨hfresh, hw⟩ := gives_nextDefinition hdefinition
  subst hfresh hw
  split at h
  · obtain ⟨_, reported, hreport, h⟩ := gives_bind.mp h
    have haside := report_aside hsound hreport
    obtain ⟨_, cleared, hclear, h⟩ := gives_bind.mp h
    have hedited := gives_edit hclear
    obtain ⟨_, _, hget, h⟩ := gives_bind.mp h
    obtain ⟨rfl, rfl⟩ := gives_get.mp hget
    have hsound' : cleared.registry.Sound nodes marks := by
      rw [hedited]
      exact haside.sound
    rw [hsound'.nodeFeatures] at h
    refine ⟨cleared, hsound', ?_, ?_, h⟩
    · rw [hedited]
      exact haside.definitions
    · rw [hedited]
      dsimp only
      rw [haside.dom]
  · rename_i hempty
    have hnil : discarded = [] := by simpa using hempty
    obtain ⟨_, _, hget, h⟩ := gives_bind.mp h
    obtain ⟨rfl, rfl⟩ := gives_get.mp hget
    rw [hsound.nodeFeatures] at h
    refine ⟨_, hsound, rfl, ?_, h⟩
    rw [hnil, List.foldl_nil]

/-- An element with directives has been taken out of the template. What `cleared` has in its place is
left of it, and `new` is the placeholder that stands where it stood. -/
structure Taken (nodes marks : List Feature) (p node new : NodeId) (cleared : Dom)
    (content rest : Content) (below : List Tree) (definition : NodeDefinition Blueprint)
    (w w' : Workbench) : Prop where
  sound : w'.registry.Sound nodes marks
  retagged : Retagged node rest w.dom cleared
  substituted : ∃ placeholder, Substituted p node new placeholder (some w.definitions.length)
    cleared w'.dom
  definitions : w'.definitions = w.definitions ++ [definition]
  compiled : Tree.CompileTo nodes marks w.definitions.length [.node content none below]
    [w'.dom.tree new] [definition]

theorem directive_taken {tag : String} {attributes discarded : List Attribute} {kept : Attribute}
    {below : List Tree} (hwalks : Walks nodes marks below) (hsound : w.registry.Sound nodes marks)
    (hvalid : w.dom.Valid) (hparent : w.dom.parent node = some p)
    (htree : w.dom.tree node = .node (.element tag attributes) none below)
    (hsplit : attributes.filter (·.isDirective) = kept :: discarded)
    (h : Gives (visitDirective (walkAll below) node kept discarded) w () w') :
    ∃ new cleared definition, Taken nodes marks p node new cleared (.element tag attributes)
      (.element tag ((discarded.map (·.name)).foldl
        (fun rest name => rest.eraseP (·.name = name)) attributes)) below definition w w' := by
  obtain ⟨hnode, hp⟩ := hvalid.live_of_parent hparent
  have hcontent : w.dom.content node = .element tag attributes := by
    rw [Dom.tree_eq hvalid, Tree.node.injEq] at htree
    exact htree.1
  obtain ⟨cleared, hsound', hdefinitions, hcleared, hoffer⟩ := gives_visitDirective hsound h
  have hretagged := foldl_eraseAttribute_retagged discarded hvalid hcontent
  rw [← hcleared] at hretagged
  generalize hrest : (discarded.map (·.name)).foldl
    (fun rest name => rest.eraseP (·.name = name)) attributes = rest at hretagged ⊢
  have helement : (cleared.dom.content node).isElement = true := by
    rw [hretagged.content]
    rfl
  have hparent' : cleared.dom.parent node = some p := by
    rw [Dom.parent, hretagged.node, if_pos rfl]
    exact hparent
  obtain ⟨hconditional, guard, asked, blueprint, nestled, word, content, hguard, hasked, hnested,
    hlast, rfl, hdom, hdefinitions'⟩ :=
    gives_offerDirective helement hsound' hretagged.valid hparent' hsound.nodes_builtin hoffer
  have htree' : asked.dom.tree node = .node (.element tag rest) none below := by
    rw [hasked.dom]
    exact hretagged.tree hvalid htree hnode
  have hplain : rest.eraseP (·.name = kept.name) = attributes.filter fun a => !a.isDirective := by
    have hperm : (discarded.map (·.name) ++ [kept.name]).Perm
        ((attributes.filter (·.isDirective)).map (·.name)) := by
      rw [hsplit, List.map_cons]
      exact List.perm_append_singleton _ _
    have hall := foldl_eraseP_directives _ hperm
    rw [List.foldl_append, hrest] at hall
    exact hall
  have hnone : ∀ a ∈ attributes.filter (fun a => !a.isDirective), a.isDirective = false :=
    fun a ha => by simpa using (List.mem_filter.mp ha).2
  obtain ⟨haside, hblueprint, inner, hroot, hcompiled⟩ :=
    nestedElement_compiled hwalks hasked.sound htree' hplain hnone hnested
  obtain ⟨-, hsubstituted⟩ := substituted hretagged.valid hparent'
    (.element placeholderTag [⟨"id", placeholderId w.definitions.length word⟩])
    (some w.definitions.length)
  rw [show (NodeDefinition.unclaimed w.definitions.length : NodeDefinition Blueprint).index =
    w.definitions.length from rfl] at hdom hdefinitions'
  rw [← hdom] at hsubstituted
  have hfind : attributes.find? (·.isDirective) = some kept := by
    rw [← List.head?_filter, hsplit]
    rfl
  refine ⟨_, cleared.dom, .ofConditional w.definitions.length word blueprint guard,
    hlast haside.sound, hretagged, ⟨_, hsubstituted⟩, ?_, ?_⟩
  · rw [hdefinitions', hdefinitions]
    rfl
  · rw [hsubstituted.tree]
    exact .conditional hfind hconditional hguard hblueprint hroot hcompiled

/-- An element with directives is compiled by taking it out of its parent. -/
theorem walk_taken {tag : String} {attributes discarded : List Attribute} {kept : Attribute}
    {below : List Tree} (hwalks : Walks nodes marks below) (hsound : w.registry.Sound nodes marks)
    (hvalid : w.dom.Valid) (htree : w.dom.tree node = .node (.element tag attributes) none below)
    (hsplit : attributes.filter (·.isDirective) = kept :: discarded)
    (h : Gives (walk (.node (.element tag attributes) none below) node) w () w') :
    ∃ p new cleared definition, w.dom.parent node = some p ∧
      Taken nodes marks p node new cleared (.element tag attributes)
        (.element tag ((discarded.map (·.name)).foldl
          (fun rest name => rest.eraseP (·.name = name)) attributes)) below definition w w' := by
  have hcontent : w.dom.content node = .element tag attributes := by
    rw [Dom.tree_eq hvalid, Tree.node.injEq] at htree
    exact htree.1
  rw [walk] at h
  obtain ⟨_, _, hget, h⟩ := gives_bind.mp h
  obtain ⟨rfl, rfl⟩ := gives_get.mp hget
  rw [hcontent] at h
  dsimp only at h
  rw [hsplit] at h
  cases hparent : w.dom.parent node with
  | some p =>
      obtain ⟨new, cleared, definition, htaken⟩ :=
        directive_taken hwalks hsound hvalid hparent htree hsplit h
      exact ⟨p, new, cleared, definition, rfl, htaken⟩
  | none =>
      obtain ⟨cleared, -, -, hcleared, hoffer⟩ := gives_visitDirective hsound h
      have hretagged := foldl_eraseAttribute_retagged discarded hvalid hcontent
      rw [← hcleared] at hretagged
      have hnode := Dom.live_of_element hcontent hvalid
      refine absurd hoffer (not_offerDirective_of_parentless hsound.nodes_builtin hretagged.valid ?_ ?_)
      · rw [Dom.Live, hretagged.node, if_pos rfl]
        exact hnode
      · rw [Dom.parent, hretagged.node, if_pos rfl]
        exact hparent

theorem Taken.reworked {new : NodeId} {cleared : Dom} {content rest : Content} {below : List Tree}
    {definition : NodeDefinition Blueprint}
    (h : Taken nodes marks p node new cleared content rest below definition w w')
    (hvalid : w.dom.Valid) (hchildren : w.dom.children p = before ++ node :: after)
    (hparent : w.dom.parent node = some p) : Reworked nodes marks p before after [new] w w' := by
  obtain ⟨placeholder, hsubstituted⟩ := h.substituted
  have hpn : p ≠ node := by
    rintro rfl
    exact hvalid.acyclic p p hparent .self
  have hsame : ∀ x, x ≠ node → cleared.node x = w.dom.node x := fun x hx => by
    rw [h.retagged.node, if_neg hx]
  have hchildren' : cleared.children p = before ++ node :: after := by
    rw [Dom.children, hsame p hpn]
    exact hchildren
  refine .of_replaced hvalid hchildren h.sound hsubstituted.valid
    (hsubstituted.children before after hchildren') ⟨?_, ?_, ?_⟩ fun x hx hxp hxn => ?_
  · rw [hsubstituted.place.1, Dom.content, hsame p hpn, Dom.content]
  · rw [hsubstituted.place.2.1, Dom.marker, hsame p hpn, Dom.marker]
  · rw [hsubstituted.place.2.2, Dom.parent, hsame p hpn, Dom.parent]
  · have hlive : cleared.Live x := by
      rw [Dom.Live, hsame x hxn]
      exact hx
    rw [hsubstituted.same x hlive hxp hxn, hsame x hxn]

/-! ### The walk -/

theorem gives_visitText {s : String} (hsound : w.registry.Sound nodes marks)
    (h : Gives (visitText node s) w () w') :
    ((Markup.hasSpan s = false ∨ Feature.text ∉ nodes) ∧ w' = w) ∨
      (Markup.hasSpan s = true ∧ Feature.text ∈ nodes ∧ ∃ i asked,
        Interpolation.compile s = .ok i ∧ Aside nodes marks w asked ∧
        w' = { asked with
          dom := (w.dom.setTextContent node "").setMarker node (some w.definitions.length)
          definitions := w.definitions ++ [.ofText w.definitions.length i] }) := by
  have haccepts : w.registry.nodeFeatures.any (·.accepts (.text s) none) = true ↔
      Markup.hasSpan s = true ∧ Feature.text ∈ nodes := by
    rw [hsound.nodeFeatures, List.any_eq_true]
    constructor
    · rintro ⟨feature, hmem, hfeature⟩
      cases feature with
      | text => exact ⟨hfeature, hmem⟩
      | _ => cases hfeature
    · exact fun ⟨hspan, hmem⟩ => ⟨.text, hmem, hspan⟩
  rw [visitText] at h
  obtain ⟨_, _, hget, h⟩ := gives_bind.mp h
  obtain ⟨rfl, rfl⟩ := gives_get.mp hget
  split at h
  · rename_i hany
    obtain ⟨hspan, hmem⟩ := haccepts.mp hany
    obtain ⟨definition, _, hdefinition, h⟩ := gives_bind.mp h
    obtain ⟨hfresh, hw⟩ := gives_nextDefinition hdefinition
    subst hfresh hw
    obtain ⟨i, asked, hask, h⟩ := gives_bind.mp h
    obtain ⟨hvalue, haside⟩ := askInterpolation_aside hsound hask
    obtain ⟨_, emptied, hedit, h⟩ := gives_bind.mp h
    obtain rfl := gives_edit hedit
    refine Or.inr ⟨hspan, hmem, i, asked, hvalue, haside, ?_⟩
    rw [gives_claim h, index_claim, claim_eq]
    dsimp only
    rw [haside.dom, haside.definitions]
    rfl
  · rename_i hany
    obtain ⟨_, rfl⟩ := gives_pure.mp h
    refine Or.inl ⟨?_, rfl⟩
    rw [haccepts, not_and_or, Bool.not_eq_true] at hany
    exact hany

theorem text_walked {s : String} (hsound : w.registry.Sound nodes marks) (hvalid : w.dom.Valid)
    (htree : w.dom.tree node = .leaf (.text s)) (h : Gives (visitText node s) w () w') :
    ∃ added, Plain nodes marks node (.leaf (.text s)) added w w' := by
  have hleaf := htree
  rw [Dom.tree_eq hvalid, Tree.leaf, Tree.node.injEq] at htree
  obtain ⟨hcontent, hmarker, hbelow⟩ := htree
  obtain ⟨hnot, rfl⟩ | ⟨hspan, hmem, i, asked, hvalue, haside, rfl⟩ := gives_visitText hsound h
  · refine ⟨[], hsound, hvalid, by simp, fun _ _ _ => rfl, ?_⟩
    rw [hleaf]
    exact .text hnot
  · have hlive := Dom.live_of_text hcontent hvalid
    have hemptied := Dom.setTextContent_rewritten hvalid hcontent ""
    have hvalid' := hemptied.valid hvalid
    have hlive' := (hemptied.live node).mpr hlive
    have hmarked := Dom.setMarker_rewritten hvalid' hlive' (some w.definitions.length)
    have hnode : ∀ x, ((w.dom.setTextContent node "").setMarker node
        (some w.definitions.length)).node x =
          if x = node then { w.dom.node node with
            content := .text "", marker := some w.definitions.length } else w.dom.node x := by
      intro x
      rw [Dom.node_setMarker hlive', Dom.node_setTextContent hvalid hcontent "" node,
        Dom.node_setTextContent hvalid hcontent "" x, if_pos rfl]
      split <;> rfl
    refine ⟨_, haside.sound, hmarked.valid hvalid', rfl, ?_, ?_⟩
    · intro x _ hnot
      dsimp only
      rw [hnode, if_neg]
      rintro rfl
      exact hnot .self
    · rw [Dom.tree_eq (hmarked.valid hvalid'), hmarked.children, hemptied.children, Dom.content,
        Dom.marker, hnode, if_pos rfl, List.map_eq_nil_iff.mp hbelow]
      exact .span hspan hmem hvalue

/-- A node without a directive stays in the template. -/
theorem walk_plain {content : Content} {marker : Option Nat} {below : List Tree}
    (hwalks : Tree.AreParsed below → Walks nodes marks below)
    (hparsed : (Tree.node content marker below).IsParsed) (hsound : w.registry.Sound nodes marks)
    (hvalid : w.dom.Valid) (htree : w.dom.tree node = .node content marker below)
    (hnone : content.attributes.filter (·.isDirective) = [])
    (h : Gives (walk (.node content marker below) node) w () w') :
    ∃ added, Plain nodes marks node (.node content marker below) added w w' := by
  have hshape := htree
  rw [Dom.tree_eq hvalid, Tree.node.injEq] at hshape
  rw [walk] at h
  obtain ⟨_, _, hget, h⟩ := gives_bind.mp h
  obtain ⟨rfl, rfl⟩ := gives_get.mp hget
  rw [hshape.1] at h
  cases content with
  | fragment => exact hparsed.2.elim
  | text s =>
      obtain ⟨rfl, rfl⟩ := hparsed
      exact text_walked hsound hvalid htree h
  | comment s =>
      obtain ⟨rfl, rfl⟩ := hparsed
      obtain ⟨_, rfl⟩ := gives_pure.mp h
      refine ⟨[], hsound, hvalid, by simp, fun _ _ _ => rfl, ?_⟩
      rw [htree]
      exact .comment
  | element tag attributes =>
      obtain ⟨rfl, _, hparsed⟩ := hparsed
      dsimp only at h
      rw [show attributes.filter (·.isDirective) = [] from hnone] at h
      obtain ⟨_, visited, hvisit, h⟩ := gives_bind.mp h
      obtain ⟨_, _, hget, h⟩ := gives_bind.mp h
      obtain ⟨rfl, rfl⟩ := gives_get.mp hget
      obtain ⟨_, hvisited⟩ := visitPlain_visited hsound hvalid hshape.1 hshape.2.1 hvisit
      have hkids : visited.dom.children node = w.dom.children node := by
        rw [Dom.children, hvisited.node, if_pos rfl]
        rfl
      rw [hkids] at h
      have hnone' : ∀ a ∈ attributes, a.isDirective = false := fun a ha => by
        simpa using List.filter_eq_nil_iff.mp hnone a ha
      exact plain_walked (hwalks hparsed) hsound hvalid hnone' htree hvisit h

mutual

/-- Compiling what is at a node gives what its tree compiles to. -/
theorem walk_reworked : ∀ {tree : Tree}, tree.IsParsed →
    ∀ (w w' : Workbench) (p node : NodeId) (before after : List NodeId),
    w.registry.Sound nodes marks → w.dom.Valid → w.dom.children p = before ++ node :: after →
    w.dom.tree node = tree → Gives (walk tree node) w () w' →
    ∃ new added, Reworked nodes marks p before after [new] w w' ∧
      w'.definitions = w.definitions ++ added ∧
      Tree.CompileTo nodes marks w.definitions.length [tree] [w'.dom.tree new] added
  | .node content marker below, hparsed, w, w', p, node, before, after, hsound, hvalid, hchildren,
      htree, h => by
      cases hsplit : content.attributes.filter (·.isDirective) with
      | nil =>
          obtain ⟨added, hplain⟩ := walk_plain walkAll_walks hparsed hsound hvalid htree hsplit h
          exact ⟨node, added, .of_below hvalid hchildren hplain.sound hplain.valid hplain.same,
            hplain.definitions, hplain.compiled⟩
      | cons kept discarded =>
          cases content with
          | fragment | text | comment => cases hsplit
          | element tag attributes =>
              obtain ⟨rfl, _, hparsed⟩ := hparsed
              obtain ⟨p', new, cleared, definition, hparent, htaken⟩ :=
                walk_taken (walkAll_walks hparsed) hsound hvalid htree hsplit h
              have hp : w.dom.parent node = some p := by
                rw [← hvalid.mem_children, hchildren]
                simp
              obtain rfl := Option.some.inj (hparent.symm.trans hp)
              exact ⟨new, [definition], htaken.reworked hvalid hchildren hparent, htaken.definitions,
                htaken.compiled⟩

/-- Compiling siblings one after the other gives what their trees compile to. -/
theorem walkAll_walks : ∀ {trees : List Tree}, Tree.AreParsed trees → Walks nodes marks trees
  | [], _ => by
      intro w w' p before after ids hsound hvalid _ hchildren htrees h
      obtain rfl := List.map_eq_nil_iff.mp htrees
      rw [walkAll] at h
      · obtain ⟨_, rfl⟩ := gives_pure.mp h
        exact ⟨[], [], .refl hsound hvalid hchildren, by simp, .nil⟩
      · intro _ _ _ _ hfalse
        cases hfalse
  | tree :: trees, hparsed => by
      intro w w' p before after ids hsound hvalid hp hchildren htrees h
      obtain ⟨hfirst, hrest⟩ := hparsed
      cases ids with
      | nil => cases htrees
      | cons id ids =>
          rw [List.map_cons, List.cons.injEq] at htrees
          obtain ⟨htree, htrees⟩ := htrees
          rw [walkAll] at h
          obtain ⟨_, walked, hwalk, h⟩ := gives_bind.mp h
          have hsplit : w.dom.children p = before ++ id :: (ids ++ after) := by
            rw [hchildren]
            simp
          obtain ⟨new, firsts, hreworked, hfirsts, hcompiled⟩ :=
            walk_reworked hfirst w walked p id before (ids ++ after) hsound hvalid hsplit htree hwalk
          have hbeside : ∀ c ∈ ids, ∀ x, w.dom.Below c x → walked.dom.node x = w.dom.node x :=
            fun c hc => hreworked.beside c (List.mem_append_right _ (List.mem_append_left _ hc))
          have hp' : walked.dom.Live p := by
            have hid : walked.dom.parent new = some p := by
              rw [← hreworked.valid.mem_children, hreworked.children]
              simp
            exact (hreworked.valid.live_of_parent hid).2
          have hids : ids.map walked.dom.tree = trees := by
            rw [← htrees]
            refine List.map_congr_left fun c hc => ?_
            refine Dom.tree_congr_node hvalid hreworked.valid ?_ (hbeside c hc)
            refine hvalid.live_of_mem_children (p := p) ?_
            rw [hchildren]
            simp [hc]
          have hchildren' : walked.dom.children p = (before ++ [new]) ++ ids ++ after := by
            rw [hreworked.children]
            simp
          obtain ⟨ids', more, hreworked', hmore, hcompiled'⟩ :=
            walkAll_walks hrest _ _ _ _ _ _ hreworked.sound hreworked.valid hp' hchildren' hids h
          have hnew : w'.dom.tree new = walked.dom.tree new := by
            refine Dom.tree_congr_node hreworked.valid hreworked'.valid ?_
              (hreworked'.beside new (by simp))
            refine hreworked.valid.live_of_mem_children (p := p) ?_
            rw [hreworked.children]
            simp
          refine ⟨new :: ids', firsts ++ more, hreworked.append hvalid hreworked', ?_, ?_⟩
          · rw [hmore, hfirsts, List.append_assoc]
          · rw [hfirsts, List.length_append] at hcompiled'
            rw [List.map_cons, hnew]
            exact .cons hcompiled hcompiled'

end

end Compile

end LiveMarkup
