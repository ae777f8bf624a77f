import LiveMarkup.Proofs.Dom.Moves
import LiveMarkup.Proofs.Page.Family
import LiveMarkup.Proofs.Template.Compiled

/-!
Copies of templates. Definitions are numbered in document order, and a copy lists one new node for
each of them, the one that stands where the node did that the definition was made for. Main result:
this holds for every choice of features, at every depth of directives and in every store.
-/

namespace LiveMarkup

/-! ### Places in trees -/

namespace Tree

def marker : Tree → Option Nat
  | node _ marker _ => marker

/-- The tree that positions among children lead to. -/
def follow? : List Nat → Tree → Option Tree
  | [], tree => some tree
  | i :: path, node _ _ below => below[i]?.bind (follow? path)

mutual

/-- The markers in a tree and the ways to them, in document order. -/
def marks : Tree → List (Nat × List Nat)
  | node _ marker below => marker.toList.map (·, []) ++ marksFrom 0 below

/-- The same for siblings, the first of which is at position `i`. -/
def marksFrom (i : Nat) : List Tree → List (Nat × List Nat)
  | [] => []
  | tree :: rest => tree.marks.map (fun mark => (mark.1, i :: mark.2)) ++ marksFrom (i + 1) rest

end

end Tree

namespace Dom

variable {d : Dom}

/-- The node that positions among children lead to. -/
def follow? (d : Dom) : List Nat → NodeId → Option NodeId
  | [], n => some n
  | i :: path, n => (d.children n)[i]?.bind (d.follow? path)

theorem follow?_tree (h : d.Valid) (path : List Nat) (n : NodeId) :
    (d.tree n).follow? path = (d.follow? path n).map d.tree := by
  induction path generalizing n with
  | nil => rfl
  | cons i path ih =>
      rw [tree_eq h, Tree.follow?, follow?, List.getElem?_map]
      cases (d.children n)[i]? with
      | none => rfl
      | some c => exact ih c

theorem below_follow? (h : d.Valid) {path : List Nat} {a n : NodeId}
    (hpath : d.follow? path a = some n) : d.Below a n := by
  induction path generalizing a with
  | nil =>
      cases hpath
      exact .self
  | cons i path ih =>
      obtain ⟨c, hc, hcn⟩ := Option.bind_eq_some_iff.mp hpath
      exact (h.below_of_mem_children (List.mem_of_getElem? hc)).trans (ih hcn)

theorem marker_of_tree (h : d.Valid) (n : NodeId) : (d.tree n).marker = d.marker n := by
  rw [tree_eq h]
  rfl

mutual

/-- A copy lists the markers of a tree in document order. -/
theorem fst_marked_graft (d : Dom) (tree : Tree) :
    (d.graft tree).2.marked.map (·.1) = tree.marks.map (·.1) := by
  obtain ⟨content, marker, below⟩ := tree
  have hbelow := fst_graftChildren ((d.create content).1.setMarker (d.create content).2 marker)
    (d.create content).2 0 below
  rw [graft, Tree.marks]
  cases marker with
  | none => exact hbelow
  | some k => exact congrArg (k :: ·) hbelow

theorem fst_graftChildren (d : Dom) (p : NodeId) (i : Nat) (trees : List Tree) :
    (d.graftChildren p trees).2.map (·.1) = (Tree.marksFrom i trees).map (·.1) := by
  match trees with
  | [] => rfl
  | tree :: rest =>
      have hfirst := fst_marked_graft d tree
      have hrest := fst_graftChildren ((d.graft tree).1.link p (d.graft tree).2.root) p (i + 1) rest
      rw [graftChildren, Tree.marksFrom, List.map_append, List.map_append, List.map_map]
      exact congrArg₂ (· ++ ·) hfirst hrest

end

end Dom

/-! ### What a definition was made for -/

variable {nodes marks : List Feature}

/-- A parsed tree, the definition made for its root and what stands for that in the template. -/
inductive Tree.Claimed (nodes marks : List Feature) :
    Tree → NodeDefinition Blueprint → Content → Prop
  | text {k : Nat} {s : String} {i : Interpolation} (hspan : Markup.hasSpan s = true)
      (hnodes : Feature.text ∈ nodes) (hvalue : Interpolation.compile s = .ok i) :
      Claimed nodes marks (.leaf (.text s)) (.ofText k i) (.text "")
  | element {k : Nat} {tag : String} {attributes : List Attribute} {below : List Tree}
      {definition : NodeDefinition Blueprint} (hnone : ∀ a ∈ attributes, a.isDirective = false)
      (howns : Owns marks attributes k (some definition)) :
      Claimed nodes marks (.node (.element tag attributes) none below) definition
        (.element tag (untaken marks attributes))
  | conditional {k : Nat} {tag word : String} {attributes : List Attribute} {a : Attribute}
      {below : List Tree} {guard : Interpolation} {blueprint : Blueprint}
      (hfirst : attributes.find? (·.isDirective) = some a) (hnodes : Feature.conditional ∈ nodes)
      (hguard : Sketch.guard? a = some guard)
      (hnested : blueprint.Compiled nodes marks
        [.node (.element tag (attributes.filter fun a => !a.isDirective)) none below]) :
      Claimed nodes marks (.node (.element tag attributes) none below)
        (.ofConditional k word blueprint guard)
        (.element Compile.placeholderTag [⟨"id", placeholderId k word⟩])

/-- A mark among siblings and its definition agree: from position `i` on, the way to the mark leads
to what the definition was made for and to what stands for that. -/
def Tree.Agrees (nodes marks : List Feature) (i : Nat) (parsed trees : List Tree)
    (mark : Nat × List Nat) (definition : NodeDefinition Blueprint) : Prop :=
  ∃ j path source made, mark = (definition.index, (i + j) :: path) ∧
    parsed[j]?.bind (follow? path) = some source ∧ trees[j]?.bind (follow? path) = some made ∧
      made.marker = some definition.index ∧ Tree.Claimed nodes marks source definition made.content

namespace Tree

variable {i k : Nat} {parsed trees : List Tree} {definition : NodeDefinition Blueprint}
  {definitions : List (NodeDefinition Blueprint)} {mark : Nat × List Nat}

/-- The root of a single tree has the mark. -/
theorem Agrees.root {source made : Tree} (hmark : mark = (definition.index, [i]))
    (hmarker : made.marker = some definition.index)
    (hclaimed : Tree.Claimed nodes marks source definition made.content) :
    Agrees nodes marks i [source] [made] mark definition :=
  ⟨0, [], source, made, hmark, rfl, rfl, hmarker, hclaimed⟩

theorem Agrees.head {source made : Tree} {rest others : List Tree}
    (h : Agrees nodes marks i [source] [made] mark definition) :
    Agrees nodes marks i (source :: rest) (made :: others) mark definition := by
  obtain ⟨j, path, inner, held, hmark, hinner, hheld, hagree⟩ := h
  cases j with
  | zero => exact ⟨0, path, inner, held, hmark, hinner, hheld, hagree⟩
  | succ j => cases hinner

theorem Agrees.tail {source made : Tree}
    (h : Agrees nodes marks (i + 1) parsed trees mark definition) :
    Agrees nodes marks i (source :: parsed) (made :: trees) mark definition := by
  obtain ⟨j, path, inner, held, hmark, hinner, hheld, hagree⟩ := h
  refine ⟨j + 1, path, inner, held, ?_, hinner, hheld, hagree⟩
  rw [hmark, Nat.add_assoc, Nat.add_comm 1 j]

/-- What agrees among children agrees below their parents. -/
theorem Agrees.below (content content' : Content) (marker marker' : Option Nat)
    (h : Agrees nodes marks 0 parsed trees mark definition) (i : Nat) :
    Agrees nodes marks i [.node content marker parsed] [.node content' marker' trees]
      (mark.1, i :: mark.2) definition := by
  obtain ⟨j, path, inner, held, hmark, hinner, hheld, hagree⟩ := h
  refine ⟨0, j :: path, inner, held, ?_, hinner, hheld, hagree⟩
  rw [hmark, Nat.zero_add]
  rfl

/-- Every mark in compiled trees has its definition, in the same order. -/
theorem CompileTo.agrees (h : CompileTo nodes marks k parsed trees definitions) (i : Nat) :
    List.Forall₂ (Agrees nodes marks i parsed trees) (marksFrom i trees) definitions := by
  induction h generalizing i with
  | nil => exact .nil
  | @cons k tree made rest others firsts more _ _ ihfirst ihrest =>
      have hfirst := ihfirst i
      rw [marksFrom, marksFrom, List.append_nil] at hfirst
      rw [marksFrom]
      exact List.rel_append (hfirst.imp fun _ _ h => h.head) ((ihrest (i + 1)).imp fun _ _ h => h.tail)
  | comment => exact .nil
  | text _ => exact .nil
  | span hspan hnodes hvalue => exact .cons (.root rfl rfl (.text hspan hnodes hvalue)) .nil
  | @element k tag attributes below trees own definitions hnone howns _ ih =>
      have hbelow := (List.forall₂_map_left_iff (f := fun mark => (mark.1, i :: mark.2))).mpr
        ((ih 0).imp fun _ _ h => h.below (.element tag attributes)
          (.element tag (untaken marks attributes)) none (own.map (·.index)) i)
      rw [marksFrom, marksFrom, List.append_nil, Tree.marks, List.map_append]
      refine List.rel_append ?_ hbelow
      cases own with
      | none => exact .nil
      | some definition => exact .cons (.root rfl rfl (.element hnone howns)) .nil
  | conditional hfirst hnodes hguard hvalid htree hnested =>
      exact .cons (.root rfl rfl (.conditional hfirst hnodes hguard ⟨hvalid, _, htree, hnested⟩)) .nil

/-- Definitions are numbered in document order. -/
theorem CompileTo.index_eq (h : CompileTo nodes marks k parsed trees definitions) :
    definitions.map (·.index) = List.range' k definitions.length := by
  induction h with
  | nil => rfl
  | cons _ _ ihfirst ihrest =>
      rw [List.map_append, ihfirst, ihrest, List.length_append, List.range'_append_1]
  | comment => rfl
  | text _ => rfl
  | span _ _ _ => rfl
  | @element k tag attributes below trees own definitions _ howns _ ih =>
      rw [List.map_append, ih, List.length_append, ← List.range'_append_1]
      cases own with
      | none => rfl
      | some definition => exact congrArg (fun index => [index] ++ _) howns.1
  | conditional _ _ _ _ _ _ => rfl

/-- The marks in compiled trees are the numbers of their definitions. -/
theorem CompileTo.fst_marksFrom (h : CompileTo nodes marks k parsed trees definitions) (i : Nat) :
    (marksFrom i trees).map (·.1) = List.range' k definitions.length := by
  rw [← h.index_eq]
  refine List.forall₂_eq_eq_eq ▸ List.forall₂_map_left_iff.mpr
    (List.forall₂_map_right_iff.mpr ((h.agrees i).imp ?_))
  rintro mark definition ⟨_, _, _, _, rfl, _⟩
  rfl

/-- What a claimed directive holds was compiled by itself. -/
theorem Claimed.compiled {source : Tree} {content : Content} {directive : Directive Blueprint}
    (h : Tree.Claimed nodes marks source definition content)
    (hdirective : definition.directive = some directive) :
    ∃ parsed, directive.blueprint.Compiled nodes marks parsed := by
  cases h with
  | text _ _ _ => cases hdirective
  | element _ howns =>
      rw [howns.2.1.directive] at hdirective
      cases hdirective
  | conditional _ _ _ hnested =>
      cases hdirective
      exact ⟨_, hnested⟩

end Tree

namespace Blueprint

variable {parsed : List Tree} {blueprint : Blueprint} {target : Dom} {k : Nat} {n : NodeId}

/-- What a new node of a copy has to do with definition `k`. -/
structure Represents (nodes marks : List Feature) (parsed : List Tree) (blueprint : Blueprint)
    (target made : Dom) (root : NodeId) (k : Nat) (n : NodeId) : Prop where
  fresh : made.Live n ∧ ¬ target.Live n
  /-- The node is the copy of the one with the marker in the template, which stands where the node
  did that the definition was made for. -/
  copy : ∃ definition path source m, blueprint.definitions[k]? = some definition ∧
    (Tree.node .fragment none parsed).follow? path = some source ∧
      blueprint.dom.follow? path blueprint.root = some m ∧ made.follow? path root = some n ∧
        blueprint.dom.marker m = some k ∧
          Tree.Claimed nodes marks source definition (blueprint.dom.content m) ∧
            made.tree n = blueprint.dom.tree m
  only : ∀ x, made.Live x → ¬ target.Live x → made.marker x = some k → x = n

/-- Definitions are numbered in order, and a copy in any store lists one new node for each. -/
structure Faithful (nodes marks : List Feature) (parsed : List Tree) (blueprint : Blueprint) :
    Prop where
  index : blueprint.definitions.map (·.index) = List.range blueprint.definitions.length
  listed : ∀ target : Dom, target.Valid →
    (blueprint.instantiate target).2.marked.map (·.1) = List.range blueprint.definitions.length
  distinct : ∀ target : Dom, target.Valid →
    ((blueprint.instantiate target).2.marked.map (·.2)).Nodup
  represents : ∀ target : Dom, target.Valid → ∀ k n, (k, n) ∈ (blueprint.instantiate target).2.marked →
    blueprint.Represents nodes marks parsed target (blueprint.instantiate target).1
      (blueprint.instantiate target).2.root k n

namespace Compiled

/-- The marks in a template agree with its definitions. -/
theorem agrees (h : blueprint.Compiled nodes marks parsed) : ∃ trees,
    blueprint.dom.tree blueprint.root = .node .fragment none trees ∧
      List.Forall₂ (Tree.Agrees nodes marks 0 parsed trees)
        (blueprint.dom.tree blueprint.root).marks blueprint.definitions := by
  obtain ⟨trees, htree, hcompiled⟩ := h.trees
  refine ⟨trees, htree, ?_⟩
  rw [htree]
  exact hcompiled.agrees 0

theorem index_eq (h : blueprint.Compiled nodes marks parsed) :
    blueprint.definitions.map (·.index) = List.range blueprint.definitions.length := by
  obtain ⟨trees, _, hcompiled⟩ := h.trees
  rw [hcompiled.index_eq, List.range_eq_range']

theorem fst_marks (h : blueprint.Compiled nodes marks parsed) :
    (blueprint.dom.tree blueprint.root).marks.map (·.1) =
      List.range blueprint.definitions.length := by
  obtain ⟨trees, htree, hcompiled⟩ := h.trees
  rw [htree, Tree.marks, List.range_eq_range']
  exact hcompiled.fst_marksFrom 0

theorem listed (h : blueprint.Compiled nodes marks parsed) (target : Dom) :
    (blueprint.instantiate target).2.marked.map (·.1) =
      List.range blueprint.definitions.length := by
  rw [← h.fst_marks]
  exact Dom.fst_marked_graft target _

/-- Where definition `k` belongs in a template. -/
theorem place (h : blueprint.Compiled nodes marks parsed) (hk : k < blueprint.definitions.length) :
    ∃ definition path source m, blueprint.definitions[k]? = some definition ∧
      (Tree.node .fragment none parsed).follow? path = some source ∧
        blueprint.dom.follow? path blueprint.root = some m ∧
          blueprint.dom.marker m = some k ∧
            Tree.Claimed nodes marks source definition (blueprint.dom.content m) := by
  obtain ⟨trees, htree, hagrees⟩ := h.agrees
  have hlength := hagrees.length_eq
  obtain ⟨j, path, source, made, hmark, hsource, hmade, hmarker, hclaimed⟩ :=
    hagrees.get (hlength ▸ hk) hk
  have hindex : blueprint.definitions[k].index = k := by
    have hget := congrArg (·[k]?) h.index_eq
    simpa [hk] using hget
  rw [List.get_eq_getElem, hindex] at hmarker
  have hfollow : (blueprint.dom.tree blueprint.root).follow? (j :: path) = some made := by
    rw [htree]
    exact hmade
  rw [Dom.follow?_tree h.valid] at hfollow
  obtain ⟨m, hm, rfl⟩ := Option.map_eq_some_iff.mp hfollow
  rw [Dom.marker_of_tree h.valid] at hmarker
  rw [Dom.content_of_tree h.valid] at hclaimed
  exact ⟨blueprint.definitions[k], j :: path, source, m, List.getElem?_eq_getElem hk, hsource, hm,
    hmarker, hclaimed⟩

theorem represents (h : blueprint.Compiled nodes marks parsed) (htarget : target.Valid)
    (hmem : (k, n) ∈ (blueprint.instantiate target).2.marked) :
    blueprint.Represents nodes marks parsed target (blueprint.instantiate target).1
      (blueprint.instantiate target).2.root k n := by
  have hgrafted := Dom.graft_grafted (blueprint.dom.tree blueprint.root) htarget
  have hlisted := h.listed target
  change (k, n) ∈ (target.graft _).2.marked at hmem
  change (target.graft _).2.marked.map (·.1) = _ at hlisted
  change Represents nodes marks parsed blueprint target (target.graft _).1 (target.graft _).2.root k n
  generalize target.graft (blueprint.dom.tree blueprint.root) = made at *
  obtain ⟨d, copy⟩ := made
  dsimp only at *
  have hnodup : (copy.marked.map (·.1)).Nodup := hlisted ▸ List.nodup_range
  have heq : ∀ x, (k, x) ∈ copy.marked → x = n := fun x hx =>
    congrArg Prod.snd (List.inj_on_of_nodup_map hnodup hx hmem rfl)
  have hk : k < blueprint.definitions.length := by
    rw [← List.mem_range, ← hlisted]
    exact List.mem_map_of_mem hmem
  obtain ⟨definition, path, source, m, hget, hsource, hm, hmarker, hclaimed⟩ := h.place hk
  -- The same way leads to a node with the same marker in the copy, and there is one such node.
  have hfollow := Dom.follow?_tree hgrafted.valid path copy.root
  rw [hgrafted.tree, Dom.follow?_tree h.valid, hm, Option.map_some] at hfollow
  obtain ⟨x, hx, htree⟩ := Option.map_eq_some_iff.mp hfollow.symm
  have hnew := (hgrafted.new_iff x).mpr
    ⟨copy.root, List.mem_singleton_self _, Dom.below_follow? hgrafted.valid hx⟩
  have hmarked : d.marker x = some k := by
    rw [← Dom.marker_of_tree hgrafted.valid, htree, Dom.marker_of_tree h.valid, hmarker]
  obtain rfl := heq x ((hgrafted.marked_iff k x).mpr ⟨hnew, hmarked⟩)
  exact ⟨hnew, ⟨definition, path, source, m, hget, hsource, hm, hx, hmarker, hclaimed, htree⟩,
    fun y hlive hfresh hy => heq y ((hgrafted.marked_iff k y).mpr ⟨⟨hlive, hfresh⟩, hy⟩)⟩

theorem faithful (h : blueprint.Compiled nodes marks parsed) :
    blueprint.Faithful nodes marks parsed where
  index := h.index_eq
  listed target _ := h.listed target
  distinct _ htarget := (Dom.graft_grafted _ htarget).marked_nodup
  represents _ htarget _ _ hmem := h.represents htarget hmem

/-- What a template nests was compiled by itself. -/
theorem nests (h : blueprint.Compiled nodes marks parsed) {inner : Blueprint}
    (hnests : blueprint.Nests inner) : ∃ parsed, inner.Compiled nodes marks parsed := by
  obtain ⟨definition, hmem, directive, hdirective, rfl⟩ := hnests
  obtain ⟨k, hk, rfl⟩ := List.mem_iff_getElem.mp hmem
  obtain ⟨_, _, source, m, hget, _, _, _, hclaimed⟩ := h.place hk
  rw [List.getElem?_eq_getElem hk, Option.some.injEq] at hget
  exact (hget ▸ hclaimed).compiled hdirective

theorem nests_deep (h : blueprint.Compiled nodes marks parsed) {inner : Blueprint}
    (hnests : Relation.TransGen Nests blueprint inner) :
    ∃ parsed, inner.Compiled nodes marks parsed := by
  induction hnests with
  | single hnests => exact h.nests hnests
  | tail _ hnests ih =>
      obtain ⟨_, hcompiled⟩ := ih
      exact hcompiled.nests hnests

end Compiled

end Blueprint

namespace Registry

variable {r : Registry} {markup : String}

/-- Whichever of the features a registry offers and whatever it has compiled, its templates and the
ones nested in them are copied faithfully. -/
theorem compile_faithful (hnodes : ∀ feature ∈ nodes, feature ∈ Feature.builtin)
    (hmarks : ∀ feature ∈ marks, feature ∈ Feature.builtin) (hsince : Since (ofFeatures nodes marks) r)
    {made : Shared Blueprint} (hmade : (r.compile markup).1 = .ok made) :
    (∃ parsed, Markup.ReadsAs markup parsed ∧ made.value.Faithful nodes marks parsed) ∧
      ∀ inner, Relation.TransGen Blueprint.Nests made.value inner →
        ∃ parsed, inner.Faithful nodes marks parsed := by
  obtain ⟨parsed, hreads, hcompiled⟩ :=
    compile_compiled (hsince.honest (ofFeatures_honest hnodes hmarks)) hmade
  refine ⟨⟨parsed, hreads, hcompiled.faithful⟩, fun inner hnests => ?_⟩
  obtain ⟨parsed', hinner⟩ := hcompiled.nests_deep hnests
  exact ⟨parsed', hinner.faithful⟩

/-- An empty store whose only slot was used before. -/
def reusable : Dom :=
  (Dom.empty.create .fragment).1.remove (Dom.empty.create .fragment).2

theorem reusable_valid : reusable.Valid :=
  have hmade := Dom.create_made Dom.empty_valid .fragment
  (Dom.remove_removed hmade.valid hmade.live).valid

theorem faithful_in_reusable : reusable.free ≠ [] ∧ ∃ made,
    ((ofFeatures [.conditional, .text] [.binding, .reference]).compile everything).1 = .ok made ∧
      (made.value.instantiate reusable).2.marked.map (·.1) = [0, 1, 2] ∧
        ∃ inner, made.value.Nests inner ∧
          (inner.instantiate reusable).2.marked.map (·.1) = [0, 1] := by
  refine ⟨by decide +kernel, ?_⟩
  have hlengths : (((ofFeatures [.conditional, .text] [.binding, .reference]).compile
      everything).1.toOption.map fun made => (made.value.definitions.length,
        (made.value.definitions[2]?.bind (·.directive)).map (·.blueprint.definitions.length))) =
          some (3, some 2) := by
    decide +kernel
  cases hmade : ((ofFeatures [.conditional, .text] [.binding, .reference]).compile everything).1 with
  | error e =>
      rw [hmade] at hlengths
      cases hlengths
  | ok made =>
      rw [hmade] at hlengths
      obtain ⟨houter, hinner⟩ := Prod.mk.inj (Option.some.inj hlengths)
      obtain ⟨directive, hdirective, hinner⟩ := Option.map_eq_some_iff.mp hinner
      obtain ⟨definition, hget, hdirective⟩ := Option.bind_eq_some_iff.mp hdirective
      have hnests : made.value.Nests directive.blueprint :=
        ⟨definition, List.mem_of_getElem? hget, directive, hdirective, rfl⟩
      obtain ⟨⟨_, _, hfaithful⟩, hdeep⟩ := compile_faithful (by decide) (by decide) .first hmade
      obtain ⟨_, hnested⟩ := hdeep _ (.single hnests)
      have hlisted := hfaithful.listed reusable reusable_valid
      have hlisted' := hnested.listed reusable reusable_valid
      rw [houter] at hlisted
      rw [hinner] at hlisted'
      exact ⟨made, rfl, hlisted, _, hnests, hlisted'⟩

end Registry

end LiveMarkup
