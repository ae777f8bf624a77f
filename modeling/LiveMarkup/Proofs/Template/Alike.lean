import LiveMarkup.Proofs.Dom.Link
import LiveMarkup.Proofs.Template.CompileTo

/-!
Templates that are alike up to the words that were generated for them. The stores differ only in the
ids of the elements that stand for conditional ones, so every change of trees that compilation makes
carries the one store over to the other.
-/

namespace LiveMarkup

/-- The words that two compilations generated at the same steps, the latest first. -/
abbrev Words := List (String × String)

/-- No word stands for two others. -/
structure Words.OneToOne (words : Words) : Prop where
  first : (words.map Prod.fst).Nodup
  second : (words.map Prod.snd).Nodup

theorem Words.OneToOne.nil : Words.OneToOne [] :=
  ⟨List.nodup_nil, List.nodup_nil⟩

variable {words more : Words}

/-! ### Stores -/

/-- The same, but for the id of an element that stands for a conditional one. -/
inductive Content.Alike (words : Words) : Content → Content → Prop
  | same (content : Content) : Alike words content content
  | placeholder (k : Nat) {word word' : String} (h : (word, word') ∈ words) :
      Alike words (.element Compile.placeholderTag [⟨"id", placeholderId k word⟩])
        (.element Compile.placeholderTag [⟨"id", placeholderId k word'⟩])

structure Node.Alike (words : Words) (n n' : Node) : Prop where
  content : n.content.Alike words n'.content
  parent : n'.parent = n.parent
  children : n'.children = n.children
  marker : n'.marker = n.marker
  freed : n'.freed = n.freed

structure Dom.Alike (words : Words) (d d' : Dom) : Prop where
  size : d'.nodes.size = d.nodes.size
  free : d'.free = d.free
  node : ∀ n, (d.node n).Alike words (d'.node n)

/-- Trees that differ in nothing but such ids. -/
inductive Tree.Alike (words : Words) : Tree → Tree → Prop
  | node {content content' : Content} {marker : Option Nat} {below below' : List Tree}
      (hcontent : content.Alike words content') (hbelow : List.Forall₂ (Alike words) below below') :
      Alike words (.node content marker below) (.node content' marker below')

namespace Content

variable {content content' : Content}

theorem Alike.mono (h : content.Alike words content') (hmore : words ⊆ more) :
    content.Alike more content' := by
  cases h with
  | same => exact .same _
  | placeholder k h => exact .placeholder k (hmore h)

theorem Alike.isElement (h : content.Alike words content') :
    content'.isElement = content.isElement := by
  cases h <;> rfl

theorem Alike.eraseAttribute (h : content.Alike words content') (name : String) :
    (content.eraseAttribute name).Alike words (content'.eraseAttribute name) := by
  cases h with
  | same => exact .same _
  | placeholder k h =>
      by_cases hid : "id" = name
      · simp only [Content.eraseAttribute, List.eraseP_cons, hid, decide_true, cond_true]
        exact .same _
      · simp only [Content.eraseAttribute, List.eraseP_cons, hid, decide_false, cond_false,
          List.eraseP_nil]
        exact .placeholder k h

end Content

theorem Node.Alike.refl (n : Node) : n.Alike words n :=
  ⟨.same _, rfl, rfl, rfl, rfl⟩

namespace Dom

variable {d d' : Dom} {n : NodeId}

theorem update_of_size_le (h : d.nodes.size ≤ n.slot) (f : Node → Node) : d.update n f = d := by
  have hnodes : d.nodes.modify n.slot f = d.nodes := by
    apply Array.ext_getElem?
    intro i
    rw [Array.getElem?_modify]
    split
    · subst i
      rw [Array.getElem?_eq_none h]
      rfl
    · rfl
  rw [update, hnodes]

theorem node_update_of_lt (h : n.slot < d.nodes.size) (f : Node → Node) (x : NodeId) :
    (d.update n f).node x = if x = n then f (d.node n) else d.node x := by
  by_cases heq : x = n
  · subst heq
    rw [if_pos rfl]
    simp [node, update, Array.getElem?_modify, Array.getElem?_eq_getElem h]
  · rw [if_neg heq, node_update_of_ne heq]

namespace Alike

theorem refl (d : Dom) : d.Alike words d :=
  ⟨rfl, rfl, fun _ => .refl _⟩

theorem mono (h : d.Alike words d') (hmore : words ⊆ more) : d.Alike more d' :=
  ⟨h.size, h.free, fun n => ⟨(h.node n).content.mono hmore, (h.node n).parent, (h.node n).children,
    (h.node n).marker, (h.node n).freed⟩⟩

theorem content (h : d.Alike words d') (n : NodeId) : (d.content n).Alike words (d'.content n) :=
  (h.node n).content

theorem parent (h : d.Alike words d') (n : NodeId) : d'.parent n = d.parent n :=
  (h.node n).parent

theorem children (h : d.Alike words d') (n : NodeId) : d'.children n = d.children n :=
  (h.node n).children

theorem contains (h : d.Alike words d') (a n : NodeId) : d'.contains a n = d.contains a n :=
  contains_congr h.size h.parent a n

/-- One write to both stores. -/
theorem update (h : d.Alike words d') (n : NodeId) {f f' : Node → Node}
    (hf : ∀ m m' : Node, m.Alike words m' → (f m).Alike words (f' m')) :
    (d.update n f).Alike words (d'.update n f') := by
  refine ⟨?_, h.free, fun x => ?_⟩
  · rw [size_update, size_update, h.size]
  · by_cases hlt : n.slot < d.nodes.size
    · rw [node_update_of_lt hlt, node_update_of_lt (h.size.symm ▸ hlt)]
      split
      · exact hf _ _ (h.node n)
      · exact h.node x
    · have hle := Nat.le_of_not_lt hlt
      rw [update_of_size_le hle, update_of_size_le (h.size.symm ▸ hle)]
      exact h.node x

theorem setMarker (h : d.Alike words d') (n : NodeId) (marker : Option Nat) :
    (d.setMarker n marker).Alike words (d'.setMarker n marker) :=
  h.update n fun _ _ hm => ⟨hm.content, hm.parent, hm.children, rfl, hm.freed⟩

theorem eraseAttribute (h : d.Alike words d') (n : NodeId) (name : String) :
    (d.eraseAttribute n name).Alike words (d'.eraseAttribute n name) :=
  h.update n fun _ _ hm =>
    ⟨hm.content.eraseAttribute name, hm.parent, hm.children, hm.marker, hm.freed⟩

theorem setParent (h : d.Alike words d') (n : NodeId) (parent : Option NodeId) :
    (d.update n ({ · with parent })).Alike words (d'.update n ({ · with parent })) :=
  h.update n fun _ _ hm => ⟨hm.content, rfl, hm.children, hm.marker, hm.freed⟩

theorem setChildren (h : d.Alike words d') (n : NodeId) (change : List NodeId → List NodeId) :
    (d.update n fun m => { m with children := change m.children }).Alike words
      (d'.update n fun m => { m with children := change m.children }) :=
  h.update n fun _ _ hm =>
    ⟨hm.content, hm.parent, congrArg change hm.children, hm.marker, hm.freed⟩

/-- A text is written over the same way in both stores. -/
theorem setTextContent (h : d.Alike words d') {s : String} (hs : d.content n = .text s)
    (text : String) : (d.setTextContent n text).Alike words (d'.setTextContent n text) := by
  have hs' : d'.content n = .text s := by
    have hcontent := h.content n
    rw [hs] at hcontent
    generalize d'.content n = content' at hcontent
    cases hcontent
    rfl
  simp only [Dom.setTextContent, hs, hs']
  exact h.update n fun _ _ hm => ⟨.same _, hm.parent, hm.children, hm.marker, hm.freed⟩

theorem detach (h : d.Alike words d') (n : NodeId) :
    (d.detach n).1.Alike words (d'.detach n).1 ∧ (d'.detach n).2 = (d.detach n).2 := by
  unfold Dom.detach
  rw [h.parent]
  split
  · exact ⟨(h.setParent n none).setChildren _ _, rfl⟩
  · exact ⟨h, rfl⟩

theorem link (h : d.Alike words d') (parent child : NodeId) :
    (d.link parent child).Alike words (d'.link parent child) :=
  (h.setParent child (some parent)).setChildren parent (· ++ [child])

theorem appendChild (h : d.Alike words d') (parent child : NodeId) :
    (d.appendChild parent child).Alike words (d'.appendChild parent child) := by
  unfold Dom.appendChild
  rw [h.contains]
  split
  · exact h
  · exact (h.detach child).1.link parent child

theorem insertBeside (h : d.Alike words d') (offset : Nat) (reference n : NodeId) :
    (d.insertBeside offset reference n).1.Alike words (d'.insertBeside offset reference n).1 ∧
      (d'.insertBeside offset reference n).2 = (d.insertBeside offset reference n).2 := by
  unfold Dom.insertBeside
  rw [h.parent]
  cases d.parent reference with
  | none => exact ⟨h, rfl⟩
  | some parent =>
      dsimp only
      rw [h.contains]
      split
      · exact ⟨h, rfl⟩
      · exact ⟨((h.detach n).1.setChildren parent (placeAt · reference n offset)).setParent n _, rfl⟩

theorem replaceWith (h : d.Alike words d') (old new : NodeId) :
    (d.replaceWith old new).1.Alike words (d'.replaceWith old new).1 ∧
      (d'.replaceWith old new).2 = (d.replaceWith old new).2 := by
  obtain ⟨hplaced, hanswer⟩ := h.insertBeside 0 old new
  unfold Dom.replaceWith Dom.insertBefore
  generalize d.insertBeside 0 old new = made at hplaced hanswer
  generalize d'.insertBeside 0 old new = made' at hplaced hanswer
  obtain ⟨d, placed⟩ := made
  obtain ⟨d', placed'⟩ := made'
  obtain rfl : placed' = placed := hanswer
  cases placed' with
  | true => exact hplaced.detach old
  | false => exact ⟨hplaced, rfl⟩

/-- One change after the other. -/
theorem foldl {α : Type} {change : Dom → α → Dom}
    (hchange : ∀ {d d' : Dom} (a : α), d.Alike words d' → (change d a).Alike words (change d' a))
    (l : List α) (h : d.Alike words d') : (l.foldl change d).Alike words (l.foldl change d') := by
  induction l generalizing d d' with
  | nil => exact h
  | cons a rest ih => exact ih (hchange a h)

theorem moveChildren (h : d.Alike words d') (source target : NodeId) :
    (d.moveChildren source target).Alike words (d'.moveChildren source target) := by
  unfold Dom.moveChildren
  rw [h.children]
  exact foldl (fun child h => (h.setParent child none).appendChild target child) _
    (h.setChildren source fun _ => [])

theorem create (h : d.Alike words d') {content content' : Content}
    (hcontent : content.Alike words content') :
    (d.create content).1.Alike words (d'.create content').1 ∧
      (d'.create content').2 = (d.create content).2 := by
  have halone : (Node.alone content).Alike words (Node.alone content') :=
    ⟨hcontent, rfl, rfl, rfl, rfl⟩
  unfold Dom.create
  rw [h.free]
  cases d.free with
  | nil =>
      refine ⟨⟨by simp [h.size], rfl, fun n => ?_⟩, by rw [h.size]⟩
      have hnode := h.node n
      simp only [Dom.node, Array.getElem?_push, h.size] at hnode ⊢
      split
      · exact halone
      · exact hnode
  | cons id rest =>
      refine ⟨⟨by simp [h.size], rfl, fun n => ?_⟩, rfl⟩
      have hnode := h.node n
      simp only [Dom.node, Array.getElem?_setIfInBounds, h.size] at hnode ⊢
      split
      · split
        · exact halone
        · exact .refl _
      · exact hnode

theorem treeTo (h : d.Alike words d') (depth : Nat) (n : NodeId) :
    (d.treeTo depth n).Alike words (d'.treeTo depth n) := by
  induction depth generalizing n with
  | zero =>
      rw [Dom.treeTo, Dom.treeTo, marker, marker, (h.node n).marker]
      exact .node (h.content n) .nil
  | succ depth ih =>
      rw [Dom.treeTo, Dom.treeTo, marker, marker, (h.node n).marker, h.children]
      refine .node (h.content n) ?_
      rw [List.forall₂_map_left_iff, List.forall₂_map_right_iff, List.forall₂_same]
      exact fun child _ => ih child

theorem tree (h : d.Alike words d') (n : NodeId) : (d.tree n).Alike words (d'.tree n) := by
  rw [Dom.tree, Dom.tree, h.size]
  exact h.treeTo _ n

mutual

theorem graft : ∀ {tree tree' : Tree} {d d' : Dom}, d.Alike words d' → tree.Alike words tree' →
    (d.graft tree).1.Alike words (d'.graft tree').1 ∧ (d'.graft tree').2 = (d.graft tree).2
  | .node content marker below, .node content' _ below', d, d', h, .node hcontent hbelow => by
      obtain ⟨hcreate, hroot⟩ := h.create hcontent
      rw [Dom.graft, Dom.graft]
      generalize d.create content = made at hcreate hroot
      generalize d'.create content' = made' at hcreate hroot
      obtain ⟨d, root⟩ := made
      obtain ⟨d', root'⟩ := made'
      obtain rfl : root' = root := hroot
      obtain ⟨hgraft, hmarked⟩ := graftChildren root' (hcreate.setMarker root' marker) hbelow
      dsimp only
      rw [hmarked]
      exact ⟨hgraft, rfl⟩

theorem graftChildren (parent : NodeId) : ∀ {trees trees' : List Tree} {d d' : Dom},
    d.Alike words d' → List.Forall₂ (Tree.Alike words) trees trees' →
    (d.graftChildren parent trees).1.Alike words (d'.graftChildren parent trees').1 ∧
      (d'.graftChildren parent trees').2 = (d.graftChildren parent trees).2
  | [], _, _, _, h, .nil => ⟨h, rfl⟩
  | tree :: rest, _, d, d', h, .cons (b := tree') htree hrest => by
      obtain ⟨hgraft, hcopy⟩ := graft h htree
      rw [Dom.graftChildren, Dom.graftChildren]
      generalize d.graft tree = made at hgraft hcopy
      generalize d'.graft tree' = made' at hgraft hcopy
      obtain ⟨d, copy⟩ := made
      obtain ⟨d', copy'⟩ := made'
      obtain rfl : copy' = copy := hcopy
      obtain ⟨hall, hmarked⟩ := graftChildren parent (hgraft.link parent copy'.root) hrest
      dsimp only
      rw [hmarked]
      exact ⟨hall, rfl⟩

end

theorem importFrom (h : d.Alike words d') {source source' : Dom} (hsource : source.Alike words source')
    (n : NodeId) : (d.importFrom source n).1.Alike words (d'.importFrom source' n).1 ∧
      (d'.importFrom source' n).2 = (d.importFrom source n).2 :=
  h.graft (hsource.tree n)

end Alike

end Dom

/-! ### Templates -/

/-- What a directive is known by: the id that was generated for its element, or the word it binds. -/
inductive Directive.Named (words : Words) (k : Nat) : String → String → String → Prop
  | generated {word word' : String} (h : (word, word') ∈ words) :
      Named words k "if" (placeholderId k word) (placeholderId k word')
  | bound (kind word : String) : Named words k kind word word

/-- Definitions that say the same, one by one, but for the ids. -/
inductive NodeDefinition.AllAlike (words : Words) :
    List (NodeDefinition Blueprint) → List (NodeDefinition Blueprint) → Prop
  | nil : AllAlike words [] []
  | plain {definition : NodeDefinition Blueprint} {rest rest' : List (NodeDefinition Blueprint)}
      (h : definition.directive = none) (hrest : AllAlike words rest rest') :
      AllAlike words (definition :: rest) (definition :: rest')
  | directive {definition : NodeDefinition Blueprint} {kind name name' : String}
      {blueprint blueprint' : Blueprint} {guard : Interpolation}
      {rest rest' : List (NodeDefinition Blueprint)}
      (hname : Directive.Named words definition.index kind name name')
      (hdom : blueprint.dom.Alike words blueprint'.dom) (hroot : blueprint'.root = blueprint.root)
      (hnested : AllAlike words blueprint.definitions blueprint'.definitions)
      (hrest : AllAlike words rest rest') :
      AllAlike words ({ definition with directive := some ⟨kind, name, blueprint, guard⟩ } :: rest)
        ({ definition with directive := some ⟨kind, name', blueprint', guard⟩ } :: rest')

/-- The same template, but for the ids of the elements that stand for conditional ones. -/
structure Blueprint.Alike (words : Words) (blueprint blueprint' : Blueprint) : Prop where
  dom : blueprint.dom.Alike words blueprint'.dom
  root : blueprint'.root = blueprint.root
  definitions : NodeDefinition.AllAlike words blueprint.definitions blueprint'.definitions

namespace NodeDefinition

variable {definitions definitions' : List (NodeDefinition Blueprint)}
  {definition definition' : NodeDefinition Blueprint}

theorem AllAlike.mono (h : AllAlike words definitions definitions') (hmore : words ⊆ more) :
    AllAlike more definitions definitions' := by
  induction h with
  | nil => exact .nil
  | plain h _ ih => exact .plain h ih
  | directive hname hdom hroot _ _ ihnested ih =>
      refine .directive ?_ (hdom.mono hmore) hroot ihnested ih
      cases hname with
      | generated h => exact .generated (hmore h)
      | bound => exact .bound _ _

theorem AllAlike.length (h : AllAlike words definitions definitions') :
    definitions'.length = definitions.length := by
  induction h with
  | nil => rfl
  | plain _ _ ih | directive _ _ _ _ _ _ ih => rw [List.length_cons, List.length_cons, ih]

theorem AllAlike.append (h : AllAlike words definitions definitions')
    {more more' : List (NodeDefinition Blueprint)} (hmore : AllAlike words more more') :
    AllAlike words (definitions ++ more) (definitions' ++ more') := by
  induction h with
  | nil => exact hmore
  | plain h _ ih => exact .plain h ih
  | directive hname hdom hroot hnested _ _ ih => exact .directive hname hdom hroot hnested ih

theorem AllAlike.index (h : AllAlike words [definition] [definition']) :
    definition'.index = definition.index := by
  cases h <;> rfl

end NodeDefinition

theorem Blueprint.Alike.mono {blueprint blueprint' : Blueprint}
    (h : blueprint.Alike words blueprint') (hmore : words ⊆ more) :
    blueprint.Alike more blueprint' :=
  ⟨h.dom.mono hmore, h.root, h.definitions.mono hmore⟩

end LiveMarkup
