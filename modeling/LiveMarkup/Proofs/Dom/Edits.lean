import LiveMarkup.Proofs.Dom.Clearing
import LiveMarkup.Proofs.Dom.Contents
import LiveMarkup.Proofs.Dom.Moves

/-!
Whatever is done to a store through nodes that are there, its links agree, its trees are trees and its
free slots are the empty ones.
-/

namespace LiveMarkup.Dom

variable {d d' : Dom} {n x p root : NodeId}

/-- Links agree, and no attribute stands on an element twice. -/
structure WellFormed (d : Dom) : Prop extends Valid d where
  distinct : ∀ n, (d.content n).Distinct

/-! ### Edits -/

inductive Edit where
  | createFragment
  | createElement (tag : String)
  | createText (s : String)
  | createComment (s : String)
  | appendChild (parent child : NodeId)
  | insertBefore (reference node : NodeId)
  | insertAfter (reference node : NodeId)
  | replaceWith (old new : NodeId)
  | moveChildren (source target : NodeId)
  | detach (node : NodeId)
  | remove (node : NodeId)
  | setAttribute (node : NodeId) (name value : String)
  | eraseAttribute (node : NodeId) (name : String)
  | setTextContent (node : NodeId) (s : String)
  | setMarker (node : NodeId) (marker : Option Nat)
  | importFrom (source : Dom) (node : NodeId)
  | parse (markup : String)

namespace Edit

def apply (d : Dom) : Edit → Dom
  | createFragment => (d.create .fragment).1
  | createElement tag => (d.createElement tag).1
  | createText s => (d.create (.text s)).1
  | createComment s => (d.create (.comment s)).1
  | appendChild parent child => d.appendChild parent child
  | insertBefore reference node => (d.insertBefore reference node).1
  | insertAfter reference node => (d.insertAfter reference node).1
  | replaceWith old new => (d.replaceWith old new).1
  | moveChildren source target => d.moveChildren source target
  | detach node => (d.detach node).1
  | remove node => d.remove node
  | setAttribute node name value => d.setAttribute node name value
  | eraseAttribute node name => d.eraseAttribute node name
  | setTextContent node s => d.setTextContent node s
  | setMarker node marker => d.setMarker node marker
  | importFrom source node => (d.importFrom source node).1
  | parse markup => (d.parse markup).1

/-- The nodes that must be there. Removing a node that is not there does nothing. -/
def nodes : Edit → List NodeId
  | appendChild parent child => [parent, child]
  | insertBefore reference node => [reference, node]
  | insertAfter reference node => [reference, node]
  | replaceWith old new => [old, new]
  | moveChildren source target => [source, target]
  | detach node => [node]
  | setAttribute node _ _ => [node]
  | eraseAttribute node _ => [node]
  | setTextContent node _ => [node]
  | setMarker node _ => [node]
  | _ => []

/-- What is copied is there, in a well-formed store. -/
def Sourced : Edit → Prop
  | importFrom source node => source.WellFormed ∧ source.Live node
  | _ => True

def Possible (d : Dom) (e : Edit) : Prop :=
  (∀ n ∈ e.nodes, d.Live n) ∧ e.Sourced

/-- Edits that make nodes without a parent. -/
inductive Creates : Edit → Prop where
  | createFragment : Creates createFragment
  | createElement (tag : String) : Creates (createElement tag)
  | createText (s : String) : Creates (createText s)
  | createComment (s : String) : Creates (createComment s)
  | importFrom (source : Dom) (node : NodeId) : Creates (importFrom source node)
  | parse (markup : String) : Creates (parse markup)

end Edit

def edited (d : Dom) (edits : List Edit) : Dom :=
  edits.foldl Edit.apply d

/-- Each edit is possible when its turn comes. -/
def Follows (d : Dom) : List Edit → Prop
  | [] => True
  | e :: rest => e.Possible d ∧ (e.apply d).Follows rest

/-! ### What an edit keeps -/

theorem Valid.wellFormed (hvalid : d.Valid) (hcontent : ∀ x, d.Live x → (d.content x).Distinct) :
    d.WellFormed := by
  refine ⟨hvalid, fun n => ?_⟩
  by_cases hn : d.Live n
  · exact hcontent n hn
  · rw [content_of_not_live hvalid hn]
    exact List.nodup_nil

namespace WellFormed

variable (h : d.WellFormed)

include h

theorem relinked (hsame : Relinked d d') (hvalid : d'.Valid) : d'.WellFormed := by
  refine hvalid.wellFormed fun x _ => ?_
  rw [hsame.content]
  exact h.distinct x

theorem rewritten (hsame : Rewritten d d') (hnode : ∀ x, x ≠ n → d'.node x = d.node x)
    (hcontent : (d'.content n).Distinct) : d'.WellFormed := by
  refine (hsame.valid h.toValid).wellFormed fun x _ => ?_
  by_cases hx : x = n
  · exact hx ▸ hcontent
  · rw [content, hnode x hx]
    exact h.distinct x

theorem pruned {loose gone : NodeId → Prop} (hpruned : Pruned loose gone d d') : d'.WellFormed := by
  refine hpruned.valid.wellFormed fun x hx => ?_
  rw [hpruned.content x hx]
  exact h.distinct x

theorem create {made : Content} (hmade : made.Distinct) : (d.create made).1.WellFormed := by
  have hnew := create_made h.toValid made
  refine hnew.valid.wellFormed fun x _ => ?_
  rw [content, hnew.node]
  split
  · exact hmade
  · exact h.distinct x

theorem appendChild (hp : d.Live p) (hx : d.Live x) : (d.appendChild p x).WellFormed :=
  h.relinked (appendChild_relinked h.toValid p x) (appendChild_valid h.toValid hp hx)

theorem insertBeside (offset : Nat) (reference : NodeId) (hx : d.Live x) :
    (d.insertBeside offset reference x).1.WellFormed := by
  obtain hrefused | ⟨p, hparent, _, hxp, _, hplaced⟩ := insertBeside_cases h.toValid offset hx
  · rwa [hrefused]
  · have hp := (h.live_of_parent hparent).2
    exact h.relinked hplaced.toRelinked
      (hplaced.valid h.toValid hp hx hxp (placeAt_perm _ _ _ _))

theorem detach (n : NodeId) : (d.detach n).1.WellFormed :=
  h.relinked (detach_unlinked h.toValid n).toRelinked (detach_valid h.toValid n)

theorem replaceWith (old : NodeId) (hx : d.Live x) : (d.replaceWith old x).1.WellFormed := by
  have hplaced := h.insertBeside 0 old hx
  rw [Dom.replaceWith, insertBefore]
  generalize d.insertBeside 0 old x = result at hplaced
  obtain ⟨d', placed⟩ := result
  cases placed with
  | false => exact hplaced
  | true => exact hplaced.detach old

theorem remove (n : NodeId) : (d.remove n).WellFormed := by
  have hpruned : Pruned (fun _ => False) (fun _ => True) d (d.remove n) :=
    (Pruned.refl h.toValid).remove fun _ _ => trivial
  exact h.pruned hpruned

theorem setAttribute (n : NodeId) (name value : String) :
    (d.setAttribute n name value).WellFormed := by
  have hnode := node_setAttribute d n name value
  refine h.rewritten (setAttribute_rewritten h.toValid n name value)
    (fun x hx => by rw [hnode, if_neg hx]) ?_
  rw [content, hnode, if_pos rfl]
  exact (h.distinct n).setAttribute name value

theorem eraseAttribute (n : NodeId) (name : String) :
    (d.eraseAttribute n name).WellFormed := by
  have hnode := node_eraseAttribute d n name
  refine h.rewritten (eraseAttribute_rewritten h.toValid n name)
    (fun x hx => by rw [hnode, if_neg hx]) ?_
  rw [content, hnode, if_pos rfl]
  exact (h.distinct n).eraseAttribute name

theorem setMarker (hn : d.Live n) (marker : Option Nat) : (d.setMarker n marker).WellFormed := by
  have hnode := node_setMarker hn marker
  refine h.rewritten (setMarker_rewritten h.toValid hn marker)
    (fun x hx => by rw [hnode, if_neg hx]) ?_
  rw [content, hnode, if_pos rfl]
  exact h.distinct n

/-- Another text or comment in place of one. -/
theorem setContent (hn : d.Live n) {made : Content} (hmade : made.Distinct) :
    (d.update n ({ · with content := made })).WellFormed := by
  have hnode := node_update hn ({ · with content := made })
  have hsame := setContent_rewritten h.toValid hn made
  refine h.rewritten hsame (fun x hx => by rw [hnode, if_neg hx]) ?_
  rw [content, hnode, if_pos rfl]
  exact hmade

/-- The children of a node are freed, and a new text is its only child. -/
theorem fill (hn : d.Live n) (s : String) :
    (let d := (d.children n).foldl Dom.remove d
      if s.isEmpty then d
      else (d.create (.text s)).1.appendChild n (d.create (.text s)).2).WellFormed := by
  have hpruned : Pruned (fun _ => False) (fun _ => True) d ((d.children n).foldl Dom.remove d) :=
    (Pruned.refl h.toValid).removeAll fun _ _ _ _ => trivial
  have hstays := (foldl_remove_cleared h.toValid n).live_self h.toValid hn
  have hbare := h.pruned hpruned
  dsimp only
  split
  · exact hbare
  · have hmade := create_made hbare.toValid (.text s)
    have htext : (Content.text s).Distinct := List.nodup_nil
    exact (hbare.create htext).appendChild (hmade.live_iff.mpr (Or.inr hstays)) hmade.live

theorem setTextContent (hn : d.Live n) (s : String) : (d.setTextContent n s).WellFormed := by
  cases hcontent : d.content n with
  | text t | comment t =>
      rw [Dom.setTextContent, hcontent]
      exact h.setContent hn List.nodup_nil
  | fragment | element tag attributes =>
      rw [Dom.setTextContent, hcontent]
      exact h.fill hn s

theorem graft {t : Tree} (ht : t.Everywhere Content.Distinct) : (d.graft t).1.WellFormed := by
  have hgrafted := graft_grafted t h.toValid
  exact ⟨hgrafted.valid, hgrafted.everywhere h.toValid ht h.distinct⟩

theorem tree (hn : d.Live n) : (d.tree n).Everywhere Content.Distinct :=
  (everywhere_tree_of_live h.toValid hn).mpr fun x _ => h.distinct x

theorem parse (markup : String) : (d.parse markup).1.WellFormed := by
  obtain ⟨htree, hstray⟩ := Markup.read_distinct markup
  have hfirst := h.graft htree
  rw [Dom.parse]
  generalize (Markup.read markup) = reading at *
  cases hs : reading.stray with
  | none =>
      rw [hs] at hstray
      cases reading.error <;> exact hfirst
  | some stray =>
      have hboth := hfirst.graft (hstray stray hs)
      cases reading.error <;> exact hboth

/-- Every edit of nodes that are there keeps a store well-formed. -/
theorem apply {e : Edit} (he : e.Possible d) : (e.apply d).WellFormed := by
  obtain ⟨hlive, hsource⟩ := he
  cases e with
  | createFragment | createElement tag | createText s | createComment s =>
      exact h.create List.nodup_nil
  | appendChild parent child =>
      exact h.appendChild (hlive parent (by simp [Edit.nodes])) (hlive child (by simp [Edit.nodes]))
  | insertBefore reference node | insertAfter reference node =>
      exact h.insertBeside _ reference (hlive node (by simp [Edit.nodes]))
  | replaceWith old new => exact h.replaceWith old (hlive new (by simp [Edit.nodes]))
  | moveChildren source target =>
      obtain ⟨hmoved, hvalid⟩ := moveChildren_valid h.toValid
        (hlive source (by simp [Edit.nodes])) (hlive target (by simp [Edit.nodes]))
      exact h.relinked hmoved hvalid
  | detach node => exact h.detach node
  | remove node => exact h.remove node
  | setAttribute node name value => exact h.setAttribute node name value
  | eraseAttribute node name => exact h.eraseAttribute node name
  | setTextContent node s => exact h.setTextContent (hlive node (by simp [Edit.nodes])) s
  | setMarker node marker => exact h.setMarker (hlive node (by simp [Edit.nodes])) marker
  | importFrom source node =>
      obtain ⟨hwell, hnode⟩ := hsource
      exact h.graft (hwell.tree hnode)
  | parse markup => exact h.parse markup

/-- So does a run of them. -/
theorem edited {edits : List Edit} (hfollows : d.Follows edits) : (d.edited edits).WellFormed := by
  induction edits generalizing d with
  | nil => exact h
  | cons e rest ih => exact ih (h.apply hfollows.1) hfollows.2

end WellFormed

theorem empty_wellFormed : Dom.empty.WellFormed :=
  empty_valid.wellFormed fun _ hx => absurd hx.lt_size (Nat.not_lt_zero _)

/-! ### Stores that were edited -/

/-- What can be relied on in a store. -/
structure Consistent (d : Dom) : Prop where
  linked : ∀ p n, n ∈ d.children p ↔ d.parent n = some p
  children_nodup : ∀ p, (d.children p).Nodup
  /-- The way up from a node ends. -/
  rooted : ∀ n, ∃ root, d.Below root n ∧ d.parent root = none
  names_nodup : ∀ n, ((d.content n).attributes.map (·.name)).Nodup
  free_nodup : d.free.Nodup
  mem_free : ∀ n, n ∈ d.free ↔ n.slot < d.nodes.size ∧ (d.node n).freed = true
  freed : ∀ n, (d.node n).freed = true → d.parent n = none ∧ d.children n = [] ∧
    d.marker n = none ∧ ∀ p, n ∉ d.children p
  fresh : ∀ made, ¬ d.Live (d.create made).2
  /-- New nodes take no slot of a node that is there. -/
  aside : ∀ e : Edit, e.Creates → e.Possible d → ∀ n, d.Live n → (e.apply d).node n = d.node n

theorem not_live_iff : ¬ d.Live n ↔ (d.node n).freed = true := by
  simp [Live]

theorem Valid.rooted (h : d.Valid) (n : NodeId) : ∃ root, d.Below root n ∧ d.parent root = none := by
  by_cases hn : d.Live n
  · refine h.induction_up (P := fun n => ∃ root, d.Below root n ∧ d.parent root = none)
      (fun n _ ih => ?_) hn
    cases hparent : d.parent n with
    | none => exact ⟨n, .self, hparent⟩
    | some p =>
        obtain ⟨root, hbelow, hroot⟩ := ih p hparent
        exact ⟨root, .step hparent hbelow, hroot⟩
  · exact ⟨n, .self, parent_of_not_live h hn⟩

namespace Edit.Creates

variable {e : Edit}

theorem node_create (h : d.Valid) (made : Content) (hn : d.Live n) :
    (d.create made).1.node n = d.node n := by
  have hmade := create_made h made
  rw [hmade.node, if_neg]
  rintro rfl
  exact hmade.fresh hn

theorem node_parse (h : d.Valid) (markup : String) (hn : d.Live n) :
    (d.parse markup).1.node n = d.node n := by
  have hfirst := graft_grafted (Markup.read markup).tree h
  rw [Dom.parse]
  generalize Markup.read markup = reading at *
  cases reading.stray with
  | none => cases reading.error <;> exact hfirst.node hn
  | some stray =>
      have hsecond := graft_grafted stray hfirst.valid
      have hboth := (hsecond.node (hfirst.live n hn)).trans (hfirst.node hn)
      cases reading.error <;> exact hboth

theorem node (he : e.Creates) (h : d.Valid) (hn : d.Live n) : (e.apply d).node n = d.node n := by
  cases he with
  | createFragment | createElement tag | createText s | createComment s => exact node_create h _ hn
  | importFrom source node => exact (graft_grafted _ h).node hn
  | parse markup => exact node_parse h markup hn

end Edit.Creates

theorem WellFormed.consistent (h : d.WellFormed) : d.Consistent where
  linked := h.mem_children
  children_nodup := h.children_nodup
  rooted := h.rooted
  names_nodup := h.distinct
  free_nodup := h.free_nodup
  mem_free n := by
    rw [h.mem_free, not_live_iff]
  freed n hn := by
    rw [← not_live_iff] at hn
    refine ⟨parent_of_not_live h.toValid hn, children_of_not_live h.toValid hn,
      marker_of_not_live h.toValid hn, fun p hmem => ?_⟩
    exact hn (h.live_of_mem_children hmem)
  fresh made := (create_made h.toValid made).fresh
  aside _ he _ _ hn := he.node h.toValid hn

/-- Every store that edits of its own nodes have made is consistent. -/
theorem consistent_edited {edits : List Edit} (hfollows : Dom.empty.Follows edits) :
    (Dom.empty.edited edits).Consistent :=
  (empty_wellFormed.edited hfollows).consistent

/-- Whether each edit finds its nodes when its turn comes. -/
def finds (d : Dom) : List Edit → Bool
  | [] => true
  | e :: rest => (e.nodes.all fun n => !(d.node n).freed) && (e.apply d).finds rest

theorem follows_of_finds {edits : List Edit} (h : d.finds edits = true)
    (hsourced : ∀ e ∈ edits, e.Sourced) : d.Follows edits := by
  induction edits generalizing d with
  | nil => trivial
  | cons e rest ih =>
      rw [finds, Bool.and_eq_true, List.all_eq_true] at h
      rw [List.forall_mem_cons] at hsourced
      refine ⟨⟨fun n hn => ?_, hsourced.1⟩, ih h.2 hsourced.2⟩
      simpa [Live] using h.1 n hn

/-- An element with a text in it. -/
def small : List Edit :=
  [.createElement "b", .createText "x", .appendChild ⟨0⟩ ⟨1⟩]

/-- Children are moved into one of themselves, a node is put below itself in vain, slots are freed
twice and used again, a copy is made and markup breaks off. -/
def reshuffle : List Edit :=
  [.createElement "DIV", .createElement "p", .appendChild ⟨0⟩ ⟨1⟩, .createText "a",
    .appendChild ⟨1⟩ ⟨2⟩, .moveChildren ⟨0⟩ ⟨1⟩, .appendChild ⟨0⟩ ⟨1⟩, .appendChild ⟨2⟩ ⟨0⟩,
    .createElement "i", .insertBefore ⟨1⟩ ⟨3⟩, .insertAfter ⟨1⟩ ⟨3⟩, .replaceWith ⟨3⟩ ⟨2⟩,
    .detach ⟨3⟩, .setAttribute ⟨0⟩ "id" "x", .setAttribute ⟨0⟩ "id" "y", .eraseAttribute ⟨0⟩ "id",
    .setMarker ⟨1⟩ (some 0), .remove ⟨1⟩, .remove ⟨1⟩, .createComment "c", .setTextContent ⟨0⟩ "t",
    .createFragment, .importFrom (Dom.empty.edited small) ⟨0⟩, .parse "<b x=1 x=2>"]

theorem consistent_edited_reshuffle :
    Dom.empty.Follows reshuffle ∧ (Dom.empty.edited reshuffle).Consistent := by
  have hsmall : Dom.empty.Follows small :=
    follows_of_finds (by decide +kernel) (by simp [small, Edit.Sourced])
  have hlive : (Dom.empty.edited small).Live ⟨0⟩ := by
    unfold Live
    decide +kernel
  have hfollows : Dom.empty.Follows reshuffle := by
    refine follows_of_finds (by decide +kernel) ?_
    simp [reshuffle, Edit.Sourced, empty_wellFormed.edited hsmall, hlive]
  exact ⟨hfollows, consistent_edited hfollows⟩

end LiveMarkup.Dom
