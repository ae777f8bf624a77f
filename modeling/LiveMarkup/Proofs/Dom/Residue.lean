import LiveMarkup.Proofs.Dom.Copies
import LiveMarkup.Proofs.Dom.Edits

/-!
# What a parse leaves behind

Nodes are made while markup is read, and what has been made when an error comes up is not taken back.
Main results: the nodes that were there are as they were, and what is new is the tree that was read up
to the error and the element in error, both without a parent (`parse_littered`); so there are more
nodes than before, also after a parse that has failed (`size_lt_parse`).
-/

namespace LiveMarkup.Dom

variable {d d' : Dom} {roots : List NodeId} {marked : List (Nat × NodeId)} {trees : List Tree}

/-- The trees at `roots` have come into a store, below no node that was there. -/
structure Littered (roots : List NodeId) (marked : List (Nat × NodeId)) (trees : List Tree)
    (d d' : Dom) : Prop extends Grown roots marked d d' where
  kept : ∀ x, d.Live x → d'.node x = d.node x
  parentless : ∀ r ∈ roots, d'.parent r = none
  tree : roots.map d'.tree = trees
  size : d'.size = d.size + Tree.countAll trees

namespace Littered

theorem start (hvalid : d.Valid) : Littered [] [] [] d d :=
  ⟨(GraftedAll.nil hvalid ⟨0⟩).toGrown, fun _ _ => rfl, List.forall_mem_nil _, rfl, rfl⟩

theorem graft (h : Littered roots marked trees d d') (hvalid : d.Valid) (t : Tree) :
    ∃ roots marked, Littered roots marked (trees ++ [t]) d (d'.graft t).1 := by
  have hgrafted := graft_grafted t h.valid
  generalize d'.graft t = result at hgrafted
  obtain ⟨d'', copy⟩ := result
  refine ⟨_, _, h.toGrown.trans hvalid hgrafted.toGrown, fun x hx => ?_, fun r hr => ?_, ?_, ?_⟩
  · exact (hgrafted.node (h.live x hx)).trans (h.kept x hx)
  · rw [List.mem_append, List.mem_singleton] at hr
    obtain hr | rfl := hr
    · rw [hgrafted.parent r (h.fresh hr).1, h.parentless r hr]
    · exact hgrafted.parentless
  · rw [List.map_append, List.map_singleton, hgrafted.tree, ← h.tree]
    congr 1
    refine List.map_congr_left fun r hr => tree_congr_node h.valid hgrafted.valid (h.fresh hr).1 ?_
    exact fun x hx => hgrafted.node (h.valid.live_below hx (h.fresh hr).1)
  · rw [hgrafted.size h.valid, h.size, Tree.countAll_append, Tree.countAll, Tree.countAll,
      Nat.add_zero, Nat.add_assoc]

end Littered

/-- **A parse leaves what it has read**, whether or not it comes to an end. -/
theorem parse_littered (hvalid : d.Valid) (markup : String) :
    ∃ roots marked, Littered roots marked
      ((Markup.read markup).tree :: (Markup.read markup).stray.toList) d (d.parse markup).1 := by
  obtain ⟨roots, marked, hread⟩ := (Littered.start hvalid).graft hvalid (Markup.read markup).tree
  have hstray := fun t => hread.graft hvalid t
  rw [parse]
  generalize Markup.read markup = reading at *
  cases hs : reading.stray with
  | none => cases reading.error <;> exact ⟨roots, marked, hread⟩
  | some stray => cases reading.error <;> exact hstray stray

theorem size_lt_parse (hvalid : d.Valid) (markup : String) :
    d.size < (d.parse markup).1.size := by
  obtain ⟨_, _, h⟩ := parse_littered hvalid markup
  have hpos := (Markup.read markup).tree.count_pos
  rw [h.size, Tree.countAll]
  omega

/-- An attribute stands twice on an element: the fragment and the element are left. -/
example : let result := Dom.empty.parse "<b x=1 x=2>"
    result.2.isOk = false ∧ result.1.size = 2 := by
  decide +kernel

end LiveMarkup.Dom
