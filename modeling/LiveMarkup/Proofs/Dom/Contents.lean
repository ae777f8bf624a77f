import LiveMarkup.Proofs.Dom.Attributes
import LiveMarkup.Proofs.Dom.Graft
import LiveMarkup.Proofs.Markup.Parsed

/-!
What the nodes of a store hold, read off its trees. A graft brings nothing into a store that its tree
does not hold.
-/

namespace LiveMarkup

namespace Tree

variable {p : Content → Prop} {tree : Tree} {trees : List Tree}

mutual

/-- `p` holds of all that a tree holds. -/
def Everywhere (p : Content → Prop) : Tree → Prop
  | .node content _ children => p content ∧ EverywhereAll p children

def EverywhereAll (p : Content → Prop) : List Tree → Prop
  | [] => True
  | tree :: rest => Everywhere p tree ∧ EverywhereAll p rest

end

theorem everywhereAll_iff : EverywhereAll p trees ↔ ∀ tree ∈ trees, tree.Everywhere p := by
  induction trees with
  | nil => simp [EverywhereAll]
  | cons tree rest ih => rw [EverywhereAll, ih, List.forall_mem_cons]

mutual

theorem IsParsed.distinct : ∀ {tree : Tree}, tree.IsParsed → tree.Everywhere Content.Distinct
  | .node content marker children, h => by
      rw [Everywhere]
      cases content with
      | fragment =>
          rw [IsParsed] at h
          exact h.2.elim
      | element tag attributes =>
          rw [IsParsed] at h
          exact ⟨h.2.1, AreParsed.distinct h.2.2⟩
      | text s | comment s =>
          rw [IsParsed] at h
          obtain ⟨-, rfl⟩ := h
          simp [Content.Distinct, Content.attributes, EverywhereAll]

theorem AreParsed.distinct :
    ∀ {trees : List Tree}, AreParsed trees → EverywhereAll Content.Distinct trees
  | [], _ => trivial
  | _ :: _, h => ⟨h.1.distinct, AreParsed.distinct h.2⟩

end

end Tree

namespace Markup

theorem read_distinct (markup : String) : (read markup).tree.Everywhere Content.Distinct ∧
    ∀ stray ∈ (read markup).stray, stray.Everywhere Content.Distinct := by
  obtain ⟨⟨trees, htree, hparsed⟩, hstray⟩ := read_tree markup
  refine ⟨?_, fun stray hmem => (hstray stray hmem).distinct⟩
  rw [htree, Tree.Everywhere]
  exact ⟨List.nodup_nil, hparsed.distinct⟩

end Markup

namespace Dom

variable {d d' : Dom} {n x : NodeId} {p : Content → Prop} {t : Tree} {copy : Copy}

theorem content_of_not_live (h : d.Valid) (hn : ¬ d.Live n) : d.content n = .fragment := by
  rw [content, h.vacant_eq n hn]
  rfl

theorem everywhere_tree_of_live (h : d.Valid) (hn : d.Live n) :
    (d.tree n).Everywhere p ↔ ∀ x, d.Below n x → p (d.content x) := by
  refine h.induction (P := fun n =>
    (d.tree n).Everywhere p ↔ ∀ x, d.Below n x → p (d.content x)) (fun n _ ih => ?_) hn
  rw [tree_eq h, Tree.Everywhere, Tree.everywhereAll_iff, List.forall_mem_map]
  constructor
  · rintro ⟨hself, hkids⟩ x hx
    rcases h.below_cases hx with rfl | ⟨c, hc, hcx⟩
    · exact hself
    · exact (ih c hc).mp (hkids c hc) x hcx
  · intro hall
    refine ⟨hall n .self, fun c hc => (ih c hc).mpr fun x hx => hall x ?_⟩
    exact (h.below_of_mem_children hc).trans hx

/-- Old nodes hold what they held, and new ones what the tree holds. -/
theorem Grafted.everywhere (h : Grafted t copy d d') (hvalid : d.Valid) (ht : t.Everywhere p)
    (hold : ∀ x, p (d.content x)) (x : NodeId) : p (d'.content x) := by
  by_cases hx : d.Live x
  · rw [h.content x hx]
    exact hold x
  by_cases hx' : d'.Live x
  · obtain ⟨r, hr, hbelow⟩ := (h.new_iff x).mp ⟨hx', hx⟩
    rw [List.mem_singleton] at hr
    subst hr
    rw [← h.tree] at ht
    exact (everywhere_tree_of_live h.valid (h.fresh (List.mem_singleton_self _)).1).mp ht x hbelow
  · rw [content_of_not_live h.valid hx', ← content_of_not_live hvalid hx]
    exact hold x

/-- A graft leaves the nodes alone that were there. -/
theorem Grafted.node (h : Grafted t copy d d') (hx : d.Live x) : d'.node x = d.node x := by
  refine node_ext (h.content x hx) (h.parent x hx) (h.children x hx) (h.marker x hx) ?_
  exact iff_of_true (h.live x hx) hx

end Dom

end LiveMarkup
