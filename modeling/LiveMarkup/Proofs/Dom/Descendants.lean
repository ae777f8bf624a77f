import LiveMarkup.Proofs.Dom.Valid

/-!
What lies at and below a node, listed in document order: every node once, before what lies below it.
-/

namespace LiveMarkup

theorem join_flatMap {α : Type} (l : List α) (f : α → List String) :
    String.join (l.flatMap f) = String.join (l.map fun a => String.join (f a)) := by
  induction l with
  | nil => rfl
  | cons a l ih => rw [List.flatMap_cons, List.map_cons, String.join_append, String.join_cons, ih]

namespace Tree

mutual

/-- The number of nodes. -/
def count : Tree → Nat
  | node _ _ children => countAll children + 1

def countAll : List Tree → Nat
  | [] => 0
  | tree :: rest => count tree + countAll rest

end

theorem count_pos (tree : Tree) : 0 < tree.count := by
  obtain ⟨_, _, children⟩ := tree
  rw [count]
  exact Nat.succ_pos _

theorem countAll_append (trees others : List Tree) :
    countAll (trees ++ others) = countAll trees + countAll others := by
  induction trees with
  | nil => rw [List.nil_append, countAll, Nat.zero_add]
  | cons tree trees ih => rw [List.cons_append, countAll, countAll, ih, Nat.add_assoc]

theorem length_flatMap {α β : Type} {l : List α} {f : α → List β} {g : α → Tree}
    (h : ∀ a ∈ l, (f a).length = (g a).count) : (l.flatMap f).length = countAll (l.map g) := by
  induction l with
  | nil => rfl
  | cons a l ih =>
      rw [List.forall_mem_cons] at h
      rw [List.flatMap_cons, List.length_append, List.map_cons, countAll, h.1, ih h.2]

end Tree

namespace Dom

variable {d : Dom} {n x : NodeId}

/-- A listing that goes deep enough for what lies below a node. -/
theorem descend_succ (h : d.Valid) {depth : Nat}
    (hdeep : d.nodes.size ≤ depth + (d.path n).length) :
    d.descend (depth + 1) n = d.descend depth n := by
  induction depth generalizing n with
  | zero =>
      rw [Nat.zero_add] at hdeep
      rw [descend, descend, children_of_size_le h hdeep, List.flatMap_nil]
  | succ depth ih =>
      rw [descend, descend]
      congr 1
      refine List.flatMap_congr fun c hc => ih ?_
      have hlength := length_path_of_mem_children h hc
      omega

theorem descendants_eq (h : d.Valid) (n : NodeId) :
    d.descendants n = n :: (d.children n).flatMap d.descendants := by
  rw [descendants, ← descend_succ h (Nat.le_add_right _ _), descend]
  rfl

theorem mem_descendants_iff (h : d.Valid) (hn : d.Live n) :
    x ∈ d.descendants n ↔ d.Below n x := by
  refine h.induction (P := fun n => x ∈ d.descendants n ↔ d.Below n x) (fun n _ ih => ?_) hn
  rw [descendants_eq h, List.mem_cons, List.mem_flatMap]
  constructor
  · rintro (rfl | ⟨c, hc, hx⟩)
    · exact .self
    · exact (h.below_of_mem_children hc).trans ((ih c hc).mp hx)
  · intro hx
    rcases h.below_cases hx with rfl | ⟨c, hc, hcx⟩
    · exact Or.inl rfl
    · exact Or.inr ⟨c, hc, (ih c hc).mpr hcx⟩

theorem descendants_nodup (h : d.Valid) (hn : d.Live n) : (d.descendants n).Nodup := by
  refine h.induction (P := fun n => (d.descendants n).Nodup) (fun n _ ih => ?_) hn
  have hbelow : ∀ c ∈ d.children n, ∀ x, x ∈ d.descendants c → d.Below c x := fun c hc x hx =>
    (mem_descendants_iff h (h.live_of_mem_children hc)).mp hx
  rw [descendants_eq h, List.nodup_cons, List.mem_flatMap, List.nodup_flatMap]
  refine ⟨?_, ih, ?_⟩
  · rintro ⟨c, hc, hnc⟩
    exact h.acyclic c n ((h.mem_children n c).mp hc) (hbelow c hc n hnc)
  · -- Siblings have nothing below them in common.
    refine (h.children_nodup n).imp_of_mem fun {c c'} hc hc' hne x hx hx' => hne ?_
    exact h.eq_of_below_children hc hc' (hbelow c hc x hx) (hbelow c' hc' x hx')

theorem mem_tail_descendants_iff (h : d.Valid) :
    x ∈ (d.descendants n).tail ↔ ∃ c ∈ d.children n, d.Below c x := by
  rw [descendants_eq h, List.tail_cons, List.mem_flatMap]
  refine exists_congr fun c => and_congr_right fun hc => ?_
  exact mem_descendants_iff h (h.live_of_mem_children hc)

theorem length_descendants (h : d.Valid) (hn : d.Live n) :
    (d.descendants n).length = (d.tree n).count := by
  refine h.induction (P := fun n => (d.descendants n).length = (d.tree n).count) (fun n _ ih => ?_) hn
  rw [descendants_eq h, List.length_cons, tree_eq h, Tree.count, Tree.length_flatMap ih]

/-- The text of a node that is not a text is the one of its children. -/
theorem textContent_eq (h : d.Valid) (n : NodeId) : d.textContent n =
    (match d.content n with | .text s => s | _ => "") ++
      String.join ((d.children n).map d.textContent) := by
  rw [textContent, descendants_eq h, List.filterMap_cons, List.filterMap_flatMap]
  cases d.content n with
  | text s => exact String.join_cons.trans (congrArg (s ++ ·) (join_flatMap _ _))
  | fragment | element tag attributes | comment s =>
      exact (join_flatMap _ _).trans (String.empty_append).symm

end Dom

end LiveMarkup
