import LiveMarkup.Dom.Tree
import LiveMarkup.Proofs.Lineage

/-!
Stores in which the links agree: a child names its parent and a parent its children, no node lies
below itself, and the free slots are the empty ones.
-/

namespace LiveMarkup

theorem NodeId.slot_injective : Function.Injective NodeId.slot := by
  rintro ⟨m⟩ ⟨n⟩ rfl
  rfl

namespace Dom

variable {d d' : Dom} {a n p x : NodeId}

/-- A node that is there. -/
def Live (d : Dom) (n : NodeId) : Prop :=
  (d.node n).freed = false

instance (d : Dom) (n : NodeId) : Decidable (d.Live n) :=
  decEq (d.node n).freed false

/-- `n` is `a` or lies below it. -/
abbrev Below (d : Dom) (a n : NodeId) : Prop :=
  Above d.parent a n

structure Valid (d : Dom) : Prop where
  free_nodup : d.free.Nodup
  mem_free : ∀ n, n ∈ d.free ↔ n.slot < d.nodes.size ∧ ¬ d.Live n
  vacant_eq : ∀ n, ¬ d.Live n → d.node n = .vacant
  mem_children : ∀ p n, n ∈ d.children p ↔ d.parent n = some p
  children_nodup : ∀ p, (d.children p).Nodup
  acyclic : Acyclic d.parent

/-! ### Nodes -/

theorem node_of_size_le (h : d.nodes.size ≤ n.slot) : d.node n = .vacant := by
  rw [node, Array.getElem?_eq_none h, Option.getD_none]

theorem Live.lt_size (h : d.Live n) : n.slot < d.nodes.size := by
  by_contra hle
  rw [Live, node_of_size_le (Nat.le_of_not_lt hle)] at h
  cases h

theorem empty_valid : Dom.empty.Valid := by
  have hnode : ∀ n, Dom.empty.node n = .vacant := fun n => node_of_size_le (Nat.zero_le _)
  refine ⟨List.nodup_nil, ?_, fun n _ => hnode n, ?_, ?_, ?_⟩
  · intro n
    simp [Dom.empty]
  · intro p n
    simp [Dom.children, Dom.parent, hnode, Node.vacant]
  · intro p
    simp [Dom.children, hnode, Node.vacant]
  · intro n p hup
    simp [Dom.parent, hnode, Node.vacant] at hup

theorem size_update (d : Dom) (n : NodeId) (f : Node → Node) :
    (d.update n f).nodes.size = d.nodes.size :=
  Array.size_modify

theorem node_update_self (hn : d.Live n) (f : Node → Node) :
    (d.update n f).node n = f (d.node n) := by
  have hlt := hn.lt_size
  simp [node, update, Array.getElem?_modify, Array.getElem?_eq_getElem hlt]

theorem node_update_of_ne (hne : x ≠ n) (f : Node → Node) :
    (d.update n f).node x = d.node x := by
  have hslot : n.slot ≠ x.slot := fun h => hne (NodeId.slot_injective h.symm)
  simp [node, update, Array.getElem?_modify, hslot]

theorem node_update (hn : d.Live n) (f : Node → Node) (x : NodeId) :
    (d.update n f).node x = if x = n then f (d.node n) else d.node x := by
  by_cases heq : x = n
  · rw [if_pos heq, heq, node_update_self hn]
  · rw [if_neg heq, node_update_of_ne heq]

/-- A write to an empty slot that leaves empty slots as they are. -/
theorem node_update_of_fixed (f : Node → Node) (hfix : d.node n = .vacant → f .vacant = .vacant)
    (x : NodeId) : (d.update n f).node x = if x = n then f (d.node n) else d.node x := by
  by_cases heq : x = n
  · subst heq
    rw [if_pos rfl]
    by_cases hlt : x.slot < d.nodes.size
    · simp [node, update, Array.getElem?_modify, Array.getElem?_eq_getElem hlt]
    · have hle := Nat.le_of_not_lt hlt
      have hvacant := node_of_size_le (d := d) hle
      rw [node_of_size_le (by rwa [size_update]), hvacant, hfix hvacant]
  · rw [if_neg heq, node_update_of_ne heq]

theorem children_of_not_live (h : d.Valid) (hn : ¬ d.Live n) : d.children n = [] := by
  rw [children, h.vacant_eq n hn]
  rfl

theorem parent_of_not_live (h : d.Valid) (hn : ¬ d.Live n) : d.parent n = none := by
  rw [parent, h.vacant_eq n hn]
  rfl

theorem marker_of_not_live (h : d.Valid) (hn : ¬ d.Live n) : d.marker n = none := by
  rw [marker, h.vacant_eq n hn]
  rfl

namespace Valid

theorem live_of_parent (h : d.Valid) (hparent : d.parent n = some p) : d.Live n ∧ d.Live p := by
  constructor
  · by_contra hn
    rw [parent_of_not_live h hn] at hparent
    cases hparent
  · by_contra hp
    have hmem := (h.mem_children p n).mpr hparent
    rw [children_of_not_live h hp] at hmem
    cases hmem

theorem live_of_mem_children (h : d.Valid) (hmem : n ∈ d.children p) : d.Live n :=
  (h.live_of_parent ((h.mem_children p n).mp hmem)).1

theorem live_of_below (h : d.Valid) (hbelow : d.Below a n) (hn : d.Live n) : d.Live a := by
  induction hbelow with
  | self => exact hn
  | step hup _ ih => exact ih (h.live_of_parent hup).2

theorem live_below (h : d.Valid) (hbelow : d.Below a n) (ha : d.Live a) : d.Live n := by
  rcases hbelow.cases_up with rfl | ⟨p, hp, _⟩
  · exact ha
  · exact (h.live_of_parent hp).1

theorem bounded (h : d.Valid) : Bounded d.parent NodeId.slot d.nodes.size where
  injective := NodeId.slot_injective
  lower hup := (h.live_of_parent hup).1.lt_size
  upper hup := (h.live_of_parent hup).2.lt_size

theorem not_mem_children_self (h : d.Valid) : n ∉ d.children n := fun hmem =>
  h.acyclic n n ((h.mem_children n n).mp hmem) .self

/-- What lies below a node is the node or lies below one of its children. -/
theorem below_cases (h : d.Valid) (hbelow : d.Below a n) :
    n = a ∨ ∃ c ∈ d.children a, d.Below c n := by
  induction hbelow with
  | self => exact Or.inl rfl
  | @step m q hup _ ih =>
      rcases ih with rfl | ⟨c, hc, hcq⟩
      · exact Or.inr ⟨m, (h.mem_children _ m).mpr hup, .self⟩
      · exact Or.inr ⟨c, hc, .step hup hcq⟩

/-- Nothing but a childless node lies below it. -/
theorem eq_of_below (h : d.Valid) (ha : d.children a = []) (hbelow : d.Below a n) : n = a := by
  rcases h.below_cases hbelow with rfl | ⟨c, hc, _⟩
  · rfl
  · rw [ha] at hc
    cases hc

theorem not_mem_children_of_parent (h : d.Valid) (hn : d.parent n = none) (p : NodeId) :
    n ∉ d.children p := by
  intro hmem
  rw [(h.mem_children p n).mp hmem] at hn
  cases hn

theorem below_of_mem_children (h : d.Valid) (hmem : n ∈ d.children p) : d.Below p n :=
  .of_up ((h.mem_children p n).mp hmem)

theorem eq_of_below_children (h : d.Valid) {c c' : NodeId} (hc : c ∈ d.children p)
    (hc' : c' ∈ d.children p) (hcn : d.Below c n) (hcn' : d.Below c' n) : c = c' :=
  h.acyclic.eq_of_siblings ((h.mem_children p c).mp hc) ((h.mem_children p c').mp hc') hcn hcn'

end Valid

/-! ### Paths -/

theorem climb_eq_lineage (d : Dom) (steps : Nat) (n : NodeId) :
    d.climb steps n = lineage d.parent steps n := by
  induction steps generalizing n with
  | zero => rfl
  | succ steps ih =>
      rw [climb, lineage]
      cases d.parent n with
      | none => rfl
      | some p => simp only [ih]

theorem mem_path_iff (h : d.Valid) (hn : d.Live n) : a ∈ d.path n ↔ d.Below a n := by
  rw [path, climb_eq_lineage]
  exact h.bounded.mem_lineage_iff h.acyclic hn.lt_size

theorem contains_iff (h : d.Valid) (hn : d.Live n) : d.contains a n = true ↔ d.Below a n := by
  rw [contains, List.contains_iff_mem, mem_path_iff h hn]

theorem below_of_contains (h : d.contains a n = true) : d.Below a n := by
  rw [contains, List.contains_iff_mem, path, climb_eq_lineage] at h
  exact above_of_mem_lineage h

theorem length_path_le (d : Dom) (n : NodeId) : (d.path n).length ≤ d.nodes.size := by
  rw [path, climb_eq_lineage]
  exact length_lineage_le d.parent d.nodes.size n

theorem length_path_of_mem_children (h : d.Valid) (hmem : n ∈ d.children p) :
    (d.path n).length = (d.path p).length + 1 := by
  have hn := h.live_of_mem_children hmem
  rw [path, path, climb_eq_lineage, climb_eq_lineage, h.bounded.lineage_eq h.acyclic hn.lt_size,
    (h.mem_children p n).mp hmem, List.length_cons]

/-! ### Trees -/

/-- What holds of a node when it holds of its children holds of all nodes. -/
theorem Valid.induction {P : NodeId → Prop} (h : d.Valid)
    (hstep : ∀ n, d.Live n → (∀ c ∈ d.children n, P c) → P n) (hn : d.Live n) : P n := by
  -- A path grows by one on the way to a child and is never longer than the store.
  have hgo : ∀ (room : Nat) (n : NodeId), d.Live n →
      d.nodes.size ≤ room + (d.path n).length → P n := by
    intro room
    induction room with
    | zero =>
        intro n hn hroom
        refine hstep n hn fun c hc => ?_
        have hlength := length_path_of_mem_children h hc
        have hle := length_path_le d c
        omega
    | succ room ih =>
        intro n hn hroom
        refine hstep n hn fun c hc => ih c (h.live_of_mem_children hc) ?_
        have hlength := length_path_of_mem_children h hc
        omega
  exact hgo d.nodes.size n hn (Nat.le_add_right _ _)

/-- No path is longer than the store. -/
theorem children_of_size_le (h : d.Valid) (hlong : d.nodes.size ≤ (d.path n).length) :
    d.children n = [] := by
  rw [List.eq_nil_iff_forall_not_mem]
  intro c hc
  have hlength := length_path_of_mem_children h hc
  have hle := length_path_le d c
  omega

/-- A cut that is deep enough for what lies below a node. -/
theorem treeTo_succ (h : d.Valid) {depth : Nat}
    (hdeep : d.nodes.size ≤ depth + (d.path n).length) :
    d.treeTo (depth + 1) n = d.treeTo depth n := by
  induction depth generalizing n with
  | zero =>
      rw [Nat.zero_add] at hdeep
      rw [treeTo, treeTo, children_of_size_le h hdeep, List.map_nil]
  | succ depth ih =>
      rw [treeTo, treeTo]
      congr 1
      refine List.map_congr_left fun c hc => ih ?_
      have hlength := length_path_of_mem_children h hc
      omega

theorem tree_eq (h : d.Valid) (n : NodeId) :
    d.tree n = .node (d.content n) (d.marker n) ((d.children n).map d.tree) := by
  rw [tree, ← treeTo_succ h (Nat.le_add_right _ _), treeTo]
  rfl

theorem content_of_tree (hvalid : d.Valid) (n : NodeId) : (d.tree n).content = d.content n := by
  rw [tree_eq hvalid]
  rfl

/-- The tree at a node is what lies below it, links upwards aside. -/
theorem tree_congr (h : d.Valid) (h' : d'.Valid) (hn : d.Live n)
    (hcontent : ∀ x, d.Below n x → d'.content x = d.content x)
    (hmarker : ∀ x, d.Below n x → d'.marker x = d.marker x)
    (hchildren : ∀ x, d.Below n x → d'.children x = d.children x) : d'.tree n = d.tree n := by
  have hgo : d.Below n n → d'.tree n = d.tree n := by
    refine h.induction (P := fun x => d.Below n x → d'.tree x = d.tree x) ?_ hn
    intro x _ ih hx
    rw [tree_eq h, tree_eq h', hcontent x hx, hmarker x hx, hchildren x hx]
    congr 1
    exact List.map_congr_left fun c hc => ih c hc (hx.trans (h.below_of_mem_children hc))
  exact hgo .self

theorem tree_congr_node (h : d.Valid) (h' : d'.Valid) (hn : d.Live n)
    (hsame : ∀ x, d.Below n x → d'.node x = d.node x) : d'.tree n = d.tree n := by
  refine tree_congr h h' hn ?_ ?_ ?_ <;>
  · intro x hx
    simp only [content, marker, children, hsame x hx]

/-- Nodes whose way up has not changed lie below the same nodes. -/
theorem below_congr (h : d.Valid) (hparent : ∀ x, d.Live x → d'.parent x = d.parent x)
    (hn : d.Live n) : d'.Below a n ↔ d.Below a n := by
  constructor
  · intro hbelow
    induction hbelow with
    | self => exact .self
    | step hup _ ih =>
        rw [hparent _ hn] at hup
        exact .step hup (ih (h.live_of_parent hup).2)
  · intro hbelow
    induction hbelow with
    | self => exact .self
    | step hup _ ih =>
        exact .step ((hparent _ hn).trans hup) (ih (h.live_of_parent hup).2)

end Dom

end LiveMarkup
