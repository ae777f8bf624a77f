import LiveMarkup.Proofs.Dom.Contents
import LiveMarkup.Proofs.Dom.Descendants

/-!
Copies of trees. What is imported into a store is a tree of its own, of new nodes only: every node of
the source has one counterpart in it, in the same place, and the rest of the store is what it was.
-/

namespace LiveMarkup

/-! ### Slots -/

section Slots

variable {α : Type} (slot : Nat → α) (inUse : α → Bool)

/-- The slots in use among the first ones. -/
def slotsInUse (size : Nat) : List α :=
  ((List.range size).map slot).filter inUse

variable {slot inUse} (number : α → Nat) {size : Nat}

theorem mem_slotsInUse (hslot : ∀ x, slot (number x) = x) (hnumber : ∀ k, number (slot k) = k)
    {x : α} : x ∈ slotsInUse slot inUse size ↔ number x < size ∧ inUse x = true := by
  rw [slotsInUse, List.mem_filter, List.mem_map]
  refine and_congr_left fun _ => ⟨?_, fun hx => ⟨number x, List.mem_range.mpr hx, hslot x⟩⟩
  rintro ⟨k, hk, rfl⟩
  rw [hnumber]
  exact List.mem_range.mp hk

theorem slotsInUse_nodup (hnumber : ∀ k, number (slot k) = k) :
    (slotsInUse slot inUse size).Nodup :=
  (List.nodup_range.map fun j k heq => by rw [← hnumber j, heq, hnumber]).filter _

/-- A slot is in use or free. -/
theorem length_slotsInUse (hslot : ∀ x, slot (number x) = x) (hnumber : ∀ k, number (slot k) = k)
    {free : List α} (hnodup : free.Nodup)
    (hfree : ∀ x, x ∈ free ↔ number x < size ∧ inUse x = false) :
    size - free.length = (slotsInUse slot inUse size).length := by
  have hperm : (slotsInUse slot (fun x => !inUse x) size).Perm free := by
    rw [List.perm_ext_iff_of_nodup (slotsInUse_nodup number hnumber) hnodup]
    intro x
    rw [mem_slotsInUse number hslot hnumber, hfree, Bool.not_eq_true']
  have hsplit := List.length_eq_length_filter_add (l := (List.range size).map slot) inUse
  have hlength := hperm.length_eq
  rw [List.length_map, List.length_range] at hsplit
  rw [slotsInUse] at hlength ⊢
  omega

end Slots

end LiveMarkup

namespace LiveMarkup.Dom

variable {d d' source : Dom} {n p root x y : NodeId} {f g : NodeId → NodeId}

/-! ### Counterparts -/

/-- `f` gives each node at and below `n` its counterpart at and below `root`, which holds the same and
whose children are the counterparts of the children, in their order. -/
structure Mirrors (f : NodeId → NodeId) (source : Dom) (n : NodeId) (d : Dom) (root : NodeId) :
    Prop where
  root : f n = root
  content : ∀ x, source.Below n x → d.content (f x) = source.content x
  marker : ∀ x, source.Below n x → d.marker (f x) = source.marker x
  children : ∀ x, source.Below n x → d.children (f x) = (source.children x).map f

theorem Mirrors.congr (h : Mirrors f source n d root) (hs : source.Valid)
    (hsame : ∀ x, source.Below n x → g x = f x) : Mirrors g source n d root where
  root := (hsame n .self).trans h.root
  content x hx := by rw [hsame x hx, h.content x hx]
  marker x hx := by rw [hsame x hx, h.marker x hx]
  children x hx := by
    rw [hsame x hx, h.children x hx]
    refine List.map_congr_left fun c hc => ?_
    exact (hsame c (hx.trans (hs.below_of_mem_children hc))).symm

/-- Siblings have counterparts together when each of them has. -/
theorem exists_mirrors_siblings (hs : source.Valid) {kids roots : List NodeId} (hnodup : kids.Nodup)
    (hkids : ∀ c ∈ kids, c ∈ source.children p)
    (heach : ∀ c ∈ kids, ∀ root, d.tree root = source.tree c → ∃ f, Mirrors f source c d root)
    (htrees : roots.map d.tree = kids.map source.tree) :
    ∃ f, roots = kids.map f ∧ ∀ c ∈ kids, Mirrors f source c d (f c) := by
  classical
  induction kids generalizing roots with
  | nil =>
      rw [List.map_nil, List.map_eq_nil_iff] at htrees
      exact ⟨id, htrees, List.forall_mem_nil _⟩
  | cons c kids ih =>
      rw [List.nodup_cons] at hnodup
      rw [List.forall_mem_cons] at hkids heach
      obtain ⟨root, roots, rfl, hroot, hroots⟩ := List.map_eq_cons_iff.mp htrees
      obtain ⟨g, rfl, hg⟩ := ih hnodup.2 hkids.2 heach.2 hroots
      obtain ⟨f, hf⟩ := heach.1 root hroot
      -- What lies below one sibling lies below no other, so the two choices do not meet.
      have hleft : ∀ x, source.Below c x → (if source.Below c x then f x else g x) = f x :=
        fun x hx => if_pos hx
      have hright : ∀ k ∈ kids, ∀ x, source.Below k x →
          (if source.Below c x then f x else g x) = g x := by
        intro k hk x hx
        refine if_neg fun hcx => hnodup.1 ?_
        rwa [hs.eq_of_below_children hkids.1 (hkids.2 k hk) hcx hx]
      refine ⟨fun x => if source.Below c x then f x else g x, ?_, List.forall_mem_cons.mpr ⟨?_, ?_⟩⟩
      · rw [List.map_cons, hleft c .self, hf.root, List.cons.injEq]
        exact ⟨rfl, List.map_congr_left fun k hk => (hright k hk k .self).symm⟩
      · dsimp only
        rw [hleft c .self, hf.root]
        exact hf.congr hs hleft
      · intro k hk
        dsimp only
        rw [hright k hk k .self]
        exact (hg k hk).congr hs (hright k hk)

/-- Equal trees have counterparts everywhere. -/
theorem exists_mirrors (hs : source.Valid) (hd : d.Valid) (hn : source.Live n)
    (htree : d.tree root = source.tree n) : ∃ f, Mirrors f source n d root := by
  classical
  have hgo : ∀ root, d.tree root = source.tree n → ∃ f, Mirrors f source n d root := by
    refine hs.induction (P := fun n => ∀ root, d.tree root = source.tree n →
      ∃ f, Mirrors f source n d root) (fun n _ ih root htree => ?_) hn
    rw [tree_eq hd, tree_eq hs, Tree.node.injEq] at htree
    obtain ⟨hcontent, hmarker, htrees⟩ := htree
    obtain ⟨f, hroots, hf⟩ := exists_mirrors_siblings hs (hs.children_nodup n) (fun c hc => hc) ih
      htrees
    have hother : ∀ c ∈ source.children n, ∀ x, source.Below c x →
        (if x = n then root else f x) = f x := by
      intro c hc x hx
      refine if_neg ?_
      rintro rfl
      exact hs.acyclic c x ((hs.mem_children x c).mp hc) hx
    have hkids : ∀ c ∈ source.children n, Mirrors (fun x => if x = n then root else f x) source c d
        (f c) := fun c hc => (hf c hc).congr hs (hother c hc)
    refine ⟨fun x => if x = n then root else f x, if_pos rfl, fun x hx => ?_, fun x hx => ?_,
      fun x hx => ?_⟩
    · rcases hs.below_cases hx with rfl | ⟨c, hc, hcx⟩
      · rw [if_pos rfl, hcontent]
      · exact (hkids c hc).content x hcx
    · rcases hs.below_cases hx with rfl | ⟨c, hc, hcx⟩
      · rw [if_pos rfl, hmarker]
      · exact (hkids c hc).marker x hcx
    · rcases hs.below_cases hx with rfl | ⟨c, hc, hcx⟩
      · rw [if_pos rfl, hroots]
        exact List.map_congr_left fun c hc => (hother c hc c .self).symm
      · exact (hkids c hc).children x hcx
  exact hgo root htree

namespace Mirrors

variable (h : Mirrors f source n d root) (hs : source.Valid) (hd : d.Valid) (hn : source.Live n)

include h hs hd hn

theorem descendants_eq : d.descendants root = (source.descendants n).map f := by
  have hgo : source.Below n n → d.descendants (f n) = (source.descendants n).map f := by
    refine hs.induction (P := fun x => source.Below n x →
      d.descendants (f x) = (source.descendants x).map f) (fun x _ ih hx => ?_) hn
    rw [Dom.descendants_eq hd, Dom.descendants_eq hs, h.children x hx, List.map_cons,
      List.map_flatMap, List.flatMap_map]
    congr 1
    exact List.flatMap_congr fun c hc => ih c hc (hx.trans (hs.below_of_mem_children hc))
  rw [← h.root]
  exact hgo .self

theorem below_iff (hroot : d.Live root) : d.Below root y ↔ ∃ x, source.Below n x ∧ f x = y := by
  rw [← mem_descendants_iff hd hroot, h.descendants_eq hs hd hn, List.mem_map]
  simp only [mem_descendants_iff hs hn]

theorem injective (hroot : d.Live root) (hx : source.Below n x) (hy : source.Below n y)
    (heq : f x = f y) : x = y := by
  have hnodup := descendants_nodup hd hroot
  rw [h.descendants_eq hs hd hn] at hnodup
  exact List.inj_on_of_nodup_map hnodup ((mem_descendants_iff hs hn).mpr hx)
    ((mem_descendants_iff hs hn).mpr hy) heq

end Mirrors

/-! ### Nodes with a marker -/

/-- The nodes with a marker at and below a node, in document order. -/
def markedBelow (d : Dom) (n : NodeId) : List (Nat × NodeId) :=
  (d.descendants n).filterMap fun x => (d.marker x).map (·, x)

theorem markedBelow_eq (h : d.Valid) (n : NodeId) :
    d.markedBelow n = (d.marker n).toList.map (·, n) ++ (d.children n).flatMap d.markedBelow := by
  rw [markedBelow, descendants_eq h, List.filterMap_cons, List.filterMap_flatMap]
  cases d.marker n <;> rfl

theorem Mirrors.markedBelow_eq (h : Mirrors f source n d root) (hs : source.Valid) (hd : d.Valid)
    (hn : source.Live n) : d.markedBelow root =
      (source.descendants n).filterMap fun x => (source.marker x).map (·, f x) := by
  rw [markedBelow, h.descendants_eq hs hd hn, List.filterMap_map]
  refine List.filterMap_congr fun x hx => ?_
  rw [Function.comp_apply, h.marker x ((mem_descendants_iff hs hn).mp hx)]

/-- Nodes below which nothing has changed. -/
theorem Mirrors.markedBelow_id (h : Mirrors id d n d' n) (hd : d.Valid) (hd' : d'.Valid)
    (hn : d.Live n) : d'.markedBelow n = d.markedBelow n :=
  h.markedBelow_eq hd hd' hn

/-- What has been built first is still there when its later siblings are built. -/
theorem Grafted.mirrors {t : Tree} {copy : Copy} {trees : List Tree} {ids : List NodeId}
    {marked : List (Nat × NodeId)} {d'' : Dom} (h : Grafted t copy d d') (hp : d.Live p)
    (hrest : GraftedAll p trees ids marked (d'.link p copy.root) d'') :
    Mirrors id d' copy.root d'' copy.root := by
  obtain ⟨hroot, hfresh⟩ := h.fresh (List.mem_singleton_self _)
  have hxp := h.not_below hp
  have hne := ne_of_not_below hxp
  have hlinked := link_relinked d' p copy.root
  have hlive : ∀ x, d'.Below copy.root x → (d'.link p copy.root).Live x ∧ x ≠ p := by
    intro x hx
    refine ⟨(hlinked.live x).mpr (h.valid.live_below hx hroot), ?_⟩
    rintro rfl
    exact hxp hx
  refine ⟨rfl, fun x hx => ?_, fun x hx => ?_, fun x hx => ?_⟩
  · exact (hrest.content x (hlive x hx).1).trans (hlinked.content x)
  · exact (hrest.marker x (hlive x hx).1).trans (hlinked.marker x)
  · rw [List.map_id, id, hrest.children x (hlive x hx).1, if_neg (hlive x hx).2,
      children_link (h.live p hp) hroot hne, if_neg (hlive x hx).2]

mutual

/-- A copy lists its nodes with a marker in document order. -/
theorem marked_graft (t : Tree) {d : Dom} (hvalid : d.Valid) :
    (d.graft t).2.marked = (d.graft t).1.markedBelow (d.graft t).2.root := by
  obtain ⟨content, marker, trees⟩ := t
  have hmade := create_made hvalid content
  have hmarked := setMarker_rewritten hmade.valid hmade.live marker
  have hgrafted := graft_grafted (.node content marker trees) hvalid
  have hbare : ((d.create content).1.setMarker (d.create content).2 marker).children
      (d.create content).2 = [] := by
    rw [hmarked.children, children, hmade.node, if_pos rfl]
    rfl
  have hroot := hgrafted.tree
  rw [tree_eq hgrafted.valid, Tree.node.injEq] at hroot
  rw [markedBelow_eq hgrafted.valid, hroot.2.1]
  rw [graft]
  refine congrArg₂ (· ++ ·) ?_ (marked_graftChildren trees (hmarked.valid hmade.valid)
    ((hmarked.live _).mpr hmade.live) ?_)
  · cases marker <;> rfl
  · rw [hbare, List.nil_append]

theorem marked_graftChildren (trees : List Tree) {d : Dom} {p : NodeId} {ids : List NodeId}
    (hvalid : d.Valid) (hp : d.Live p)
    (hids : (d.graftChildren p trees).1.children p = d.children p ++ ids) :
    (d.graftChildren p trees).2 = ids.flatMap (d.graftChildren p trees).1.markedBelow := by
  match trees with
  | [] =>
      rw [graftChildren, List.self_eq_append_right] at hids
      rw [graftChildren, hids, List.flatMap_nil]
  | t :: rest =>
      have hfirst := graft_grafted t hvalid
      have hlinked := hfirst.link hp
      have hp' := hlinked.live p hp
      obtain ⟨others, hrest⟩ := graftChildren_grafted rest hlinked.valid hp'
      have hothers := hrest.children p hp'
      rw [if_pos rfl] at hothers
      have hsame := (hfirst.mirrors hp hrest).markedBelow_id hfirst.valid hrest.valid
        (hfirst.fresh (List.mem_singleton_self _)).1
      have hkids := hlinked.children p hp
      rw [if_pos rfl] at hkids
      rw [graftChildren] at hids ⊢
      dsimp only at hids ⊢
      rw [hothers, hkids, List.append_assoc, List.append_cancel_left_eq] at hids
      rw [← hids, List.singleton_append, List.flatMap_cons, hsame, marked_graft t hvalid,
        marked_graftChildren rest hlinked.valid hp' hothers]

end

/-! ### The number of nodes -/

/-- The nodes of the slots in use. -/
def liveNodes (d : Dom) : List NodeId :=
  slotsInUse NodeId.mk (fun n => !(d.node n).freed) d.nodes.size

theorem mem_liveNodes : n ∈ d.liveNodes ↔ d.Live n := by
  rw [liveNodes, mem_slotsInUse NodeId.slot (fun _ => rfl) fun _ => rfl,
    Bool.not_eq_true', Live, and_iff_right_iff_imp]
  exact fun hn => Live.lt_size hn

theorem liveNodes_nodup (d : Dom) : d.liveNodes.Nodup :=
  slotsInUse_nodup NodeId.slot fun _ => rfl

theorem size_eq_length (h : d.Valid) : d.size = d.liveNodes.length :=
  length_slotsInUse NodeId.slot (fun _ => rfl) (fun _ => rfl) h.free_nodup fun n => by
    rw [h.mem_free, Live, Bool.not_eq_false, Bool.not_eq_false']

/-- New nodes add to the number of nodes. -/
theorem size_of_live_iff (h : d.Valid) (h' : d'.Valid) {made : List NodeId} (hnodup : made.Nodup)
    (hlive : ∀ x, d'.Live x ↔ d.Live x ∨ x ∈ made) (hfresh : ∀ x ∈ made, ¬ d.Live x) :
    d'.size = d.size + made.length := by
  have hperm : d'.liveNodes.Perm (d.liveNodes ++ made) := by
    have hboth : (d.liveNodes ++ made).Nodup := by
      refine List.nodup_append.mpr ⟨liveNodes_nodup d, hnodup, ?_⟩
      rintro x hx y hy rfl
      exact hfresh x hy (mem_liveNodes.mp hx)
    rw [List.perm_ext_iff_of_nodup (liveNodes_nodup d') hboth]
    intro x
    rw [List.mem_append, mem_liveNodes, mem_liveNodes, hlive]
  rw [size_eq_length h', size_eq_length h, hperm.length_eq, List.length_append]

section Grafted

variable {t : Tree} {copy : Copy} (h : Grafted t copy d d')

include h

theorem Grafted.new_iff_below : (d'.Live x ∧ ¬ d.Live x) ↔ d'.Below copy.root x := by
  rw [h.new_iff]
  simp only [List.mem_singleton, exists_eq_left]

theorem Grafted.live_iff : d'.Live x ↔ d.Live x ∨ d'.Below copy.root x := by
  rw [← h.new_iff_below]
  constructor
  · intro hx
    by_cases hold : d.Live x
    · exact Or.inl hold
    · exact Or.inr ⟨hx, hold⟩
  · rintro (hold | ⟨hx, _⟩)
    · exact h.live x hold
    · exact hx

theorem Grafted.size (hvalid : d.Valid) : d'.size = d.size + t.count := by
  have hroot := (h.fresh (List.mem_singleton_self _)).1
  rw [← h.tree, ← length_descendants h.valid hroot]
  refine size_of_live_iff hvalid h.valid (descendants_nodup h.valid hroot)
    (fun x => by rw [h.live_iff, mem_descendants_iff h.valid hroot]) fun x hx => ?_
  exact (h.new_iff_below.mpr ((mem_descendants_iff h.valid hroot).mp hx)).2

end Grafted

/-! ### Imports -/

/-- What an import of the tree at `n` has made: `f` gives the new node for each node of that tree. -/
structure Copied (f : NodeId → NodeId) (source : Dom) (n : NodeId) (copy : Copy) (d d' : Dom) : Prop
    extends Mirrors f source n d' copy.root where
  parentless : d'.parent copy.root = none
  injective : ∀ x y, source.Below n x → source.Below n y → f x = f y → x = y
  below_iff : ∀ y, d'.Below copy.root y ↔ ∃ x, source.Below n x ∧ f x = y
  fresh : ∀ y, d'.Below copy.root y → ¬ d.Live y
  live_iff : ∀ y, d'.Live y ↔ d.Live y ∨ d'.Below copy.root y
  size : d'.size = d.size + (source.descendants n).length
  kept : ∀ y, d.Live y → d'.node y = d.node y
  marked : copy.marked = (source.descendants n).filterMap fun x => (source.marker x).map (·, f x)

theorem importFrom_copied (hd : d.Valid) (hs : source.Valid) (hn : source.Live n) :
    ∃ f, Copied f source n (d.importFrom source n).2 d (d.importFrom source n).1 := by
  have h := graft_grafted (source.tree n) hd
  obtain ⟨f, hf⟩ := exists_mirrors hs h.valid hn h.tree
  have hroot := (h.fresh (List.mem_singleton_self _)).1
  have hsize := h.size hd
  rw [← length_descendants hs hn] at hsize
  refine ⟨f, hf, h.parentless, ?_, ?_, ?_, fun y => h.live_iff, hsize, ?_, ?_⟩
  · exact fun x y hx hy heq => hf.injective hs h.valid hn hroot hx hy heq
  · exact fun y => hf.below_iff hs h.valid hn hroot
  · exact fun y hy => (h.new_iff_below.mpr hy).2
  · exact fun y hy => h.node hy
  · exact (marked_graft _ hd).trans (hf.markedBelow_eq hs h.valid hn)

end LiveMarkup.Dom
