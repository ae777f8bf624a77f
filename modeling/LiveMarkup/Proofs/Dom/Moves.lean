import LiveMarkup.Proofs.Dom.Graft
import LiveMarkup.Proofs.Dom.Pouring

/-!
The moves of a live page in its store: a node gives its place to a new one, and a copy of a tree is
put after a node.
-/

namespace LiveMarkup

theorem infix_insert {α : Type} {a b reference x : α} {before after : List α} (hne : a ≠ reference)
    (h : [a, b] <:+: before ++ reference :: after) :
    [a, b] <:+: before ++ reference :: x :: after := by
  induction before with
  | nil =>
      rcases List.infix_cons_iff.mp h with hprefix | hrun
      · exact absurd (List.cons_prefix_cons.mp hprefix).1 hne
      · exact hrun.trans (List.infix_cons (List.infix_cons (List.infix_refl after)))
  | cons y before ih =>
      rcases List.infix_cons_iff.mp h with hprefix | hrun
      · refine List.IsPrefix.isInfix ?_
        obtain ⟨rfl, hnext⟩ := List.cons_prefix_cons.mp hprefix
        refine List.cons_prefix_cons.mpr ⟨rfl, ?_⟩
        cases before with
        | nil => exact List.cons_prefix_cons.mpr ⟨(List.cons_prefix_cons.mp hnext).1, List.nil_prefix⟩
        | cons z before =>
            exact List.cons_prefix_cons.mpr ⟨(List.cons_prefix_cons.mp hnext).1, List.nil_prefix⟩
      · exact List.infix_cons (ih hrun)

namespace Dom

variable {d d' d'' : Dom} {old new n p x y anchor root : NodeId} {made : Content}

/-! ### Nodes that go -/

/-- What holds of a node when it holds of its parent holds of all nodes. -/
theorem Valid.induction_up {P : NodeId → Prop} (h : d.Valid)
    (hstep : ∀ n, d.Live n → (∀ p, d.parent n = some p → P p) → P n) (hn : d.Live n) : P n := by
  induction hlength : (d.path n).length using Nat.strong_induction_on generalizing n with
  | h length ih =>
      refine hstep n hn fun p hp => ih (d.path p).length ?_ (h.live_of_parent hp).2 rfl
      have hpath := length_path_of_mem_children h ((h.mem_children p n).mpr hp)
      omega

/-- Nodes of `gone` may have been freed and nodes of `loose` may have lost their parents. -/
structure Pruned (loose gone : NodeId → Prop) (d d' : Dom) : Prop where
  valid : d'.Valid
  live : ∀ x, d'.Live x → d.Live x
  stays : ∀ x, d.Live x → ¬ gone x → d'.Live x
  content : ∀ x, d'.Live x → d'.content x = d.content x
  link : ∀ x p, d'.parent x = some p → d.parent x = some p
  parent : ∀ x, d'.Live x → ¬ loose x → d'.parent x = d.parent x
  children : ∀ p, (d'.children p).Sublist (d.children p)

namespace Pruned

variable {loose gone : NodeId → Prop}

theorem refl (hvalid : d.Valid) : Pruned loose gone d d :=
  ⟨hvalid, fun _ hx => hx, fun _ hx _ => hx, fun _ _ => rfl, fun _ _ hp => hp, fun _ _ _ => rfl,
    fun _ => .refl _⟩

variable (h : Pruned loose gone d d')

include h

theorem below (hbelow : d'.Below a x) : d.Below a x := by
  induction hbelow with
  | self => exact .self
  | step hparent _ ih => exact .step (h.link _ _ hparent) ih

theorem detach (hn : loose n) : Pruned loose gone d (d'.detach n).1 := by
  have hu := detach_unlinked h.valid n
  refine ⟨hu.valid h.valid, fun x hx => h.live x ((hu.live x).mp hx),
    fun x hx hnot => (hu.live x).mpr (h.stays x hx hnot), fun x hx => ?_, fun x p hp => ?_,
    fun x hx hnot => ?_, fun p => ?_⟩
  · rw [hu.content, h.content x ((hu.live x).mp hx)]
  · rw [hu.parent] at hp
    split at hp
    · cases hp
    · exact h.link x p hp
  · rw [hu.parent, if_neg, h.parent x ((hu.live x).mp hx) hnot]
    rintro rfl
    exact hnot hn
  · rw [hu.children]
    exact List.filter_sublist.trans (h.children p)

theorem remove (hn : ∀ x, d'.Below n x → gone x) : Pruned loose gone d (d'.remove n) := by
  by_cases hlive : d'.Live n
  · have hr := remove_removed h.valid hlive
    have hold : ∀ x, (d'.remove n).Live x → d'.Live x := fun x hx => ((hr.live x).mp hx).1
    refine ⟨hr.valid, fun x hx => h.live x (hold x hx), fun x hx hnot => ?_, fun x hx => ?_,
      fun x p hp => ?_, fun x hx hnot => ?_, fun p => ?_⟩
    · exact (hr.live x).mpr ⟨h.stays x hx hnot, fun hbelow => hnot (hn x hbelow)⟩
    · rw [hr.content x hx, h.content x (hold x hx)]
    · have hx := (hr.valid.live_of_parent hp).1
      rw [hr.parent x hx] at hp
      exact h.link x p hp
    · rw [hr.parent x hx, h.parent x (hold x hx) hnot]
    · by_cases hp : (d'.remove n).Live p
      · rw [hr.children p hp]
        exact List.filter_sublist.trans (h.children p)
      · rw [children_of_not_live hr.valid hp]
        exact List.nil_sublist _
  · rwa [remove_of_not_live hlive]

theorem removeAll {kids : List NodeId} (hkids : ∀ k ∈ kids, ∀ x, d'.Below k x → gone x) :
    Pruned loose gone d (kids.foldl Dom.remove d') := by
  induction kids generalizing d' with
  | nil => exact h
  | cons k rest ih =>
      have hfirst := h.remove (hkids k List.mem_cons_self)
      have hlast : Pruned (fun _ => False) (d'.Below k) d' (d'.remove k) :=
        (refl h.valid).remove fun _ hx => hx
      exact ih hfirst fun k' hk' x hx =>
        hkids k' (List.mem_cons_of_mem _ hk') x (hlast.below hx)

/-- A node whose children have all stayed has them in their order. -/
theorem children_eq (hvalid : d.Valid) (hkids : ∀ x ∈ d.children p, ¬ gone x ∧ ¬ loose x) :
    d'.children p = d.children p := by
  have hsub : d.children p ⊆ d'.children p := fun x hx => by
    obtain ⟨hstay, hfixed⟩ := hkids x hx
    have hlive := h.stays x (hvalid.live_of_mem_children hx) hstay
    rw [h.valid.mem_children, h.parent x hlive hfixed]
    exact (hvalid.mem_children p x).mp hx
  exact (h.children p).eq_of_length_le ((hvalid.children_nodup p).subperm hsub).length_le

end Pruned

theorem not_live_remove (hvalid : d.Valid) (n : NodeId) : ¬ (d.remove n).Live n := by
  by_cases hn : d.Live n
  · exact fun hlive => (((remove_removed hvalid hn).live n).mp hlive).2 .self
  · rwa [remove_of_not_live hn]

/-! ### A node by itself that goes -/

/-- A node without parent and children is gone, and all others are as they were. -/
structure Dropped (n : NodeId) (d d' : Dom) : Prop where
  valid : d'.Valid
  live : ∀ x, d'.Live x ↔ d.Live x ∧ x ≠ n
  node : ∀ x, d.Live x → x ≠ n → d'.node x = d.node x

namespace Dropped

variable (h : Dropped n d d') (hx : d.Live x) (hne : x ≠ n)

include h hx hne

theorem content : d'.content x = d.content x := by
  rw [Dom.content, h.node x hx hne, Dom.content]

theorem marker : d'.marker x = d.marker x := by
  rw [Dom.marker, h.node x hx hne, Dom.marker]

theorem parent : d'.parent x = d.parent x := by
  rw [Dom.parent, h.node x hx hne, Dom.parent]

theorem children : d'.children x = d.children x := by
  rw [Dom.children, h.node x hx hne, Dom.children]

end Dropped

theorem remove_dropped (hvalid : d.Valid) (hn : d.Live n) (hparent : d.parent n = none)
    (hchildren : d.children n = []) : Dropped n d (d.remove n) := by
  have hremoved := remove_removed hvalid hn
  have hlive : ∀ x, (d.remove n).Live x ↔ d.Live x ∧ x ≠ n := by
    intro x
    rw [hremoved.live]
    refine and_congr_right fun _ => not_congr ⟨hvalid.eq_of_below hchildren, ?_⟩
    rintro rfl
    exact .self
  refine ⟨hremoved.valid, hlive, fun x hx hne => ?_⟩
  have hx' := (hlive x).mpr ⟨hx, hne⟩
  refine node_ext (hremoved.content x hx') (hremoved.parent x hx') ?_ (hremoved.marker x hx')
    ⟨fun _ => hx, fun _ => hx'⟩
  rw [hremoved.children x hx', filter_ne_of_not_mem (hvalid.not_mem_children_of_parent hparent x)]

/-! ### A new node in place of another one -/

/-- A new node has the place of `old`, which is gone. -/
structure Replanted (old new p : NodeId) (made : Content) (d d' : Dom) : Prop where
  valid : d'.Valid
  fresh : ¬ d.Live new
  live : ∀ x, d'.Live x ↔ x = new ∨ (d.Live x ∧ x ≠ old)
  content_new : d'.content new = made
  marker_new : d'.marker new = none
  parent_new : d'.parent new = some p
  children_new : d'.children new = []
  content : ∀ x, d.Live x → x ≠ old → d'.content x = d.content x
  marker : ∀ x, d.Live x → x ≠ old → d'.marker x = d.marker x
  parent : ∀ x, d.Live x → x ≠ old → d'.parent x = d.parent x
  children : ∀ x, d.Live x → x ≠ old →
    d'.children x = (d.children x).map fun c => if c = old then new else c

theorem replant_replanted (hvalid : d.Valid) (hparent : d.parent old = some p)
    (hchildren : d.children old = []) (made : Content) :
    ((d.create made).1.replaceWith old (d.create made).2).2 = true ∧
      Replanted old (d.create made).2 p made d
        (((d.create made).1.replaceWith old (d.create made).2).1.remove old) := by
  obtain ⟨hdone, hs⟩ := supplant_supplanted hvalid hparent made
  refine ⟨hdone, ?_⟩
  generalize ((d.create made).1.replaceWith old (d.create made).2).1 = d' at hs ⊢
  generalize (d.create made).2 = new at hs ⊢
  have hold := (hvalid.live_of_parent hparent).1
  have hstays : ∀ {x}, d.Live x → d'.Live x := fun hx => (hs.live _).mpr (Or.inr hx)
  -- What is removed has neither a parent nor children.
  have horphan : d'.parent old = none := (hs.parent old hold).trans (if_pos rfl)
  have hchildless : d'.children old = [] := by
    rw [hs.children old hold, hchildren, List.map_nil]
  have hdropped := remove_dropped hs.valid (hstays hold) horphan hchildless
  have hnew := (hs.live new).mpr (Or.inl rfl)
  have hne : new ≠ old := by
    rintro rfl
    exact hs.fresh hold
  refine ⟨hdropped.valid, hs.fresh, fun x => ?_, ?_, ?_, ?_, ?_, ?_, ?_, ?_, ?_⟩
  · rw [hdropped.live, hs.live]
    constructor
    · rintro ⟨rfl | hx, hxold⟩
      · exact Or.inl rfl
      · exact Or.inr ⟨hx, hxold⟩
    · rintro (rfl | ⟨hx, hxold⟩)
      · exact ⟨Or.inl rfl, hne⟩
      · exact ⟨Or.inr hx, hxold⟩
  · rw [hdropped.content hnew hne, hs.content_new]
  · rw [hdropped.marker hnew hne, hs.marker_new]
  · rw [hdropped.parent hnew hne, hs.parent_new]
  · rw [hdropped.children hnew hne, hs.children_new]
  · intro x hx hxold
    rw [hdropped.content (hstays hx) hxold, hs.content x hx]
  · intro x hx hxold
    rw [hdropped.marker (hstays hx) hxold, hs.marker x hx]
  · intro x hx hxold
    rw [hdropped.parent (hstays hx) hxold, hs.parent x hx, if_neg hxold]
  · intro x hx hxold
    rw [hdropped.children (hstays hx) hxold, hs.children x hx]

/-! ### A node after another one -/

/-- A node from elsewhere is put after `anchor`. -/
theorem insertAfter_placed (hvalid : d.Valid) (hparent : d.parent anchor = some p)
    (hx : d.Live x) (hother : d.parent x ≠ some p) (hbelow : ¬ d.Below x p) :
    (d.insertAfter anchor x).2 = true ∧ ∃ before after,
      d.children p = before ++ anchor :: after ∧
        Placed p x (before ++ anchor :: x :: after) d (d.insertAfter anchor x).1 ∧
          (d.insertAfter anchor x).1.Valid := by
  have hp := (hvalid.live_of_parent hparent).2
  have hne : x ≠ anchor := by
    rintro rfl
    exact hother hparent
  obtain ⟨before, after, hsplit, hnot, _⟩ := hvalid.split_siblings hparent hne
  obtain ⟨hdone, hplaced⟩ := insertBeside_placed hvalid 1 hparent hx hne hbelow
  have hkids := hplaced
  rw [hsplit, placeAt_one x hnot] at hkids
  rw [hvalid.filter_children_of_ne hother] at hsplit
  refine ⟨hdone, before, after, hsplit, hkids, hplaced.valid hvalid hp hx hbelow ?_⟩
  exact placeAt_perm _ _ _ _

/-- A copy of a tree has been put after `anchor`. -/
structure Sprouted (anchor p root : NodeId) (marked : List (Nat × NodeId)) (t : Tree) (d d' : Dom) :
    Prop where
  valid : d'.Valid
  live : ∀ x, d.Live x → d'.Live x
  content : ∀ x, d.Live x → d'.content x = d.content x
  marker : ∀ x, d.Live x → d'.marker x = d.marker x
  parent : ∀ x, d.Live x → d'.parent x = d.parent x
  children : ∀ x, d.Live x → x ≠ p → d'.children x = d.children x
  siblings : ∃ before after, d.children p = before ++ anchor :: after ∧
    d'.children p = before ++ anchor :: root :: after
  new_iff : ∀ x, (d'.Live x ∧ ¬ d.Live x) ↔ d'.Below root x
  tree : d'.tree root = t
  marked_iff : ∀ k x, (k, x) ∈ marked ↔ d'.Below root x ∧ d'.marker x = some k
  marked_nodup : (marked.map (·.2)).Nodup

theorem children_of_tree (hvalid : d.Valid) {content : Content} {marker : Option Nat} {t : Tree}
    (h : d.tree n = .node content marker [t]) : ∃ c, d.children n = [c] ∧ d.tree c = t := by
  rw [tree_eq hvalid, Tree.node.injEq] at h
  obtain ⟨c, rest, hchildren, htree, hrest⟩ := List.map_eq_cons_iff.mp h.2.2
  rw [List.map_eq_nil_iff] at hrest
  exact ⟨c, hrest ▸ hchildren, htree⟩

/-- The only child of `top` has been put after `anchor`, and `top` is gone. -/
structure Transplanted (anchor p top root : NodeId) (d d' : Dom) : Prop where
  valid : d'.Valid
  live : ∀ x, d'.Live x ↔ d.Live x ∧ x ≠ top
  content : ∀ x, d.Live x → x ≠ top → d'.content x = d.content x
  marker : ∀ x, d.Live x → x ≠ top → d'.marker x = d.marker x
  parent : ∀ x, d.Live x → x ≠ top → d'.parent x = if x = root then some p else d.parent x
  children : ∀ x, d.Live x → x ≠ top → x ≠ p → d'.children x = d.children x
  siblings : ∃ before after, d.children p = before ++ anchor :: after ∧
    d'.children p = before ++ anchor :: root :: after

theorem transplant_transplanted {top : NodeId} (hvalid : d.Valid) (hanchor : d.parent anchor = some p)
    (htop : d.parent top = none) (hchild : d.children top = [root]) (hne : top ≠ p)
    (hbelow : ¬ d.Below root p) : (d.insertAfter anchor root).2 = true ∧
      Transplanted anchor p top root d ((d.insertAfter anchor root).1.remove top) := by
  have hmem : root ∈ d.children top := by
    rw [hchild]
    exact List.mem_singleton_self root
  have hup := (hvalid.mem_children top root).mp hmem
  obtain ⟨hroot, hlive⟩ := hvalid.live_of_parent hup
  have hp := (hvalid.live_of_parent hanchor).2
  obtain ⟨hdone, before, after, hsplit, hplaced, hvalid'⟩ := insertAfter_placed hvalid hanchor hroot
    (by rw [hup, Ne, Option.some.injEq]; exact hne) hbelow
  refine ⟨hdone, ?_⟩
  generalize (d.insertAfter anchor root).1 = d' at hplaced hvalid' ⊢
  have htoproot : top ≠ root := by
    rintro rfl
    rw [htop] at hup
    cases hup
  have hbare : d'.children top = [] := by
    rw [hplaced.children, if_neg hne, hchild]
    simp
  have horphan : d'.parent top = none := by rw [hplaced.parent, if_neg htoproot, htop]
  have hdropped := remove_dropped hvalid' ((hplaced.live top).mpr hlive) horphan hbare
  have hlive' : ∀ {x}, d.Live x → d'.Live x := fun hx => (hplaced.live _).mpr hx
  refine ⟨hdropped.valid, fun x => ?_, fun x hx hxt => ?_, fun x hx hxt => ?_, fun x hx hxt => ?_,
    fun x hx hxt hxp => ?_, before, after, hsplit, ?_⟩
  · rw [hdropped.live, hplaced.live]
  · rw [hdropped.content (hlive' hx) hxt, hplaced.content]
  · rw [hdropped.marker (hlive' hx) hxt, hplaced.marker]
  · rw [hdropped.parent (hlive' hx) hxt, hplaced.parent]
  · rw [hdropped.children (hlive' hx) hxt, hplaced.children, if_neg hxp, filter_ne_of_not_mem]
    intro hroot
    rw [(hvalid.mem_children x root).mp hroot, Option.some.injEq] at hup
    exact hxt hup
  · rw [hdropped.children (hlive' hp) hne.symm, hplaced.children, if_pos rfl]

theorem ne_of_below_child {top : NodeId} (htop : d.parent top = none)
    (hup : d.parent root = some top) (hbelow : d.Below root x) : x ≠ top := by
  rintro rfl
  have heq := hbelow.eq_of_up_none htop
  rw [heq, htop] at hup
  cases hup

section Transplanted

variable {top : NodeId} (h : Transplanted anchor p top root d d') (hvalid : d.Valid)
  (htop : d.parent top = none) (hup : d.parent root = some top)

include h hvalid htop hup

theorem Transplanted.below_iff : d'.Below root x ↔ d.Below root x := by
  have hroot := (hvalid.live_of_parent hup).1
  have hroot' := (h.live root).mpr ⟨hroot, ne_of_below_child htop hup .self⟩
  constructor
  · intro hbelow
    refine hbelow.congr fun m hm hne => ?_
    obtain ⟨hm', hmt⟩ := (h.live m).mp (h.valid.live_below hm hroot')
    rw [h.parent m hm' hmt, if_neg hne]
  · intro hbelow
    refine hbelow.congr fun m hm hne => ?_
    rw [h.parent m (hvalid.live_below hm hroot) (ne_of_below_child htop hup hm), if_neg hne]

theorem Transplanted.tree (hbelow : ¬ d.Below root p) : d'.tree root = d.tree root := by
  have hroot := (hvalid.live_of_parent hup).1
  have hlive : ∀ x, d.Below root x → d.Live x ∧ x ≠ top := fun x hx =>
    ⟨hvalid.live_below hx hroot, ne_of_below_child htop hup hx⟩
  refine tree_congr hvalid h.valid hroot (fun x hx => ?_) (fun x hx => ?_) fun x hx => ?_
  · exact h.content x (hlive x hx).1 (hlive x hx).2
  · exact h.marker x (hlive x hx).1 (hlive x hx).2
  · refine h.children x (hlive x hx).1 (hlive x hx).2 ?_
    rintro rfl
    exact hbelow hx

end Transplanted

/-- The only element of a template, put after `anchor`. -/
theorem sprout_sprouted (hvalid : d.Valid) (hparent : d.parent anchor = some p) {inner : Tree}
    (hinner : inner.content.isElement = true) {copy : Copy} (hgraft :
      d.graft (.node .fragment none [inner]) = (d', copy)) :
    ∃ root, d'.firstElementChild? copy.root = some root ∧
      (d'.insertAfter anchor root).2 = true ∧
        Sprouted anchor p root (copy.marked.filter fun entry => d'.contains root entry.2) inner d
          ((d'.insertAfter anchor root).1.remove copy.root) := by
  have hgrafted := graft_grafted (.node .fragment none [inner]) hvalid
  rw [hgraft] at hgrafted
  obtain ⟨hlive, hp⟩ := hvalid.live_of_parent hparent
  obtain ⟨root, hchild, htree⟩ := children_of_tree hgrafted.valid hgrafted.tree
  have hmem : root ∈ d'.children copy.root := by
    rw [hchild]
    exact List.mem_singleton_self root
  have hup : d'.parent root = some copy.root := (hgrafted.valid.mem_children _ _).mp hmem
  have hcopy := hgrafted.fresh (List.mem_singleton_self copy.root)
  have hfirst : d'.firstElementChild? copy.root = some root := by
    have hcontent := content_of_tree hgrafted.valid root
    rw [htree] at hcontent
    rw [firstElementChild?, hchild]
    simp [← hcontent, hinner]
  have hanchor : d'.parent anchor = some p := by rw [hgrafted.parent anchor hlive, hparent]
  have hnew : ¬ d'.Below root p := fun hbelow =>
    hgrafted.not_below hp ((Above.of_up hup).trans hbelow)
  have hcopyp : copy.root ≠ p := by
    rintro rfl
    exact hcopy.2 hp
  obtain ⟨hdone, hmoved⟩ := transplant_transplanted hgrafted.valid hanchor hgrafted.parentless hchild
    hcopyp hnew
  refine ⟨root, hfirst, hdone, ?_⟩
  generalize (d'.insertAfter anchor root).1.remove copy.root = d'' at hmoved ⊢
  have hbelow := fun x => hmoved.below_iff (x := x) hgrafted.valid hgrafted.parentless hup
  have hold : ∀ x, d.Live x → d'.Live x ∧ x ≠ copy.root := fun x hx =>
    ⟨hgrafted.live x hx, fun heq => hcopy.2 (heq ▸ hx)⟩
  -- What is new is in the copy, and all of that but its root is at or below the new node.
  have hnews : ∀ x, (d''.Live x ∧ ¬ d.Live x) ↔ d'.Below root x := by
    intro x
    rw [hmoved.live, and_right_comm, hgrafted.new_iff]
    simp only [List.mem_singleton, exists_eq_left]
    constructor
    · rintro ⟨hx, hne⟩
      rcases hgrafted.valid.below_cases hx with heq | ⟨c, hc, hcx⟩
      · exact absurd heq hne
      · rw [hchild, List.mem_singleton] at hc
        exact hc ▸ hcx
    · exact fun hx => ⟨(Above.of_up hup).trans hx,
        ne_of_below_child hgrafted.parentless hup hx⟩
  have hnotroot : ∀ x, d.Live x → x ≠ root := by
    rintro x hx rfl
    exact ((hnews x).mpr .self).2 hx
  have hmarker : ∀ x, d'.Below root x → d''.marker x = d'.marker x := fun x hx =>
    have hx' := (hmoved.live x).mp ((hnews x).mpr hx).1
    hmoved.marker x hx'.1 hx'.2
  have hsiblings := hmoved.siblings
  rw [hgrafted.children p hp] at hsiblings
  refine ⟨hmoved.valid, fun x hx => (hmoved.live x).mpr (hold x hx), fun x hx => ?_, fun x hx => ?_,
    fun x hx => ?_, fun x hx hne => ?_, hsiblings, fun x => ?_, ?_, fun k x => ?_, ?_⟩
  · rw [hmoved.content x (hold x hx).1 (hold x hx).2, hgrafted.content x hx]
  · rw [hmoved.marker x (hold x hx).1 (hold x hx).2, hgrafted.marker x hx]
  · rw [hmoved.parent x (hold x hx).1 (hold x hx).2, if_neg (hnotroot x hx), hgrafted.parent x hx]
  · rw [hmoved.children x (hold x hx).1 (hold x hx).2 hne, hgrafted.children x hx]
  · rw [hnews, hbelow]
  · rw [hmoved.tree hgrafted.valid hgrafted.parentless hup hnew, htree]
  · rw [List.mem_filter, hgrafted.marked_iff, hbelow]
    dsimp only
    constructor
    · rintro ⟨⟨hx, hmark⟩, hcontains⟩
      have hx' := (contains_iff hgrafted.valid hx.1).mp hcontains
      exact ⟨hx', (hmarker x hx').trans hmark⟩
    · rintro ⟨hx, hmark⟩
      obtain ⟨hlive'', hfresh⟩ := (hnews x).mpr hx
      have hlive' := ((hmoved.live x).mp hlive'').1
      exact ⟨⟨⟨hlive', hfresh⟩, (hmarker x hx).symm.trans hmark⟩,
        (contains_iff hgrafted.valid hlive').mpr hx⟩
  · exact hgrafted.marked_nodup.sublist (List.filter_sublist.map _)

/-! ### Children that move together -/

/-- The children of `source`, which is gone, are the ones of `target`. -/
structure Rehomed (source target : NodeId) (d d' : Dom) : Prop where
  valid : d'.Valid
  live : ∀ x, d'.Live x ↔ d.Live x ∧ x ≠ source
  content : ∀ x, d.Live x → x ≠ source → d'.content x = d.content x
  parent : ∀ x, d.Live x → x ≠ source → d'.parent x =
    if d.parent x = some source then some target else d.parent x
  children : ∀ x, d.Live x → x ≠ source → d'.children x =
    if x = target then d.children source else d.children x

theorem rehome_rehomed {source target : NodeId} (hvalid : d.Valid) (hsource : d.Live source)
    (htarget : d.Live target) (hbelow : ¬ d.Below source target)
    (hparent : d.parent source = none) (hbare : d.children target = []) :
    Rehomed source target d ((d.moveChildren source target).remove source) := by
  have hmoved := moveChildren_emptied hvalid hsource htarget hbelow
  have hvalid' := (moveChildren_valid hvalid hsource htarget).2
  have hne := ne_of_not_below hbelow
  have hbare' : (d.moveChildren source target).children source = [] := by
    rw [hmoved.children, if_neg hne, if_pos rfl]
  have hparent' : (d.moveChildren source target).parent source = none := by
    rw [hmoved.parent, if_neg hvalid.not_mem_children_self, hparent]
  have hdropped := remove_dropped hvalid' ((hmoved.live source).mpr hsource) hparent' hbare'
  have hlive' : ∀ {x}, d.Live x → (d.moveChildren source target).Live x := fun hx =>
    (hmoved.live _).mpr hx
  refine ⟨hdropped.valid, fun x => ?_, fun x hx hxs => ?_, fun x hx hxs => ?_, fun x hx hxs => ?_⟩
  · rw [hdropped.live, hmoved.live]
  · rw [hdropped.content (hlive' hx) hxs, hmoved.content]
  · rw [hdropped.parent (hlive' hx) hxs, hmoved.parent]
    simp only [hvalid.mem_children]
  · rw [hdropped.children (hlive' hx) hxs, hmoved.children, if_neg hxs, hbare, List.nil_append]

end Dom

end LiveMarkup
