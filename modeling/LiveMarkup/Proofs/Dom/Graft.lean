import LiveMarkup.Proofs.Dom.Remove

/-!
Grafting a tree makes new nodes only, and what lies below the new root is the tree.
-/

namespace LiveMarkup.Dom

variable {d d' d'' : Dom} {a n p x : NodeId} {roots ids : List NodeId}
  {marked marked' : List (Nat × NodeId)}

/-- New nodes have been made below `roots`; what was there has its place and what it held. `marked`
are the new nodes with a marker. -/
structure Grown (roots : List NodeId) (marked : List (Nat × NodeId)) (d d' : Dom) : Prop where
  valid : d'.Valid
  live : ∀ x, d.Live x → d'.Live x
  content : ∀ x, d.Live x → d'.content x = d.content x
  marker : ∀ x, d.Live x → d'.marker x = d.marker x
  parent : ∀ x, d.Live x → d'.parent x = d.parent x
  new_iff : ∀ x, (d'.Live x ∧ ¬ d.Live x) ↔ ∃ r ∈ roots, d'.Below r x
  marked_iff : ∀ k x, (k, x) ∈ marked ↔ (d'.Live x ∧ ¬ d.Live x) ∧ d'.marker x = some k
  marked_nodup : (marked.map (·.2)).Nodup

/-- A tree has been built below a root without a parent. -/
structure Grafted (t : Tree) (copy : Copy) (d d' : Dom) : Prop extends
    Grown [copy.root] copy.marked d d' where
  children : ∀ x, d.Live x → d'.children x = d.children x
  parentless : d'.parent copy.root = none
  tree : d'.tree copy.root = t

/-- Trees have been built as the last children of `p`. -/
structure GraftedAll (p : NodeId) (trees : List Tree) (ids : List NodeId)
    (marked : List (Nat × NodeId)) (d d' : Dom) : Prop extends Grown ids marked d d' where
  children : ∀ x, d.Live x → d'.children x = if x = p then d.children p ++ ids else d.children x
  trees : ids.map d'.tree = trees

/-- Trees have come in among the children of `p`, which are `kids` then. -/
structure Enrolled (p : NodeId) (trees : List Tree) (ids : List NodeId)
    (marked : List (Nat × NodeId)) (kids : List NodeId) (d d' : Dom) : Prop extends
    Grown ids marked d d' where
  children : ∀ x, d.Live x → d'.children x = if x = p then kids else d.children x
  trees : ids.map d'.tree = trees

theorem Grown.fresh (h : Grown roots marked d d') {r : NodeId} (hr : r ∈ roots) :
    d'.Live r ∧ ¬ d.Live r :=
  (h.new_iff r).mpr ⟨r, hr, .self⟩

theorem Grafted.not_below {t : Tree} {copy : Copy} (h : Grafted t copy d d') (hx : d.Live x) :
    ¬ d'.Below copy.root x := fun hbelow =>
  ((h.new_iff x).mpr ⟨_, List.mem_singleton_self _, hbelow⟩).2 hx

theorem Grafted.enrolled {t : Tree} {copy : Copy} {kids : List NodeId} (hp : d.Live p)
    (h : Grafted t copy d d') (hplaced : Placed p copy.root kids d' d'') (hvalid'' : d''.Valid) :
    Enrolled p [t] [copy.root] copy.marked kids d d'' := by
  obtain ⟨hroot, hfresh⟩ := h.fresh (List.mem_singleton_self _)
  have hxp := h.not_below hp
  have hother : ∀ x, d.Live x → x ≠ copy.root := by
    rintro x hx rfl
    exact hfresh hx
  have hbelow : ∀ x, d''.Below copy.root x ↔ d'.Below copy.root x := by
    intro x
    constructor
    · intro hx
      refine hx.congr fun m _ hm => ?_
      rw [hplaced.parent, if_neg hm]
    · intro hx
      refine hx.congr fun m _ hm => ?_
      rw [hplaced.parent, if_neg hm]
  refine ⟨⟨hvalid'', ?_, ?_, ?_, ?_, ?_, ?_, h.marked_nodup⟩, ?_, ?_⟩
  · exact fun x hx => (hplaced.live x).mpr (h.live x hx)
  · exact fun x hx => (hplaced.content x).trans (h.content x hx)
  · exact fun x hx => (hplaced.marker x).trans (h.marker x hx)
  · intro x hx
    rw [hplaced.parent, if_neg (hother x hx), h.parent x hx]
  · intro x
    rw [hplaced.live, h.new_iff]
    simp only [List.mem_singleton, exists_eq_left, hbelow]
  · intro k x
    rw [h.marked_iff, hplaced.live, hplaced.marker]
  · intro x hx
    rw [hplaced.children]
    split
    · rfl
    · rw [← (Unlinked.of_parentless h.valid h.parentless).children, h.children x hx]
  · rw [List.map_cons, List.map_nil, ← h.tree]
    congr 1
    refine tree_congr h.valid hvalid'' hroot (fun x _ => hplaced.content x)
      (fun x _ => hplaced.marker x) fun x hx => ?_
    rw [hplaced.children, ← (Unlinked.of_parentless h.valid h.parentless).children, if_neg]
    rintro rfl
    exact hxp hx

theorem Grafted.link {t : Tree} {copy : Copy} (hp : d.Live p)
    (h : Grafted t copy d d') :
    GraftedAll p [t] [copy.root] copy.marked d (d'.link p copy.root) := by
  have hroot := (h.fresh (List.mem_singleton_self _)).1
  have hp' := h.live p hp
  have hxp := h.not_below hp
  have hplaced := link_placed h.valid hp' hroot (ne_of_not_below hxp) h.parentless
  have hvalid' : (d'.link p copy.root).Valid := by
    refine hplaced.valid h.valid hp' hroot hxp ?_
    rw [← (Unlinked.of_parentless h.valid h.parentless).children]
    exact List.perm_append_singleton _ _
  rw [h.children p hp] at hplaced
  have henrolled := h.enrolled hp hplaced hvalid'
  refine ⟨henrolled.toGrown, fun x hx => ?_, henrolled.trees⟩
  rw [henrolled.children x hx]

theorem Grown.trans (hvalid : d.Valid) {roots' : List NodeId} (h : Grown roots marked d d')
    (h' : Grown roots' marked' d' d'') : Grown (roots ++ roots') (marked ++ marked') d d'' := by
  have hnew : ∀ x, (d''.Live x ∧ ¬ d.Live x) ↔
      (d'.Live x ∧ ¬ d.Live x) ∨ (d''.Live x ∧ ¬ d'.Live x) := by
    intro x
    constructor
    · rintro ⟨hx'', hx⟩
      by_cases hx' : d'.Live x
      · exact Or.inl ⟨hx', hx⟩
      · exact Or.inr ⟨hx'', hx'⟩
    · rintro (⟨hx', hx⟩ | ⟨hx'', hx'⟩)
      · exact ⟨h'.live x hx', hx⟩
      · exact ⟨hx'', fun hx => hx' (h.live x hx)⟩
  refine ⟨h'.valid, fun x hx => h'.live x (h.live x hx), ?_, ?_, ?_, ?_, ?_, ?_⟩
  · exact fun x hx => (h'.content x (h.live x hx)).trans (h.content x hx)
  · exact fun x hx => (h'.marker x (h.live x hx)).trans (h.marker x hx)
  · exact fun x hx => (h'.parent x (h.live x hx)).trans (h.parent x hx)
  · intro x
    constructor
    · intro hx
      rcases (hnew x).mp hx with hx' | hx''
      · obtain ⟨r, hr, hrx⟩ := (h.new_iff x).mp hx'
        exact ⟨r, List.mem_append_left _ hr, (below_congr h.valid h'.parent hx'.1).mpr hrx⟩
      · obtain ⟨r, hr, hrx⟩ := (h'.new_iff x).mp hx''
        exact ⟨r, List.mem_append_right _ hr, hrx⟩
    · rintro ⟨r, hr, hrx⟩
      have hfresh : d''.Live r ∧ ¬ d.Live r := by
        rcases List.mem_append.mp hr with hr | hr
        · exact ⟨h'.live r (h.fresh hr).1, (h.fresh hr).2⟩
        · exact ⟨(h'.fresh hr).1, fun hold => (h'.fresh hr).2 (h.live r hold)⟩
      refine ⟨h'.valid.live_below hrx hfresh.1, fun hx => hfresh.2 ?_⟩
      refine hvalid.live_of_below ((below_congr hvalid ?_ hx).mp hrx) hx
      exact fun y hy => (h'.parent y (h.live y hy)).trans (h.parent y hy)
  · intro k x
    rw [List.mem_append, h.marked_iff, h'.marked_iff, hnew, or_and_right]
    refine or_congr ?_ Iff.rfl
    refine and_congr_right fun hx => ?_
    rw [h'.marker x hx.1]
  · rw [List.map_append, List.nodup_append]
    refine ⟨h.marked_nodup, h'.marked_nodup, ?_⟩
    rintro x hx y hy rfl
    obtain ⟨⟨k, _⟩, hk, rfl⟩ := List.mem_map.mp hx
    obtain ⟨⟨k', _⟩, hk', heq⟩ := List.mem_map.mp hy
    cases heq
    exact ((h'.marked_iff _ _).mp hk').1.2 ((h.marked_iff _ _).mp hk).1.1

theorem GraftedAll.nil (hvalid : d.Valid) (p : NodeId) : GraftedAll p [] [] [] d d where
  valid := hvalid
  live _ hx := hx
  content _ _ := rfl
  marker _ _ := rfl
  parent _ _ := rfl
  new_iff x := by simp
  marked_iff k x := by
    simp only [List.not_mem_nil, false_iff]
    exact fun h => h.1.2 h.1.1
  marked_nodup := List.nodup_nil
  children x _ := by
    split
    · rename_i heq
      rw [heq, List.append_nil]
    · rfl
  trees := rfl

theorem Enrolled.trans {trees trees' : List Tree} {ids' kids kids' : List NodeId} (hvalid : d.Valid)
    (hp : d.Live p) (h : Enrolled p trees ids marked kids d d')
    (h' : Enrolled p trees' ids' marked' kids' d' d'') :
    Enrolled p (trees ++ trees') (ids ++ ids') (marked ++ marked') kids' d d'' := by
  refine ⟨h.toGrown.trans hvalid h'.toGrown, ?_, ?_⟩
  · intro x hx
    rw [h'.children x (h.live x hx), h.children x hx]
    split <;> rfl
  · rw [List.map_append, ← h.trees, ← h'.trees]
    congr 1
    refine List.map_congr_left fun r hr => ?_
    have hfresh := h.fresh hr
    have hlive : ∀ x, d'.Below r x → d'.Live x := fun x hx => h.valid.live_below hx hfresh.1
    refine tree_congr h.valid h'.valid hfresh.1 (fun x hx => h'.content x (hlive x hx))
      (fun x hx => h'.marker x (hlive x hx)) fun x hx => ?_
    rw [h'.children x (hlive x hx), if_neg]
    rintro rfl
    exact ((h.new_iff x).mpr ⟨r, hr, hx⟩).2 hp

theorem GraftedAll.enrolled {trees : List Tree} (h : GraftedAll p trees ids marked d d') :
    Enrolled p trees ids marked (d.children p ++ ids) d d' :=
  ⟨h.toGrown, h.children, h.trees⟩

theorem GraftedAll.append {trees trees' : List Tree} {ids' : List NodeId} (hvalid : d.Valid)
    (hp : d.Live p) (h : GraftedAll p trees ids marked d d')
    (h' : GraftedAll p trees' ids' marked' d' d'') :
    GraftedAll p (trees ++ trees') (ids ++ ids') (marked ++ marked') d d'' := by
  have hall := h.enrolled.trans hvalid hp h'.enrolled
  refine ⟨hall.toGrown, fun x hx => ?_, hall.trees⟩
  rw [hall.children x hx, h.children p hp, if_pos rfl, List.append_assoc]

theorem Made.grown {made : Content} {root : NodeId}
    (h : Made made root d d') (marker : Option Nat) :
    Grown [root] (marker.toList.map (·, root)) d (d'.setMarker root marker) := by
  have hmarked := setMarker_rewritten h.valid h.live marker
  have hnode : ∀ x, (d'.setMarker root marker).node x =
      if x = root then { Node.alone made with marker } else d.node x := by
    intro x
    rw [node_setMarker h.live, h.node, h.node, if_pos rfl]
    split <;> rfl
  have hother : ∀ x, d.Live x → (d'.setMarker root marker).node x = d.node x := by
    intro x hx
    rw [hnode, if_neg]
    rintro rfl
    exact h.fresh hx
  have hparentless : (d'.setMarker root marker).parent root = none := by
    rw [parent, hnode, if_pos rfl]
    rfl
  have hchildless : (d'.setMarker root marker).children root = [] := by
    rw [children, hnode, if_pos rfl]
    rfl
  have hbelow : ∀ x, (d'.setMarker root marker).Below root x ↔ x = root := by
    intro x
    constructor
    · intro hx
      rcases (hmarked.valid h.valid).below_cases hx with heq | ⟨c, hc, _⟩
      · exact heq
      · rw [hchildless] at hc
        cases hc
    · rintro rfl
      exact .self
  have hnew : ∀ x, ((d'.setMarker root marker).Live x ∧ ¬ d.Live x) ↔ x = root := by
    intro x
    rw [hmarked.live, h.live_iff]
    constructor
    · rintro ⟨heq | hx, hnot⟩
      · exact heq
      · exact absurd hx hnot
    · rintro rfl
      exact ⟨Or.inl rfl, h.fresh⟩
  refine ⟨hmarked.valid h.valid, ?_, ?_, ?_, ?_, ?_, ?_, ?_⟩
  · intro x hx
    rwa [Live, hother x hx]
  · intro x hx
    rw [content, hother x hx, content]
  · intro x hx
    rw [Dom.marker, hother x hx, Dom.marker]
  · intro x hx
    rw [parent, hother x hx, parent]
  · intro x
    rw [hnew]
    simp only [List.mem_singleton, exists_eq_left, hbelow]
  · intro k x
    rw [hnew, List.mem_map]
    constructor
    · rintro ⟨k', hk', heq⟩
      cases heq
      refine ⟨rfl, ?_⟩
      rw [Dom.marker, hnode, if_pos rfl]
      exact Option.mem_toList.mp hk'
    · rintro ⟨rfl, hk⟩
      rw [Dom.marker, hnode, if_pos rfl] at hk
      exact ⟨k, Option.mem_toList.mpr hk, rfl⟩
  · cases marker <;> simp

/-- A new root with what has been built below it. -/
theorem GraftedAll.root {made : Content} {marker : Option Nat} {root : NodeId}
    {trees : List Tree} (hvalid : d.Valid) (hmade : Made made root d d')
    (h : GraftedAll root trees ids marked (d'.setMarker root marker) d'') :
    Grafted (.node made marker trees) ⟨root, marker.toList.map (·, root) ++ marked⟩ d d'' := by
  have hfirst := hmade.grown marker
  have hgrown := hfirst.trans hvalid h.toGrown
  have hroot := (hfirst.fresh (List.mem_singleton_self root)).1
  have hnode : ∀ x, (d'.setMarker root marker).node x =
      if x = root then { Node.alone made with marker } else d.node x := by
    intro x
    rw [node_setMarker hmade.live, hmade.node, hmade.node, if_pos rfl]
    split <;> rfl
  have hchildren : d''.children root = ids := by
    rw [h.children root hroot, if_pos rfl, Dom.children, hnode, if_pos rfl]
    rfl
  have hids : ∀ r ∈ ids, d''.Below root r := fun r hr =>
    h.valid.below_of_mem_children (hchildren ▸ hr)
  refine ⟨⟨h.valid, hgrown.live, hgrown.content, hgrown.marker, hgrown.parent, ?_,
    hgrown.marked_iff, hgrown.marked_nodup⟩, ?_, ?_, ?_⟩
  · intro x
    rw [hgrown.new_iff]
    constructor
    · rintro ⟨r, hr, hrx⟩
      refine ⟨root, List.mem_singleton_self root, ?_⟩
      rcases List.mem_cons.mp hr with rfl | hr
      · exact hrx
      · exact (hids r hr).trans hrx
    · rintro ⟨r, hr, hrx⟩
      exact ⟨r, List.mem_append_left _ hr, hrx⟩
  · intro x hx
    have hne : x ≠ root := by
      rintro rfl
      exact hmade.fresh hx
    rw [h.children x (hfirst.live x hx), if_neg hne, Dom.children, hnode, if_neg hne, Dom.children]
  · change d''.parent root = none
    rw [h.parent root hroot, parent, hnode, if_pos rfl]
    rfl
  · change d''.tree root = _
    rw [tree_eq h.valid, hchildren, h.trees, h.content root hroot, h.marker root hroot, content,
      Dom.marker, hnode, if_pos rfl]
    rfl

mutual

theorem graft_grafted (t : Tree) {d : Dom} (hvalid : d.Valid) :
    Grafted t (d.graft t).2 d (d.graft t).1 := by
  obtain ⟨content, marker, trees⟩ := t
  have hmade := create_made hvalid content
  have hmarked := setMarker_rewritten hmade.valid hmade.live marker
  obtain ⟨ids, hall⟩ := graftChildren_grafted trees (hmarked.valid hmade.valid)
    ((hmarked.live _).mpr hmade.live)
  have hgrafted := hall.root hvalid hmade
  rw [graft]
  cases marker with
  | none => exact hgrafted
  | some index => exact hgrafted

theorem graftChildren_grafted (trees : List Tree) {d : Dom} {p : NodeId} (hvalid : d.Valid)
    (hp : d.Live p) :
    ∃ ids, GraftedAll p trees ids (d.graftChildren p trees).2 d (d.graftChildren p trees).1 := by
  match trees with
  | [] => exact ⟨[], .nil hvalid p⟩
  | t :: rest =>
      have hfirst := (graft_grafted t hvalid).link hp
      obtain ⟨ids, hrest⟩ := graftChildren_grafted rest hfirst.valid (hfirst.live p hp)
      exact ⟨(d.graft t).2.root :: ids, hfirst.append hvalid hp hrest⟩

end

end LiveMarkup.Dom
