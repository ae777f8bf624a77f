import LiveMarkup.Dom.Edit
import LiveMarkup.Proofs.Dom.Valid

/-!
Changes of links: unlinking a node and placing it among the children of another one. All moves of the
store are an unlinking and a placing.
-/

namespace LiveMarkup.Dom

variable {d d' : Dom} {a n p x y : NodeId} {kids : List NodeId}

theorem node_ext (hcontent : d'.content n = d.content n) (hparent : d'.parent n = d.parent n)
    (hchildren : d'.children n = d.children n) (hmarker : d'.marker n = d.marker n)
    (hlive : d'.Live n ↔ d.Live n) : d'.node n = d.node n := by
  have hfreed : (d'.node n).freed = (d.node n).freed := Bool.eq_iff_iff.mpr (by
    simpa [Live] using not_congr hlive)
  rw [content, content] at hcontent
  rw [parent, parent] at hparent
  rw [children, children] at hchildren
  rw [marker, marker] at hmarker
  generalize d.node n = i at *
  generalize d'.node n = i' at *
  obtain ⟨_, _, _, _, _⟩ := i
  obtain ⟨_, _, _, _, _⟩ := i'
  simp only at hcontent hparent hchildren hmarker hfreed
  rw [hcontent, hparent, hchildren, hmarker, hfreed]

theorem ext_node (hsize : d'.nodes.size = d.nodes.size) (hfree : d'.free = d.free)
    (hnode : ∀ n, d'.node n = d.node n) : d' = d := by
  have hnodes : d'.nodes = d.nodes := by
    refine Array.ext hsize fun i hi hi' => ?_
    have hat := hnode ⟨i⟩
    rwa [node, node, Array.getElem?_eq_getElem hi, Array.getElem?_eq_getElem hi'] at hat
  cases d
  cases d'
  rw [Dom.mk.injEq]
  exact ⟨hnodes, hfree⟩

/-- The same nodes, with other links between them. -/
structure Relinked (d d' : Dom) : Prop where
  size : d'.nodes.size = d.nodes.size
  free : d'.free = d.free
  live : ∀ n, d'.Live n ↔ d.Live n
  content : ∀ n, d'.content n = d.content n
  marker : ∀ n, d'.marker n = d.marker n

/-- `x` has lost its parent. -/
structure Unlinked (x : NodeId) (d d' : Dom) : Prop extends Relinked d d' where
  parent : ∀ n, d'.parent n = if n = x then none else d.parent n
  children : ∀ n, d'.children n = (d.children n).filter (· ≠ x)

/-- `x` has become a child of `p`, whose children are `kids` then. -/
structure Placed (p x : NodeId) (kids : List NodeId) (d d' : Dom) : Prop extends
    Relinked d d' where
  parent : ∀ n, d'.parent n = if n = x then some p else d.parent n
  children : ∀ n, d'.children n = if n = p then kids else (d.children n).filter (· ≠ x)

theorem Relinked.refl (d : Dom) : Relinked d d :=
  ⟨rfl, rfl, fun _ => Iff.rfl, fun _ => rfl, fun _ => rfl⟩

theorem Relinked.trans {d'' : Dom} (h : Relinked d d') (h' : Relinked d' d'') :
    Relinked d d'' where
  size := h'.size.trans h.size
  free := h'.free.trans h.free
  live n := (h'.live n).trans (h.live n)
  content n := (h'.content n).trans (h.content n)
  marker n := (h'.marker n).trans (h.marker n)

theorem Relinked.symm (h : Relinked d d') : Relinked d' d :=
  ⟨h.size.symm, h.free.symm, fun n => (h.live n).symm, fun n => (h.content n).symm,
    fun n => (h.marker n).symm⟩

theorem Relinked.update (d : Dom) (n : NodeId) {f : Node → Node}
    (hcontent : ∀ i, (f i).content = i.content) (hmarker : ∀ i, (f i).marker = i.marker)
    (hfreed : ∀ i, (f i).freed = i.freed) : Relinked d (d.update n f) := by
  have hread : ∀ {β : Type} (read : Node → β), (∀ i, read (f i) = read i) →
      ∀ x, read ((d.update n f).node x) = read (d.node x) := by
    intro β read hf x
    by_cases heq : x = n
    · subst heq
      by_cases hx : d.Live x
      · rw [node_update_self hx, hf]
      · by_cases hlt : x.slot < d.nodes.size
        · simp [node, Dom.update, Array.getElem?_modify, Array.getElem?_eq_getElem hlt, hf]
        · have hle := Nat.le_of_not_lt hlt
          rw [node_of_size_le hle, node_of_size_le (by rwa [size_update])]
    · rw [node_update_of_ne heq]
  exact ⟨size_update d n f, rfl, fun x => by rw [Live, Live, hread (·.freed) hfreed],
    hread (·.content) hcontent, hread (·.marker) hmarker⟩

namespace Relinked

variable (h : Relinked d d')

include h

theorem mem_free (hvalid : d.Valid) (n : NodeId) :
    n ∈ d'.free ↔ n.slot < d'.nodes.size ∧ ¬ d'.Live n := by
  rw [h.free, h.size, h.live]
  exact hvalid.mem_free n

theorem vacant_eq (hvalid : d.Valid) (hn : ¬ d'.Live n) (hparent : d'.parent n = none)
    (hchildren : d'.children n = []) : d'.node n = .vacant := by
  have hn' : ¬ d.Live n := fun hold => hn ((h.live n).mpr hold)
  rw [← hvalid.vacant_eq n hn']
  refine node_ext (h.content n) ?_ ?_ (h.marker n) (h.live n)
  · rw [hparent, parent_of_not_live hvalid hn']
  · rw [hchildren, children_of_not_live hvalid hn']

end Relinked

theorem filter_ne_of_not_mem {l : List NodeId} (h : x ∉ l) : l.filter (· ≠ x) = l := by
  refine List.filter_eq_self.mpr fun y hy => decide_eq_true ?_
  rintro rfl
  exact h hy

/-- Only one child list has a node in it. -/
theorem Valid.filter_children_of_ne (hvalid : d.Valid) (hparent : d.parent x ≠ some n) :
    (d.children n).filter (· ≠ x) = d.children n :=
  filter_ne_of_not_mem fun hmem => hparent ((hvalid.mem_children n x).mp hmem)

/-! ### Unlinking -/

namespace Unlinked

theorem of_parentless (hvalid : d.Valid) (hx : d.parent x = none) : Unlinked x d d where
  toRelinked := .refl d
  parent n := by
    split
    · rename_i heq
      rw [heq, hx]
    · rfl
  children n := by
    refine (hvalid.filter_children_of_ne ?_).symm
    rw [hx]
    exact (Option.some_ne_none n).symm

theorem valid (h : Unlinked x d d') (hvalid : d.Valid) : d'.Valid where
  free_nodup := h.free ▸ hvalid.free_nodup
  mem_free := h.mem_free hvalid
  vacant_eq n hn := by
    have hn' : ¬ d.Live n := fun hold => hn ((h.live n).mpr hold)
    refine h.vacant_eq hvalid hn ?_ ?_
    · rw [h.parent, parent_of_not_live hvalid hn', ite_self]
    · rw [h.children, children_of_not_live hvalid hn', List.filter_nil]
  mem_children p n := by
    rw [h.children, h.parent, List.mem_filter, hvalid.mem_children]
    by_cases heq : n = x <;> simp [heq]
  children_nodup p := by
    rw [h.children]
    exact (hvalid.children_nodup p).filter _
  acyclic := hvalid.acyclic.of_sub fun n p hup => by
    rw [h.parent] at hup
    split at hup
    · cases hup
    · exact hup

theorem below (h : Unlinked x d d') (hbelow : d'.Below a n) : d.Below a n := by
  refine hbelow.of_sub fun m p _ hup => ?_
  rw [h.parent] at hup
  split at hup
  · cases hup
  · exact hup

end Unlinked

theorem detach_unlinked (hvalid : d.Valid) (x : NodeId) : Unlinked x d (d.detach x).1 := by
  unfold detach
  split
  · rename_i p hp
    obtain ⟨hx, hplive⟩ := hvalid.live_of_parent hp
    have hne : p ≠ x := by
      rintro rfl
      exact hvalid.acyclic p p hp .self
    have hfirst : Relinked d (d.update x ({ · with parent := none })) :=
      .update d x (fun _ => rfl) (fun _ => rfl) fun _ => rfl
    have hplive' := (hfirst.live p).mpr hplive
    refine ⟨hfirst.trans (.update _ p (fun _ => rfl) (fun _ => rfl) fun _ => rfl), ?_, ?_⟩
    · intro n
      rw [parent, node_update hplive', node_update hx, node_update hx, if_neg hne]
      by_cases heq : n = x
      · rw [if_neg (heq ▸ Ne.symm hne), if_pos heq, if_pos heq]
      · rw [if_neg heq, if_neg heq, parent]
        split
        · rename_i heq
          rw [heq]
        · rfl
    · intro n
      have hother : n ≠ p → (d.children n).filter (· ≠ x) = d.children n := by
        intro hn
        refine hvalid.filter_children_of_ne ?_
        rw [hp, Ne, Option.some.injEq]
        exact hn.symm
      rw [children, node_update hplive', node_update hx, node_update hx, if_neg hne]
      by_cases heq : n = p
      · rw [if_pos heq, heq, children]
      · rw [if_neg heq, hother heq, children]
        split
        · rename_i heq
          rw [heq]
        · rfl
  · rename_i hx
    exact .of_parentless hvalid hx

theorem detach_of_parentless (hx : d.parent x = none) : d.detach x = (d, false) := by
  rw [detach, hx]

theorem detach_valid (hvalid : d.Valid) (x : NodeId) : (d.detach x).1.Valid :=
  (detach_unlinked hvalid x).valid hvalid

/-! ### Placing -/

namespace Placed

theorem valid (h : Placed p x kids d d') (hvalid : d.Valid) (hp : d.Live p) (hx : d.Live x)
    (hxp : ¬ d.Below x p) (hkids : kids.Perm (x :: (d.children p).filter (· ≠ x))) :
    d'.Valid where
  free_nodup := h.free ▸ hvalid.free_nodup
  mem_free := h.mem_free hvalid
  vacant_eq n hn := by
    have hn' : ¬ d.Live n := fun hold => hn ((h.live n).mpr hold)
    refine h.vacant_eq hvalid hn ?_ ?_
    · rw [h.parent, parent_of_not_live hvalid hn', if_neg]
      rintro rfl
      exact hn' hx
    · rw [h.children, children_of_not_live hvalid hn', List.filter_nil, if_neg]
      rintro rfl
      exact hn' hp
  mem_children q n := by
    rw [h.children, h.parent]
    by_cases hq : q = p
    · subst hq
      rw [if_pos rfl, hkids.mem_iff, List.mem_cons, List.mem_filter, hvalid.mem_children]
      by_cases heq : n = x <;> simp [heq]
    · rw [if_neg hq, List.mem_filter, hvalid.mem_children]
      by_cases heq : n = x
      · simp [heq, Ne.symm hq]
      · simp [heq]
  children_nodup q := by
    rw [h.children]
    split
    · rw [hkids.nodup_iff, List.nodup_cons]
      exact ⟨by simp, (hvalid.children_nodup p).filter _⟩
    · exact (hvalid.children_nodup q).filter _
  acyclic := by
    refine .of_links p (· = x) hvalid.acyclic ?_ fun n q hne hup => ?_
    · rintro _ rfl
      exact ⟨hxp, by rw [h.parent, if_pos rfl]⟩
    · rwa [h.parent, if_neg hne] at hup

/-- A tree that lies nowhere is placed as it is. -/
theorem tree (h : Placed p x kids d d') (hvalid : d.Valid) (hvalid' : d'.Valid) (hx : d.Live x)
    (hparent : d.parent x = none) (hnot : ¬ d.Below x p) : d'.tree x = d.tree x := by
  refine tree_congr hvalid hvalid' hx (fun y _ => h.content y) (fun y _ => h.marker y) ?_
  intro y hy
  rw [h.children, if_neg]
  · exact ((Unlinked.of_parentless hvalid hparent).children y).symm
  · rintro rfl
    exact hnot hy

/-- Unlinking before placing makes no difference. -/
theorem of_unlinked {d'' : Dom} (hfirst : Unlinked x d d') (h : Placed p x kids d' d'') :
    Placed p x kids d d'' where
  toRelinked := hfirst.toRelinked.trans h.toRelinked
  parent n := by
    rw [h.parent, hfirst.parent]
    split <;> rfl
  children n := by
    rw [h.children, hfirst.children, List.filter_filter]
    simp

end Placed

theorem place_placed (hvalid : d.Valid) (hp : d.Live p) (hx : d.Live x) (hne : x ≠ p)
    (hparent : d.parent x = none) (place : List NodeId → List NodeId) :
    Placed p x (place (d.children p)) d
      ((d.update p fun n => { n with children := place n.children }).update x
        ({ · with parent := some p })) := by
  have hfirst : Relinked d (d.update p fun n => { n with children := place n.children }) :=
    .update d p (fun _ => rfl) (fun _ => rfl) fun _ => rfl
  have hx' := (hfirst.live x).mpr hx
  refine ⟨hfirst.trans (.update _ x (fun _ => rfl) (fun _ => rfl) fun _ => rfl), ?_, ?_⟩
  · intro n
    rw [parent, node_update hx', node_update hp, node_update hp, if_neg hne]
    by_cases heq : n = x
    · rw [if_pos heq, if_pos heq]
    · rw [if_neg heq, if_neg heq, parent]
      split
      · rename_i heq
        rw [heq]
      · rfl
  · intro n
    rw [children, node_update hx', node_update hp, node_update hp, if_neg hne]
    have hother : (d.children n).filter (· ≠ x) = d.children n :=
      ((Unlinked.of_parentless hvalid hparent).children n).symm
    rw [hother]
    by_cases heq : n = x
    · rw [if_pos heq, if_neg (heq ▸ hne), heq, children]
    · rw [if_neg heq]
      split
      · rfl
      · rw [children]

theorem link_placed (hvalid : d.Valid) (hp : d.Live p) (hx : d.Live x) (hne : x ≠ p)
    (hparent : d.parent x = none) : Placed p x (d.children p ++ [x]) d (d.link p x) := by
  have hswap : d.link p x =
      (d.update p fun n => { n with children := n.children ++ [x] }).update x
        ({ · with parent := some p }) := by
    have hslot : x.slot ≠ p.slot := fun h => hne (NodeId.slot_injective h)
    unfold link Dom.update
    congr 1
    refine Array.ext (by simp) fun i hi hi' => ?_
    simp only [Array.getElem_modify]
    by_cases hpi : p.slot = i
    · rw [if_pos hpi, if_pos hpi, if_neg (hpi ▸ hslot), if_neg (hpi ▸ hslot)]
    · rw [if_neg hpi, if_neg hpi]
  rw [hswap]
  exact place_placed hvalid hp hx hne hparent (· ++ [x])

theorem ne_of_not_below (h : ¬ d.Below x p) : x ≠ p := by
  rintro rfl
  exact h .self

theorem appendChild_of_below (hvalid : d.Valid) (hp : d.Live p) (hbelow : d.Below x p) :
    d.appendChild p x = d := by
  rw [appendChild, if_pos ((contains_iff hvalid hp).mpr hbelow)]

theorem appendChild_placed (hvalid : d.Valid) (hp : d.Live p) (hx : d.Live x)
    (hxp : ¬ d.Below x p) :
    Placed p x ((d.children p).filter (· ≠ x) ++ [x]) d (d.appendChild p x) := by
  have hunlinked := detach_unlinked hvalid x
  rw [appendChild, if_neg fun h => hxp (below_of_contains h)]
  refine .of_unlinked hunlinked ?_
  rw [← hunlinked.children p]
  refine link_placed (hunlinked.valid hvalid) ((hunlinked.live p).mpr hp)
    ((hunlinked.live x).mpr hx) (ne_of_not_below hxp) ?_
  rw [hunlinked.parent, if_pos rfl]

theorem appendChild_valid (hvalid : d.Valid) (hp : d.Live p) (hx : d.Live x) :
    (d.appendChild p x).Valid := by
  by_cases hxp : d.Below x p
  · rwa [appendChild_of_below hvalid hp hxp]
  · exact (appendChild_placed hvalid hp hx hxp).valid hvalid hp hx hxp
      (List.perm_append_singleton x _)

/-! ### Placing beside a node -/

/-- The siblings of a node, without some other node, are the ones before it and the ones after it. -/
theorem Valid.split_siblings (hvalid : d.Valid) {reference : NodeId}
    (hparent : d.parent reference = some p) (hne : x ≠ reference) :
    ∃ before after, (d.children p).filter (· ≠ x) = before ++ reference :: after ∧
      reference ∉ before ∧ reference ∉ after := by
  have hmem : reference ∈ (d.children p).filter (· ≠ x) :=
    List.mem_filter.mpr ⟨(hvalid.mem_children p reference).mpr hparent, decide_eq_true hne.symm⟩
  obtain ⟨before, after, hsplit⟩ := List.append_of_mem hmem
  have hnodup := (hvalid.children_nodup p).filter fun c => decide (c ≠ x)
  rw [hsplit, List.nodup_middle, List.nodup_cons, List.mem_append, not_or] at hnodup
  exact ⟨before, after, hsplit, hnodup.1⟩

theorem placeAt_perm (siblings : List NodeId) (reference x : NodeId) (offset : Nat) :
    (placeAt siblings reference x offset).Perm (x :: siblings) := by
  unfold placeAt
  split
  · rename_i position _
    refine List.perm_middle.trans ?_
    rw [List.take_append_drop]
  · exact List.perm_append_singleton x siblings

theorem idxOf?_middle {before after : List NodeId} {reference : NodeId}
    (hnot : reference ∉ before) :
    (before ++ reference :: after).idxOf? reference = some before.length := by
  induction before with
  | nil => simp [List.idxOf?_cons]
  | cons head before ih =>
      rw [List.mem_cons, not_or] at hnot
      rw [List.cons_append, List.idxOf?_cons, ih hnot.2]
      simp [Ne.symm hnot.1]

theorem placeAt_zero {before after : List NodeId} {reference : NodeId} (x : NodeId)
    (hnot : reference ∉ before) :
    placeAt (before ++ reference :: after) reference x 0 = before ++ x :: reference :: after := by
  rw [placeAt, idxOf?_middle hnot]
  simp

theorem placeAt_one {before after : List NodeId} {reference : NodeId} (x : NodeId)
    (hnot : reference ∉ before) :
    placeAt (before ++ reference :: after) reference x 1 = before ++ reference :: x :: after := by
  rw [placeAt, idxOf?_middle hnot]
  simp [List.take_append, List.drop_append, List.take_of_length_le, List.drop_eq_nil_of_le]

/-- Nothing is put beside a node that has no parent, beside itself or below itself. -/
theorem insertBeside_refused (hvalid : d.Valid) (offset : Nat) {reference : NodeId}
    (hnot : ∀ p, d.parent reference = some p → x ≠ reference → d.Below x p) :
    d.insertBeside offset reference x = (d, false) := by
  unfold insertBeside
  split
  · rfl
  · rename_i p hparent
    refine if_pos ?_
    rw [Bool.or_eq_true, decide_eq_true_eq, contains_iff hvalid (hvalid.live_of_parent hparent).2]
    exact or_iff_not_imp_left.mpr (hnot p hparent)

theorem insertBeside_placed (hvalid : d.Valid) (offset : Nat) {reference : NodeId}
    (hparent : d.parent reference = some p) (hx : d.Live x) (hne : x ≠ reference)
    (hxp : ¬ d.Below x p) :
    (d.insertBeside offset reference x).2 = true ∧
      Placed p x (placeAt ((d.children p).filter (· ≠ x)) reference x offset) d
        (d.insertBeside offset reference x).1 := by
  have hunlinked := detach_unlinked hvalid x
  have hp := (hvalid.live_of_parent hparent).2
  have hnot : ¬ (x = reference || d.contains x p) = true := by
    simp only [Bool.or_eq_true, decide_eq_true_eq, not_or]
    exact ⟨hne, fun h => hxp (below_of_contains h)⟩
  unfold insertBeside
  rw [hparent]
  dsimp only
  rw [if_neg hnot]
  refine ⟨rfl, .of_unlinked hunlinked ?_⟩
  rw [← hunlinked.children p]
  refine place_placed (hunlinked.valid hvalid) ((hunlinked.live p).mpr hp)
    ((hunlinked.live x).mpr hx) (ne_of_not_below hxp) ?_ (placeAt · reference x offset)
  rw [hunlinked.parent, if_pos rfl]

theorem insertBeside_of_not {offset : Nat} {reference : NodeId}
    (h : (d.insertBeside offset reference x).2 = false) :
    (d.insertBeside offset reference x).1 = d := by
  unfold insertBeside at h ⊢
  split at h
  · rfl
  · split at h
    · rename_i hrefused
      rw [if_pos hrefused]
    · cases h

theorem insertBeside_cases (hvalid : d.Valid) (offset : Nat) {reference : NodeId}
    (hx : d.Live x) :
    d.insertBeside offset reference x = (d, false) ∨
      ∃ p, d.parent reference = some p ∧ x ≠ reference ∧ ¬ d.Below x p ∧
        (d.insertBeside offset reference x).2 = true ∧
        Placed p x (placeAt ((d.children p).filter (· ≠ x)) reference x offset) d
          (d.insertBeside offset reference x).1 := by
  by_cases hcan : ∃ p, d.parent reference = some p ∧ x ≠ reference ∧ ¬ d.Below x p
  · obtain ⟨p, hparent, hne, hxp⟩ := hcan
    exact Or.inr ⟨p, hparent, hne, hxp, insertBeside_placed hvalid offset hparent hx hne hxp⟩
  · refine Or.inl (insertBeside_refused hvalid offset fun p hparent hne => ?_)
    by_contra hxp
    exact hcan ⟨p, hparent, hne, hxp⟩

/-! ### Replacing a node -/

/-- `new` is where `old` was, and `old` has no parent. -/
structure Replaced (old new p : NodeId) (d d' : Dom) : Prop extends Relinked d d' where
  parent : ∀ n, d'.parent n =
    if n = old then none else if n = new then some p else d.parent n
  children : ∀ n, d'.children n =
    if n = p then ((d.children p).filter (· ≠ new)).map fun c => if c = old then new else c
    else (d.children n).filter (· ≠ new)

theorem map_swap_of_not_mem {kids : List NodeId} {old new : NodeId} (hnot : old ∉ kids) :
    (kids.map fun c => if c = old then new else c) = kids := by
  conv_rhs => rw [← List.map_id kids]
  refine List.map_congr_left fun c hc => if_neg ?_
  rintro rfl
  exact hnot hc

theorem replaceWith_of_parentless {old : NodeId} (h : d.parent old = none) (new : NodeId) :
    d.replaceWith old new = (d, false) := by
  simp [replaceWith, insertBefore, insertBeside, h]

theorem replaceWith_replaced (hvalid : d.Valid) {old new : NodeId}
    (hparent : d.parent old = some p) (hnew : d.Live new) (hne : new ≠ old)
    (hnp : ¬ d.Below new p) :
    (d.replaceWith old new).2 = true ∧ Replaced old new p d (d.replaceWith old new).1 ∧
      (d.replaceWith old new).1.Valid := by
  obtain ⟨htrue, hplaced⟩ := insertBeside_placed hvalid 0 hparent hnew hne hnp
  have hp := (hvalid.live_of_parent hparent).2
  have hvalid' := hplaced.valid hvalid hp hnew hnp (placeAt_perm _ _ _ _)
  have hunlinked := detach_unlinked hvalid' old
  have hresult : d.replaceWith old new =
      (d.insertBeside 0 old new).1.detach old := by
    unfold replaceWith insertBefore
    generalize d.insertBeside 0 old new = result at htrue
    obtain ⟨next, placed⟩ := result
    cases htrue
    rfl
  have hold : (d.insertBeside 0 old new).1.parent old = some p := by
    rw [hplaced.parent, if_neg (Ne.symm hne), hparent]
  have hpnew : p ≠ new := (ne_of_not_below hnp).symm
  rw [hresult]
  refine ⟨?_, ⟨hplaced.toRelinked.trans hunlinked.toRelinked, ?_, ?_⟩, hunlinked.valid hvalid'⟩
  · rw [detach, hold]
  · intro n
    rw [hunlinked.parent, hplaced.parent]
  · intro n
    rw [hunlinked.children, hplaced.children]
    by_cases heq : n = p
    · rw [if_pos heq, if_pos heq]
      obtain ⟨before, after, hsplit, hbefore, hafter⟩ := hvalid.split_siblings hparent hne
      rw [hsplit, placeAt_zero new hbefore, List.map_append, List.map_cons, if_pos rfl,
        map_swap_of_not_mem hbefore, map_swap_of_not_mem hafter, List.filter_append,
        List.filter_cons, List.filter_cons, filter_ne_of_not_mem hbefore,
        filter_ne_of_not_mem hafter]
      simp [hne]
    · rw [if_neg heq, if_neg heq]
      refine filter_ne_of_not_mem fun hmem => heq ?_
      have hparent' := (hvalid.mem_children n old).mp (List.mem_of_mem_filter hmem)
      rw [hparent] at hparent'
      exact (Option.some.inj hparent').symm

/-! ### Links in one direction -/

theorem node_link (hp : d.Live p) (hx : d.Live x) (hne : x ≠ p) (n : NodeId) :
    (d.link p x).node n =
      if n = p then { d.node p with children := d.children p ++ [x] }
      else if n = x then { d.node x with parent := some p } else d.node n := by
  have hp' : (d.update x ({ · with parent := some p })).Live p := by
    rw [Live, node_update_of_ne (Ne.symm hne)]
    exact hp
  rw [link, node_update hp', node_update_of_ne (Ne.symm hne), node_update hx]
  rfl

theorem link_relinked (d : Dom) (p x : NodeId) : Relinked d (d.link p x) := by
  have hfirst : Relinked d (d.update x ({ · with parent := some p })) :=
    .update d x (fun _ => rfl) (fun _ => rfl) fun _ => rfl
  exact hfirst.trans (.update _ p (fun _ => rfl) (fun _ => rfl) fun _ => rfl)

theorem parent_link (hp : d.Live p) (hx : d.Live x) (hne : x ≠ p) (n : NodeId) :
    (d.link p x).parent n = if n = x then some p else d.parent n := by
  rw [parent, node_link hp hx hne]
  by_cases hn : n = p
  · subst hn
    rw [if_pos rfl, if_neg (Ne.symm hne), parent]
  · rw [if_neg hn]
    split
    · rfl
    · rw [parent]

theorem children_link (hp : d.Live p) (hx : d.Live x) (hne : x ≠ p) (n : NodeId) :
    (d.link p x).children n = if n = p then d.children p ++ [x] else d.children n := by
  rw [children, node_link hp hx hne]
  split
  · rfl
  · split
    · rename_i heq
      rw [heq, children]
    · rw [children]

theorem parent_orphan (hx : d.Live x) (n : NodeId) :
    (d.update x ({ · with parent := none })).parent n = if n = x then none else d.parent n := by
  rw [parent, node_update hx]
  split <;> rfl

theorem children_orphan (hx : d.Live x) (n : NodeId) :
    (d.update x ({ · with parent := none })).children n = d.children n := by
  rw [children, node_update hx]
  split
  · rename_i heq
    rw [heq, children]
  · rfl

theorem orphan_relinked (d : Dom) (x : NodeId) :
    Relinked d (d.update x ({ · with parent := none })) :=
  .update d x (fun _ => rfl) (fun _ => rfl) fun _ => rfl

theorem contains_congr (hsize : d'.nodes.size = d.nodes.size)
    (hparent : ∀ n, d'.parent n = d.parent n) (a n : NodeId) :
    d'.contains a n = d.contains a n := by
  simp only [contains, path, climb_eq_lineage, hsize, funext hparent]

theorem appendChild_relinked (hvalid : d.Valid) (p x : NodeId) :
    Relinked d (d.appendChild p x) := by
  rw [appendChild]
  split
  · exact .refl d
  · exact (detach_unlinked hvalid x).toRelinked.trans (link_relinked _ p x)

end LiveMarkup.Dom
