import LiveMarkup.Proofs.Dom.Link

/-!
Making and freeing nodes, and changes of what nodes hold. Removing a node frees it and exactly what
lies below it.
-/

namespace LiveMarkup.Dom

variable {d d' : Dom} {a n p x : NodeId}

/-! ### What nodes hold -/

/-- Links are what they were; nodes hold something else. -/
structure Rewritten (d d' : Dom) : Prop where
  size : d'.nodes.size = d.nodes.size
  free : d'.free = d.free
  live : ∀ n, d'.Live n ↔ d.Live n
  parent : ∀ n, d'.parent n = d.parent n
  children : ∀ n, d'.children n = d.children n
  vacant : ∀ n, ¬ d.Live n → d'.node n = d.node n

namespace Rewritten

theorem valid (h : Rewritten d d') (hvalid : d.Valid) : d'.Valid where
  free_nodup := h.free ▸ hvalid.free_nodup
  mem_free n := by
    rw [h.free, h.size, h.live]
    exact hvalid.mem_free n
  vacant_eq n hn := by
    rw [h.live] at hn
    rw [h.vacant n hn, hvalid.vacant_eq n hn]
  mem_children p n := by
    rw [h.children, h.parent]
    exact hvalid.mem_children p n
  children_nodup p := by
    rw [h.children]
    exact hvalid.children_nodup p
  acyclic := hvalid.acyclic.of_sub fun n p hup => by rwa [h.parent] at hup

theorem below_iff (h : Rewritten d d') : d'.Below a n ↔ d.Below a n := by
  have hparent : d'.parent = d.parent := funext h.parent
  rw [Below, hparent]

end Rewritten

theorem update_rewritten (d : Dom) (n : NodeId) {f : Node → Node}
    (hparent : ∀ i, (f i).parent = i.parent) (hchildren : ∀ i, (f i).children = i.children)
    (hfreed : ∀ i, (f i).freed = i.freed)
    (hvacant : d.node n = .vacant → f .vacant = .vacant) (hvalid : d.Valid) :
    Rewritten d (d.update n f) := by
  have hnode := node_update_of_fixed f hvacant
  have hread : ∀ {β : Type} (read : Node → β), (∀ i, read (f i) = read i) →
      ∀ x, read ((d.update n f).node x) = read (d.node x) := by
    intro β read hf x
    rw [hnode x]
    split
    · rename_i heq
      rw [hf, heq]
    · rfl
  refine ⟨size_update d n f, rfl, fun x => by rw [Live, Live, hread (·.freed) hfreed],
    hread (·.parent) hparent, hread (·.children) hchildren, ?_⟩
  intro x hx
  rw [hnode x]
  split
  · rename_i heq
    subst heq
    have hold := hvalid.vacant_eq x hx
    rw [hold, hvacant hold]
  · rfl

theorem setAttribute_rewritten (hvalid : d.Valid) (n : NodeId) (name value : String) :
    Rewritten d (d.setAttribute n name value) :=
  update_rewritten d n (fun _ => rfl) (fun _ => rfl) (fun _ => rfl) (fun _ => rfl) hvalid

theorem eraseAttribute_rewritten (hvalid : d.Valid) (n : NodeId) (name : String) :
    Rewritten d (d.eraseAttribute n name) :=
  update_rewritten d n (fun _ => rfl) (fun _ => rfl) (fun _ => rfl) (fun _ => rfl) hvalid

theorem putAttribute_rewritten (hvalid : d.Valid) (n : NodeId) (name : String)
    (value : Option String) : Rewritten d (d.putAttribute n name value) := by
  cases value with
  | none => exact eraseAttribute_rewritten hvalid n name
  | some value => exact setAttribute_rewritten hvalid n name value

theorem setMarker_rewritten (hvalid : d.Valid) (hn : d.Live n) (marker : Option Nat) :
    Rewritten d (d.setMarker n marker) := by
  refine update_rewritten d n (fun _ => rfl) (fun _ => rfl) (fun _ => rfl) ?_ hvalid
  intro hvacant
  rw [Live, hvacant] at hn
  cases hn

theorem setContent_rewritten (hvalid : d.Valid) (hn : d.Live n) (made : Content) :
    Rewritten d (d.update n ({ · with content := made })) := by
  refine update_rewritten d n (fun _ => rfl) (fun _ => rfl) (fun _ => rfl) ?_ hvalid
  intro hvacant
  rw [Live, hvacant] at hn
  cases hn

theorem node_setAttribute (d : Dom) (n : NodeId) (name value : String) (x : NodeId) :
    (d.setAttribute n name value).node x =
      if x = n then { d.node n with content := (d.content n).setAttribute name value }
      else d.node x :=
  node_update_of_fixed _ (fun _ => rfl) x

theorem node_eraseAttribute (d : Dom) (n : NodeId) (name : String) (x : NodeId) :
    (d.eraseAttribute n name).node x =
      if x = n then { d.node n with content := (d.content n).eraseAttribute name }
      else d.node x :=
  node_update_of_fixed _ (fun _ => rfl) x

theorem content_putAttribute_of_ne (hne : x ≠ n) (name : String) (value : Option String) :
    (d.putAttribute n name value).content x = d.content x := by
  cases value with
  | none => rw [putAttribute, content, node_eraseAttribute, if_neg hne, content]
  | some value => rw [putAttribute, content, node_setAttribute, if_neg hne, content]

theorem node_setMarker (hn : d.Live n) (marker : Option Nat) (x : NodeId) :
    (d.setMarker n marker).node x = if x = n then { d.node n with marker } else d.node x :=
  node_update hn _ x

/-- A text stays a text. -/
theorem setTextContent_of_text {s : String} (h : d.content n = .text s) (t : String) :
    d.setTextContent n t = d.update n ({ · with content := .text t }) := by
  rw [setTextContent, h]

theorem live_of_text {s : String} (h : d.content n = .text s) (hvalid : d.Valid) : d.Live n := by
  by_contra hn
  rw [content, hvalid.vacant_eq n hn] at h
  cases h

theorem live_of_element {tag : String} {attributes : List Attribute}
    (h : d.content n = .element tag attributes) (hvalid : d.Valid) : d.Live n := by
  by_contra hn
  rw [content, hvalid.vacant_eq n hn] at h
  cases h

theorem setTextContent_rewritten (hvalid : d.Valid) {s : String} (h : d.content n = .text s)
    (t : String) : Rewritten d (d.setTextContent n t) := by
  rw [setTextContent_of_text h]
  refine update_rewritten d n (fun _ => rfl) (fun _ => rfl) (fun _ => rfl) ?_ hvalid
  intro hvacant
  rw [content, hvacant] at h
  cases h

theorem node_setTextContent (hvalid : d.Valid) {s : String} (h : d.content n = .text s)
    (t : String) (x : NodeId) :
    (d.setTextContent n t).node x =
      if x = n then { d.node n with content := .text t } else d.node x := by
  rw [setTextContent_of_text h]
  exact node_update (live_of_text h hvalid) _ x

/-! ### Making nodes -/

/-- A node has been made in an empty slot. -/
structure Made (made : Content) (n : NodeId) (d d' : Dom) : Prop where
  valid : d'.Valid
  fresh : ¬ d.Live n
  node : ∀ x, d'.node x = if x = n then .alone made else d.node x

variable {made : Content} {t : NodeId}

theorem Made.live (h : Made made n d d') : d'.Live n := by
  rw [Live, h.node, if_pos rfl]
  rfl

theorem Made.live_iff (h : Made made n d d') : d'.Live x ↔ x = n ∨ d.Live x := by
  by_cases heq : x = n
  · subst heq
    simp [h.live]
  · rw [Live, h.node, if_neg heq]
    simp [heq, Live]

theorem Made.of_node (hvalid : d.Valid) (hfresh : ¬ d.Live n)
    (hnode : ∀ x, d'.node x = if x = n then .alone made else d.node x)
    (hnodup : d'.free.Nodup)
    (hfree : ∀ x, x ∈ d'.free ↔ x.slot < d'.nodes.size ∧ ¬ d'.Live x) : Made made n d d' := by
  have hparent : ∀ x, d'.parent x = if x = n then none else d.parent x := by
    intro x
    rw [parent, hnode]
    split <;> rfl
  have hchildren : ∀ x, d'.children x = if x = n then [] else d.children x := by
    intro x
    rw [children, hnode]
    split <;> rfl
  refine ⟨⟨hnodup, hfree, ?_, ?_, ?_, ?_⟩, hfresh, hnode⟩
  · intro x hx
    by_cases heq : x = n
    · rw [Live, hnode, if_pos heq] at hx
      exact absurd rfl hx
    · rw [Live, hnode, if_neg heq] at hx
      rw [hnode, if_neg heq, hvalid.vacant_eq x hx]
  · intro p x
    rw [hchildren, hparent]
    by_cases hp : p = n
    · rw [if_pos hp]
      split
      · simp
      · constructor
        · intro hmem
          cases hmem
        · intro hx
          exact absurd (hp ▸ (hvalid.live_of_parent hx).2) hfresh
    · rw [if_neg hp, hvalid.mem_children]
      by_cases hx : x = n
      · rw [if_pos hx, hx, parent_of_not_live hvalid hfresh]
      · rw [if_neg hx]
  · intro p
    rw [hchildren]
    split
    · exact List.nodup_nil
    · exact hvalid.children_nodup p
  · refine hvalid.acyclic.of_sub fun x p hup => ?_
    rw [hparent] at hup
    split at hup
    · cases hup
    · exact hup

theorem create_made (hvalid : d.Valid) (made : Content) :
    Made made (d.create made).2 d (d.create made).1 := by
  unfold create
  split
  · rename_i n rest hfree
    have hmem : n ∈ d.free := by
      rw [hfree]
      exact List.mem_cons_self
    obtain ⟨hlt, hfresh⟩ := (hvalid.mem_free n).mp hmem
    have hnodup := hvalid.free_nodup
    rw [hfree, List.nodup_cons] at hnodup
    have hnode : ∀ x, (⟨d.nodes.setIfInBounds n.slot (.alone made), rest⟩ : Dom).node x =
        if x = n then .alone made else d.node x := by
      intro x
      by_cases heq : x = n
      · subst heq
        simp [node, hlt]
      · have hslot : n.slot ≠ x.slot := fun h => heq (NodeId.slot_injective h.symm)
        rw [if_neg heq]
        simp [node, hslot]
    refine .of_node hvalid hfresh hnode hnodup.2 ?_
    intro x
    rw [Live, hnode]
    by_cases heq : x = n
    · subst heq
      simp [hnodup.1, Node.alone]
    · have hold := hvalid.mem_free x
      rw [hfree, List.mem_cons, or_iff_right heq] at hold
      rw [if_neg heq]
      simpa [Live] using hold
  · rename_i hfree
    have hfresh : ¬ d.Live ⟨d.nodes.size⟩ := fun h => Nat.lt_irrefl _ h.lt_size
    have hnode : ∀ x, (⟨d.nodes.push (.alone made), []⟩ : Dom).node x =
        if x = ⟨d.nodes.size⟩ then .alone made else d.node x := by
      intro x
      by_cases heq : x = ⟨d.nodes.size⟩
      · subst heq
        simp [node]
      · have hslot : x.slot ≠ d.nodes.size := fun h => heq (NodeId.slot_injective h)
        rw [if_neg heq]
        simp [node, Array.getElem?_push, hslot]
    refine .of_node hvalid hfresh hnode List.nodup_nil ?_
    intro x
    rw [Live, hnode]
    by_cases heq : x = ⟨d.nodes.size⟩
    · simp [heq, Node.alone]
    · have hold := hvalid.mem_free x
      rw [hfree] at hold
      have hslot : x.slot ≠ d.nodes.size := fun h => heq (NodeId.slot_injective h)
      rw [if_neg heq]
      simp only [Array.size_push]
      constructor
      · intro hmem
        cases hmem
      · rintro ⟨hlt, hx⟩
        exact hold.mpr ⟨by omega, hx⟩

/-- A new node is the last child of `p`. -/
structure Appended (p t : NodeId) (made : Content) (d d' : Dom) : Prop where
  valid : d'.Valid
  fresh : ¬ d.Live t
  free : d'.free = d.free.tail
  node : ∀ x, d'.node x =
    if x = p then { d.node p with children := d.children p ++ [t] }
    else if x = t then { Node.alone made with parent := some p } else d.node x

theorem free_create (d : Dom) (made : Content) : (d.create made).1.free = d.free.tail := by
  unfold create
  split <;> rename_i hfree <;> rw [hfree] <;> rfl

/-- A node that has just been made only has to be linked to become the last child of another one. -/
theorem Made.appendChild_eq_link (h : Made made t d d') (hne : p ≠ t) :
    d'.appendChild p t = d'.link p t := by
  have hself : d'.node t = .alone made := (h.node t).trans (if_pos rfl)
  have hbelow : ¬ d'.Below t p := by
    refine fun hbelow => hne (h.valid.eq_of_below ?_ hbelow)
    rw [children, hself]
    rfl
  have hparentless : d'.parent t = none := by
    rw [parent, hself]
    rfl
  rw [appendChild, if_neg (mt below_of_contains hbelow), detach_of_parentless hparentless]

theorem appendChild_appended (hvalid : d.Valid) (hp : d.Live p) (made : Content) :
    Appended p (d.create made).2 made d
      ((d.create made).1.appendChild p (d.create made).2) := by
  have hmade := create_made hvalid made
  have hfree := free_create d made
  generalize (d.create made).1 = d₁ at hmade hfree ⊢
  generalize (d.create made).2 = t at hmade ⊢
  have hp₁ : d₁.Live p := hmade.live_iff.mpr (Or.inr hp)
  have hne : p ≠ t := by
    rintro rfl
    exact hmade.fresh hp
  have hself : d₁.node t = .alone made := (hmade.node t).trans (if_pos rfl)
  have hkept : d₁.node p = d.node p := (hmade.node p).trans (if_neg hne)
  refine ⟨appendChild_valid hmade.valid hp₁ hmade.live, hmade.fresh, ?_, fun x => ?_⟩
  · rw [(appendChild_relinked hmade.valid p t).free, hfree]
  · rw [hmade.appendChild_eq_link hne, node_link hp₁ hmade.live hne.symm, hself, hkept, children,
      hkept, hmade.node]
    split
    · rfl
    · split <;> rfl

theorem Appended.live_iff (h : Appended p t made d d') (hp : d.Live p) :
    d'.Live x ↔ d.Live x ∨ x = t := by
  rw [Live, h.node]
  split
  · rename_i hx
    exact iff_of_true hp (Or.inl (hx ▸ hp))
  · split
    · rename_i hx
      exact iff_of_true rfl (Or.inr hx)
    · rename_i hx
      rw [or_iff_left hx, Live]

/-! ### Freeing nodes -/

theorem foldr_links_modify (nodes : List Node) (i : Nat) (h : i < nodes.length) :
    (nodes.modify i fun _ => .vacant).foldr (fun n total => n.children.length + total) 0 +
      nodes[i].children.length = nodes.foldr (fun n total => n.children.length + total) 0 := by
  induction nodes generalizing i with
  | nil => cases h
  | cons head rest ih =>
      cases i with
      | zero => simp [Node.vacant, Nat.add_comm]
      | succ i =>
          have hrest := ih i (by simpa using h)
          simp only [List.modify_succ_cons, List.foldr_cons, List.getElem_cons_succ]
          omega

/-- Emptying a slot takes the links to the children of its node away. -/
theorem linkCount_update (hn : d.Live n) :
    (d.update n fun _ => .vacant).linkCount + (d.children n).length = d.linkCount := by
  have hlt := hn.lt_size
  have hsum := foldr_links_modify d.nodes.toList n.slot (by simpa using hlt)
  have hnode : d.node n = d.nodes.toList.get ⟨n.slot, by simpa using hlt⟩ := by
    simp [node, hlt]
  rw [children, hnode, linkCount, linkCount, update]
  simpa using hsum

/-- What remains to be freed of the tree at `root`: the nodes of `gone` are freed already, and the
rest lies below the nodes on the stack. -/
structure Freeing (root : NodeId) (gone stack : List NodeId) (d d' : Dom) : Prop where
  size : d'.nodes.size = d.nodes.size
  free : d'.free = gone ++ d.free
  node : ∀ x, d'.node x = if x ∈ gone then .vacant else d.node x
  nodup : (gone ++ stack).Nodup
  live : ∀ x ∈ gone ++ stack, d.Live x
  below : ∀ x ∈ gone ++ stack, d.Below root x
  root_mem : root ∈ gone ++ stack
  closed : ∀ x ∈ gone, ∀ c ∈ d.children x, c ∈ gone ++ stack
  above : ∀ x ∈ gone ++ stack, x = root ∨ ∃ p ∈ gone, d.parent x = some p

theorem Freeing.not_mem_gone {root : NodeId} {gone stack : List NodeId}
    (h : Freeing root gone (n :: stack) d d') : n ∉ gone := by
  have hnodup := h.nodup
  rw [List.nodup_middle, List.nodup_cons, List.mem_append, not_or] at hnodup
  exact hnodup.1.1

theorem Freeing.live_top {root : NodeId} {gone stack : List NodeId}
    (h : Freeing root gone (n :: stack) d d') : d'.Live n := by
  rw [Live, h.node, if_neg h.not_mem_gone]
  exact h.live n (List.mem_append_right _ List.mem_cons_self)

theorem Freeing.pop {root : NodeId} {gone stack : List NodeId} (hvalid : d.Valid)
    (h : Freeing root gone (n :: stack) d d') :
    Freeing root (n :: gone) ((d'.children n).reverse ++ stack) d
      { d'.update n fun _ => .vacant with free := n :: d'.free } := by
  have hmem : ∀ x, x ∈ n :: gone ++ ((d'.children n).reverse ++ stack) ↔
      x ∈ gone ++ n :: stack ∨ x ∈ d'.children n := by
    intro x
    simp only [List.mem_cons, List.mem_append, List.mem_reverse]
    tauto
  have hn : n ∈ gone ++ n :: stack := List.mem_append_right _ List.mem_cons_self
  have hgone := h.not_mem_gone
  have hlive := h.live_top
  have hchildren : d'.children n = d.children n := by
    rw [children, h.node, if_neg hgone, children]
  have hnew : ∀ c ∈ d.children n, c ∉ gone ++ n :: stack := by
    intro c hc hmem
    have hparent := (hvalid.mem_children n c).mp hc
    rcases h.above c hmem with rfl | ⟨p, hp, hcp⟩
    · exact hvalid.acyclic c n hparent (h.below n hn)
    · rw [hparent] at hcp
      cases hcp
      exact hgone hp
  refine ⟨?_, ?_, ?_, ?_, ?_, ?_, ?_, ?_, ?_⟩
  · exact (size_update d' n _).trans h.size
  · change n :: d'.free = n :: gone ++ d.free
    rw [h.free]
    rfl
  · intro x
    change (d'.update n fun _ => .vacant).node x = _
    rw [node_update hlive, h.node]
    by_cases heq : x = n
    · rw [if_pos heq, if_pos (heq ▸ List.mem_cons_self)]
    · rw [if_neg heq]
      simp only [List.mem_cons, heq, false_or]
  · rw [hchildren]
    have hperm : (n :: gone ++ ((d.children n).reverse ++ stack)).Perm
        (d.children n ++ (gone ++ n :: stack)) := by
      rw [List.perm_iff_count]
      intro x
      simp only [List.count_append, List.count_cons, List.count_reverse]
      omega
    rw [hperm.nodup_iff, List.nodup_append]
    exact ⟨hvalid.children_nodup n, h.nodup, fun c hc y hy heq => hnew c hc (heq ▸ hy)⟩
  · intro x hx
    rcases (hmem x).mp hx with hx | hx
    · exact h.live x hx
    · rw [hchildren] at hx
      exact hvalid.live_of_mem_children hx
  · intro x hx
    rcases (hmem x).mp hx with hx | hx
    · exact h.below x hx
    · rw [hchildren] at hx
      exact (h.below n hn).trans (hvalid.below_of_mem_children hx)
  · exact (hmem root).mpr (Or.inl h.root_mem)
  · intro x hx c hc
    refine (hmem c).mpr ?_
    rcases List.mem_cons.mp hx with rfl | hx
    · exact Or.inr (hchildren ▸ hc)
    · exact Or.inl (h.closed x hx c hc)
  · intro x hx
    rcases (hmem x).mp hx with hx | hx
    · rcases h.above x hx with heq | ⟨p, hp, hxp⟩
      · exact Or.inl heq
      · exact Or.inr ⟨p, List.mem_cons_of_mem _ hp, hxp⟩
    · rw [hchildren] at hx
      exact Or.inr ⟨n, List.mem_cons_self, (hvalid.mem_children n x).mp hx⟩

/-- Steps enough for all links below the stack empty it. -/
theorem freeAll_freeing {root : NodeId} (hvalid : d.Valid) (steps : Nat) :
    ∀ {gone stack : List NodeId} {d' : Dom}, Freeing root gone stack d d' →
      steps = d'.linkCount + stack.length →
      ∃ gone', Freeing root gone' [] d (freeAll steps d' stack) := by
  induction steps with
  | zero =>
      intro gone stack d' h hsteps
      have hempty : stack = [] := List.length_eq_zero_iff.mp (by omega)
      subst hempty
      exact ⟨gone, h⟩
  | succ steps ih =>
      intro gone stack d' h hsteps
      cases stack with
      | nil => exact ⟨gone, h⟩
      | cons n stack =>
          refine ih (h.pop hvalid) ?_
          have hcount := linkCount_update h.live_top
          change steps = (d'.update n fun _ => .vacant).linkCount + _
          simp only [List.length_append, List.length_reverse, List.length_cons] at hsteps ⊢
          omega

/-- `n` and what lay below it is freed. -/
structure Removed (n : NodeId) (d d' : Dom) : Prop where
  valid : d'.Valid
  size : d'.nodes.size = d.nodes.size
  live : ∀ x, d'.Live x ↔ d.Live x ∧ ¬ d.Below n x
  content : ∀ x, d'.Live x → d'.content x = d.content x
  marker : ∀ x, d'.Live x → d'.marker x = d.marker x
  parent : ∀ x, d'.Live x → d'.parent x = d.parent x
  children : ∀ x, d'.Live x → d'.children x = (d.children x).filter (· ≠ n)

theorem Freeing.mem_gone_iff {root : NodeId} {gone : List NodeId} (hvalid : d.Valid)
    (h : Freeing root gone [] d d') (x : NodeId) : x ∈ gone ↔ d.Below root x := by
  constructor
  · intro hx
    exact h.below x (List.mem_append_left _ hx)
  · intro hx
    induction hx with
    | self => simpa using h.root_mem
    | step hup _ ih => simpa using h.closed _ ih _ ((hvalid.mem_children _ _).mpr hup)

theorem below_of_unlinked (h : Unlinked n d d') :
    d'.Below n x ↔ d.Below n x := by
  refine ⟨h.below, fun hbelow => hbelow.congr fun m hm hne => ?_⟩
  rw [h.parent, if_neg hne]

theorem node_of_unlinked (h : Unlinked n d d') (hx : x ≠ n) :
    d'.node x = { d.node x with children := (d.children x).filter (· ≠ n) } := by
  have hparent : d'.parent x = d.parent x := (h.parent x).trans (if_neg hx)
  have hfreed : (d'.node x).freed = (d.node x).freed := by
    have hlive := h.live x
    unfold Live at hlive
    cases hnew : (d'.node x).freed <;> cases hold : (d.node x).freed <;> simp_all
  rw [Node.mk.injEq]
  exact ⟨h.content x, hparent, h.children x, h.marker x, hfreed⟩

/-- `n` is cut off and what lies below it is freed; the other nodes only lose `n` as a child. -/
structure CutOff (n : NodeId) (d d' : Dom) : Prop where
  size : d'.nodes.size = d.nodes.size
  inside : ∀ x, d.Below n x → d'.node x = .vacant
  outside : ∀ x, ¬ d.Below n x →
    d'.node x = { d.node x with children := (d.children x).filter (· ≠ n) }
  free : ∃ gone, d'.free = gone ++ d.free ∧ gone.Nodup ∧ ∀ x, x ∈ gone ↔ d.Below n x

theorem remove_cutOff (hvalid : d.Valid) (hn : d.Live n) : CutOff n d (d.remove n) := by
  have hunlinked := detach_unlinked hvalid n
  have hvalid' := hunlinked.valid hvalid
  have hlive' := (hunlinked.live n).mpr hn
  have hstart : Freeing n [] [n] (d.detach n).1 (d.detach n).1 :=
    ⟨rfl, rfl, fun _ => by simp, by simp, by simp [hlive'], by simp [Above.self], by simp,
      by simp, by simp⟩
  obtain ⟨gone, hfreed⟩ := freeAll_freeing hvalid' _ hstart rfl
  have hresult : d.remove n =
      freeAll ((d.detach n).1.linkCount + 1) (d.detach n).1 [n] := by
    rw [remove, if_neg]
    simpa [Live] using hn
  have hgone : ∀ x, x ∈ gone ↔ d.Below n x := fun x =>
    (hfreed.mem_gone_iff hvalid' x).trans (below_of_unlinked hunlinked)
  have hnodup := hfreed.nodup
  rw [List.append_nil] at hnodup
  rw [hresult]
  refine ⟨hfreed.size.trans hunlinked.size, ?_, ?_, gone, ?_, hnodup, hgone⟩
  · intro x hx
    exact (hfreed.node x).trans (if_pos ((hgone x).mpr hx))
  · intro x hx
    have hne : x ≠ n := by
      rintro rfl
      exact hx .self
    exact ((hfreed.node x).trans (if_neg (mt (hgone x).mp hx))).trans
      (node_of_unlinked hunlinked hne)
  · rw [← hunlinked.free]
    exact hfreed.free

namespace CutOff

variable (h : CutOff n d d')

include h

theorem live_iff : d'.Live x ↔ d.Live x ∧ ¬ d.Below n x := by
  by_cases hx : d.Below n x
  · simp [Live, h.inside x hx, hx, Node.vacant]
  · rw [Live, h.outside x hx]
    simp [hx, Live]

theorem node_of_live (hx : d'.Live x) :
    d'.node x = { d.node x with children := (d.children x).filter (· ≠ n) } :=
  h.outside x (h.live_iff.mp hx).2

theorem parent_iff : d'.parent x = some p ↔ d.parent x = some p ∧ ¬ d.Below n x := by
  by_cases hx : d.Below n x
  · simp [Dom.parent, h.inside x hx, hx, Node.vacant]
  · rw [Dom.parent, h.outside x hx]
    simp [hx, Dom.parent]

/-- Among the children of a node that stays, `n` is the only one that lies below `n`. -/
theorem mem_children_iff (hvalid : d.Valid) :
    x ∈ d'.children p ↔ d.parent x = some p ∧ ¬ d.Below n x := by
  by_cases hp : d.Below n p
  · have hnone : d'.children p = [] := by
      rw [Dom.children, h.inside p hp]
      rfl
    rw [hnone]
    constructor
    · intro hmem
      cases hmem
    · rintro ⟨hup, hx⟩
      exact absurd (.step hup hp) hx
  · have hkept : d'.children p = (d.children p).filter (· ≠ n) := by
      rw [Dom.children, h.outside p hp]
    rw [hkept, List.mem_filter, hvalid.mem_children]
    simp only [ne_eq, decide_eq_true_eq]
    refine and_congr_right fun hup => not_congr ⟨?_, ?_⟩
    · rintro rfl
      exact .self
    · intro hx
      by_contra hne
      exact hp (hx.above_up hne hup)

theorem free_nodup (hvalid : d.Valid) (hn : d.Live n) : d'.free.Nodup := by
  obtain ⟨gone, hfree, hnodup, hgone⟩ := h.free
  rw [hfree, List.nodup_append]
  refine ⟨hnodup, hvalid.free_nodup, ?_⟩
  rintro x hx y hy rfl
  exact ((hvalid.mem_free x).mp hy).2 (hvalid.live_below ((hgone x).mp hx) hn)

theorem mem_free_iff (hvalid : d.Valid) (hn : d.Live n) :
    x ∈ d'.free ↔ x.slot < d'.nodes.size ∧ ¬ d'.Live x := by
  obtain ⟨gone, hfree, _, hgone⟩ := h.free
  rw [hfree, List.mem_append, h.size, h.live_iff, hgone, hvalid.mem_free]
  constructor
  · rintro (hx | ⟨hlt, hx⟩)
    · exact ⟨(hvalid.live_below hx hn).lt_size, fun hlive => hlive.2 hx⟩
    · exact ⟨hlt, fun hlive => hx hlive.1⟩
  · rintro ⟨hlt, hx⟩
    by_cases hbelow : d.Below n x
    · exact Or.inl hbelow
    · exact Or.inr ⟨hlt, fun hlive => hx ⟨hlive, hbelow⟩⟩

theorem valid (hvalid : d.Valid) (hn : d.Live n) : d'.Valid where
  free_nodup := h.free_nodup hvalid hn
  mem_free _ := h.mem_free_iff hvalid hn
  vacant_eq x hx := by
    by_cases hbelow : d.Below n x
    · exact h.inside x hbelow
    · have hold := hvalid.vacant_eq x fun hlive => hx (h.live_iff.mpr ⟨hlive, hbelow⟩)
      rw [h.outside x hbelow, Dom.children, hold]
      rfl
  mem_children _ _ := (h.mem_children_iff hvalid).trans h.parent_iff.symm
  children_nodup p := by
    by_cases hp : d.Below n p
    · rw [Dom.children, h.inside p hp]
      exact List.nodup_nil
    · rw [Dom.children, h.outside p hp]
      exact (hvalid.children_nodup p).filter _
  acyclic := hvalid.acyclic.of_sub fun _ _ hup => (h.parent_iff.mp hup).1

end CutOff

theorem remove_removed (hvalid : d.Valid) (hn : d.Live n) : Removed n d (d.remove n) := by
  have hcut := remove_cutOff hvalid hn
  refine ⟨hcut.valid hvalid hn, hcut.size, fun _ => hcut.live_iff, ?_, ?_, ?_, ?_⟩
  · intro x hx
    rw [content, hcut.node_of_live hx, content]
  · intro x hx
    rw [marker, hcut.node_of_live hx, marker]
  · intro x hx
    rw [parent, hcut.node_of_live hx, parent]
  · intro x hx
    rw [children, hcut.node_of_live hx]

theorem remove_of_not_live (hn : ¬ d.Live n) : d.remove n = d := by
  rw [remove, if_pos]
  simpa [Live] using hn

/-! ### A new node in place of another one -/

/-- A new node has the place of `old`, which is left beside the tree. -/
structure Supplanted (old new p : NodeId) (made : Content) (d d' : Dom) : Prop where
  valid : d'.Valid
  fresh : ¬ d.Live new
  live : ∀ x, d'.Live x ↔ x = new ∨ d.Live x
  content_new : d'.content new = made
  marker_new : d'.marker new = none
  parent_new : d'.parent new = some p
  children_new : d'.children new = []
  content : ∀ x, d.Live x → d'.content x = d.content x
  marker : ∀ x, d.Live x → d'.marker x = d.marker x
  parent : ∀ x, d.Live x → d'.parent x = if x = old then none else d.parent x
  children : ∀ x, d.Live x →
    d'.children x = (d.children x).map fun c => if c = old then new else c

section Supplanted

variable {old new : NodeId}

theorem Replaced.children_eq (h : Replaced old new p d d') (hvalid : d.Valid)
    (hparent : d.parent old = some p) (hnew : d.parent new = none) (x : NodeId) :
    d'.children x = (d.children x).map fun c => if c = old then new else c := by
  have hkids : (d.children x).filter (· ≠ new) = d.children x :=
    ((Unlinked.of_parentless hvalid hnew).children x).symm
  rw [h.children]
  split
  · rename_i heq
    rw [← heq, hkids]
  · rename_i hne
    rw [hkids, map_swap_of_not_mem]
    intro hmem
    have hup := (hvalid.mem_children x old).mp hmem
    rw [hparent, Option.some.injEq] at hup
    exact hne hup.symm

theorem supplant_supplanted (hvalid : d.Valid) (hparent : d.parent old = some p)
    (made : Content) :
    ((d.create made).1.replaceWith old (d.create made).2).2 = true ∧
      Supplanted old (d.create made).2 p made d
        ((d.create made).1.replaceWith old (d.create made).2).1 := by
  have hmade := create_made hvalid made
  generalize (d.create made).1 = d₁ at hmade ⊢
  generalize (d.create made).2 = new at hmade ⊢
  obtain ⟨hold, hp⟩ := hvalid.live_of_parent hparent
  have hne : ∀ {x}, d.Live x → x ≠ new := by
    rintro x hx rfl
    exact hmade.fresh hx
  have hnode : ∀ x, d.Live x → d₁.node x = d.node x := fun x hx =>
    (hmade.node x).trans (if_neg (hne hx))
  have hself : d₁.node new = .alone made := (hmade.node new).trans (if_pos rfl)
  have hparent₁ : d₁.parent old = some p := by
    rw [Dom.parent, hnode old hold]
    exact hparent
  have hchildless : d₁.children new = [] := by
    rw [Dom.children, hself]
    rfl
  have hparentless : d₁.parent new = none := by
    rw [Dom.parent, hself]
    rfl
  have hnotbelow : ¬ d₁.Below new p := fun hbelow =>
    hne hp (hmade.valid.eq_of_below hchildless hbelow)
  obtain ⟨hdone, hreplaced, hvalid'⟩ := replaceWith_replaced hmade.valid hparent₁ hmade.live
    (Ne.symm (hne hold)) hnotbelow
  have hchildren := hreplaced.children_eq hmade.valid hparent₁ hparentless
  refine ⟨hdone, hvalid', hmade.fresh, fun x => (hreplaced.live x).trans hmade.live_iff,
    ?_, ?_, ?_, ?_, fun x hx => ?_, fun x hx => ?_, fun x hx => ?_, fun x hx => ?_⟩
  · rw [hreplaced.content, Dom.content, hself]
    rfl
  · rw [hreplaced.marker, Dom.marker, hself]
    rfl
  · rw [hreplaced.parent, if_neg (Ne.symm (hne hold)), if_pos rfl]
  · rw [hchildren, hchildless, List.map_nil]
  · rw [hreplaced.content, Dom.content, hnode x hx, Dom.content]
  · rw [hreplaced.marker, Dom.marker, hnode x hx, Dom.marker]
  · rw [hreplaced.parent, if_neg (hne hx), Dom.parent, hnode x hx, Dom.parent]
  · rw [hchildren, Dom.children, hnode x hx, Dom.children]

theorem Supplanted.children_other (h : Supplanted old new p made d d') (hvalid : d.Valid)
    (hparent : d.parent old = some p) (hx : d.Live x) (hne : x ≠ p) :
    d'.children x = d.children x := by
  rw [h.children x hx, map_swap_of_not_mem]
  intro hmem
  have hup := (hvalid.mem_children x old).mp hmem
  rw [hparent, Option.some.injEq] at hup
  exact hne hup.symm

theorem Supplanted.children_split (h : Supplanted old new p made d d') (hvalid : d.Valid)
    {before after : List NodeId} (hsplit : d.children p = before ++ old :: after) :
    d'.children p = before ++ new :: after := by
  have hmem : old ∈ d.children p := by
    rw [hsplit]
    exact List.mem_append_right _ List.mem_cons_self
  have hnodup := hvalid.children_nodup p
  rw [hsplit, List.nodup_middle, List.nodup_cons, List.mem_append, not_or] at hnodup
  rw [h.children p (hvalid.live_of_parent ((hvalid.mem_children p old).mp hmem)).2, hsplit,
    List.map_append, List.map_cons, if_pos rfl, map_swap_of_not_mem hnodup.1.1,
    map_swap_of_not_mem hnodup.1.2]

end Supplanted

end LiveMarkup.Dom
