import LiveMarkup.Proofs.Dom.Edits

/-!
# Moving one node

A node is put before or after another one, takes its place, or becomes the last child of a node. The
siblings are looked up after the node has been unlinked, so it makes no difference whether the node
was an earlier or a later sibling, came from below the one it replaces or from another tree. Main
result: such a move is made exactly if it puts no node below itself, changes what it has to and
nothing else, and has no effect if it is refused (`relocates`).
-/

namespace LiveMarkup.Dom

variable {d d' : Dom} {n p r : NodeId} {kids displaced : List NodeId}

/-- `n` has become a child of `p`, whose children are `kids` then, and the nodes of `displaced` have no
parent. -/
structure Relocated (n p : NodeId) (kids displaced : List NodeId) (d d' : Dom) : Prop extends
    Relinked d d' where
  valid : d'.Valid
  kids : d'.children p = kids
  /-- The former parent has lost the node. -/
  former : ∀ q, q ≠ p → d.parent n = some q → d'.children q = (d.children q).filter (· ≠ n)
  aside : ∀ q, q ≠ p → d.parent n ≠ some q → d'.children q = d.children q
  parent : ∀ x, d'.parent x =
    if x ∈ displaced then none else if x = n then some p else d.parent x

/-- What comes of an attempt to put `n` next to `r` or in its place. What is made of the siblings before
and after `r` are the children of its parent then. -/
structure Attempt (n r : NodeId) (siblings : List NodeId → List NodeId → List NodeId)
    (displaced : List NodeId) (d : Dom) (result : Dom × Bool) : Prop where
  made_iff : result.2 = true ↔ ∃ p, d.parent r = some p ∧ n ≠ r ∧ ¬ d.Below n p
  made : result.2 = true → ∀ p, d.parent r = some p → ∃ before after,
    (d.children p).filter (· ≠ n) = before ++ r :: after ∧
      Relocated n p (siblings before after) displaced d result.1
  refused : result.2 = false → result.1 = d

/-- The moves of `n` that are about `r`. -/
structure Relocates (d : Dom) (r n : NodeId) : Prop where
  before : Attempt n r (fun before after => before ++ n :: r :: after) [] d (d.insertBefore r n)
  after : Attempt n r (fun before after => before ++ r :: n :: after) [] d (d.insertAfter r n)
  replace : Attempt n r (fun before after => before ++ n :: after) [r] d (d.replaceWith r n)
  append : ¬ d.Below n r →
    Relocated n r ((d.children r).filter (· ≠ n) ++ [n]) [] d (d.appendChild r n)
  append_refused : d.Below n r → d.appendChild r n = d

theorem Placed.relocated (h : Placed p n kids d d') (hvalid : d.Valid) (hvalid' : d'.Valid) :
    Relocated n p kids [] d d' where
  toRelinked := h.toRelinked
  valid := hvalid'
  kids := by rw [h.children, if_pos rfl]
  former q hq _ := by rw [h.children, if_neg hq]
  aside q hq hother := by rw [h.children, if_neg hq, hvalid.filter_children_of_ne hother]
  parent x := by rw [if_neg List.not_mem_nil, h.parent]

theorem Replaced.relocated (h : Replaced r n p d d') (hvalid : d.Valid) (hvalid' : d'.Valid)
    {before after : List NodeId} (hsplit : (d.children p).filter (· ≠ n) = before ++ r :: after)
    (hbefore : r ∉ before) (hafter : r ∉ after) :
    Relocated n p (before ++ n :: after) [r] d d' where
  toRelinked := h.toRelinked
  valid := hvalid'
  kids := by
    rw [h.children, if_pos rfl, hsplit, List.map_append, List.map_cons, if_pos rfl,
      map_swap_of_not_mem hbefore, map_swap_of_not_mem hafter]
  former q hq _ := by rw [h.children, if_neg hq]
  aside q hq hother := by rw [h.children, if_neg hq, hvalid.filter_children_of_ne hother]
  parent x := by simp only [h.parent, List.mem_singleton]

/-- An attempt that is made wherever it can be, and else has no effect. -/
theorem Attempt.of_cases {siblings : List NodeId → List NodeId → List NodeId} {result : Dom × Bool}
    (hmade : ∀ p, d.parent r = some p → n ≠ r → ¬ d.Below n p → result.2 = true ∧
      ∃ before after, (d.children p).filter (· ≠ n) = before ++ r :: after ∧
        Relocated n p (siblings before after) displaced d result.1)
    (hrefused : (∀ p, d.parent r = some p → n ≠ r → d.Below n p) → result = (d, false)) :
    Attempt n r siblings displaced d result := by
  by_cases hcan : ∃ p, d.parent r = some p ∧ n ≠ r ∧ ¬ d.Below n p
  · obtain ⟨p, hparent, hne, hbelow⟩ := hcan
    obtain ⟨hdone, hmoved⟩ := hmade p hparent hne hbelow
    refine ⟨iff_of_true hdone ⟨p, hparent, hne, hbelow⟩, fun _ q hq => ?_, fun hnot => ?_⟩
    · rw [hparent, Option.some.injEq] at hq
      exact hq ▸ hmoved
    · rw [hdone] at hnot
      cases hnot
  · have hnone : result = (d, false) := hrefused fun p hparent hne => by
      by_contra hbelow
      exact hcan ⟨p, hparent, hne, hbelow⟩
    rw [hnone]
    exact ⟨iff_of_false Bool.false_ne_true hcan, fun hdone => absurd hdone Bool.false_ne_true,
      fun _ => rfl⟩

section Attempts

variable (hvalid : d.Valid) (hn : d.Live n)

include hvalid hn

theorem insertBeside_attempt {offset : Nat}
    {siblings : List NodeId → List NodeId → List NodeId}
    (hplace : ∀ {before after : List NodeId}, r ∉ before →
      placeAt (before ++ r :: after) r n offset = siblings before after) :
    Attempt n r siblings [] d (d.insertBeside offset r n) := by
  refine .of_cases (fun p hparent hne hbelow => ?_) (insertBeside_refused hvalid offset)
  obtain ⟨before, after, hsplit, hbefore, _⟩ := hvalid.split_siblings hparent hne
  obtain ⟨hdone, hplaced⟩ := insertBeside_placed hvalid offset hparent hn hne hbelow
  have hvalid' := hplaced.valid hvalid (hvalid.live_of_parent hparent).2 hn hbelow
    (placeAt_perm _ _ _ _)
  rw [hsplit, hplace hbefore] at hplaced
  exact ⟨hdone, before, after, hsplit, hplaced.relocated hvalid hvalid'⟩

theorem replaceWith_attempt :
    Attempt n r (fun before after => before ++ n :: after) [r] d (d.replaceWith r n) := by
  refine .of_cases (fun p hparent hne hbelow => ?_) fun hnot => ?_
  · obtain ⟨before, after, hsplit, hbefore, hafter⟩ := hvalid.split_siblings hparent hne
    obtain ⟨hdone, hreplaced, hvalid'⟩ := replaceWith_replaced hvalid hparent hn hne hbelow
    exact ⟨hdone, before, after, hsplit,
      hreplaced.relocated hvalid hvalid' hsplit hbefore hafter⟩
  · rw [replaceWith, insertBefore, insertBeside_refused hvalid 0 hnot]

end Attempts

/-- **Moves are exact or refused without effect.** -/
theorem relocates (hvalid : d.Valid) (hr : d.Live r) (hn : d.Live n) : d.Relocates r n where
  before := insertBeside_attempt hvalid hn (placeAt_zero n)
  after := insertBeside_attempt hvalid hn (placeAt_one n)
  replace := replaceWith_attempt hvalid hn
  append hbelow :=
    (appendChild_placed hvalid hr hn hbelow).relocated hvalid (appendChild_valid hvalid hr hn)
  append_refused := appendChild_of_below hvalid hr

/-- Three items, and a text in the second one. -/
def items : List Edit :=
  [.createElement "ul", .createElement "li", .createElement "li", .createElement "li",
    .createText "x", .appendChild ⟨0⟩ ⟨1⟩, .appendChild ⟨0⟩ ⟨2⟩, .appendChild ⟨0⟩ ⟨3⟩,
    .appendChild ⟨2⟩ ⟨4⟩]

/-- An item gives its place to its own text, or gets it beside itself. -/
theorem relocates_items :
    (Dom.empty.edited items).Valid ∧ (Dom.empty.edited items).Live ⟨2⟩ ∧
      (Dom.empty.edited items).Live ⟨4⟩ ∧ (Dom.empty.edited items).Relocates ⟨2⟩ ⟨4⟩ := by
  have hfollows : Dom.empty.Follows items :=
    follows_of_finds (by decide +kernel) (by simp [items, Edit.Sourced])
  have hvalid := (empty_wellFormed.edited hfollows).toValid
  have hitem : (Dom.empty.edited items).Live ⟨2⟩ := by decide +kernel
  have htext : (Dom.empty.edited items).Live ⟨4⟩ := by decide +kernel
  exact ⟨hvalid, hitem, htext, relocates hvalid hitem htext⟩

end LiveMarkup.Dom
