import LiveMarkup.Proofs.Dom.Link

/-!
# Moving the children of a node

The children are taken from their parent all at once and then appended to the target one by one, each
only if the target does not lie at or below it. So one child may be refused: the one on the way from
the target up to the old parent. Main results: without such a child nothing is lost
(`moveChildren_emptied`, `moveChildren_self`), and a child is left without a parent exactly when it is
that one (`moveChildren_stranded`, `moveChildren_loses_iff`).
-/

namespace LiveMarkup.Dom

variable {d d' : Dom} {source target child n : NodeId} {done todo : List NodeId}

/-- The children `done` of `source` have been taken from it. Those that `target` lies at or below have
no parent, and the others are the last children of `target`. -/
structure Poured (source target : NodeId) (done : List NodeId) (d d' : Dom) : Prop extends
    Relinked d d' where
  parent : ∀ n, d'.parent n =
    if n ∈ done then if d.contains n target then none else some target else d.parent n
  children : ∀ n, d'.children n = (if n = source then [] else d.children n) ++
    if n = target then done.filter fun c => !d.contains c target else []

namespace Poured

/-- The list of children is emptied before the children are moved. -/
theorem start (target : NodeId) (hsource : d.Live source) :
    Poured source target [] d (d.update source ({ · with children := [] })) := by
  refine ⟨.update d source (fun _ => rfl) (fun _ => rfl) fun _ => rfl, fun n => ?_, fun n => ?_⟩
  · rw [Dom.parent, node_update hsource]
    by_cases hn : n = source <;> simp [hn, Dom.parent]
  · rw [Dom.children, node_update hsource]
    by_cases hn : n = source <;> simp [hn, Dom.children]

/-- Among the children of one node, `target` lies at or below one at most. So what has been done to the
others is nowhere on the way from `target` to a child that is still to be moved. -/
theorem contains_orphan (h : Poured source target done d d') (hvalid : d.Valid)
    (htarget : d.Live target) (hchild : child ∈ d.children source)
    (hdone : ∀ c ∈ done, c ∈ d.children source ∧ c ≠ child) :
    (d'.update child ({ · with parent := none })).contains child target =
      d.contains child target := by
  have hlive : d'.Live child := (h.live child).mpr (hvalid.live_of_mem_children hchild)
  have hparent : ∀ m, (d'.update child ({ · with parent := none })).parent m =
      if m = child then none
      else if m ∈ done then if d.contains m target then none else some target else d.parent m := by
    intro m
    rw [parent_orphan hlive, h.parent]
  rw [Bool.eq_iff_iff]
  constructor
  · intro hcontains
    rw [contains_iff hvalid htarget]
    refine (below_of_contains hcontains).of_sub fun m p hm hp => ?_
    have hway : d.contains m target = true := (contains_iff hvalid htarget).mpr hm
    rw [hparent] at hp
    simp only [hway, if_true] at hp
    split at hp
    · cases hp
    · split at hp
      · cases hp
      · exact hp
  · intro hcontains
    rw [contains, List.contains_iff_mem, path, climb_eq_lineage] at hcontains ⊢
    rw [size_update, h.size]
    refine mem_lineage_congr hcontains fun m hm hne => ?_
    rw [hparent, if_neg hne, if_neg]
    -- A child that lies below a sibling would be that sibling.
    intro hmem
    exact (hdone m hmem).2 (hvalid.eq_of_below_children (hdone m hmem).1 hchild .self hm)

theorem step (h : Poured source target done d d') (hvalid : d.Valid) (htarget : d.Live target)
    (hsplit : d.children source = done ++ child :: todo) :
    Poured source target (done ++ [child]) d
      ((d'.update child ({ · with parent := none })).appendChild target child) := by
  have hchild : child ∈ d.children source := by
    rw [hsplit]
    exact List.mem_append_right _ List.mem_cons_self
  have hnodup := hvalid.children_nodup source
  rw [hsplit, List.nodup_append] at hnodup
  have hdone : ∀ c ∈ done, c ∈ d.children source ∧ c ≠ child := by
    intro c hc
    refine ⟨?_, hnodup.2.2 c hc child List.mem_cons_self⟩
    rw [hsplit]
    exact List.mem_append_left _ hc
  have hlive : d'.Live child := (h.live child).mpr (hvalid.live_of_mem_children hchild)
  have horphan := orphan_relinked d' child
  rw [appendChild, h.contains_orphan hvalid htarget hchild hdone]
  by_cases hcontains : d.contains child target = true
  · rw [if_pos hcontains]
    refine ⟨h.toRelinked.trans horphan, fun n => ?_, fun n => ?_⟩
    · rw [parent_orphan hlive, h.parent]
      by_cases hn : n = child <;> simp [hn, hcontains]
    · rw [children_orphan hlive, h.children]
      simp [hcontains]
  · have hne : child ≠ target := by
      rintro rfl
      exact hcontains ((contains_iff hvalid htarget).mpr .self)
    have hdetach : ((d'.update child ({ · with parent := none })).detach child).1 =
        d'.update child ({ · with parent := none }) :=
      congrArg Prod.fst (detach_of_parentless ((parent_orphan hlive child).trans (if_pos rfl)))
    have hp := (horphan.live target).mpr ((h.live target).mpr htarget)
    have hx := (horphan.live child).mpr hlive
    rw [if_neg hcontains, hdetach]
    refine ⟨h.toRelinked.trans (horphan.trans (link_relinked _ target child)), fun n => ?_,
      fun n => ?_⟩
    · rw [parent_link hp hx hne, parent_orphan hlive, h.parent]
      by_cases hn : n = child <;> simp [hn, hcontains]
    · rw [children_link hp hx hne, children_orphan hlive, children_orphan hlive, h.children,
        h.children]
      by_cases hn : n = target <;> simp [hn, hcontains]

theorem foldl (h : Poured source target done d d') (hvalid : d.Valid) (htarget : d.Live target)
    (hsplit : d.children source = done ++ todo) :
    Poured source target (d.children source) d (todo.foldl
      (fun d child => (d.update child ({ · with parent := none })).appendChild target child) d') := by
  induction todo generalizing done d' with
  | nil =>
      rw [hsplit, List.append_nil]
      exact h
  | cons child todo ih =>
      refine ih (h.step hvalid htarget hsplit) ?_
      rw [hsplit, List.append_assoc]
      rfl

end Poured

theorem moveChildren_poured (hvalid : d.Valid) (hsource : d.Live source) (htarget : d.Live target) :
    Poured source target (d.children source) d (d.moveChildren source target) :=
  (Poured.start target hsource).foldl hvalid htarget rfl

namespace Poured

variable (h : Poured source target (d.children source) d d') (hvalid : d.Valid)

include h hvalid

theorem mem_children_iff {p : NodeId} : n ∈ d'.children p ↔ d'.parent n = some p := by
  have hown : n ∈ d.children source ↔ d.parent n = some source := hvalid.mem_children source n
  have hkept : n ∈ (if p = source then [] else d.children p) ↔
      n ∉ d.children source ∧ d.parent n = some p := by
    split
    · rename_i hp
      simp [hp, hown]
    · rename_i hp
      rw [hvalid.mem_children, hown, iff_and_self]
      intro hparent
      simpa [hparent] using hp
  have hcame : n ∈ (if p = target then (d.children source).filter fun c => !d.contains c target
      else []) ↔ n ∈ d.children source ∧ d.contains n target = false ∧ target = p := by
    by_cases hp : p = target
    · simp [hp]
    · simp [hp, Ne.symm hp]
  rw [h.children, h.parent, List.mem_append, hkept, hcame]
  by_cases hn : n ∈ d.children source
  · cases hcontains : d.contains n target <;> simp [hn]
  · simp [hn]

theorem valid (hsource : d.Live source) (htarget : d.Live target) : d'.Valid where
  free_nodup := h.free ▸ hvalid.free_nodup
  mem_free := h.mem_free hvalid
  vacant_eq n hn := by
    have hold : ¬ d.Live n := fun hlive => hn ((h.live n).mpr hlive)
    have hne : ∀ {x}, d.Live x → n ≠ x := by
      rintro x hx rfl
      exact hold hx
    refine h.vacant_eq hvalid hn ?_ ?_
    · rw [h.parent, if_neg, parent_of_not_live hvalid hold]
      exact fun hmem => hold (hvalid.live_of_mem_children hmem)
    · rw [h.children, if_neg (hne hsource), if_neg (hne htarget), children_of_not_live hvalid hold,
        List.append_nil]
  mem_children _ _ := h.mem_children_iff hvalid
  children_nodup p := by
    rw [h.children, List.nodup_append]
    refine ⟨?_, ?_, ?_⟩
    · split
      · exact List.nodup_nil
      · exact hvalid.children_nodup p
    · split
      · exact (hvalid.children_nodup source).filter _
      · exact List.nodup_nil
    · -- What stays has another parent than what comes.
      rintro x hx y hy rfl
      split at hx
      · cases hx
      · rename_i hp
        split at hy
        · have hparent := (hvalid.mem_children p x).mp hx
          rw [(hvalid.mem_children source x).mp (List.mem_of_mem_filter hy)] at hparent
          cases hparent
          exact hp rfl
        · cases hy
  acyclic := by
    refine .of_links target (fun c => c ∈ d.children source ∧ d.contains c target = false)
      hvalid.acyclic ?_ ?_
    · rintro c ⟨hc, hnot⟩
      refine ⟨fun hbelow => ?_, ?_⟩
      · rw [(contains_iff hvalid htarget).mpr hbelow] at hnot
        cases hnot
      · rw [h.parent, if_pos hc, hnot]
        rfl
    · intro c q hc hup
      rw [h.parent] at hup
      split at hup
      · rename_i hmem
        split at hup
        · cases hup
        · rename_i hcontains
          exact absurd ⟨hmem, Bool.eq_false_iff.mpr hcontains⟩ hc
      · exact hup

end Poured

theorem moveChildren_valid (hvalid : d.Valid) (hsource : d.Live source) (htarget : d.Live target) :
    Relinked d (d.moveChildren source target) ∧ (d.moveChildren source target).Valid := by
  have hpoured := moveChildren_poured hvalid hsource htarget
  exact ⟨hpoured.toRelinked, hpoured.valid hvalid hsource htarget⟩

/-! ### Where the target does not lie below the source -/

/-- The children of `source` have become the last ones of `target`, in their order. -/
structure Emptied (source target : NodeId) (d d' : Dom) : Prop extends Relinked d d' where
  parent : ∀ n, d'.parent n =
    if n ∈ d.children source then some target else d.parent n
  children : ∀ n, d'.children n =
    if n = target then d.children target ++ d.children source
    else if n = source then [] else d.children n

theorem moveChildren_emptied (hvalid : d.Valid) (hsource : d.Live source)
    (htarget : d.Live target) (hbelow : ¬ d.Below source target) :
    Emptied source target d (d.moveChildren source target) := by
  have hpoured := moveChildren_poured hvalid hsource htarget
  have hnot : ∀ c ∈ d.children source, d.contains c target = false := by
    intro c hc
    rw [← Bool.not_eq_true, contains_iff hvalid htarget]
    exact fun hct => hbelow ((hvalid.below_of_mem_children hc).trans hct)
  have hall : (d.children source).filter (fun c => !d.contains c target) = d.children source :=
    List.filter_eq_self.mpr fun c hc => by rw [hnot c hc]; rfl
  have hne : target ≠ source := (ne_of_not_below hbelow).symm
  refine ⟨hpoured.toRelinked, fun n => ?_, fun n => ?_⟩
  · rw [hpoured.parent]
    split
    · rename_i hn
      rw [hnot n hn]
      rfl
    · rfl
  · rw [hpoured.children, hall]
    by_cases hn : n = target
    · rw [if_neg (hn ▸ hne), if_pos hn, if_pos hn, hn]
    · rw [if_neg hn, if_neg hn, List.append_nil]

/-- A node keeps its own children, in their order. -/
theorem moveChildren_self (hvalid : d.Valid) (hsource : d.Live source) :
    d.moveChildren source source = d := by
  have hpoured := moveChildren_poured hvalid hsource hsource
  have hnot : ∀ c ∈ d.children source, d.contains c source = false := by
    intro c hc
    rw [← Bool.not_eq_true, contains_iff hvalid hsource]
    exact hvalid.acyclic c source ((hvalid.mem_children source c).mp hc)
  refine ext_node hpoured.size hpoured.free fun n => ?_
  refine node_ext (hpoured.content n) ?_ ?_ (hpoured.marker n) (hpoured.live n)
  · rw [hpoured.parent]
    split
    · rename_i hn
      rw [hnot n hn, (hvalid.mem_children source n).mp hn]
      rfl
    · rfl
  · rw [hpoured.children]
    split
    · rename_i hn
      rw [hn, List.nil_append]
      exact List.filter_eq_self.mpr fun c hc => by rw [hnot c hc]; rfl
    · exact List.append_nil _

/-! ### Where it does -/

/-- `child` is left without a parent, and its siblings have become the last children of `target`. -/
structure Stranded (source target child : NodeId) (d d' : Dom) : Prop extends Relinked d d' where
  parent : ∀ n, d'.parent n = if n = child then none
    else if n ∈ d.children source then some target else d.parent n
  children : ∀ n, d'.children n = if n = source then []
    else if n = target then d.children target ++ (d.children source).filter (· ≠ child)
    else d.children n

/-- A target below the source keeps the child that it lies at or below from being moved. -/
theorem moveChildren_stranded (hvalid : d.Valid) (hsource : d.Live source) (htarget : d.Live target)
    (hchild : child ∈ d.children source) (hbelow : d.Below child target) :
    Stranded source target child d (d.moveChildren source target) := by
  have hpoured := moveChildren_poured hvalid hsource htarget
  have honly : ∀ c ∈ d.children source, d.contains c target = decide (c = child) := by
    intro c hc
    rw [Bool.eq_iff_iff, contains_iff hvalid htarget, decide_eq_true_eq]
    constructor
    · intro hct
      exact hvalid.eq_of_below_children hc hchild hct hbelow
    · rintro rfl
      exact hbelow
  have hrest : (d.children source).filter (fun c => !d.contains c target) =
      (d.children source).filter (· ≠ child) := by
    refine List.filter_congr fun c hc => ?_
    rw [honly c hc, decide_not]
  have hne : target ≠ source := by
    rintro rfl
    exact hvalid.acyclic child target ((hvalid.mem_children target child).mp hchild) hbelow
  refine ⟨hpoured.toRelinked, fun n => ?_, fun n => ?_⟩
  · rw [hpoured.parent]
    by_cases hn : n ∈ d.children source
    · rw [if_pos hn, if_pos hn, honly n hn]
      simp only [decide_eq_true_eq]
    · rw [if_neg hn, if_neg hn, if_neg]
      rintro rfl
      exact hn hchild
  · rw [hpoured.children, hrest]
    by_cases hn : n = target
    · simp [hn, hne]
    · simp [hn]

/-- A node loses its parent exactly when it is the child that the target lies at or below. -/
theorem moveChildren_loses_iff (hvalid : d.Valid) (hsource : d.Live source)
    (htarget : d.Live target) :
    (d.parent n ≠ none ∧ (d.moveChildren source target).parent n = none) ↔
      n ∈ d.children source ∧ d.Below n target := by
  rw [(moveChildren_poured hvalid hsource htarget).parent, ← contains_iff hvalid htarget]
  by_cases hn : n ∈ d.children source
  · have hparent := (hvalid.mem_children source n).mp hn
    cases hcontains : d.contains n target <;> simp [hn, hparent]
  · simp [hn]

/-- An element is moved into its own child: the child has no parent then. -/
example : let d := ((Dom.empty.create .fragment).1.create .fragment).1.appendChild ⟨0⟩ ⟨1⟩
    d.parent ⟨1⟩ = some ⟨0⟩ ∧ (d.moveChildren ⟨0⟩ ⟨1⟩).parent ⟨1⟩ = none := by
  decide +kernel

end LiveMarkup.Dom
