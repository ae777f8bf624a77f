import LiveMarkup.Proofs.Dom.Edits

/-!
# A tree from above and from below

What lies below a node is found from above, by a walk that keeps what is still to be visited on a
stack, and from below, by a search that goes from parent to parent. Neither of them counts its
steps, so that both end is a matter of the links. Main result: in a store whose links agree the walk
gives every node below the first one once and in document order, and the search for a node succeeds
exactly where a walk from that node comes by (`views_agree`).
-/

namespace LiveMarkup.Dom

variable {d : Dom} {a c e n p q x y : NodeId} {stack rest given : List NodeId} {found : Bool}

/-! ### Walks -/

/-- The node on top of a stack, and the stack with its children in its place. -/
def visit? (d : Dom) : List NodeId → Option (NodeId × List NodeId)
  | [] => none
  | n :: rest => some (n, d.children n ++ rest)

/-- A walk with this stack gives these nodes and ends. -/
inductive Walks (d : Dom) : List NodeId → List NodeId → Prop where
  | done {stack : List NodeId} (h : d.visit? stack = none) : Walks d stack []
  | visit {stack rest given : List NodeId} {n : NodeId} (h : d.visit? stack = some (n, rest))
      (hrest : Walks d rest given) : Walks d stack (n :: given)

theorem visit?_eq_none_iff : d.visit? stack = none ↔ stack = [] := by
  cases stack <;> simp [visit?]

/-- A visit takes one node off what is still to be given. -/
theorem flatMap_visit (h : d.Valid) (hvisit : d.visit? stack = some (n, rest)) :
    stack.flatMap d.descendants = n :: rest.flatMap d.descendants := by
  cases stack with
  | nil => cases hvisit
  | cons m below =>
      rw [visit?, Option.some.injEq, Prod.mk.injEq] at hvisit
      obtain ⟨rfl, rfl⟩ := hvisit
      rw [List.flatMap_cons, descendants_eq h, List.flatMap_append, List.cons_append]

theorem Walks.eq_flatMap (hwalk : d.Walks stack given) (h : d.Valid) :
    given = stack.flatMap d.descendants := by
  induction hwalk with
  | done hdone => rw [visit?_eq_none_iff.mp hdone, List.flatMap_nil]
  | visit hvisit _ ih => rw [flatMap_visit h hvisit, ih]

/-- A walk ends, since every visit leaves one node less to be given. -/
theorem walks_flatMap (h : d.Valid) (stack : List NodeId) :
    d.Walks stack (stack.flatMap d.descendants) := by
  induction hleft : stack.flatMap d.descendants generalizing stack with
  | nil =>
      cases hvisit : d.visit? stack with
      | none => exact .done hvisit
      | some step =>
          rw [flatMap_visit h hvisit] at hleft
          cases hleft
  | cons n given ih =>
      cases hvisit : d.visit? stack with
      | none =>
          rw [visit?_eq_none_iff.mp hvisit] at hleft
          cases hleft
      | some step =>
          rw [flatMap_visit h hvisit, List.cons.injEq] at hleft
          obtain ⟨rfl, hrest⟩ := hleft
          exact .visit hvisit (ih _ hrest)

theorem walks_iff (h : d.Valid) : d.Walks stack given ↔ given = stack.flatMap d.descendants := by
  constructor
  · intro hwalk
    exact hwalk.eq_flatMap h
  · rintro rfl
    exact walks_flatMap h stack

/-! ### Document order -/

/-- A node precedes what lies below it. A child of a node and what lies below the child precede a
later child and what lies below that one. -/
inductive Precedes (d : Dom) (x y : NodeId) : Prop where
  | below (hne : x ≠ y) (h : d.Below x y)
  | aside {p c e : NodeId} (hchildren : [c, e].Sublist (d.children p)) (hx : d.Below c x)
      (hy : d.Below e y)

/-- What lies at and below a node, each node once and in document order. -/
structure Lists (d : Dom) (n : NodeId) (given : List NodeId) : Prop where
  mem_iff : ∀ x, x ∈ given ↔ d.Below n x
  nodup : given.Nodup
  ordered : given.Pairwise d.Precedes

theorem descendants_lists (h : d.Valid) (hn : d.Live n) : d.Lists n (d.descendants n) := by
  refine ⟨fun x => mem_descendants_iff h hn, descendants_nodup h hn, ?_⟩
  refine h.induction (P := fun n => (d.descendants n).Pairwise d.Precedes) (fun n _ ih => ?_) hn
  have hbelow : ∀ c ∈ d.children n, ∀ x, x ∈ d.descendants c → d.Below c x := fun c hc x hx =>
    (mem_descendants_iff h (h.live_of_mem_children hc)).mp hx
  rw [descendants_eq h, List.pairwise_cons, List.pairwise_flatMap]
  refine ⟨fun x hx => ?_, ih, ?_⟩
  · obtain ⟨c, hc, hcx⟩ := List.mem_flatMap.mp hx
    have hup := (h.mem_children n c).mp hc
    refine .below ?_ ((Above.of_up hup).trans (hbelow c hc x hcx))
    rintro rfl
    exact h.acyclic c n hup (hbelow c hc n hcx)
  · rw [List.pairwise_iff_forall_sublist]
    intro c e hsub x hx y hy
    have hmem := hsub.subset
    exact .aside hsub (hbelow c (hmem (by simp)) x hx) (hbelow e (hmem (by simp)) y hy)

/-- Nothing lies below two children of a node. -/
theorem not_below_later (h : d.Valid) (hsub : [c, e].Sublist (d.children p)) (hcx : d.Below c x) :
    ¬ d.Below e x := by
  intro hex
  have hmem := hsub.subset
  obtain rfl := h.eq_of_below_children (hmem (by simp)) (hmem (by simp)) hcx hex
  exact List.not_nodup_pair c ((h.children_nodup p).sublist hsub)

theorem not_sublist_pair_swap (h : d.Valid) (hsub : [c, e].Sublist (d.children p)) :
    ¬ [e, c].Sublist (d.children p) := by
  have hindex : (d.children p).Pairwise fun x y =>
      (d.children p).idxOf x < (d.children p).idxOf y := by
    rw [List.pairwise_iff_getElem]
    intro i j hi hj hij
    rwa [(h.children_nodup p).idxOf_getElem i hi, (h.children_nodup p).idxOf_getElem j hj]
  intro hswap
  have hce := List.pairwise_iff_forall_sublist.mp hindex hsub
  have hec := List.pairwise_iff_forall_sublist.mp hindex hswap
  omega

/-- The way down from `p` to `x` takes one child of `p`, whatever else it comes by. -/
theorem below_of_between (h : d.Valid) (hc : c ∈ d.children p) (hcx : d.Below c x) (hne : p ≠ q)
    (hpq : d.Below p q) (hqx : d.Below q x) : d.Below c q := by
  obtain rfl | ⟨e, he, heq⟩ := h.below_cases hpq
  · exact absurd rfl hne
  · rwa [h.eq_of_below_children hc he hcx (heq.trans hqx)]

/-- Document order leaves no choice. -/
theorem Precedes.asymm (hxy : d.Precedes x y) (h : d.Valid) : ¬ d.Precedes y x := by
  intro hyx
  obtain ⟨hne, hbelow⟩ | @⟨p, c, e, hce, hcx, hey⟩ := hxy
  · obtain ⟨-, hbelow'⟩ | ⟨hce, hcy, hex⟩ := hyx
    · exact hne (h.acyclic.antisymm hbelow hbelow')
    · exact not_below_later h hce hcy (hex.trans hbelow)
  · obtain ⟨-, hbelow⟩ | @⟨q, c', e', hce', hcy', hex'⟩ := hyx
    · exact not_below_later h hce hcx (hey.trans hbelow)
    · have hc : c ∈ d.children p := hce.subset (by simp)
      have he : e ∈ d.children p := hce.subset (by simp)
      have hc' : c' ∈ d.children q := hce'.subset (by simp)
      have he' : e' ∈ d.children q := hce'.subset (by simp)
      by_cases hpq : p = q
      · subst hpq
        rw [h.eq_of_below_children hc' he hcy' hey, h.eq_of_below_children he' hc hex' hcx] at hce'
        exact not_sublist_pair_swap h hce hce'
      -- The lower one of the two parents lies below two children of the upper one.
      have hpx := (h.below_of_mem_children hc).trans hcx
      have hpy := (h.below_of_mem_children he).trans hey
      have hqx := (h.below_of_mem_children he').trans hex'
      have hqy := (h.below_of_mem_children hc').trans hcy'
      rcases hpx.linear hqx with hup | hup
      · exact not_below_later h hce (below_of_between h hc hcx hpq hup hqx)
          (below_of_between h he hey hpq hup hqy)
      · exact not_below_later h hce' (below_of_between h hc' hcy' (Ne.symm hpq) hup hpy)
          (below_of_between h he' hex' (Ne.symm hpq) hup hpx)

/-- There is one listing of a tree. -/
theorem lists_iff (h : d.Valid) (hn : d.Live n) : d.Lists n given ↔ given = d.descendants n := by
  constructor
  · intro hlists
    have hown := descendants_lists h hn
    have hperm : given.Perm (d.descendants n) :=
      (List.perm_ext_iff_of_nodup hlists.nodup hown.nodup).mpr fun x => by
        rw [hlists.mem_iff, hown.mem_iff]
    exact hperm.eq_of_pairwise (fun x y _ _ hxy hyx => absurd hyx (hxy.asymm h)) hlists.ordered
      hown.ordered
  · rintro rfl
    exact descendants_lists h hn

/-! ### Searches -/

/-- A search for `a` upwards from a place ends with this answer. Above a node without a parent the
place is `none`. -/
inductive Climbs (d : Dom) (a : NodeId) : Option NodeId → Bool → Prop where
  | out : Climbs d a none false
  | here : Climbs d a (some a) true
  | up {n : NodeId} {found : Bool} (hne : n ≠ a) (h : Climbs d a (d.parent n) found) :
      Climbs d a (some n) found

theorem Climbs.found_iff {place : Option NodeId} (hclimb : d.Climbs a place found) :
    found = true ↔ ∃ n, place = some n ∧ d.Below a n := by
  induction hclimb with
  | out => simp
  | here => exact iff_of_true rfl ⟨a, rfl, .self⟩
  | @up n found hne _ ih =>
      rw [ih]
      constructor
      · rintro ⟨p, hp, hap⟩
        exact ⟨n, rfl, .step hp hap⟩
      · rintro ⟨m, hm, ham⟩
        obtain rfl := Option.some.inj hm
        exact ham.cases_up.resolve_left hne

theorem exists_climbs (h : d.Valid) (hn : d.Live n) : ∃ found, d.Climbs a (some n) found := by
  refine h.induction_up (P := fun n => ∃ found, d.Climbs a (some n) found) (fun n _ ih => ?_) hn
  by_cases heq : n = a
  · subst heq
    exact ⟨true, .here⟩
  · cases hparent : d.parent n with
    | none => exact ⟨false, .up heq (hparent ▸ .out)⟩
    | some p =>
        obtain ⟨found, hclimb⟩ := ih p hparent
        exact ⟨found, .up heq (hparent ▸ hclimb)⟩

theorem climbs_iff (h : d.Valid) (hn : d.Live n) :
    d.Climbs a (some n) found ↔ found = d.contains a n := by
  have hanswer : ∀ {found : Bool}, d.Climbs a (some n) found → found = d.contains a n := by
    intro found hclimb
    rw [Bool.eq_iff_iff, hclimb.found_iff, contains_iff h hn]
    simp
  constructor
  · exact hanswer
  · rintro rfl
    obtain ⟨found, hclimb⟩ := exists_climbs (a := a) h hn
    rwa [← hanswer hclimb]

/-- **Seen from above and from below, a tree is the same.** -/
theorem views_agree (hvalid : d.Valid) (ha : d.Live a) (hn : d.Live n) :
    (∀ given, d.Walks [a] given ↔ given = d.descendants a) ∧
      (∀ given, d.Lists a given ↔ given = d.descendants a) ∧
        (∀ found, d.Climbs a (some n) found ↔ found = d.contains a n) ∧
          (d.contains a n = true ↔ n ∈ d.descendants a) := by
  refine ⟨fun given => ?_, fun given => lists_iff hvalid ha, fun found => climbs_iff hvalid hn, ?_⟩
  · rw [walks_iff hvalid, List.flatMap_singleton]
  · rw [contains_iff hvalid hn, mem_descendants_iff hvalid ha]

/-- A list whose second item was made before the first one, in a slot that was used again. -/
def outline : List Edit :=
  [.createElement "ul", .createText "x", .createElement "li", .createText "y", .createElement "b",
    .remove ⟨1⟩, .createElement "li", .appendChild ⟨0⟩ ⟨2⟩, .appendChild ⟨0⟩ ⟨1⟩,
    .appendChild ⟨2⟩ ⟨4⟩, .appendChild ⟨4⟩ ⟨3⟩]

/-- The text in the first item comes before the second item, and is found to lie in the list. -/
theorem views_agree_outline :
    (Dom.empty.edited outline).Valid ∧ (Dom.empty.edited outline).Live ⟨0⟩ ∧
      (Dom.empty.edited outline).Live ⟨3⟩ ∧
        (Dom.empty.edited outline).Walks [⟨0⟩] [⟨0⟩, ⟨2⟩, ⟨4⟩, ⟨3⟩, ⟨1⟩] ∧
          (Dom.empty.edited outline).Lists ⟨0⟩ [⟨0⟩, ⟨2⟩, ⟨4⟩, ⟨3⟩, ⟨1⟩] ∧
            (Dom.empty.edited outline).Climbs ⟨0⟩ (some ⟨3⟩) true := by
  have hfollows : Dom.empty.Follows outline :=
    follows_of_finds (by decide +kernel) (by simp [outline, Edit.Sourced])
  have hvalid := (empty_wellFormed.edited hfollows).toValid
  have hlist : (Dom.empty.edited outline).Live ⟨0⟩ := by decide +kernel
  have htext : (Dom.empty.edited outline).Live ⟨3⟩ := by decide +kernel
  obtain ⟨hwalks, hlists, hclimbs, -⟩ := views_agree hvalid hlist htext
  exact ⟨hvalid, hlist, htext, (hwalks _).mpr (by decide +kernel),
    (hlists _).mpr (by decide +kernel), (hclimbs _).mpr (by decide +kernel)⟩

end LiveMarkup.Dom
