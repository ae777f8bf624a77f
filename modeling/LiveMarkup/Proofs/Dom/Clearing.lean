import LiveMarkup.Proofs.Dom.Descendants
import LiveMarkup.Proofs.Dom.Remove

/-!
Removing all children of a node, one by one. Each is freed with what has always been below it, and in
the end the node has no children and everything beside them is as it was.
-/

namespace LiveMarkup.Dom

variable {d d' source : Dom} {c n p x : NodeId} {done todo : List NodeId}

/-- What is freed is what `source` has below the node, if that is what the store has there. -/
theorem CutOff.perm_descendants (h : CutOff n d d') (hsource : source.Valid) (hn : source.Live n)
    (hbelow : ∀ x, d.Below n x ↔ source.Below n x) :
    ∃ gone, gone.Perm (source.descendants n) ∧ d'.free = gone ++ d.free := by
  obtain ⟨gone, hfree, hnodup, hmem⟩ := h.free
  refine ⟨gone, ?_, hfree⟩
  rw [List.perm_ext_iff_of_nodup hnodup (descendants_nodup hsource hn)]
  intro x
  rw [hmem, hbelow, mem_descendants_iff hsource hn]

/-- The trees at `done`, some children of one node, have been freed. -/
structure Cleared (done : List NodeId) (d d' : Dom) : Prop where
  valid : d'.Valid
  inside : ∀ c ∈ done, ∀ x, d.Below c x → d'.node x = .vacant
  outside : ∀ x, (∀ c ∈ done, ¬ d.Below c x) →
    d'.node x = { d.node x with children := (d.children x).filter (· ∉ done) }
  free : ∃ gone, gone.Perm (done.flatMap d.descendants) ∧ d'.free = gone ++ d.free

namespace Cleared

theorem start (hvalid : d.Valid) : Cleared [] d d where
  valid := hvalid
  inside c hc := absurd hc List.not_mem_nil
  outside x _ := by
    have hall : (d.children x).filter (· ∉ []) = d.children x :=
      List.filter_eq_self.mpr fun y _ => decide_eq_true List.not_mem_nil
    rw [hall, children]
  free := ⟨[], List.Perm.nil, rfl⟩

theorem parent_of_some (h : Cleared done d d') (hp : d'.parent x = some p) :
    d.parent x = some p := by
  by_cases hx : ∀ c ∈ done, ¬ d.Below c x
  · rwa [parent, h.outside x hx] at hp
  · push Not at hx
    obtain ⟨c, hc, hx⟩ := hx
    rw [parent, h.inside c hc x hx] at hp
    cases hp

/-- The next child is removed with what has always been below it. -/
theorem remove (h : Cleared done d d') (hvalid : d.Valid) (hdone : ∀ k ∈ done, k ∈ d.children n)
    (hc : c ∈ d.children n) (hnot : c ∉ done) : Cleared (done ++ [c]) d (d'.remove c) := by
  have hapart : ∀ x, d.Below c x → ∀ k ∈ done, ¬ d.Below k x := by
    intro x hx k hk hkx
    rw [hvalid.eq_of_below_children hc (hdone k hk) hx hkx] at hnot
    exact hnot hk
  have hlive : d'.Live c := by
    rw [Live, h.outside c (hapart c .self)]
    exact hvalid.live_of_mem_children hc
  have hbelow : ∀ x, d'.Below c x ↔ d.Below c x := by
    intro x
    constructor
    · exact fun hx => hx.of_sub fun m p _ hp => h.parent_of_some hp
    · intro hx
      refine hx.congr fun m hm _ => ?_
      rw [parent, h.outside m (hapart m hm), parent]
  have hcut := remove_cutOff h.valid hlive
  refine ⟨hcut.valid h.valid hlive, fun k hk x hx => ?_, fun x hx => ?_, ?_⟩
  · by_cases hcx : d.Below c x
    · exact hcut.inside x ((hbelow x).mpr hcx)
    · rw [List.mem_append, List.mem_singleton] at hk
      obtain hk | rfl := hk
      · rw [hcut.outside x (mt (hbelow x).mp hcx), children, h.inside k hk x hx]
        rfl
      · exact absurd hx hcx
  · have hcx : ¬ d.Below c x := hx c (List.mem_append_right _ (List.mem_singleton_self c))
    have hkept := h.outside x fun k hk => hx k (List.mem_append_left _ hk)
    rw [hcut.outside x (mt (hbelow x).mp hcx), children, hkept]
    simp only [List.filter_filter, List.mem_append, List.mem_singleton, not_or, ne_eq,
      Bool.decide_and, Bool.and_comm]
  · obtain ⟨gone, hperm, hfree⟩ := h.free
    obtain ⟨gone', hperm', hfree'⟩ := hcut.perm_descendants hvalid
      (hvalid.live_of_mem_children hc) hbelow
    refine ⟨gone' ++ gone, ?_, by rw [hfree', hfree, List.append_assoc]⟩
    rw [List.flatMap_append, List.flatMap_singleton]
    exact List.perm_append_comm.trans (hperm.append hperm')

theorem foldl (h : Cleared done d d') (hvalid : d.Valid) (hsplit : d.children n = done ++ todo) :
    Cleared (d.children n) d (todo.foldl Dom.remove d') := by
  induction todo generalizing done d' with
  | nil =>
      rw [hsplit, List.append_nil]
      exact h
  | cons c todo ih =>
      have hnodup := hvalid.children_nodup n
      rw [hsplit, List.nodup_middle, List.nodup_cons, List.mem_append, not_or] at hnodup
      have hmem : ∀ k ∈ done ++ c :: todo, k ∈ d.children n := fun k hk => hsplit ▸ hk
      refine ih (h.remove hvalid (fun k hk => hmem k (List.mem_append_left _ hk))
        (hmem c (List.mem_append_right _ List.mem_cons_self)) hnodup.1.1) ?_
      rw [hsplit, List.append_assoc]
      rfl

end Cleared

theorem foldl_remove_cleared (hvalid : d.Valid) (n : NodeId) :
    Cleared (d.children n) d ((d.children n).foldl remove d) :=
  (Cleared.start hvalid).foldl hvalid rfl

namespace Cleared

variable (h : Cleared (d.children n) d d') (hvalid : d.Valid)

include h hvalid

theorem self : d'.node n = { d.node n with children := [] } := by
  have hnot : ∀ c ∈ d.children n, ¬ d.Below c n := fun c hc =>
    hvalid.acyclic c n ((hvalid.mem_children n c).mp hc)
  have hkids : (d.children n).filter (· ∉ d.children n) = [] :=
    List.filter_eq_nil_iff.mpr fun c hc => by simpa using hc
  rw [h.outside n hnot, hkids]

theorem aside (hx : ¬ d.Below n x) : d'.node x = d.node x := by
  have hnot : ∀ c ∈ d.children n, ¬ d.Below c x := fun c hc hcx =>
    hx ((hvalid.below_of_mem_children hc).trans hcx)
  have hkids : (d.children x).filter (· ∉ d.children n) = d.children x := by
    refine List.filter_eq_self.mpr fun c hc => decide_eq_true fun hc' => ?_
    -- A child of both would make the two the same node.
    have hparent := (hvalid.mem_children x c).mp hc
    rw [(hvalid.mem_children n c).mp hc', Option.some.injEq] at hparent
    exact hx (hparent ▸ .self)
  rw [h.outside x hnot, hkids, children]

theorem live_self (hn : d.Live n) : d'.Live n := by
  rw [Live, h.self hvalid]
  exact hn

end Cleared

end LiveMarkup.Dom
