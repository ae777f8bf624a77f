import LiveMarkup.Dom.StyleSheets
import LiveMarkup.Proofs.Dom.Moves

/-!
Style sheets come among the children of a root, and nothing comes between a node and the one after
it, unless it is a style itself.
-/

namespace LiveMarkup

namespace Dom

variable {d d' d'' : Dom} {n p x y root style : NodeId} {kids : List NodeId}
  {previous : Option NodeId}

/-- `n` has been made, maybe with children that are new too, and has no parent. -/
structure Potted (n : NodeId) (d d' : Dom) : Prop where
  valid : d'.Valid
  fresh : d'.Live n ∧ ¬ d.Live n
  live : ∀ x, d.Live x → d'.Live x
  content : ∀ x, d.Live x → d'.content x = d.content x
  parent : ∀ x, d.Live x → d'.parent x = d.parent x
  children : ∀ x, d.Live x → d'.children x = d.children x
  parentless : d'.parent n = none
  new : ∀ x, d'.Live x → ¬ d.Live x → x = n ∨ d'.parent x = some n

/-- `n` has come among the children of `root`, not between two nodes of which `previous` is not the
first. -/
structure Adorned (root n : NodeId) (previous : Option NodeId) (d d' : Dom) : Prop where
  valid : d'.Valid
  fresh : d'.Live n ∧ ¬ d.Live n
  live : ∀ x, d.Live x → d'.Live x
  content : ∀ x, d.Live x → d'.content x = d.content x
  parent : ∀ x, d.Live x → d'.parent x = d.parent x
  children : ∀ x, d.Live x → x ≠ root → d'.children x = d.children x
  kids : (d'.children root).filter (· ≠ n) = d.children root
  adjacent : ∀ a b, previous ≠ some a → [a, b] <:+: d.children root → [a, b] <:+: d'.children root
  parent_new : d'.parent n = some root
  new : ∀ x, d'.Live x → ¬ d.Live x → d'.parent x = some root ∨ d'.parent x = some n

theorem Made.potted {made : Content} (h : Made made n d d') : Potted n d d' := by
  have hnode : ∀ x, d.Live x → d'.node x = d.node x := by
    intro x hx
    rw [h.node, if_neg]
    rintro rfl
    exact h.fresh hx
  refine ⟨h.valid, ⟨h.live, h.fresh⟩, fun x hx => h.live_iff.mpr (Or.inr hx), fun x hx => ?_,
    fun x hx => ?_, fun x hx => ?_, ?_, fun x hx hnew => Or.inl ((h.live_iff.mp hx).resolve_right hnew)⟩
  · rw [content, hnode x hx, content]
  · rw [parent, hnode x hx, parent]
  · rw [children, hnode x hx, children]
  · rw [parent, h.node, if_pos rfl]
    rfl

theorem Potted.not_below (h : Potted n d d') (hvalid : d.Valid) (hx : d.Live x) :
    ¬ d'.Below n x := fun hbelow =>
  h.fresh.2 (hvalid.live_of_below ((below_congr hvalid h.parent hx).mp hbelow) hx)

/-- A text is made below a new element. -/
theorem Potted.text (h : Potted n d d') (s : String) :
    Potted n d ((d'.create (.text s)).1.appendChild n (d'.create (.text s)).2) := by
  have happended := appendChild_appended h.valid h.fresh.1 (.text s)
  generalize (d'.create (.text s)).1.appendChild n (d'.create (.text s)).2 = d'' at happended ⊢
  generalize (d'.create (.text s)).2 = t at happended
  have hlive := fun x => happended.live_iff (x := x) h.fresh.1
  have hnode : ∀ x, d'.Live x → x ≠ n → d''.node x = d'.node x := by
    intro x hx hne
    rw [happended.node, if_neg hne, if_neg]
    rintro rfl
    exact happended.fresh hx
  have hold : ∀ x, d.Live x → d''.node x = d'.node x := by
    refine fun x hx => hnode x (h.live x hx) ?_
    rintro rfl
    exact h.fresh.2 hx
  refine ⟨happended.valid, ⟨(hlive n).mpr (Or.inl h.fresh.1), h.fresh.2⟩,
    fun x hx => (hlive x).mpr (Or.inl (h.live x hx)), fun x hx => ?_, fun x hx => ?_,
    fun x hx => ?_, ?_, fun x hx hnew => ?_⟩
  · exact (congrArg Node.content (hold x hx)).trans (h.content x hx)
  · exact (congrArg Node.parent (hold x hx)).trans (h.parent x hx)
  · exact (congrArg Node.children (hold x hx)).trans (h.children x hx)
  · rw [Dom.parent, happended.node, if_pos rfl]
    exact h.parentless
  · by_cases hxn : x = n
    · exact Or.inl hxn
    obtain hx | rfl := (hlive x).mp hx
    · rw [Dom.parent, hnode x hx hxn]
      exact h.new x hx hnew
    · rw [Dom.parent, happended.node, if_neg hxn, if_pos rfl]
      exact Or.inr rfl

theorem Potted.adorned (h : Potted n d d')
    (hplaced : Placed root n kids d' d'') (hvalid' : d''.Valid)
    (hkids : kids.filter (· ≠ n) = d.children root)
    (hadjacent : ∀ a b, previous ≠ some a → [a, b] <:+: d.children root → [a, b] <:+: kids) :
    Adorned root n previous d d'' := by
  have hne : ∀ {x}, d.Live x → x ≠ n := by
    rintro x hx rfl
    exact h.fresh.2 hx
  have hkids' : d''.children root = kids := by rw [hplaced.children, if_pos rfl]
  refine ⟨hvalid', ⟨(hplaced.live n).mpr h.fresh.1, h.fresh.2⟩,
    fun x hx => (hplaced.live x).mpr (h.live x hx), fun x hx => ?_, fun x hx => ?_,
    fun x hx hxr => ?_, hkids' ▸ hkids, hkids' ▸ hadjacent, ?_, fun x hx hnew => ?_⟩
  · rw [hplaced.content, h.content x hx]
  · rw [hplaced.parent, if_neg (hne hx), h.parent x hx]
  · rw [hplaced.children, if_neg hxr,
      filter_ne_of_not_mem (h.valid.not_mem_children_of_parent h.parentless x), h.children x hx]
  · rw [hplaced.parent, if_pos rfl]
  · rw [hplaced.parent]
    split
    · exact Or.inl rfl
    · rename_i hxn
      exact Or.inr ((h.new x ((hplaced.live x).mp hx) hnew).resolve_left hxn)

/-- A new node goes to the end. -/
theorem Potted.append (hvalid : d.Valid) (hroot : d.Live root) (h : Potted n d d') :
    Adorned root n previous d (d'.appendChild root n) := by
  have hroot' := h.live root hroot
  have hplaced := appendChild_placed h.valid hroot' h.fresh.1 (h.not_below hvalid hroot)
  have hnot := h.valid.not_mem_children_of_parent h.parentless root
  rw [filter_ne_of_not_mem hnot, h.children root hroot] at hplaced
  rw [h.children root hroot] at hnot
  refine h.adorned hplaced (appendChild_valid h.valid hroot' h.fresh.1) ?_
    fun a b _ hab => hab.trans (List.prefix_append _ _).isInfix
  rw [List.filter_append, filter_ne_of_not_mem hnot]
  simp

/-! ### Where a style goes -/

/-- Nodes have come after a node among its siblings, or first without such a node. -/
inductive Follow (new : List NodeId) : Option NodeId → List NodeId → List NodeId → Prop where
  | first (siblings : List NodeId) : Follow new none siblings (new ++ siblings)
  | after (before : List NodeId) (x : NodeId) (rest : List NodeId) :
      Follow new (some x) (before ++ x :: rest) (before ++ x :: (new ++ rest))

/-- Puts a new node after `previous`, or first without it. -/
def follow (d : Dom) (root : NodeId) (previous : Option NodeId) (n : NodeId) : Dom :=
  let (d, placed) := match previous, (d.children root).head? with
    | some previous, _ => d.insertAfter previous n
    | none, some first => d.insertBefore first n
    | none, none => (d, false)
  if placed then d else d.appendChild root n

theorem follow_placed (hvalid : d.Valid) (hroot : d.Live root) (hn : d.Live n)
    (hparentless : d.parent n = none) (hbelow : ¬ d.Below n root)
    (hprevious : ∀ x, previous = some x → d.parent x = some root) :
    ∃ kids, Placed root n kids d (d.follow root previous n) ∧ (d.follow root previous n).Valid ∧
      Follow [n] previous (d.children root) kids := by
  have hnot := hvalid.not_mem_children_of_parent hparentless root
  cases previous with
  | some prev =>
      have hparent := hprevious prev rfl
      obtain ⟨hdone, before, after, hsplit, hplaced, hvalid'⟩ := insertAfter_placed hvalid hparent hn
        (by rw [hparentless]; exact fun heq => by cases heq) hbelow
      have hfollow : d.follow root (some prev) n = (d.insertAfter prev n).1 := if_pos hdone
      rw [hfollow, hsplit]
      exact ⟨_, hplaced, hvalid', .after before prev after⟩
  | none =>
      cases hhead : d.children root with
      | nil =>
          have hfollow : d.follow root none n = d.appendChild root n := by
            unfold follow
            rw [hhead]
            rfl
          have hplaced := appendChild_placed hvalid hroot hn hbelow
          rw [hhead] at hplaced
          rw [hfollow]
          exact ⟨_, hplaced, appendChild_valid hvalid hroot hn, .first []⟩
      | cons first rest =>
          have hparent := (hvalid.mem_children root first).mp (hhead ▸ List.mem_cons_self)
          have hne : n ≠ first := by
            rintro rfl
            rw [hparentless] at hparent
            cases hparent
          obtain ⟨hdone, hplaced⟩ := insertBeside_placed hvalid 0 hparent hn hne hbelow
          have hvalid' := hplaced.valid hvalid hroot hn hbelow (placeAt_perm _ _ _ _)
          have hfollow : d.follow root none n = (d.insertBefore first n).1 := by
            unfold follow
            rw [hhead]
            exact if_pos hdone
          rw [filter_ne_of_not_mem hnot, hhead, ← List.nil_append (first :: rest),
            placeAt_zero n List.not_mem_nil] at hplaced
          rw [hfollow]
          exact ⟨_, hplaced, hvalid', .first (first :: rest)⟩

theorem attachSheet_adorned (hvalid : d.Valid) (hroot : d.Live root)
    (hprevious : ∀ x, previous = some x → d.parent x = some root) (sheet : String) :
    Adorned root (attachSheet d root previous sheet).2 previous d
      (attachSheet d root previous sheet).1 := by
  have hmade := create_made hvalid (.element ("style".map Char.toLower) [])
  have hpot := hmade.potted.text sheet
  unfold attachSheet
  rw [createElement]
  dsimp only
  generalize d.create (.element ("style".map Char.toLower) []) = created at hpot ⊢
  obtain ⟨d₀, style⟩ := created
  dsimp only at hpot ⊢
  generalize (d₀.create (.text sheet)).1.appendChild style (d₀.create (.text sheet)).2 = d₁
    at hpot ⊢
  change Adorned root style previous d (d₁.follow root previous style)
  obtain ⟨kids, hplaced, hvalid', hfollow⟩ := follow_placed hpot.valid (hpot.live root hroot)
    hpot.fresh.1 hpot.parentless (hpot.not_below hvalid hroot) fun x hx => by
      rw [hpot.parent x (hvalid.live_of_parent (hprevious x hx)).1, hprevious x hx]
  have hnot := hpot.valid.not_mem_children_of_parent hpot.parentless root
  rw [hpot.children root hroot] at hfollow hnot
  generalize hold : d.children root = old at hfollow hnot
  cases hfollow with
  | first =>
      refine hpot.adorned hplaced hvalid' ?_ fun a b _ hab => ?_
      · rw [hold, List.singleton_append, List.filter_cons_of_neg (by simp),
          filter_ne_of_not_mem hnot]
      · rw [hold] at hab
        exact hab.trans (List.suffix_cons _ _).isInfix
  | after before prev rest =>
      refine hpot.adorned hplaced hvalid' ?_ fun a b ha hab => ?_
      · simp only [List.mem_append, List.mem_cons, not_or] at hnot
        rw [hold, List.filter_append, filter_ne_of_not_mem hnot.1, List.filter_cons_of_pos (by
          simpa using Ne.symm hnot.2.1), List.singleton_append, List.filter_cons_of_neg (by simp),
          filter_ne_of_not_mem hnot.2.2]
      · rw [hold] at hab
        exact infix_insert (fun heq => ha (by rw [heq])) hab

end Dom

end LiveMarkup
