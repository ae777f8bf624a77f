import LiveMarkup.Proofs.Dom.Clearing
import LiveMarkup.Proofs.Dom.Copies
import LiveMarkup.Proofs.Dom.Edits

/-!
# What is freed

A removal empties the slots of a tree from a stack, and a new text for an element removes its children
one by one before it takes a slot, maybe one that has just been freed. Main result (`frees_exactly`):
a removal frees the nodes of the tree, each of them once, and takes the node from its parent; a new
text frees what was below the element and nothing else, and is all that is below it then.
-/

namespace LiveMarkup.Dom

variable {d d' : Dom} {n : NodeId} {freed : List NodeId}

/-! ### Freed nodes -/

/-- The nodes that were there are still there, but for `freed`. Each of these is free now, once. -/
structure Reclaimed (freed : List NodeId) (d d' : Dom) : Prop where
  valid : d'.Valid
  live_iff : ∀ x, d'.Live x ↔ d.Live x ∧ x ∉ freed
  size : d'.size + freed.length = d.size
  free : ∃ gone, gone.Perm freed ∧ d'.free = gone ++ d.free

theorem Reclaimed.of_live_iff (hvalid : d.Valid) (hvalid' : d'.Valid) (hnodup : freed.Nodup)
    (hfreed : ∀ x ∈ freed, d.Live x) (hlive : ∀ x, d'.Live x ↔ d.Live x ∧ x ∉ freed)
    (hfree : ∃ gone, gone.Perm freed ∧ d'.free = gone ++ d.free) : Reclaimed freed d d' := by
  refine ⟨hvalid', hlive, (size_of_live_iff hvalid' hvalid hnodup (fun x => ?_) ?_).symm, hfree⟩
  · rw [hlive]
    by_cases hx : x ∈ freed
    · exact iff_of_true (hfreed x hx) (Or.inr hx)
    · simp [hx]
  · exact fun x hx hlive' => ((hlive x).mp hlive').2 hx

/-! ### Removals -/

/-- The tree at `n` has been freed, and its parent has lost `n`. -/
structure Removes (n : NodeId) (d d' : Dom) : Prop extends Reclaimed (d.descendants n) d d' where
  parent : ∀ p, d.parent n = some p →
    d'.node p = { d.node p with children := (d.children p).filter (· ≠ n) }
  aside : ∀ x, d.Live x → ¬ d.Below n x → d.parent n ≠ some x → d'.node x = d.node x

theorem remove_removes (hvalid : d.Valid) (hn : d.Live n) : Removes n d (d.remove n) := by
  have hcut := remove_cutOff hvalid hn
  have hmem : ∀ x, x ∈ d.descendants n ↔ d.Below n x := fun x => mem_descendants_iff hvalid hn
  refine ⟨.of_live_iff hvalid (hcut.valid hvalid hn) (descendants_nodup hvalid hn) (fun x hx => ?_)
    (fun x => ?_) (hcut.perm_descendants hvalid hn fun _ => Iff.rfl), fun p hp => ?_,
    fun x _ hx hparent => ?_⟩
  · exact hvalid.live_below ((hmem x).mp hx) hn
  · rw [hcut.live_iff, hmem]
  · exact hcut.outside p (hvalid.acyclic n p hp)
  · rw [hcut.outside x hx, hvalid.filter_children_of_ne hparent, children]

/-! ### A new text -/

theorem Cleared.reclaimed (h : Cleared (d.children n) d d') (hvalid : d.Valid) (hn : d.Live n) :
    Reclaimed (d.descendants n).tail d d' := by
  have htail : (d.descendants n).tail = (d.children n).flatMap d.descendants := by
    rw [descendants_eq hvalid, List.tail_cons]
  refine .of_live_iff hvalid h.valid (descendants_nodup hvalid hn).tail (fun x hx => ?_)
    (fun x => ?_) (htail ▸ h.free)
  · obtain ⟨c, hc, hcx⟩ := (mem_tail_descendants_iff hvalid).mp hx
    exact hvalid.live_below hcx (hvalid.live_of_mem_children hc)
  · rw [mem_tail_descendants_iff hvalid]
    by_cases hx : ∃ c ∈ d.children n, d.Below c x
    · obtain ⟨c, hc, hcx⟩ := hx
      rw [Live, h.inside c hc x hcx]
      exact iff_of_false (fun hfreed => by cases hfreed) fun hlive => hlive.2 ⟨c, hc, hcx⟩
    · have hnot : ∀ c ∈ d.children n, ¬ d.Below c x := fun c hc hcx => hx ⟨c, hc, hcx⟩
      rw [Live, h.outside x hnot, and_iff_left hx, Live]

/-- `s` is the text of `n`: what was below `n` has been freed, and nothing but a text `s`, if it is not
empty, is below it now. -/
structure Retexted (n : NodeId) (s : String) (d d' : Dom) : Prop where
  valid : d'.Valid
  live_iff : ∀ x, d'.Live x ↔ (d.Live x ∧ x ∉ (d.descendants n).tail) ∨ x ∈ d'.children n
  size : d'.size + (d.descendants n).tail.length = d.size + (d'.children n).length
  /-- A new text takes the first of the free slots. -/
  free : ∃ gone, gone.Perm (d.descendants n).tail ∧
    d'.free = (gone ++ d.free).drop (d'.children n).length
  empty : s = "" → d'.children n = []
  text : s ≠ "" → ∃ t, d'.children n = [t] ∧
    d'.node t = { Node.alone (.text s) with parent := some n }
  textContent : d'.textContent n = s
  self : d'.node n = { d.node n with children := d'.children n }
  aside : ∀ x, d.Live x → ¬ d.Below n x → d'.node x = d.node x

theorem setTextContent_of_container (s : String)
    (hkind : d.content n = .fragment ∨ (d.content n).isElement = true) :
    d.setTextContent n s =
      if s.isEmpty then (d.children n).foldl remove d
      else (((d.children n).foldl remove d).create (.text s)).1.appendChild n
        (((d.children n).foldl remove d).create (.text s)).2 := by
  rw [setTextContent]
  generalize d.content n = content at hkind ⊢
  cases content with
  | fragment | element tag attributes => rfl
  | text s | comment s => simp [Content.isElement] at hkind

/-- A node that holds no text itself has the text of its children. -/
theorem textContent_of_container (hvalid : d.Valid)
    (hkind : d.content n = .fragment ∨ (d.content n).isElement = true) :
    d.textContent n = String.join ((d.children n).map d.textContent) := by
  rw [textContent_eq hvalid]
  generalize d.content n = content at hkind ⊢
  cases content with
  | fragment | element tag attributes | comment s => exact String.empty_append
  | text s => simp [Content.isElement] at hkind

section Container

variable (hvalid : d.Valid) (hn : d.Live n)
  (hkind : d.content n = .fragment ∨ (d.content n).isElement = true)
  (h : Cleared (d.children n) d d')

include hvalid hn hkind h

theorem Cleared.retexted : Retexted n "" d d' := by
  have hself := h.self hvalid
  have hreclaimed := h.reclaimed hvalid hn
  have hkids : d'.children n = [] := by rw [children, hself]
  have hkind' : d'.content n = .fragment ∨ (d'.content n).isElement = true := by
    rwa [content, hself]
  refine ⟨h.valid, fun x => ?_, ?_, ?_, fun _ => hkids, fun hne => absurd rfl hne, ?_, ?_,
    fun x _ hx => h.aside hvalid hx⟩
  · rw [hkids, hreclaimed.live_iff, or_iff_left List.not_mem_nil]
  · rw [hkids]
    exact hreclaimed.size
  · rw [hkids]
    exact hreclaimed.free
  · rw [textContent_of_container h.valid hkind', hkids]
    rfl
  · rw [hkids, hself]

theorem Cleared.retexted_append {s : String} (hs : s ≠ "") :
    Retexted n s d ((d'.create (.text s)).1.appendChild n (d'.create (.text s)).2) := by
  have hself := h.self hvalid
  have hreclaimed := h.reclaimed hvalid hn
  have hlive := h.live_self hvalid hn
  have happended := appendChild_appended h.valid hlive (.text s)
  generalize (d'.create (.text s)).1.appendChild n (d'.create (.text s)).2 = d'' at happended ⊢
  generalize (d'.create (.text s)).2 = t at happended
  have hnew : d''.node n = { d.node n with children := [t] } := by
    rw [happended.node, if_pos rfl, children, hself]
    rfl
  have hkids : d''.children n = [t] := by rw [children, hnew]
  have hkind' : d''.content n = .fragment ∨ (d''.content n).isElement = true := by
    rwa [content, hnew]
  have hne : t ≠ n := by
    rintro rfl
    exact happended.fresh hlive
  have htext : d''.node t = { Node.alone (.text s) with parent := some n } := by
    rw [happended.node, if_neg hne, if_pos rfl]
  have hsize : d''.size = d'.size + 1 :=
    size_of_live_iff h.valid happended.valid (List.nodup_singleton t)
      (fun x => by rw [happended.live_iff hlive, List.mem_singleton])
      fun x hx => List.mem_singleton.mp hx ▸ happended.fresh
  refine ⟨happended.valid, fun x => ?_, ?_, ?_, fun hempty => absurd hempty hs,
    fun _ => ⟨t, hkids, htext⟩, ?_, ?_, fun x hx hbelow => ?_⟩
  · rw [happended.live_iff hlive, hreclaimed.live_iff, hkids, List.mem_singleton]
  · rw [hkids, hsize, ← hreclaimed.size, List.length_singleton]
    omega
  · obtain ⟨gone, hperm, hfree⟩ := hreclaimed.free
    refine ⟨gone, hperm, ?_⟩
    rw [happended.free, hfree, hkids, List.length_singleton, List.drop_one]
  · have hbare : d''.children t = [] := by
      rw [children, htext]
      rfl
    rw [textContent_of_container happended.valid hkind', hkids, List.map_singleton,
      textContent_eq happended.valid t, hbare, content, htext]
    simp [Node.alone]
  · rw [hkids, hnew]
  · have hx' : d'.Live x := by
      rw [Live, h.aside hvalid hbelow]
      exact hx
    rw [happended.node, if_neg, if_neg, h.aside hvalid hbelow]
    · rintro rfl
      exact happended.fresh hx'
    · rintro rfl
      exact hbelow .self

end Container

theorem setTextContent_retexted (hvalid : d.Valid) (hn : d.Live n)
    (hkind : d.content n = .fragment ∨ (d.content n).isElement = true) (s : String) :
    Retexted n s d (d.setTextContent n s) := by
  have hcleared := foldl_remove_cleared hvalid n
  rw [setTextContent_of_container s hkind]
  split
  · rename_i hs
    rw [String.isEmpty_iff] at hs
    exact hs ▸ hcleared.retexted hvalid hn hkind
  · rename_i hs
    rw [String.isEmpty_iff] at hs
    exact hcleared.retexted_append hvalid hn hkind hs

/-- **Removal frees exactly what it has to.** A removal frees the tree at the node, and a new text what
was below the node. -/
theorem frees_exactly (hvalid : d.Valid) (hn : d.Live n) :
    Removes n d (d.remove n) ∧
      (d.content n = .fragment ∨ (d.content n).isElement = true →
        ∀ s, Retexted n s d (d.setTextContent n s)) :=
  ⟨remove_removes hvalid hn, setTextContent_retexted hvalid hn⟩

/-- A paragraph between two others, with a text and an element in it. A slot is free. -/
def paragraphs : List Edit :=
  [.createElement "div", .createElement "p", .createElement "p", .createElement "p",
    .createText "a", .createElement "i", .createText "b", .createComment "c",
    .appendChild ⟨0⟩ ⟨1⟩, .appendChild ⟨0⟩ ⟨2⟩, .appendChild ⟨0⟩ ⟨3⟩, .appendChild ⟨2⟩ ⟨4⟩,
    .appendChild ⟨2⟩ ⟨5⟩, .appendChild ⟨5⟩ ⟨6⟩, .remove ⟨7⟩]

/-- The paragraph is removed, or gets a new text. -/
theorem frees_exactly_paragraph :
    (Dom.empty.edited paragraphs).Valid ∧ (Dom.empty.edited paragraphs).Live ⟨2⟩ ∧
      Removes ⟨2⟩ (Dom.empty.edited paragraphs) ((Dom.empty.edited paragraphs).remove ⟨2⟩) ∧
        ∀ s, Retexted ⟨2⟩ s (Dom.empty.edited paragraphs)
          ((Dom.empty.edited paragraphs).setTextContent ⟨2⟩ s) := by
  have hfollows : Dom.empty.Follows paragraphs :=
    follows_of_finds (by decide +kernel) (by simp [paragraphs, Edit.Sourced])
  have hvalid := (empty_wellFormed.edited hfollows).toValid
  have hlive : (Dom.empty.edited paragraphs).Live ⟨2⟩ := by decide +kernel
  obtain ⟨hremoves, hretexted⟩ := frees_exactly hvalid hlive
  exact ⟨hvalid, hlive, hremoves, hretexted (Or.inr (by decide +kernel))⟩

end LiveMarkup.Dom
