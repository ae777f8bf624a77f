import LiveMarkup.Proofs.Page.Form

/-!
Taking instances down. Retiring a fragment empties its slot and the slots of everything in it, and
nothing else; a component that is disconnected keeps its slot and loses everything in it.
-/

namespace LiveMarkup.Page

variable {page page' page'' : Page} {old : Page} {f g id j p : InstanceId}
  {gone gone' : InstanceId → Prop}

/-- The slots of the instances in `gone` were emptied. -/
structure Cleared (gone : InstanceId → Prop) (page page' : Page) : Prop where
  size : page'.slots.size = page.slots.size
  queue : page'.queue = page.queue
  effects : page'.effects = page.effects
  ran : page'.ran = page.ran
  definitions : page'.definitions = page.definitions
  document : page'.document = page.document
  styles : page'.styles = page.styles
  listeners : page'.listeners = page.listeners
  emptied : ∀ j, gone j → page'.slot j = .alone j .vacant
  other : ∀ j, ¬ gone j → page'.slot j = page.slot j
  free : ∃ freed, page'.free = freed ++ page.free ∧ freed.Nodup ∧ ∀ j, j ∈ freed ↔ gone j

namespace Cleared

theorem trans (h : Cleared gone page page') (h' : Cleared gone' page' page'')
    (hdisjoint : ∀ j, gone j → ¬ gone' j) : Cleared (fun j => gone j ∨ gone' j) page page'' where
  size := h'.size.trans h.size
  queue := h'.queue.trans h.queue
  effects := h'.effects.trans h.effects
  ran := h'.ran.trans h.ran
  definitions := h'.definitions.trans h.definitions
  document := h'.document.trans h.document
  styles := h'.styles.trans h.styles
  listeners := h'.listeners.trans h.listeners
  emptied j := by
    rintro (hj | hj)
    · rw [h'.other j (hdisjoint j hj), h.emptied j hj]
    · exact h'.emptied j hj
  other j hj := by
    rw [not_or] at hj
    rw [h'.other j hj.2, h.other j hj.1]
  free := by
    obtain ⟨freed, hfree, hnodup, hmem⟩ := h.free
    obtain ⟨freed', hfree', hnodup', hmem'⟩ := h'.free
    refine ⟨freed' ++ freed, by rw [hfree', hfree, List.append_assoc], ?_, ?_⟩
    · refine List.nodup_append.mpr ⟨hnodup', hnodup, ?_⟩
      rintro x hx y hy rfl
      exact hdisjoint x ((hmem x).mp hy) ((hmem' x).mp hx)
    · intro j
      rw [List.mem_append, hmem, hmem']
      exact Or.comm

theorem congr (h : Cleared gone page page') (hiff : ∀ j, gone j ↔ gone' j) :
    Cleared gone' page page' := by
  have heq : gone = gone' := funext fun j => propext (hiff j)
  exact heq ▸ h

end Cleared

theorem release_cleared (page : Page) (id : InstanceId)
    (h : (page.slot id).isVacant = false) :
    Cleared (fun j => j = id) page (page.release id) := by
  have hlt := lt_size_of_not_vacant h
  unfold release
  rw [if_neg (by simp [h])]
  have hslot : ∀ j, (page.updateSlot id fun _ => .alone id .vacant).slot j =
      if j = id then .alone id .vacant else page.slot j :=
    slot_updateSlot hlt _
  refine ⟨size_updateSlot page id _, rfl, rfl, rfl, rfl, rfl, rfl, rfl, ?_, ?_, [id], rfl,
    List.nodup_singleton id, fun j => List.mem_singleton⟩
  · rintro j rfl
    exact (hslot j).trans (if_pos rfl)
  · intro j hj
    exact (hslot j).trans (if_neg hj)

theorem unmount_retouch (page : Page) (id : InstanceId) : Retouch id page (page.unmount id) := by
  have hmounted : ∀ next : Page, Akin page next → ∀ stats notice, Retouch id page
      ({ next.updateSlot id (·.mapFragment ({ · with attached := false })) with stats }.report
        notice) := by
    intro next hakin stats notice
    exact ((Retouch.of_akin id hakin).trans (retouch_updateSlot next id _)).trans
      (.of_akin id ((akin_stats _ _).trans (akin_report _ _)))
  unfold unmount
  split
  · split
    · exact .of_akin id (.refl page)
    · dsimp only
      split
      · exact hmounted _ (akin_editDom page _) _ _
      · exact hmounted _ (.refl page) _ _
  · exact .of_akin id (.refl page)

theorem listeners_unmount (page : Page) (id : InstanceId) :
    (page.unmount id).listeners = page.listeners := by
  unfold unmount
  split
  · split
    · rfl
    · dsimp only
      split <;> rfl
  · rfl

/-- The fragments in `f` are still where they were in `old`. -/
def Rooted (old : Page) (f : InstanceId) (page : Page) : Prop :=
  ∀ j, old.Under f j → page.slot j = old.slot j

/-- A fragment stays where it was while another one in the same instance is taken down. -/
theorem Rooted.of_cleared (hold : old.Orderly) (hf : f ∈ (old.slot p).children)
    (hg : g ∈ (old.slot p).children) (hne : f ≠ g) (hcleared : Cleared (old.Under f) page page')
    (h : Rooted old g page) : Rooted old g page' := by
  intro j hgj
  rw [hcleared.other j fun hfj => hne (hold.eq_of_under_children hf hg hfj hgj)]
  exact h j hgj

theorem foldl_retire_cleared (hold : old.Orderly) {retire : Page → InstanceId → Page}
    {children : List InstanceId} (hchildren : children ⊆ (old.slot p).children)
    (hnodup : children.Nodup)
    (hretire : ∀ page, ∀ f ∈ children, page.slots.size = old.slots.size → Rooted old f page →
      Cleared (old.Under f) page (retire page f)) (hsize : page.slots.size = old.slots.size)
    (hrooted : ∀ f ∈ children, Rooted old f page) :
    Cleared (fun j => ∃ f ∈ children, old.Under f j) page (children.foldl retire page) := by
  induction children generalizing page with
  | nil =>
      refine ⟨rfl, rfl, rfl, rfl, rfl, rfl, rfl, rfl, ?_, fun _ _ => rfl, [], rfl, List.nodup_nil,
        by simp⟩
      rintro j ⟨f, hf, _⟩
      cases hf
  | cons f rest ih =>
      rw [List.nodup_cons] at hnodup
      have hf := hchildren List.mem_cons_self
      have hrest : rest ⊆ (old.slot p).children := fun x hx =>
        hchildren (List.mem_cons_of_mem _ hx)
      have hfirst := hretire page f List.mem_cons_self hsize (hrooted f List.mem_cons_self)
      have hapart : ∀ g ∈ rest, ∀ j, old.Under g j → ¬ old.Under f j := by
        intro g hg j hgj hfj
        exact hnodup.1 (hold.eq_of_under_children hf (hrest hg) hfj hgj ▸ hg)
      have hrooted' : ∀ g ∈ rest, Rooted old g (retire page f) := fun g hg =>
        Rooted.of_cleared hold hf (hrest hg) (fun heq => hnodup.1 (heq ▸ hg)) hfirst
          (hrooted g (List.mem_cons_of_mem _ hg))
      have hlast := ih hrest hnodup.2
        (fun page g hg => hretire page g (List.mem_cons_of_mem _ hg))
        (hfirst.size.trans hsize) hrooted'
      refine (hfirst.trans hlast ?_).congr ?_
      · rintro j hfj ⟨g, hg, hgj⟩
        exact hapart g hg j hgj hfj
      · intro j
        simp only [List.mem_cons, exists_eq_or_imp]

/-- A fragment that is taken down is unmounted and lets go of its children first. -/
def loosen (page : Page) (f : InstanceId) : Page :=
  (page.unmount f).updateSlot f ({ · with children := [] })

theorem loosen_retouch (page : Page) (f : InstanceId) : Retouch f page (page.loosen f) :=
  (unmount_retouch page f).trans (retouch_updateSlot _ f _)

theorem isVacant_loosen (page : Page) (f : InstanceId) :
    ((page.loosen f).slot f).isVacant = (page.slot f).isVacant := by
  have hupdate := read_updateSlot (·.isVacant) (f := ({ · with children := [] })) (fun _ => rfl)
    (page.unmount f) f f
  refine hupdate.trans (read_unmount (·.isVacant) ?_ page f f)
  intro i
  unfold Instance.mapFragment
  split
  · rename_i state hkind
    simp [Instance.isVacant, hkind]
  · rfl

theorem children_unmount (page : Page) (f j : InstanceId) :
    ((page.unmount f).slot j).children = (page.slot j).children := by
  refine read_unmount (·.children) ?_ page f j
  intro i
  unfold Instance.mapFragment
  split <;> rfl

/-- The element of a fragment is freed, and its slot is emptied. -/
def drop (page : Page) (f : InstanceId) : Page :=
  (match page.fragmentRoot? f with
    | some root => page.editDom (·.remove root)
    | none => page).release f

theorem exists_drop_eq (page : Page) (f : InstanceId) :
    ∃ next, Akin page next ∧ next.listeners = page.listeners ∧ page.drop f = next.release f := by
  rw [drop]
  split
  · exact ⟨_, akin_editDom _ _, rfl, rfl⟩
  · exact ⟨_, .refl _, rfl, rfl⟩

theorem retireWithin_eq (depth : Nat) (page : Page) (f : InstanceId) :
    retireWithin (depth + 1) page f =
      ((page.slot f).children.foldl (retireWithin depth) (page.loosen f)).drop f := by
  rw [retireWithin, children_unmount]
  rfl

/-- The fragments in a fragment that is loose are where they were. -/
theorem Rooted.loosen (hold : old.Orderly) (hg : g ∈ (old.slot f).children)
    (h : Rooted old f page) : Rooted old g (page.loosen f) := by
  intro j hgj
  have hne : j ≠ f := by
    rintro rfl
    exact hold.not_under_child hg hgj
  rw [(loosen_retouch page f).other j hne]
  exact h j ((hold.under_of_child hg).trans hgj)

theorem release_below {loose done next : Page} (hold : old.Orderly) (hretouch : Retouch f page loose)
    (hlisteners : loose.listeners = page.listeners) (hvacant : (loose.slot f).isVacant = false)
    (hbelow : Cleared (fun j => ∃ g ∈ (old.slot f).children, old.Under g j) loose done)
    (hakin : Akin done next) (hlisteners' : next.listeners = done.listeners) :
    Cleared (old.Under f) page (next.release f) := by
  have hnot : ¬ ∃ g ∈ (old.slot f).children, old.Under g f := by
    rintro ⟨g, hg, hgf⟩
    exact hold.not_under_child hg hgf
  have hrelease := release_cleared next f
    (by rw [hakin.slot, hbelow.other f hnot, hvacant])
  obtain ⟨freed, hfree, hnodup, hmem⟩ := hbelow.free
  obtain ⟨last, hlastfree, hlastnodup, hlastmem⟩ := hrelease.free
  refine ⟨?_, ?_, ?_, ?_, ?_, ?_, ?_, ?_, ?_, ?_, last ++ freed, ?_, ?_, ?_⟩
  · rw [hrelease.size, hakin.slots, hbelow.size, hretouch.size]
  · rw [hrelease.queue, hakin.queue, hbelow.queue, hretouch.queue]
  · rw [hrelease.effects, hakin.effects, hbelow.effects, hretouch.effects]
  · rw [hrelease.ran, hakin.ran, hbelow.ran, hretouch.ran]
  · rw [hrelease.definitions, hakin.definitions, hbelow.definitions, hretouch.definitions]
  · rw [hrelease.document, hakin.document, hbelow.document, hretouch.document]
  · rw [hrelease.styles, hakin.styles, hbelow.styles, hretouch.styles]
  · rw [hrelease.listeners, hlisteners', hbelow.listeners, hlisteners]
  · intro j hfj
    rcases under_cases hold hfj with rfl | hchild
    · exact hrelease.emptied j rfl
    · rw [hrelease.other j (by rintro rfl; exact hnot hchild), hakin.slot]
      exact hbelow.emptied j hchild
  · intro j hfj
    have hne : j ≠ f := by
      rintro rfl
      exact hfj .self
    rw [hrelease.other j hne, hakin.slot, hbelow.other j, hretouch.other j hne]
    rintro ⟨g, hg, hgj⟩
    exact hfj ((hold.under_of_child hg).trans hgj)
  · rw [hlastfree, hakin.free, hfree, hretouch.free, List.append_assoc]
  · refine List.nodup_append.mpr ⟨hlastnodup, hnodup, ?_⟩
    rintro x hx y hy rfl
    rw [hlastmem] at hx
    exact hnot (hx ▸ (hmem x).mp hy)
  · intro j
    rw [List.mem_append, hlastmem, hmem]
    constructor
    · rintro (rfl | ⟨g, hg, hgj⟩)
      · exact .self
      · exact (hold.under_of_child hg).trans hgj
    · exact under_cases hold

theorem retireWithin_cleared (hold : old.Orderly) {depth : Nat}
    (hsize : page.slots.size = old.slots.size) (hf : (old.slot f).isVacant = false)
    (hdepth : ∀ j, old.Under f j → f ∈ lineage old.up depth j) (hrooted : Rooted old f page) :
    Cleared (old.Under f) page (retireWithin depth page f) := by
  induction depth generalizing page f with
  | zero =>
      have hmem := hdepth f .self
      simp [lineage] at hmem
  | succ depth ih =>
      have hslot := hrooted f .self
      have hretouch := loosen_retouch page f
      obtain ⟨next, hakin, hlisteners, heq⟩ := exists_drop_eq
        ((page.slot f).children.foldl (retireWithin depth) (page.loosen f)) f
      rw [retireWithin_eq, heq]
      rw [hslot] at hakin hlisteners
      refine release_below hold hretouch (listeners_unmount page f) ?_ ?_ hakin hlisteners
      · rw [isVacant_loosen, hslot, hf]
      · refine foldl_retire_cleared hold (fun _ hx => hx) (hold.children_nodup f) ?_
          (hretouch.size.trans hsize) fun g hg => hrooted.loosen hold hg
        intro next g hg hnext hrooted
        have hup := (hold.mem_children f g).mp hg
        refine ih hnext (hold.not_vacant_of_up hup).1 ?_ hrooted
        intro j hgj
        exact hold.acyclic.mem_lineage_child hup (hdepth j ((Above.of_up hup).trans hgj)) hgj

/-- Retiring a fragment empties its slot and the slots of everything in it. -/
theorem retire_cleared (hold : old.Orderly) (hsize : page.slots.size = old.slots.size)
    (hf : (old.slot f).isVacant = false) (hrooted : Rooted old f page) :
    Cleared (old.Under f) page (page.retire f) := by
  refine retireWithin_cleared hold hsize hf ?_ hrooted
  intro j hfj
  rw [hsize]
  refine (hold.bounded.mem_lineage_iff hold.acyclic ?_).mpr hfj
  rcases hfj.cases_up with rfl | ⟨p, hp, _⟩
  · exact lt_size_of_not_vacant hf
  · exact lt_size_of_not_vacant (hold.not_vacant_of_up hp).1

end LiveMarkup.Page
