import LiveMarkup.Proofs.Dom.Edits
import LiveMarkup.Proofs.Dom.Graft
import LiveMarkup.Proofs.Dom.Sheets
import LiveMarkup.Proofs.Template.Separators
import Mathlib.Data.List.Basic

/-!
# Styling

The style sheets of a component come before everything else in its root, in their order. A style is
made as the tree of its sheet would be grafted (`graft_sheetTree`), and it goes after the style before
it, so that all styles together stand where the first one went. Main result: the children of the root
are one new style for each sheet that holds more than blanks and then the children that it had, and
nothing else changes (`styles_first`).
-/

namespace LiveMarkup

/-- A sheet has rules when not all of it is blank. -/
theorem hasRules_eq (sheet : String) :
    hasRules sheet = sheet.toList.any fun c => !Text.isBlank c := by
  rw [hasRules, Bool.eq_iff_iff, Bool.not_eq_true', List.isEmpty_eq_false_iff, List.any_eq_true]
  constructor
  · intro hne
    by_contra hblank
    push Not at hblank
    exact hne (Text.trim_eq_nil fun c hc => by simpa using hblank c hc)
  · rintro ⟨c, hc, hblank⟩ hnil
    obtain ⟨front, back, hfront, hback, hsplit⟩ := Text.exists_trim sheet.toList
    rw [hsplit, hnil, List.append_nil, List.mem_append] at hc
    have htrue : Text.isBlank c = true := hc.elim (hfront c) (hback c)
    rw [htrue] at hblank
    cases hblank

namespace Dom

variable {d d' : Dom} {n root : NodeId} {ids siblings siblings' result : List NodeId}
  {previous : Option NodeId}

/-- A style element with a sheet as its only text. -/
def sheetTree (sheet : String) : Tree :=
  .node (.element "style" []) none [.leaf (.text sheet)]

theorem setMarker_self (hn : d.Live n) : d.setMarker n (d.marker n) = d := by
  refine ext_node (size_update d n _) rfl fun x => ?_
  rw [node_setMarker hn]
  split
  · rename_i heq
    rw [heq]
    rfl
  · rfl

theorem Made.setMarker_none {made : Content} (h : Made made n d d') : d'.setMarker n none = d' := by
  have hmarker : d'.marker n = none := by
    rw [marker, h.node, if_pos rfl]
    rfl
  rw [← hmarker, setMarker_self h.live]

/-- A style is made as its tree is grafted. -/
theorem graft_sheetTree (hvalid : d.Valid) (sheet : String) :
    let element := d.createElement "style"
    let text := element.1.create (.text sheet)
    d.graft (sheetTree sheet) = (text.1.appendChild element.2 text.2, ⟨element.2, []⟩) := by
  have hlower : "style".map Char.toLower = "style" := by decide +kernel
  rw [createElement, hlower]
  have hstyle := create_made hvalid (.element "style" [])
  have htext := create_made hstyle.valid (.text sheet)
  have hlink := htext.appendChild_eq_link fun heq => htext.fresh (heq ▸ hstyle.live)
  dsimp only
  rw [hlink]
  simp only [sheetTree, Tree.leaf, graft, graftChildren, hstyle.setMarker_none, htext.setMarker_none,
    List.append_nil]

/-! ### Where the styles go -/

theorem Follow.nil (h : ∀ x, previous = some x → x ∈ siblings) :
    Follow [] previous siblings siblings := by
  cases previous with
  | none => exact .first siblings
  | some x =>
      obtain ⟨before, rest, hsplit⟩ := List.append_of_mem (h x rfl)
      rw [hsplit]
      exact .after before x rest

theorem Follow.eq_append (h : Follow ids none siblings siblings') : siblings' = ids ++ siblings := by
  cases h
  rfl

theorem Follow.subset (h : Follow ids previous siblings siblings') : ids ⊆ siblings' := by
  intro x hx
  cases h with
  | first => exact List.mem_append_left _ hx
  | after => exact List.mem_append_right _ (List.mem_cons_of_mem _ (List.mem_append_left _ hx))

/-- What follows a node that follows `previous` follows `previous` together with that node. -/
theorem Follow.cons (h : Follow [n] previous siblings siblings')
    (h' : Follow ids (some n) siblings' result) (hnodup : siblings'.Nodup) :
    Follow (n :: ids) previous siblings result := by
  generalize hprevious : some n = next at h'
  cases h' with
  | first => cases hprevious
  | after before x rest =>
      cases hprevious
      generalize hsiblings : before ++ n :: rest = between at h hnodup
      obtain ⟨-, htail, hdisjoint⟩ := List.nodup_append.mp (hsiblings ▸ hnodup)
      have hbefore : n ∉ before := fun hmem => hdisjoint n hmem n List.mem_cons_self rfl
      have hrest : n ∉ rest := (List.nodup_cons.mp htail).1
      cases h with
      | first =>
          have hsplit : before ++ n :: rest = [] ++ n :: siblings := hsiblings
          obtain ⟨rfl, -, rfl⟩ := (List.append_cons_inj_of_notMem hbefore hrest).mp hsplit
          exact .first _
      | after front y back =>
          rw [List.append_cons front y, ← List.append_assoc, List.append_assoc,
            List.singleton_append] at hsiblings
          obtain ⟨rfl, -, rfl⟩ := (List.append_cons_inj_of_notMem hbefore hrest).mp hsiblings
          rw [List.append_assoc]
          exact .after front y _

/-! ### The styles of a component -/

theorem attachSheet_enrolled (hvalid : d.Valid) (hroot : d.Live root)
    (hprevious : ∀ x, previous = some x → d.parent x = some root) (sheet : String) :
    ∃ kids, Enrolled root [sheetTree sheet] [(attachSheet d root previous sheet).2] [] kids d
        (attachSheet d root previous sheet).1 ∧
      Follow [(attachSheet d root previous sheet).2] previous (d.children root) kids := by
  have hgrafted := graft_grafted (sheetTree sheet) hvalid
  rw [graft_sheetTree hvalid] at hgrafted
  unfold attachSheet
  dsimp only at hgrafted ⊢
  generalize d.createElement "style" = created at hgrafted ⊢
  obtain ⟨d₀, style⟩ := created
  dsimp only at hgrafted ⊢
  generalize (d₀.create (.text sheet)).1.appendChild style (d₀.create (.text sheet)).2 = d₁
    at hgrafted ⊢
  obtain ⟨kids, hplaced, hvalid', hfollow⟩ := follow_placed hgrafted.valid (hgrafted.live root hroot)
    (hgrafted.fresh (List.mem_singleton_self style)).1 hgrafted.parentless (hgrafted.not_below hroot)
    fun x hx => by rw [hgrafted.parent x (hvalid.live_of_parent (hprevious x hx)).1, hprevious x hx]
  rw [hgrafted.children root hroot] at hfollow
  exact ⟨kids, hgrafted.enrolled hroot hplaced hvalid', hfollow⟩

theorem attachSheets_enrolled (hvalid : d.Valid) (hroot : d.Live root)
    (hprevious : ∀ x, previous = some x → d.parent x = some root) (sheets : List String) :
    ∃ styles kids, Enrolled root (sheets.map sheetTree) styles [] kids d
        (attachSheets d root previous sheets) ∧
      Follow styles previous (d.children root) kids := by
  induction sheets generalizing d previous with
  | nil =>
      refine ⟨[], _, (GraftedAll.nil hvalid root).enrolled, ?_⟩
      rw [List.append_nil]
      exact .nil fun x hx => (hvalid.mem_children root x).mpr (hprevious x hx)
  | cons sheet rest ih =>
      obtain ⟨kids, hfirst, hfollow⟩ := attachSheet_enrolled hvalid hroot hprevious sheet
      rw [attachSheets]
      generalize attachSheet d root previous sheet = attached at hfirst hfollow ⊢
      obtain ⟨d', style⟩ := attached
      have hkids : d'.children root = kids := (hfirst.children root hroot).trans (if_pos rfl)
      have hstyle : style ∈ kids := hfollow.subset (List.mem_singleton_self style)
      have hparent : ∀ x, some style = some x → d'.parent x = some root := fun x hx => by
        cases hx
        exact (hfirst.valid.mem_children root style).mp (hkids ▸ hstyle)
      obtain ⟨styles, kids', hrest, hfollow'⟩ := ih hfirst.valid (hfirst.live root hroot) hparent
      refine ⟨style :: styles, kids', hfirst.trans hvalid hroot hrest, ?_⟩
      rw [hkids] at hfollow'
      exact hfollow.cons hfollow' (hkids ▸ hfirst.valid.children_nodup root)

/-- The styles of a component have come into `root`: one for each sheet that holds more than blanks, in
the order of the sheets, and before what was there. -/
structure Styled (root : NodeId) (sheets : List String) (d d' : Dom) : Prop where
  valid : d'.Valid
  styles : ∃ styles, d'.children root = styles ++ d.children root ∧
    (∀ style ∈ styles, d'.Live style ∧ ¬ d.Live style) ∧
      styles.map d'.tree =
        (sheets.filter fun sheet => sheet.toList.any fun c => !Text.isBlank c).map sheetTree
  live : ∀ x, d.Live x → d'.Live x
  content : ∀ x, d.Live x → d'.content x = d.content x
  marker : ∀ x, d.Live x → d'.marker x = d.marker x
  parent : ∀ x, d.Live x → d'.parent x = d.parent x
  children : ∀ x, d.Live x → x ≠ root → d'.children x = d.children x

/-- **Styles go first, in their order, and nothing else changes.** -/
theorem styles_first (hvalid : d.Valid) (hroot : d.Live root) (sheets : List String) :
    Styled root sheets d (StyleAttacher.elements.attach d root sheets) := by
  have hrules : hasRules = fun sheet => sheet.toList.any fun c => !Text.isBlank c :=
    funext hasRules_eq
  have hnone : ∀ x, (none : Option NodeId) = some x → d.parent x = some root := nofun
  obtain ⟨styles, kids, h, hfollow⟩ :=
    attachSheets_enrolled hvalid hroot hnone (sheets.filter hasRules)
  rw [hrules] at h
  rw [StyleAttacher.attach, hrules]
  obtain rfl := hfollow.eq_append
  refine ⟨h.valid, ⟨styles, ?_, fun style hstyle => h.fresh hstyle, h.trees⟩, h.live, h.content,
    h.marker, h.parent, fun x hx hne => ?_⟩
  · rw [h.children root hroot, if_pos rfl]
  · rw [h.children x hx, if_neg hne]

/-- Two styles go before the text of an element, and a blank sheet gives none. -/
theorem styles_first_small :
    (Dom.empty.edited small).Valid ∧ (Dom.empty.edited small).Live ⟨0⟩ ∧
      Styled ⟨0⟩ ["p {}", " \n", "b {}"] (Dom.empty.edited small)
        (StyleAttacher.elements.attach (Dom.empty.edited small) ⟨0⟩ ["p {}", " \n", "b {}"]) := by
  have hfollows : Dom.empty.Follows small :=
    follows_of_finds (by decide +kernel) (by simp [small, Edit.Sourced])
  have hvalid := (empty_wellFormed.edited hfollows).toValid
  have hroot : (Dom.empty.edited small).Live ⟨0⟩ := by decide +kernel
  exact ⟨hvalid, hroot, styles_first hvalid hroot _⟩

end Dom

end LiveMarkup
