import LiveMarkup.Proofs.Dom.Removal

/-!
What edits reach. An edit changes no tree but those of the nodes it names, so whole trees of which a
run of edits names no node are afterwards what they were. Main result: an import makes a copy of its
own, and what is done to one copy leaves every other one alone.
-/

namespace LiveMarkup.Dom

variable {d d' d'' : Dom} {kept : NodeId → Prop} {kids : List NodeId} {n p x source target : NodeId}

/-- Whole trees: nodes that are there, with all that they are linked to. -/
structure Apart (kept : NodeId → Prop) (d : Dom) : Prop where
  live : ∀ n, kept n → d.Live n
  linked : ∀ n p, d.parent n = some p → (kept n ↔ kept p)

/-- The nodes of `kept` hold what they held and are linked as they were. -/
structure Keeps (kept : NodeId → Prop) (d d' : Dom) : Prop where
  valid : d'.Valid
  node : ∀ n, kept n → d'.node n = d.node n

/-- The tree at a node without a parent. -/
theorem apart_below (hd : d.Valid) (hn : d.Live n) (hparent : d.parent n = none) :
    Apart (d.Below n) d := by
  refine ⟨fun x hx => hd.live_below hx hn, fun x p hp => ⟨fun hx => ?_, fun hx => .step hp hx⟩⟩
  refine hx.above_up ?_ hp
  rintro rfl
  rw [hparent] at hp
  cases hp

namespace Keeps

theorem refl (hd : d.Valid) : Keeps kept d d :=
  ⟨hd, fun _ _ => rfl⟩

theorem trans (h : Keeps kept d d') (h' : Keeps kept d' d'') : Keeps kept d d'' :=
  ⟨h'.valid, fun n hn => (h'.node n hn).trans (h.node n hn)⟩

theorem of_relinked (hsame : Relinked d d') (hvalid : d'.Valid)
    (hparent : ∀ n, kept n → d'.parent n = d.parent n)
    (hchildren : ∀ n, kept n → d'.children n = d.children n) : Keeps kept d d' :=
  ⟨hvalid, fun n hn => node_ext (hsame.content n) (hparent n hn) (hchildren n hn) (hsame.marker n)
    (hsame.live n)⟩

theorem of_update (hd : d.Valid) (hx : ¬ kept x) {f : Node → Node}
    (hsame : Rewritten d (d.update x f)) : Keeps kept d (d.update x f) := by
  refine ⟨hsame.valid hd, fun n hn => node_update_of_ne ?_ f⟩
  rintro rfl
  exact hx hn

end Keeps

namespace Apart

variable (h : Apart kept d)

include h

/-- What is kept stays a whole tree. -/
theorem keep (hd : d.Valid) (hkeeps : Keeps kept d d') : Apart kept d' := by
  refine ⟨fun n hn => ?_, fun n p hp => ⟨fun hn => ?_, fun hn => ?_⟩⟩
  · rw [Live, hkeeps.node n hn]
    exact h.live n hn
  · rw [parent, hkeeps.node n hn] at hp
    exact (h.linked n p hp).mp hn
  · rw [← hkeeps.valid.mem_children, children, hkeeps.node p hn] at hp
    exact (h.linked n p ((hd.mem_children p n).mp hp)).mpr hn

theorem below_iff (hbelow : d.Below x n) : kept n ↔ kept x := by
  induction hbelow with
  | self => exact Iff.rfl
  | step hup _ ih => exact (h.linked _ _ hup).trans ih

variable (hd : d.Valid) (hx : ¬ kept x)

include hd hx

theorem filter_children (hn : kept n) : (d.children n).filter (· ≠ x) = d.children n := by
  refine filter_ne_of_not_mem fun hmem => hx ?_
  exact (h.linked x n ((hd.mem_children n x).mp hmem)).mpr hn

theorem detach : Keeps kept d (d.detach x).1 := by
  have hu := detach_unlinked hd x
  refine .of_relinked hu.toRelinked (hu.valid hd) (fun n hn => ?_) fun n hn => ?_
  · rw [hu.parent, if_neg]
    rintro rfl
    exact hx hn
  · rw [hu.children, h.filter_children hd hx hn]

theorem place (hp : ¬ kept p) (hplaced : Placed p x kids d d') (hvalid : d'.Valid) :
    Keeps kept d d' := by
  refine .of_relinked hplaced.toRelinked hvalid (fun n hn => ?_) fun n hn => ?_
  · rw [hplaced.parent, if_neg]
    rintro rfl
    exact hx hn
  · rw [hplaced.children, if_neg, h.filter_children hd hx hn]
    rintro rfl
    exact hp hn

theorem appendChild (hp : ¬ kept p) (hplive : d.Live p) (hxlive : d.Live x) :
    Keeps kept d (d.appendChild p x) := by
  have hvalid := appendChild_valid hd hplive hxlive
  by_cases hxp : d.Below x p
  · rw [appendChild_of_below hd hplive hxp]
    exact .refl hd
  · exact h.place hd hx hp (appendChild_placed hd hplive hxlive hxp) hvalid

theorem insertBeside (offset : Nat) {reference : NodeId} (hreference : ¬ kept reference)
    (hxlive : d.Live x) : Keeps kept d (d.insertBeside offset reference x).1 := by
  obtain hrefused | ⟨p, hparent, _, hxp, _, hplaced⟩ := insertBeside_cases hd offset hxlive
  · rw [hrefused]
    exact .refl hd
  · have hp := (hd.live_of_parent hparent).2
    have hvalid := hplaced.valid hd hp hxlive hxp (placeAt_perm _ _ _ _)
    exact h.place hd hx (mt (h.linked reference p hparent).mpr hreference) hplaced hvalid

theorem replaceWith {old : NodeId} (hold : ¬ kept old) (hxlive : d.Live x) :
    Keeps kept d (d.replaceWith old x).1 := by
  have hplaced := h.insertBeside hd hx 0 hold hxlive
  rw [Dom.replaceWith, insertBefore]
  generalize d.insertBeside 0 old x = result at hplaced
  obtain ⟨d', placed⟩ := result
  cases placed with
  | false => exact hplaced
  | true => exact hplaced.trans ((h.keep hd hplaced).detach hplaced.valid hold)

theorem remove : Keeps kept d (d.remove x) := by
  by_cases hlive : d.Live x
  · have hcut := remove_cutOff hd hlive
    refine ⟨hcut.valid hd hlive, fun n hn => ?_⟩
    rw [hcut.outside n fun hbelow => hx ((h.below_iff hbelow).mp hn), h.filter_children hd hx hn]
    rfl
  · rw [remove_of_not_live hlive]
    exact .refl hd

omit hx

theorem moveChildren (hsource : ¬ kept source) (htarget : ¬ kept target) (hslive : d.Live source)
    (htlive : d.Live target) : Keeps kept d (d.moveChildren source target) := by
  have hpoured := moveChildren_poured hd hslive htlive
  refine .of_relinked hpoured.toRelinked (hpoured.valid hd hslive htlive) (fun n hn => ?_)
    fun n hn => ?_
  · rw [hpoured.parent, if_neg]
    intro hmem
    exact hsource ((h.linked n source ((hd.mem_children source n).mp hmem)).mp hn)
  · rw [hpoured.children, if_neg, if_neg, List.append_nil]
    · rintro rfl
      exact htarget hn
    · rintro rfl
      exact hsource hn

theorem setTextContent (hx : ¬ kept x) (hlive : d.Live x) (s : String) :
    Keeps kept d (d.setTextContent x s) := by
  cases hcontent : d.content x with
  | text t | comment t =>
      rw [Dom.setTextContent, hcontent]
      exact .of_update hd hx (setContent_rewritten hd hlive _)
  | fragment | element tag attributes =>
      have hset := setTextContent_retexted hd hlive (by simp [hcontent, Content.isElement]) s
      exact ⟨hset.valid, fun n hn => hset.aside n (h.live n hn) fun hbelow =>
        hx ((h.below_iff hbelow).mp hn)⟩

end Apart

/-! ### Edits -/

/-- The nodes that an edit names. -/
def Edit.arguments : Edit → List NodeId
  | .remove node => [node]
  | e => e.nodes

/-- An edit changes no tree of which it names no node. -/
theorem Apart.apply (h : Apart kept d) (hd : d.WellFormed) {e : Edit} (he : e.Possible d)
    (hnames : ∀ x ∈ e.arguments, ¬ kept x) : Keeps kept d (e.apply d) := by
  have hvalid := (hd.apply he).toValid
  have hlive := he.1
  have hcreates : e.Creates → Keeps kept d (e.apply d) := fun hcreates =>
    ⟨hvalid, fun n hn => hcreates.node hd.toValid (h.live n hn)⟩
  cases e with
  | createFragment => exact hcreates .createFragment
  | createElement tag => exact hcreates (.createElement tag)
  | createText s => exact hcreates (.createText s)
  | createComment s => exact hcreates (.createComment s)
  | importFrom source node => exact hcreates (.importFrom source node)
  | parse markup => exact hcreates (.parse markup)
  | appendChild parent child =>
      simp only [Edit.arguments, Edit.nodes, List.forall_mem_cons] at hnames hlive
      exact h.appendChild hd.toValid hnames.2.1 hnames.1 hlive.1 hlive.2.1
  | insertBefore reference node | insertAfter reference node =>
      simp only [Edit.arguments, Edit.nodes, List.forall_mem_cons] at hnames hlive
      exact h.insertBeside hd.toValid hnames.2.1 _ hnames.1 hlive.2.1
  | replaceWith old new =>
      simp only [Edit.arguments, Edit.nodes, List.forall_mem_cons] at hnames hlive
      exact h.replaceWith hd.toValid hnames.2.1 hnames.1 hlive.2.1
  | moveChildren source target =>
      simp only [Edit.arguments, Edit.nodes, List.forall_mem_cons] at hnames hlive
      exact h.moveChildren hd.toValid hnames.1 hnames.2.1 hlive.1 hlive.2.1
  | detach node =>
      exact h.detach hd.toValid (hnames node List.mem_cons_self)
  | remove node =>
      exact h.remove hd.toValid (hnames node List.mem_cons_self)
  | setAttribute node name value =>
      exact .of_update hd.toValid (hnames node List.mem_cons_self)
        (setAttribute_rewritten hd.toValid node name value)
  | eraseAttribute node name =>
      exact .of_update hd.toValid (hnames node List.mem_cons_self)
        (eraseAttribute_rewritten hd.toValid node name)
  | setTextContent node s =>
      exact h.setTextContent hd.toValid (hnames node List.mem_cons_self)
        (hlive node List.mem_cons_self) s
  | setMarker node marker =>
      exact .of_update hd.toValid (hnames node List.mem_cons_self)
        (setMarker_rewritten hd.toValid (hlive node List.mem_cons_self) marker)

/-- So does a run of edits. -/
theorem Apart.edited (h : Apart kept d) (hd : d.WellFormed) {edits : List Edit}
    (hfollows : d.Follows edits) (hnames : ∀ e ∈ edits, ∀ x ∈ e.arguments, ¬ kept x) :
    Keeps kept d (d.edited edits) := by
  induction edits generalizing d with
  | nil => exact .refl hd.toValid
  | cons e rest ih =>
      rw [List.forall_mem_cons] at hnames
      have hfirst := h.apply hd hfollows.1 hnames.1
      exact hfirst.trans (ih (h.keep hd.toValid hfirst) (hd.apply hfollows.1) hfollows.2 hnames.2)

/-! ### Copies -/

/-- Edits that can be made in turn and name no nodes but those of `own` and new ones. -/
def Confined (own : NodeId → Prop) (d : Dom) (edits : List Edit) : Prop :=
  d.Follows edits ∧ ∀ e ∈ edits, ∀ x ∈ e.arguments, d.Live x → own x

theorem Confined.keeps {own : NodeId → Prop} {edits : List Edit} (h : Confined own d edits)
    (hd : d.WellFormed) (hapart : Apart kept d) (hdisjoint : ∀ x, own x → ¬ kept x) :
    Keeps kept d (d.edited edits) := by
  refine hapart.edited hd h.1 fun e he x hx hkept => ?_
  exact hdisjoint x (h.2 e he x hx (hapart.live x hkept)) hkept

/-- Edits that are confined to one of two sets of nodes change nothing in the other. -/
def Independent (a b : NodeId → Prop) (d : Dom) : Prop :=
  ∀ edits, (Confined a d edits → Keeps b d (d.edited edits)) ∧
    (Confined b d edits → Keeps a d (d.edited edits))

theorem Apart.independent {a b : NodeId → Prop} (ha : Apart a d) (hb : Apart b d)
    (hd : d.WellFormed) (hdisjoint : ∀ x, a x → ¬ b x) : Independent a b d := fun _ =>
  ⟨fun hconfined => hconfined.keeps hd hb hdisjoint,
    fun hconfined => hconfined.keeps hd ha fun x hx hax => hdisjoint x hax hx⟩

theorem Copied.apart {source : Dom} {f : NodeId → NodeId} {copy : Copy}
    (h : Copied f source n copy d d') (hd' : d'.Valid) : Apart (d'.Below copy.root) d' :=
  apart_below hd' ((h.live_iff _).mpr (Or.inr .self)) h.parentless

/-- An import copies a tree node by node into new nodes and changes nothing else, and it shares nothing
with any other import, whatever is done in between to other nodes than those of the copy. -/
theorem importFrom_isolated {source : Dom} (hd : d.WellFormed) (hs : source.WellFormed)
    (hn : source.Live n) :
    (∃ f, Copied f source n (d.importFrom source n).2 d (d.importFrom source n).1) ∧
      ∀ {between : List Edit} {source' : Dom} {n' : NodeId},
        (d.importFrom source n).1.Follows between →
        (∀ e ∈ between, ∀ x ∈ e.arguments,
          ¬ (d.importFrom source n).1.Below (d.importFrom source n).2.root x) →
        source'.WellFormed → source'.Live n' →
          let other := ((d.importFrom source n).1.edited between).importFrom source' n'
          Independent ((d.importFrom source n).1.Below (d.importFrom source n).2.root)
            (other.1.Below other.2.root) other.1 := by
  obtain ⟨f, hcopied⟩ := importFrom_copied hd.toValid hs.toValid hn
  refine ⟨⟨f, hcopied⟩, ?_⟩
  intro between source' n' hfollows hnames hs' hn'
  have hfirst : (d.importFrom source n).1.WellFormed := hd.graft (hs.tree hn)
  generalize d.importFrom source n = first at hcopied hfollows hnames hfirst ⊢
  have hapart := hcopied.apart hfirst.toValid
  have hbetween := hapart.edited hfirst hfollows hnames
  have hmiddle := hfirst.edited hfollows
  have hapart' := hapart.keep hfirst.toValid hbetween
  generalize first.1.edited between = middle at hmiddle hapart' ⊢
  obtain ⟨g, hother⟩ := importFrom_copied hmiddle.toValid hs'.toValid hn'
  have hlast : (middle.importFrom source' n').1.WellFormed := hmiddle.graft (hs'.tree hn')
  have hkept : Keeps (first.1.Below first.2.root) middle (middle.importFrom source' n').1 :=
    ⟨hlast.toValid, fun x hx => hother.kept x (hapart'.live x hx)⟩
  refine (hapart'.keep hmiddle.toValid hkept).independent (hother.apart hlast.toValid) hlast ?_
  exact fun x hx hboth => hother.fresh x hboth (hapart'.live x hx)

/-- An element with a marked text in it. -/
def stamped : List Edit :=
  small ++ [.setMarker ⟨1⟩ (some 0)]

/-- A store with an element in its first slot and two slots that were used before. -/
def spent : List Edit :=
  [.createElement "a", .createText "t", .createText "u", .appendChild ⟨0⟩ ⟨1⟩, .remove ⟨1⟩,
    .remove ⟨2⟩]

/-- The text of the first copy is removed, and a new node in its slot is put into the copy. -/
def retouch : List Edit :=
  [.remove ⟨1⟩, .createComment "c", .appendChild ⟨2⟩ ⟨1⟩, .setAttribute ⟨2⟩ "id" "x"]

theorem importFrom_isolated_spent :
    let first := (Dom.empty.edited spent).importFrom (Dom.empty.edited stamped) ⟨0⟩
    let other := (first.1.edited [.setAttribute ⟨0⟩ "id" "y"]).importFrom
      (Dom.empty.edited stamped) ⟨0⟩
    (∃ f, Copied f (Dom.empty.edited stamped) ⟨0⟩ first.2 (Dom.empty.edited spent) first.1) ∧
      Confined (first.1.Below first.2.root) other.1 retouch ∧
        Keeps (other.1.Below other.2.root) other.1 (other.1.edited retouch) := by
  have hspent : (Dom.empty.edited spent).WellFormed :=
    empty_wellFormed.edited (follows_of_finds (by decide +kernel) (by simp [spent, Edit.Sourced]))
  have hstamped : (Dom.empty.edited stamped).WellFormed :=
    empty_wellFormed.edited
      (follows_of_finds (by decide +kernel) (by simp [stamped, small, Edit.Sourced]))
  have hlive : (Dom.empty.edited stamped).Live ⟨0⟩ := by
    unfold Live
    decide +kernel
  intro first other
  have hfirst : first.1.WellFormed := hspent.graft (hstamped.tree hlive)
  obtain ⟨hcopied, hindependent⟩ := importFrom_isolated hspent hstamped hlive
  have hbetween : first.1.Follows [.setAttribute ⟨0⟩ "id" "y"] :=
    follows_of_finds (by decide +kernel) (by simp [Edit.Sourced])
  have hnames : ∀ e ∈ [Edit.setAttribute ⟨0⟩ "id" "y"], ∀ x ∈ e.arguments,
      ¬ first.1.Below first.2.root x := by
    have hold : first.1.Live ⟨0⟩ := by
      unfold Live
      decide +kernel
    have haside : first.1.contains first.2.root ⟨0⟩ = false := by decide +kernel
    simp only [List.forall_mem_singleton, Edit.arguments, Edit.nodes]
    rwa [← contains_iff hfirst.toValid hold, Bool.not_eq_true]
  have hconfined : Confined (first.1.Below first.2.root) other.1 retouch := by
    refine ⟨follows_of_finds (by decide +kernel) (by simp [retouch, Edit.Sourced]), ?_⟩
    have hown : ∀ e ∈ retouch, ∀ x ∈ e.arguments, first.1.contains first.2.root x = true := by
      decide +kernel
    exact fun e he x hx _ => below_of_contains (hown e he x hx)
  exact ⟨hcopied, hconfined, (hindependent hbetween hnames hstamped hlive retouch).1 hconfined⟩

end LiveMarkup.Dom
