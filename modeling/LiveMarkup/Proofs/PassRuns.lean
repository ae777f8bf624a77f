import LiveMarkup.Proofs.FrameQueue

/-!
How often effects run in a pass. An effect that is due once the first hook is done, and whose
instance is shown when the effects are through, runs once; one that the pass makes runs once; no
other effect runs.
-/

namespace LiveMarkup.Page

variable {page page' : Page} {rest : List InstanceId} {busy : InstanceId → Prop}
  {c o : InstanceId} {e : Effect} {n : EffectId}

/-- The page within a frame, when the passes of `before` are done. -/
def within (page : Page) (before : List InstanceId) : Page :=
  before.foldl runPass { page with queue := [] }

/-- Whether the pass of `c` fires an effect of `o`: after the first hook a dirty binding of `o` holds
it, and after the effects `o` and everything around it is attached. -/
def Fires (page : Page) (c o : InstanceId) (e : Effect) : Prop :=
  e ∈ ((page.opened c).slot o).bindings.due ∧
    ∀ i ∈ (page.closed c).path o, (page.closed c).isAttached i = true

/-- How often the effects run in the pass of `c`. -/
structure Metered (c : InstanceId) (page page' : Page) : Prop where
  fired : ∀ o ∈ page.family c, ∀ e, (page.slot o).bindings.Holds e → page.Fires c o e →
    page'.ran.count e.id = page.ran.count e.id + 1
  quiet : ∀ o ∈ page.family c, ∀ e, (page.slot o).bindings.Holds e → ¬ page.Fires c o e →
    page'.ran.count e.id = page.ran.count e.id
  foreign : ∀ n : EffectId, n.number ≤ page.effects →
    (∀ o ∈ page.family c, ∀ e, (page.slot o).bindings.Holds e → e.id ≠ n) →
    page'.ran.count n = page.ran.count n
  made : ∀ n : EffectId, page.effects < n.number → n.number ≤ page'.effects →
    page'.ran.count n = 1

theorem isDue_iff (h : page.Orderly) (he : (page.slot o).bindings.Holds e) :
    page.IsDue e.id ↔ e ∈ (page.slot o).bindings.due := by
  constructor
  · rintro ⟨o', e', hdue, heq⟩
    have he' := Bindings.holds_of_mem_due hdue
    obtain rfl := h.effect_id o' o e' e he' he heq
    rwa [← (h.effect_owner o e' he).1, (h.effect_owner o' e' he').1]
  · exact fun hdue => ⟨o, e, hdue, rfl⟩

theorem isDue_le (h : page.Orderly) (hdue : page.IsDue n) : n.number ≤ page.effects := by
  obtain ⟨o, e, hdue, rfl⟩ := hdue
  exact (h.effect_owner o e (Bindings.holds_of_mem_due hdue)).2

/-! ### What the effects of a pass run -/

/-- A turn runs what was due before it and is not due after it. -/
theorem OrderlyTurn.count_of_settled {inside : InstanceId → Prop}
    (h : OrderlyTurn inside [] page page') (hn : n.number ≤ page.effects) (hdue : page.IsDue n)
    (hdone : ¬ page'.IsDue n) : page'.ran.count n = page.ran.count n + 1 := by
  have htally := h.tally n
  have hle := le_trans hn h.turn.effects_le
  rw [Page.tally, Page.tally, if_neg hdone, if_pos hdue, if_neg (Nat.not_lt.mpr hle),
    if_neg (Nat.not_lt.mpr hn)] at htally
  simpa using htally

theorem OrderlyTurn.count_of_same {inside : InstanceId → Prop}
    (h : OrderlyTurn inside [] page page') (hn : n.number ≤ page.effects)
    (hdue : page'.IsDue n ↔ page.IsDue n) : page'.ran.count n = page.ran.count n := by
  have htally := h.tally n
  have hle := le_trans hn h.turn.effects_le
  rw [Page.tally, Page.tally, if_neg (Nat.not_lt.mpr hle), if_neg (Nat.not_lt.mpr hn)] at htally
  by_cases hold : page.IsDue n
  · rw [if_pos hold, if_pos (hdue.mpr hold)] at htally
    simpa using htally
  · rw [if_neg hold, if_neg (mt hdue.mp hold)] at htally
    simpa using htally

theorem OrderlyTurn.count_of_made {inside : InstanceId → Prop} (hpage : page.Orderly)
    (h : OrderlyTurn inside [] page page') (hnew : page.effects < n.number)
    (hn : n.number ≤ page'.effects) : page'.ran.count n = 1 := by
  have hold : ¬ page.IsDue n := fun hdue => Nat.not_le.mpr hnew (isDue_le hpage hdue)
  have hdone : ¬ page'.IsDue n := by
    rintro ⟨o, e, hdue, rfl⟩
    exact hold ⟨o, e, (h.turn.kept o).due e hdue, rfl⟩
  have hran : page.ran.count n = 0 :=
    List.count_eq_zero.mpr fun hmem => Nat.not_le.mpr hnew (hpage.ran_made n hmem)
  have htally := h.tally n
  rw [Page.tally, Page.tally, if_neg hdone, if_neg hold, if_neg (Nat.not_lt.mpr hn), if_pos hnew,
    hran] at htally
  simpa using htally

/-! ### What a pass runs -/

theorem up_begin (page : Page) (c : InstanceId) : (page.begin c).up = page.up := by
  funext j
  rw [up, slot_begin]
  split <;> rfl

theorem bindings_begin (page : Page) (c j : InstanceId) :
    ((page.begin c).slot j).bindings = (page.slot j).bindings := by
  rw [slot_begin]
  split <;> rfl

theorem holds_opened_iff (h : page.Orderly) (c : InstanceId) :
    ((page.opened c).slot o).bindings.Holds e ↔ (page.slot o).bindings.Holds e := by
  simp only [Bindings.Holds, (opened_written h c).registers_iff, bindings_begin]

theorem under_opened_iff (h : page.Orderly) (c : InstanceId) {a id : InstanceId} :
    (page.opened c).Under a id ↔ page.Under a id := by
  simp only [Under, (opened_written h c).up_eq, up_begin]

theorem isVacant_opened (h : page.Orderly) (c o : InstanceId) :
    ((page.opened c).slot o).isVacant = (page.slot o).isVacant := by
  rw [(opened_written h c).isVacant_eq, slot_begin]
  split <;> rfl

theorem not_vacant_of_holds (h : page.Orderly) (he : (page.slot o).bindings.Holds e) :
    (page.slot o).isVacant = false := by
  by_contra hvacant
  rw [Bool.not_eq_false] at hvacant
  rw [h.vacant_eq o hvacant] at he
  exact Bindings.not_holds_empty he

theorem closed_turn (h : page.Awaits (c :: rest) busy) {state : ComponentState}
    (hstate : page.component? c = some state) :
    OrderlyTurn ((page.opened c).Under c) [] (page.opened c) (page.closed c) := by
  obtain ⟨fields, hstate'⟩ := component?_opened h.orderly hstate
  have hturn := runEffects_turn h.opened.orderly hstate'
  rw [closed_eq hstate]
  exact hturn

/-- After a pass an instance of the component is shown when all that is above it is attached. -/
theorem shownFrom_closed_iff (h : page.Awaits (c :: rest) busy) {state : ComponentState}
    (hstate : page.component? c = some state) (ho : o ∈ page.family c)
    (hvacant : (page.slot o).isVacant = false) :
    (page.closed c).ShownFrom c o ↔
      ∀ i ∈ (page.closed c).path o, (page.closed c).isAttached i = true := by
  have hopened := h.opened
  obtain ⟨fields, hstate'⟩ := component?_opened h.orderly hstate
  have hturn := closed_turn h hstate
  have hvacant' : ((page.opened c).slot o).isVacant = false :=
    (isVacant_opened h.orderly c o).trans hvacant
  have hunder : (page.closed c).Under c o := by
    rw [hturn.turn.under_iff hopened.orderly hvacant', under_opened_iff h.orderly]
    exact (mem_family_iff h.orderly hvacant).mp ho
  have hvacant'' := (hturn.turn.kept o).not_vacant hvacant'
  constructor
  · intro hshown i hi
    have hio := (mem_path_iff hturn.orderly hvacant'').mp hi
    rcases hio.linear hunder with hic | hci
    · have hnone : (page.closed c).up c = none := by
        rw [hturn.turn.up_eq (Instance.not_vacant_of_component? hstate')]
        exact (hopened.orderly.component_eq c _ hstate').1
      obtain rfl := hic.eq_of_up_none hnone
      exact hshown.attached_top
    · exact hshown.2 i hci hio
  · exact fun hpath =>
      ⟨hunder, fun i _ hio => hpath i ((mem_path_iff hturn.orderly hvacant'').mpr hio)⟩

/-- The effects between the two hooks of a pass. -/
theorem metered_closed (h : page.Awaits (c :: rest) busy) {state : ComponentState}
    (hstate : page.component? c = some state) (hconnected : state.connected = true) :
    Metered c page (page.closed c) := by
  have hopened := h.opened
  have hwritten := opened_written h.orderly c
  obtain ⟨fields, hstate'⟩ := component?_opened h.orderly hstate
  have hturn := closed_turn h hstate
  have hswept : Swept c (page.opened c) (page.closed c) := by
    have hrun := runEffects_swept hopened.orderly hopened.diligent hstate' hconnected
    rw [closed_eq hstate]
    exact hrun
  have hran : (page.opened c).ran = page.ran := hwritten.ran
  have heffects : (page.opened c).effects = page.effects := hwritten.effects
  have hheld : ∀ o e, (page.slot o).bindings.Holds e →
      ((page.opened c).slot o).bindings.Holds e := fun o e => (holds_opened_iff h.orderly c).mpr
  have hshown := fun o ho hvacant => shownFrom_closed_iff h hstate (o := o) ho hvacant
  refine ⟨?_, ?_, ?_, ?_⟩
  · intro o ho e he hfires
    have hvacant := not_vacant_of_holds h.orderly he
    have hold := hheld o e he
    have hclean := hswept.clean o ((hshown o ho hvacant).mpr hfires.2)
    rw [← hran]
    refine hturn.count_of_settled (hopened.orderly.effect_owner o e hold).2
      ⟨o, e, hfires.1, rfl⟩ ?_
    rw [isDue_iff hturn.orderly ((hturn.turn.kept o).holds hold), due_eq_nil hclean]
    exact List.not_mem_nil
  · intro o ho e he hfires
    have hvacant := not_vacant_of_holds h.orderly he
    have hold := hheld o e he
    rw [← hran]
    refine hturn.count_of_same (hopened.orderly.effect_owner o e hold).2 ?_
    rw [isDue_iff hturn.orderly ((hturn.turn.kept o).holds hold), isDue_iff hopened.orderly hold]
    refine ⟨(hturn.turn.kept o).due e, fun hdue => ?_⟩
    refine hswept.kept o ((isVacant_opened h.orderly c o).trans hvacant) ?_ ?_ e hdue
    · rw [under_opened_iff h.orderly]
      exact (mem_family_iff h.orderly hvacant).mp ho
    · exact fun hshown' => hfires ⟨hdue, (hshown o ho hvacant).mp hshown'⟩
  · intro n hn hforeign
    rw [← hran]
    refine hturn.count_of_same (heffects ▸ hn) ⟨?_, ?_⟩
    · rintro ⟨o, e, hdue, heq⟩
      exact ⟨o, e, (hturn.turn.kept o).due e hdue, heq⟩
    · rintro ⟨o, e, hdue, heq⟩
      have he : (page.slot o).bindings.Holds e :=
        (holds_opened_iff h.orderly c).mp (Bindings.holds_of_mem_due hdue)
      have hvacant := not_vacant_of_holds h.orderly he
      have hnot : ¬ (page.opened c).Under c o := fun hunder =>
        hforeign o ((mem_family_iff h.orderly hvacant).mpr
          ((under_opened_iff h.orderly c).mp hunder)) e he heq
      refine ⟨o, e, ?_, heq⟩
      rwa [hturn.turn.bindings_eq ((isVacant_opened h.orderly c o).trans hvacant) hnot]
  · intro n hnew hn
    exact hturn.count_of_made hopened.orderly (heffects ▸ hnew) hn

/-- The last hook of a pass runs no effect. -/
theorem metered_runPass (h : page.Awaits (c :: rest) busy) {state : ComponentState}
    (hstate : page.component? c = some state) (hconnected : state.connected = true) :
    Metered c page (page.runPass c) := by
  have hmetered := metered_closed h hstate hconnected
  have hwritten := callHook_written (h.closed hstate hconnected).orderly c Hooks.afterUpdate
    fun _ hedits => hedits.afterUpdate
  rw [runPass_of_connected hstate hconnected]
  refine ⟨?_, ?_, ?_, ?_⟩
  · exact fun o ho e he hfires => hwritten.ran ▸ hmetered.fired o ho e he hfires
  · exact fun o ho e he hfires => hwritten.ran ▸ hmetered.quiet o ho e he hfires
  · exact fun n hn hforeign => hwritten.ran ▸ hmetered.foreign n hn hforeign
  · exact fun n hnew hn => hwritten.ran ▸ hmetered.made n hnew (hwritten.effects ▸ hn)

/-! ### Passes within a frame -/

theorem Awaits.foldl_runPass_append {before : List InstanceId}
    (h : page.Awaits (before ++ rest) busy) : (before.foldl Page.runPass page).Awaits rest busy := by
  induction before generalizing page with
  | nil => exact h
  | cons c before ih => exact ih h.runPass

theorem within_awaits {before : List InstanceId} (h : page.Awaits [] busy)
    (hqueue : page.queue = before ++ rest) : (page.within before).Awaits rest busy := by
  refine Awaits.foldl_runPass_append ?_
  rw [← hqueue]
  exact h.takeQueue

theorem within_append (page : Page) (before : List InstanceId) (c : InstanceId) :
    page.within (before ++ [c]) = (page.within before).runPass c := by
  rw [within, List.foldl_append]
  rfl

/-- The component whose pass is next is connected. -/
theorem Awaits.connected_next (h : page.Awaits (c :: rest) busy) :
    ∃ state, page.component? c = some state ∧ state.connected = true := by
  obtain ⟨hcomponent, hscheduled⟩ :=
    (h.mem_iff c).mp (List.mem_append_right _ List.mem_cons_self)
  exact connected_of_scheduled h.orderly hcomponent hscheduled

theorem effects_of_pass (styles : StyleAttacher) (requests : List Request)
    {before rest : List InstanceId} {c : InstanceId}
    (hqueue : (after styles requests).queue = before ++ c :: rest) :
    (∃ state, ((after styles requests).within before).component? c = some state ∧
      state.connected = true) ∧
      Metered c ((after styles requests).within before)
        ((after styles requests).within (before ++ [c])) := by
  have hwithin := within_awaits (awaits_after styles requests) hqueue
  obtain ⟨state, hstate, hconnected⟩ := hwithin.connected_next
  rw [within_append]
  exact ⟨⟨state, hstate, hconnected⟩, metered_runPass hwithin hstate hconnected⟩

/-- A counter that shows its count, and shows it again while it is not zero. -/
def counter : Component :=
  (Component.ofMarkup "x-counter"
    "<p>\x7b\x7b this.n \x7d\x7d</p><b *if=\"this.n\">\x7b\x7b this.n \x7d\x7d</b>").addProperty "n"
    (.plain (.int 0))

def countToOne : List Request :=
  [.define counter, .create "x-counter", .connect ⟨0⟩ ⟨0⟩, .set ⟨0⟩ "n" (.int 1)]

theorem effects_of_counter_pass :
    (after .elements countToOne).queue = [] ++ ⟨0⟩ :: [] ∧
      Metered ⟨0⟩ ((after .elements countToOne).within [])
        ((after .elements countToOne).within ([] ++ [⟨0⟩])) := by
  have hqueue : (after .elements countToOne).queue = [] ++ ⟨0⟩ :: [] := by decide +kernel
  exact ⟨hqueue, (effects_of_pass .elements countToOne hqueue).2⟩

end LiveMarkup.Page
