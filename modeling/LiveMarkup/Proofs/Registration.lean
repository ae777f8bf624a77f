import LiveMarkup.Proofs.Page.Current
import LiveMarkup.Proofs.Page.Ledger
import LiveMarkup.Proofs.Placement

/-!
What is registered. Whatever was asked of components that were read from markup, each instance has one
effect for every text, attribute and directive in what it has rendered, under each field that its
component declares and the expression names, and no other effects.
-/

namespace LiveMarkup

theorem Component.FromMarkup.built {definition : Component} (h : definition.FromMarkup) :
    definition.blueprint.Built := by
  obtain ⟨r, markup, made, hreached, hmade, heq⟩ := h.compiled
  obtain ⟨parsed, _, hcompiled⟩ := Registry.compile_compiled hreached.honest hmade
  exact heq ▸ ⟨parsed, hcompiled⟩

namespace Page

variable {reading : Blueprint → List Sketch} {page page' : Page} {plan : Plan} {c f o : InstanceId}
  {document : NodeId} {field : String} {value : Json} {state : ComponentState}

theorem Written.account_eq (h : Written page page') (j : InstanceId) :
    (page'.slot j).account = (page.slot j).account := by
  obtain ⟨fields, hstained⟩ := h.slot j
  have hsame : ∀ i : Instance, (i.mapComponent ({ · with fields })).account = i.account :=
    Instance.account_mapComponent fun _ => ⟨rfl, rfl⟩
  exact hstained.account_eq.trans (hsame _)

theorem Passing.account_eq {waited : InstanceId → Prop} (h : Passing waited page page')
    (j : InstanceId) : (page'.slot j).account = (page.slot j).account := by
  obtain ⟨scheduled, hslot⟩ := h.slot j
  rw [hslot]
  exact Instance.account_record _ scheduled fun _ => rfl

/-! ### The ledger at rest -/

namespace Ledger

theorem start (styles : StyleAttacher) : (start styles).Ledger [] := by
  have hslot := slot_start styles
  have hcontains : ∀ o field, ((Page.start styles).slot o).bindings.contains field = false := by
    intro o field
    rw [hslot]
    rfl
  refine ⟨fun c state hstate => ?_, fun o field hfield => ?_, fun o field hfield => ?_,
    fun o field => ?_, fun o field other e he hknown => ?_, fun f state hstate => ?_,
    fun _ hchore => absurd hchore List.not_mem_nil⟩
  · rw [component?, hslot] at hstate
    cases hstate
  · rw [hcontains] at hfield
    cases hfield
  · rw [knows, hcontains] at hfield
    cases hfield
  · rw [registered, hslot]
    exact List.nodup_nil
  · rw [knows, hcontains] at hknown
    cases hknown
  · rw [fragment?, hslot] at hstate
    cases hstate

theorem create (h : page.Ledger []) (horderly : page.Orderly) {tag : String}
    (hdone : page.create tag = .ok (page', c)) : page'.Ledger [] := by
  cases hdefinition : page.definitions.get? tag with
  | none =>
      rw [Page.create, hdefinition] at hdone
      cases hdone
  | some definition =>
      rw [create_eq hdefinition] at hdone
      cases hdone
      refine h.joins horderly (create_joins horderly definition _ _)
        (fun _ => Bindings.getD_effects?_of_not_holds
          (not_holds_foldl_ensure _ fun _ => Bindings.not_holds_empty))
        (fun _ _ => rfl) (fun state hstate field => ?_) (fun _ hnot => by cases hnot) rfl
      cases hstate
      refine Bool.eq_iff_iff.mpr (Bindings.contains_foldl_ensure.trans ?_)
      rw [or_iff_left (by rintro ⟨⟩)]
      exact Component.mem_keys_defaults

/-- A component that is attached enters what its template asks for. -/
theorem rendered (h : page.Ledger []) (hrested : page.Rested reading plan) (horderly : page.Orderly)
    (hstate : page.component? c = some state) (hidle : state.connected = false)
    (hbuilt : state.definition.blueprint.Built) : (page.rendered c state).Ledger [] := by
  have hnone := hrested.busy.laid.home_of_idle hstate hidle
  obtain ⟨made, root, hmade⟩ : ∃ made root, page.makeRoot state = (made, root) := ⟨_, _, rfl⟩
  obtain ⟨hakin, hstate', hself, hclean⟩ := attach_ready hstate hmade
  have horderly' := attach_orderly hstate' (horderly.of_akin hakin) root
  obtain ⟨plan₁, hattached, hadded⟩ := hrested.attach hstate hidle hmade
  have hslot := slot_attach hstate' root
  unfold Page.rendered
  rw [hmade]
  dsimp only
  generalize made.attach c root = attached at hself hclean horderly' hattached hslot ⊢
  obtain ⟨dom, copy, hcopy⟩ : ∃ dom copy,
    state.definition.blueprint.instantiate attached.dom = (dom, copy) := ⟨_, _, rfl⟩
  obtain ⟨drawn, hacts, hdrawn⟩ := render_acts horderly' hself rfl hclean hcopy root
  obtain ⟨plan₂, hbusy, _⟩ :=
    hattached.busy.sow hself rfl ((congrFun hadded.home c).trans hnone) hcopy
  have hlisted : copy.marked.map (·.1) = List.range state.definition.blueprint.definitions.length := by
    obtain ⟨parsed, hcompiled⟩ := hbuilt
    have hlisted := hcompiled.listed attached.dom
    rwa [hcopy] at hlisted
  have hsown : { attached with dom }.Ledger
      ((state.definition.blueprint.chores c copy.marked).map Errand.chore ++ []) := by
    refine (h.of_slot hakin.slot).render hbuilt hlisted ?_ ?_ fun j hj => ?_
    · rw [Instance.template?_of_component hstate', hidle]
      rfl
    · have hkind := Instance.kind_of_component? hstate'
      have heffects : (made.slot c).bindings.clearChanges.effects? =
          (made.slot c).bindings.effects? := funext fun _ => Bindings.effects?_clearChanges
      change (attached.slot c).account = _
      rw [hslot, if_pos rfl]
      simp [Instance.account, Instance.component?, Instance.fragment?, Instance.template?, hkind,
        heffects]
    · change (attached.slot j).account = _
      rw [hslot, if_neg hj]
  rw [List.append_nil] at hsown
  rw [hdrawn]
  exact (hacts.ledger hbusy (hattached.balanced.calm (calm_dom attached dom)) hsown).of_slot
    fun _ => rfl

/-- Nothing is registered with what is emptied, and nothing is asked for there. -/
theorem dismantle (h : page.Ledger []) (horderly : page.Orderly)
    (hstate : page.component? c = some state) : (page.dismantle c state).Ledger [] := by
  have hempty : Emptied c page (page.dismantle c state) :=
    dismantle_emptied horderly (by rw [hstate]; rfl)
  generalize page.dismantle c state = after at hempty ⊢
  have hself := hempty.slot_self hstate
  have hcontains : ∀ field,
      (after.slot c).bindings.contains field = (page.slot c).bindings.contains field := by
    intro field
    rw [hself]
    exact Bindings.contains_clearEffects
  -- What is left alone belongs to another component, which is left alone, too.
  have hknows : ∀ o, Spared c page after o → ∀ field, after.knows o field = page.knows o field := by
    intro o ho field
    have hholder : after.slot (page.slot o).component = page.slot (page.slot o).component := by
      cases hvacant : (page.slot o).isVacant with
      | true =>
          have hown : (page.slot o).component = o :=
            congrArg Instance.component (horderly.vacant_eq o hvacant)
          rw [hown, ho.slot]
      | false =>
          refine hempty.other _ (fun heq => ?_) fun hinside => ?_
          · exact ho.outside (Inside.of_under horderly
              (heq ▸ (horderly.under_component hvacant)) ho.ne)
          · have hsome := horderly.belongs o hvacant
            rw [hinside.not_component horderly] at hsome
            cases hsome
    rw [knows, ho.slot, hholder, knows]
  have hregistered : ∀ o, Spared c page after o → ∀ field,
      after.registered o field = page.registered o field := by
    intro o ho field
    rw [registered, ho.slot, registered]
  have hnone : ∀ o, o = c ∨ after.slot o = .alone o .vacant → ∀ field,
      after.registered o field = [] ∧ after.readers o field = [] := by
    rintro o (rfl | hslot) field
    · rw [registered, readers, hself]
      exact ⟨Bindings.getD_effects?_of_not_holds fun _ => Bindings.not_holds_clearEffects, rfl⟩
    · rw [registered, readers, hslot]
      exact ⟨rfl, rfl⟩
  refine ⟨fun i state' hstate' field => ?_, fun o field hfield => ?_, fun o field hfield => ?_,
    fun o field => ?_, fun o field other e he hknown => ?_, fun f fragment hfragment => ?_,
    fun _ hchore => absurd hchore List.not_mem_nil⟩
  · rcases hempty.slot_cases i with rfl | ⟨_, hslot⟩ | hspared
    · rw [component?, hself] at hstate'
      cases hstate'
      rw [hcontains]
      exact h.declared i state hstate field
    · rw [component?, hslot] at hstate'
      cases hstate'
    · rw [component?, hspared.slot] at hstate'
      rw [hspared.slot]
      exact h.declared i state' hstate' field
  · rcases hempty.slot_cases o with rfl | ⟨_, hslot⟩ | hspared
    · have hcomponent : (after.slot o).component = o := by
        rw [hself]
        exact (horderly.component_eq o state hstate).2
      rw [knows, hcomponent]
      exact hfield
    · rw [hslot] at hfield
      cases hfield
    · rw [hspared.slot] at hfield
      rw [hknows o hspared]
      exact h.bound o field hfield
  · rcases hempty.slot_cases o with heq | ⟨_, hslot⟩ | hspared
    · rw [(hnone o (Or.inl heq) field).1, (hnone o (Or.inl heq) field).2]
      exact .nil
    · rw [(hnone o (Or.inr hslot) field).1, (hnone o (Or.inr hslot) field).2]
      exact .nil
    · rw [hknows o hspared] at hfield
      rw [hregistered o hspared, readers, hspared.slot]
      exact h.balance o field hfield
  · rcases hempty.slot_cases o with heq | ⟨_, hslot⟩ | hspared
    · rw [(hnone o (Or.inl heq) field).1]
      exact List.nodup_nil
    · rw [(hnone o (Or.inr hslot) field).1]
      exact List.nodup_nil
    · rw [hregistered o hspared]
      exact h.once o field
  · rcases hempty.slot_cases o with heq | ⟨_, hslot⟩ | hspared
    · rw [(hnone o (Or.inl heq) field).1] at he
      cases he
    · rw [(hnone o (Or.inr hslot) field).1] at he
      cases he
    · rw [hregistered o hspared] at he
      rw [hknows o hspared] at hknown
      rw [hregistered o hspared]
      exact h.reads o field other e he hknown
  · rw [fragment?, (hempty.spared_of_fragment hstate hfragment).slot] at hfragment
    exact h.nested f fragment hfragment

theorem mount (h : page.Ledger []) (hrested : page.Rested reading plan) (horderly : page.Orderly)
    (f : InstanceId) : (page.mount f).Ledger [] := by
  unfold Page.mount
  cases hstate : page.fragment? f with
  | none => exact h
  | some state =>
      obtain ⟨middle, new, hturned, hacts⟩ := mountWithin_splits (page.slot f).component True
        state.blueprint.depth page f horderly rfl (by rw [hstate]; rfl)
        (le_of_eq (Instance.rank_of_blueprint? (Instance.blueprint?_of_fragment? hstate)))
        (Or.inl trivial)
      obtain ⟨plan', hflip, hbusy⟩ := hturned.flip hrested.busy
      exact (hacts []).ledger hbusy (hrested.balanced.flip hflip)
        (hturned.ledger hrested.busy.laid.valid h)

end Ledger

/-! ### Requests -/

/-- A tidy page on which nothing is left to be registered. -/
structure Booked (reading : Blueprint → List Sketch) (document : NodeId) (page : Page) : Prop where
  tidy : page.Tidy reading (fun definition => definition.blueprint.Built) document
  ledger : page.Ledger []

namespace Booked

theorem written (h : page.Booked reading document) (hwritten : Written page page')
    (htidy : page'.Tidy reading (fun definition => definition.blueprint.Built) document) :
    page'.Booked reading document :=
  ⟨htidy, h.ledger.of_account hwritten.account_eq⟩

theorem callHook (h : page.Booked reading document) (horderly : page.Orderly) (c : InstanceId)
    (hook : Hooks → Script)
    (hhook : ∀ allowed hooks, Hooks.Edits allowed hooks → (hook hooks).Edits allowed) :
    (page.callHook c hook).Booked reading document :=
  h.written (callHook_written horderly c hook (hhook _)) (h.tidy.callHook c hook hhook)

theorem set (h : page.Booked reading document) (horderly : page.Orderly)
    (hdone : page.set c field value = .ok page') : page'.Booked reading document :=
  h.written (set_respects (written_respects c) hdone (.refl horderly)) (h.tidy.set hdone)

theorem setHostAttribute (h : page.Booked reading document) (horderly : page.Orderly) {name : String}
    {value : Option String} (hdone : page.setHostAttribute c name value = .ok page') :
    page'.Booked reading document := by
  refine h.written (setHostAttribute_respects (written_respects c)
    (fun next _ _ _ _ hnext => ?_) hdone (.refl horderly)) (h.tidy.setHostAttribute hdone)
  exact hnext.trans (.of_akin hnext.orderly (akin_editDom next _) rfl)

theorem dispatch (h : page.Booked reading document) (horderly : page.Orderly) (node : NodeId)
    (event : String) : (page.dispatch node event).1.Booked reading document := by
  refine h.written (dispatch_respects (fun next _ _ hnext => ?_) written_respects node event
    (.refl horderly)) (h.tidy.dispatch node event)
  exact hnext.trans (.of_akin hnext.orderly (akin_report next _) rfl)

theorem runFrame (h : page.Booked reading document) (hawaits : page.Awaits [] fun _ => False) :
    page.runFrame.1.Booked reading document := by
  refine runFrame_keeps (P := Booked reading document) (fun _ _ hpassing hpage => ?_)
    (fun _ c _ hook hhook horderly hpage => hpage.callHook horderly c hook hhook)
    (fun _ _ _ _ horderly hstate hconnected hpage => ?_) hawaits h
  · exact ⟨hpage.tidy.idle hpassing.toIdle, hpage.ledger.of_account hpassing.account_eq⟩
  · obtain ⟨plan, hrested⟩ := hpage.tidy.rested
    exact ⟨hpage.tidy.runEffects horderly hstate hconnected,
      (runEffects_acts horderly hstate hconnected).ledger hrested.busy hrested.balanced hpage.ledger⟩

theorem runUntilIdle (h : page.Booked reading document) (hawaits : page.Awaits [] fun _ => False)
    (limit : Nat) : (runUntilIdle limit page).1.Booked reading document := by
  induction limit generalizing page with
  | zero => exact h
  | succ limit ih =>
      rw [Page.runUntilIdle]
      split
      · exact ih (h.runFrame hawaits) hawaits.runFrame
      · exact h

theorem define (h : page.Booked reading document) {definition : Component}
    (hnative : definition.Native reading fun definition => definition.blueprint.Built)
    (hdone : page.define definition = .ok page') : page'.Booked reading document := by
  refine ⟨h.tidy.define hnative hdone, ?_⟩
  unfold Page.define at hdone
  split at hdone
  · cases hdone
  · split at hdone
    · cases hdone
    · cases hdone
      exact h.ledger.of_slot fun _ => rfl

theorem connect (h : page.Booked reading document) (horderly : page.Orderly)
    (hdone : page.connect c document = .ok page') : page'.Booked reading document := by
  cases hstate : page.component? c with
  | none =>
      rw [Page.connect, hstate] at hdone
      cases hdone
  | some state =>
      rw [connect_eq hstate, Except.ok.injEq] at hdone
      rw [← hdone]
      split
      · exact h
      · rename_i hidle
        have hidle : state.connected = false := by simpa using hidle
        have hakin := akin_placed page c state document
        have hplaced := h.tidy.placed hstate
        have horderly' := horderly.of_akin hakin
        have hstate' : (page.placed c state document).component? c = some state := by
          rw [component?, hakin.slot]
          exact hstate
        obtain ⟨plan, hrested⟩ := hplaced.rested
        refine Booked.callHook ⟨hplaced.rendered horderly' hstate' hidle, ?_⟩
          (rendered_frame horderly' hstate').1 c _ fun _ _ hedits => hedits.started
        exact (h.ledger.of_slot hakin.slot).rendered hrested horderly' hstate' hidle
          (hplaced.made c state hstate').known

theorem disconnect (h : page.Booked reading document) (horderly : page.Orderly)
    (hdone : page.disconnect c = .ok page') : page'.Booked reading document := by
  refine ⟨h.tidy.disconnect horderly hdone, ?_⟩
  cases hstate : page.component? c with
  | none =>
      rw [Page.disconnect, hstate] at hdone
      cases hdone
  | some state =>
      rw [disconnect_eq hstate, Except.ok.injEq] at hdone
      rw [← hdone]
      split
      · have hwritten := callHook_written horderly c Hooks.removed fun _ hedits => hedits.removed
        obtain ⟨fields, hfields⟩ := hwritten.component?_eq c
        rw [hstate] at hfields
        have hstate' : (page.callHook c (·.removed)).component? c = some { state with fields } :=
          hfields
        have hdown :=
          (h.ledger.of_account hwritten.account_eq).dismantle hwritten.orderly hstate'
        exact hdown
      · exact h.ledger

theorem serve (h : page.Booked reading document) (hawaits : page.Awaits [] fun _ => False)
    {request : Request}
    (hplain : request.Plain
      (Component.Native reading fun definition => definition.blueprint.Built) document) :
    (page.serve request).Booked reading document := by
  have horderly := hawaits.orderly
  cases request with
  | define definition => exact settle_of h fun _ hdone => h.define hplain hdone
  | create tag =>
      refine settle_of h fun next hdone => ?_
      cases hcreate : page.create tag with
      | error e =>
          rw [hcreate] at hdone
          cases hdone
      | ok made =>
          rw [hcreate] at hdone
          cases hdone
          exact ⟨h.tidy.create horderly hcreate, h.ledger.create horderly hcreate⟩
  | connect c parent =>
      cases hplain
      exact settle_of h fun _ hdone => h.connect horderly hdone
  | disconnect c => exact settle_of h fun _ hdone => h.disconnect horderly hdone
  | set c field value => exact settle_of h fun _ hdone => h.set horderly hdone
  | setHostAttribute c name value =>
      exact settle_of h fun _ hdone => h.setHostAttribute horderly hdone
  | markChanged c field =>
      exact h.written (.of_marked horderly (markChanged_marked horderly c field))
        (h.tidy.idle (idle_markChanged page c field))
  | dispatch node event => exact h.dispatch horderly node event
  | mount f =>
      obtain ⟨plan, hrested⟩ := h.tidy.rested
      exact ⟨h.tidy.mount horderly f, h.ledger.mount hrested horderly f⟩
  | unmount f =>
      exact ⟨h.tidy.unmount horderly f, h.ledger.of_account (read_unmount Instance.account
        (Instance.account_mapFragment fun _ => ⟨rfl, rfl⟩) page f)⟩
  | runFrame => exact h.runFrame hawaits
  | runUntilIdle limit => exact h.runUntilIdle hawaits limit

end Booked

theorem booked_after {styles : StyleAttacher} {requests : List Request}
    (hplain : ∀ request ∈ requests, request.Plain
      (Component.Native reading fun definition => definition.blueprint.Built)
      (start styles).document) :
    (after styles requests).Booked reading (start styles).document := by
  induction requests using List.reverseRecOn with
  | nil => exact ⟨start_tidy reading _ styles, .start styles⟩
  | append_singleton requests request ih =>
      rw [after_append]
      exact (ih fun other hother => hplain other (List.mem_append_left _ hother)).serve
        (awaits_after styles requests)
        (hplain request (List.mem_append_right _ (List.mem_singleton_self request)))

/-! ### What is registered -/

/-- Whether the component that an instance belongs to declares a field. -/
def declares (page : Page) (o : InstanceId) (field : String) : Bool :=
  (page.holder? o).any (·.definition.properties.contains field)

/-- Effects are registered where their expressions read. -/
structure Subscribed (page : Page) : Prop where
  tasks : ∀ o field, ((page.registered o field).map (·.task)).Perm
    (if page.declares o field then page.readers o field else [])
  once : ∀ o field, (page.registered o field).Nodup
  reads : ∀ o field other, ∀ e ∈ page.registered o field, page.declares o other = true →
    (e ∈ page.registered o other ↔ other ∈ e.task.fields)
  owned : ∀ o field, ∀ e ∈ page.registered o field, e.owner = o ∧ page.dom.Live e.node
  distinct : ∀ o o' field field', ∀ e ∈ page.registered o field,
    ∀ e' ∈ page.registered o' field', e.id = e'.id → e = e'

theorem Ledger.declares_eq (h : page.Ledger []) (horderly : page.Orderly) (o : InstanceId)
    (field : String) : page.declares o field = page.knows o field := by
  rw [declares, holder?, knows]
  cases hvacant : (page.slot o).isVacant with
  | true =>
      rw [horderly.vacant_eq o hvacant]
      change ((page.slot o).component?.any _) = (page.slot o).bindings.contains field
      rw [horderly.vacant_eq o hvacant]
      rfl
  | false =>
      obtain ⟨state, hstate⟩ := Option.isSome_iff_exists.mp (horderly.belongs o hvacant)
      rw [hstate, h.declared _ state hstate field]
      rfl

theorem Booked.subscribed (h : page.Booked reading document) (horderly : page.Orderly) :
    page.Subscribed where
  tasks o field := by
    rw [h.ledger.declares_eq horderly]
    split
    · rename_i hknows
      have hbalance := h.ledger.balance o field hknows
      rwa [List.flatMap_nil, List.append_nil] at hbalance
    · rename_i hknows
      have hcontains := Bool.eq_false_iff.mpr fun hfield => hknows (h.ledger.bound o field hfield)
      rw [registered, Bindings.effects?_of_not_contains hcontains]
      exact .nil
  once := h.ledger.once
  reads o field other e he hknown := by
    rw [h.ledger.declares_eq horderly] at hknown
    exact h.ledger.reads o field other e he hknown
  owned o field e he := by
    obtain ⟨plan, hrested⟩ := h.tidy.rested
    have hholds : (page.slot o).bindings.Holds e := ⟨field, registers_of_mem_registered he⟩
    exact ⟨(horderly.effect_owner o e hholds).1, (hrested.busy.tied o e hholds).1⟩
  distinct o o' field field' e he e' he' :=
    horderly.effect_id o o' e e' ⟨field, registers_of_mem_registered he⟩
      ⟨field', registers_of_mem_registered he'⟩

/-- Whatever is asked of components that were read from markup and are connected under the document,
each instance has one effect for every task in what it has rendered, under each declared field that
the task reads. -/
theorem subscribed_after (styles : StyleAttacher) (requests : List Request)
    (hplain : ∀ request ∈ requests,
      request.Plain Component.FromMarkup (start styles).document) :
    (after styles requests).Subscribed := by
  obtain ⟨reading, hreading⟩ := exists_reading
  have hbooked : (after styles requests).Booked reading (start styles).document :=
    booked_after fun request hrequest => (hplain request hrequest).imp fun definition hfrom =>
      ⟨hreading definition hfrom, hfrom.edits, hfrom.built⟩
  exact hbooked.subscribed (awaits_after styles requests).orderly

/-- The count is read at the counter and again at the fragment, which was taken out and put back. -/
theorem subscribed_after_toggle :
    (∀ request ∈ countAndToggle, request.Plain Component.FromMarkup (start .elements).document) ∧
      ((after .elements countAndToggle).registered ⟨0⟩ "n").length = 2 ∧
        ((after .elements countAndToggle).registered ⟨1⟩ "n").length = 1 ∧
          (after .elements countAndToggle).Subscribed :=
  ⟨plain_countAndToggle, by decide +kernel, by decide +kernel,
    subscribed_after .elements countAndToggle plain_countAndToggle⟩

end Page

end LiveMarkup
