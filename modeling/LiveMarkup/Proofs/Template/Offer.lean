import LiveMarkup.Proofs.Template.Caches
import LiveMarkup.Proofs.Template.CompileTo

/-!
An element by itself. The attributes that a feature takes leave it one after the other, its definition
collects what they say, and the caches of the registry hold what they are asked for.
-/

namespace LiveMarkup

/-! ### The registry -/

/-- A registry of some of the features that templates are written with, whose caches hold what their
sources compile to. -/
structure Registry.Sound (nodes marks : List Feature) (r : Registry) : Prop
    extends Registry.Faithful nodes marks r where
  nodes_builtin : ∀ feature ∈ nodes, feature ∈ Feature.builtin
  marks_builtin : ∀ feature ∈ marks, feature ∈ Feature.builtin

namespace Registry

variable {nodes marks : List Feature} {r r' : Registry} {source : String}

theorem ofFeatures_sound (hnodes : ∀ feature ∈ nodes, feature ∈ Feature.builtin)
    (hmarks : ∀ feature ∈ marks, feature ∈ Feature.builtin) :
    (ofFeatures nodes marks).Sound nodes marks :=
  ⟨ofFeatures_faithful nodes marks, hnodes, hmarks⟩

theorem Sound.of_faithful (h : r.Sound nodes marks) (h' : r'.Faithful nodes marks) :
    r'.Sound nodes marks :=
  ⟨h', h.nodes_builtin, h.marks_builtin⟩

theorem Sound.adorn (h : r.Sound nodes marks) (templates : Dict (Shared Blueprint)) (stamps : Nat)
    (notices : Array Notice) : { r with templates, stamps, notices }.Sound nodes marks :=
  h.of_faithful (h.toFaithful.adorn templates stamps notices)

theorem interpolation_sound (h : r.Sound nodes marks) (source : String) :
    (r.interpolation source).1.map (·.value) = Interpolation.compile source ∧
      (r.interpolation source).2.Sound nodes marks :=
  (h.toFaithful.interpolation source).imp_right h.of_faithful

theorem expression_sound (h : r.Sound nodes marks) (source : String) :
    (r.expression source).1.map (·.value) = Interpolation.compileBare source ∧
      (r.expression source).2.Sound nodes marks :=
  (h.toFaithful.expression source).imp_right h.of_faithful

theorem handler_sound (h : r.Sound nodes marks) (source : String) :
    (r.handler source).1.map (·.value) = Handler.compile source ∧
      (r.handler source).2.Sound nodes marks :=
  (h.toFaithful.handler source).imp_right h.of_faithful

end Registry

namespace Compile

variable {nodes marks : List Feature} {w w' w'' : Workbench} {node : NodeId}

/-- Nothing but the registry has changed. -/
structure Aside (nodes marks : List Feature) (w w' : Workbench) : Prop where
  dom : w'.dom = w.dom
  definitions : w'.definitions = w.definitions
  sound : w'.registry.Sound nodes marks

theorem Aside.trans (h : Aside nodes marks w w') (h' : Aside nodes marks w' w'') :
    Aside nodes marks w w'' :=
  ⟨h'.dom.trans h.dom, h'.definitions.trans h.definitions, h'.sound⟩

theorem report_aside (hsound : w.registry.Sound nodes marks) {notice : Notice} {u : Unit}
    (h : Gives (report notice) w u w') : Aside nodes marks w w' := by
  rw [report, gives_modify] at h
  subst h
  exact ⟨rfl, rfl, hsound.adorn _ _ _⟩

theorem gives_askRegistry {α : Type} {ask : Registry → Except CompileError (Shared α) × Registry}
    {a : α} (h : Gives (askRegistry ask) w a w') :
    (ask w.registry).1.map (·.value) = .ok a ∧
      w' = { w with registry := (ask w.registry).2 } := by
  simp only [askRegistry, gives_bind, gives_get, gives_set] at h
  obtain ⟨_, _, ⟨rfl, rfl⟩, _, _, rfl, h⟩ := h
  split at h
  · rename_i made hmade
    rw [gives_pure] at h
    rw [hmade, ← h.1]
    exact ⟨rfl, h.2.symm⟩
  · exact absurd h not_gives_throw

theorem askInterpolation_aside (hsound : w.registry.Sound nodes marks) {source : String}
    {i : Interpolation} (h : Gives (askRegistry (·.interpolation source)) w i w') :
    Interpolation.compile source = .ok i ∧ Aside nodes marks w w' := by
  obtain ⟨hmade, rfl⟩ := gives_askRegistry h
  obtain ⟨hvalue, hsound'⟩ := Registry.interpolation_sound hsound source
  exact ⟨hvalue.symm.trans hmade, rfl, rfl, hsound'⟩

theorem askExpression_aside (hsound : w.registry.Sound nodes marks) {source : String}
    {i : Interpolation} (h : Gives (askRegistry (·.expression source)) w i w') :
    Interpolation.compileBare source = .ok i ∧ Aside nodes marks w w' := by
  obtain ⟨hmade, rfl⟩ := gives_askRegistry h
  obtain ⟨hvalue, hsound'⟩ := Registry.expression_sound hsound source
  exact ⟨hvalue.symm.trans hmade, rfl, rfl, hsound'⟩

theorem askRegistry_eq {α : Type} (ask : Registry → Except CompileError (Shared α) × Registry)
    (w : Workbench) : askRegistry ask w =
      ((ask w.registry).1.map (·.value), { w with registry := (ask w.registry).2 }) := by
  have hasked : askRegistry ask w = askRegistry (fun _ => ask w.registry) w := rfl
  rw [hasked]
  rcases ask w.registry with ⟨_ | _, registry⟩ <;> rfl

/-- The result of asking for a handler that may be bad. -/
theorem askHandler_aside (hsound : w.registry.Sound nodes marks) {name source : String}
    {handler : Option Handler}
    (h : Gives (try
        let handler ← askRegistry (·.handler source)
        pure (some handler)
      catch e =>
        report (.badHandler name source e)
        pure none) w handler w') :
    handler = (Handler.compile source).toOption ∧ Aside nodes marks w w' := by
  obtain ⟨hvalue, hsound'⟩ := Registry.handler_sound hsound source
  have hasked : Aside nodes marks w { w with registry := (w.registry.handler source).2 } :=
    ⟨rfl, rfl, hsound'⟩
  rcases gives_tryCatch h with hdone | ⟨e, next, herror, hcaught⟩
  · simp only [gives_bind, gives_pure] at hdone
    obtain ⟨made, _, hask, rfl, rfl⟩ := hdone
    obtain ⟨hmade, rfl⟩ := gives_askRegistry hask
    rw [← hvalue, hmade]
    exact ⟨rfl, hasked⟩
  · rw [bind_eq, askRegistry_eq, hvalue] at herror
    cases hcompile : Handler.compile source with
    | ok made =>
        rw [hcompile] at herror
        cases herror
    | error e' =>
        rw [hcompile] at herror
        simp only [gives_bind, gives_pure] at hcaught
        obtain ⟨_, _, hreport, rfl, rfl⟩ := hcaught
        cases herror
        exact ⟨rfl, hasked.trans (report_aside hasked.sound hreport)⟩

/-! ### Taken attributes -/

theorem isMarkedBy_unique {a : Attribute} {c c' : Char} (h : a.isMarkedBy c = true)
    (h' : a.isMarkedBy c' = true) : c = c' := by
  unfold Attribute.isMarkedBy at h h'
  split at h
  · rename_i heq
    rw [heq] at h'
    simp only [decide_eq_true_eq] at h h'
    exact h.symm.trans h'
  · cases h

theorem not_isMarkedBy {a : Attribute} {c c' : Char} (h : a.isMarkedBy c = true) (hne : c ≠ c') :
    a.isMarkedBy c' = false := by
  rw [Bool.eq_false_iff]
  exact fun h' => hne (isMarkedBy_unique h h')

theorem feature?_iff {a : Attribute} {feature : Feature} :
    a.feature? = some feature ↔ (feature = .reference ∧ a.isMarkedBy '#' = true) ∨
      (feature = .event ∧ a.isMarkedBy '@' = true) ∨
        (feature = .binding ∧ a.isMarkedBy ':' = true) := by
  unfold Attribute.feature?
  by_cases href : a.isMarkedBy '#' = true
  · simp [href, not_isMarkedBy href (show '#' ≠ '@' by decide),
      not_isMarkedBy href (show '#' ≠ ':' by decide), eq_comm]
  · by_cases hevent : a.isMarkedBy '@' = true
    · simp [href, hevent, not_isMarkedBy hevent (show '@' ≠ ':' by decide), eq_comm]
    · by_cases hbinding : a.isMarkedBy ':' = true
      · simp [href, hevent, hbinding, eq_comm]
      · simp [href, hevent, hbinding]

theorem takenBy_iff {a : Attribute} {feature : Feature} :
    a.takenBy marks = some feature ↔ a.feature? = some feature ∧ feature ∈ marks := by
  rw [Attribute.takenBy, Option.filter_eq_some_iff, List.contains_iff_mem]

theorem takenBy_nil (a : Attribute) : a.takenBy [] = none := by
  cases h : a.takenBy [] with
  | none => rfl
  | some feature => exact absurd (takenBy_iff.mp h).2 (List.not_mem_nil)

theorem takenBy_cons_self {a : Attribute} {feature : Feature} (h : a.feature? = some feature)
    (rest : List Feature) : a.takenBy (feature :: rest) = some feature :=
  takenBy_iff.mpr ⟨h, List.mem_cons_self⟩

theorem takenBy_cons_of_ne {a : Attribute} {feature : Feature} (h : a.feature? ≠ some feature)
    (rest : List Feature) : a.takenBy (feature :: rest) = a.takenBy rest := by
  refine Option.ext fun other => ?_
  rw [takenBy_iff, takenBy_iff, List.mem_cons]
  constructor
  · rintro ⟨hother, rfl | hmem⟩
    · exact absurd hother h
    · exact ⟨hother, hmem⟩
  · exact fun ⟨hother, hmem⟩ => ⟨hother, Or.inr hmem⟩

/-- What an attribute is taken by depends on its name only. -/
theorem takenBy_congr {a b : Attribute} (h : a.name = b.name) :
    a.takenBy marks = b.takenBy marks := by
  have hmarked : ∀ c, a.isMarkedBy c = b.isMarkedBy c := fun c => by
    rw [Attribute.isMarkedBy, Attribute.isMarkedBy, h]
  simp only [Attribute.takenBy, Attribute.feature?, hmarked]

/-- What a feature makes of the definition of an element whose attribute it takes. -/
inductive Takes (a : Attribute) (definition : NodeDefinition Blueprint) :
    Option Feature → NodeDefinition Blueprint → Prop
  | kept : Takes a definition none definition
  | reference : Takes a definition (some .reference)
      (NodeDefinition.claim { definition with reference := some a.markedName } .reference)
  | event : Takes a definition (some .event)
      (NodeDefinition.claim { definition with
        events := definition.events ++
          [⟨a.markedName, a.value, (Handler.compile a.value).toOption⟩] } .event)
  | binding {i : Interpolation} (hvalue : Interpolation.compile a.value = .ok i) :
      Takes a definition (some .binding) (NodeDefinition.claim { definition with
        attributes := definition.attributes ++ [⟨a.markedName, i⟩] } .binding)

/-- An attribute has been offered: it is gone when a feature takes it. -/
structure Offered (nodes marks features : List Feature) (node : NodeId) (a : Attribute)
    (definition definition' : NodeDefinition Blueprint) (w w' : Workbench) : Prop where
  sound : w'.registry.Sound nodes marks
  definitions : w'.definitions = w.definitions
  dom : w'.dom =
    if (a.takenBy features).isNone then w.dom else w.dom.eraseAttribute node a.name
  takes : Takes a definition (a.takenBy features) definition'

theorem gives_edit {change : Dom → Dom} {u : Unit} (h : Gives (edit change) w u w') :
    w' = { w with dom := change w.dom } := by
  rwa [edit, gives_modify] at h

theorem offerAttribute_offered {a : Attribute} {definition definition' : NodeDefinition Blueprint}
    (hsound : w.registry.Sound nodes marks) (helement : (w.dom.content node).isElement = true)
    {features : List Feature} (hbuiltin : ∀ feature ∈ features, feature ∈ Feature.builtin)
    (h : Gives (offerAttribute definition node a features) w definition' w') :
    Offered nodes marks features node a definition definition' w w' := by
  induction features with
  | nil =>
      obtain ⟨rfl, rfl⟩ := gives_pure.mp h
      refine ⟨hsound, rfl, ?_, ?_⟩
      · rw [takenBy_nil]
        rfl
      · rw [takenBy_nil]
        exact .kept
  | cons feature rest ih =>
      have ih' := ih fun other hother => hbuiltin other (List.mem_cons_of_mem _ hother)
      -- A feature that leaves the attribute to the next ones.
      have hpass : a.feature? ≠ some feature →
          Offered nodes marks rest node a definition definition' w w' →
          Offered nodes marks (feature :: rest) node a definition definition' w w' := by
        intro hne hoffered
        have hsame := takenBy_cons_of_ne hne rest
        exact ⟨hoffered.sound, hoffered.definitions, hsame ▸ hoffered.dom, hsame ▸ hoffered.takes⟩
      have hnever : feature = .text ∨ feature = .conditional → a.feature? ≠ some feature := by
        intro hfeature hsome
        rcases feature?_iff.mp hsome with ⟨rfl, _⟩ | ⟨rfl, _⟩ | ⟨rfl, _⟩ <;> simp at hfeature
      have haccepts : feature.accepts (w.dom.content node) (some a) = feature.appliesTo a := by
        simp [Feature.accepts, helement]
      simp only [offerAttribute, gives_bind, gives_get] at h
      obtain ⟨_, _, ⟨rfl, rfl⟩, h⟩ := h
      rw [haccepts] at h
      cases happlies : feature.appliesTo a with
      | false =>
          rw [happlies, if_neg (by decide)] at h
          refine hpass (fun hsome => ?_) (ih' h)
          rcases feature?_iff.mp hsome with ⟨rfl, hmark⟩ | ⟨rfl, hmark⟩ | ⟨rfl, hmark⟩ <;>
            exact absurd (happlies.symm.trans hmark) (by decide)
      | true =>
          rw [happlies, if_pos rfl] at h
          simp only [gives_bind] at h
          obtain ⟨prepared, next, hprepare, h⟩ := h
          have hmem := hbuiltin feature List.mem_cons_self
          simp only [Feature.builtin, List.mem_cons, List.not_mem_nil, or_false] at hmem
          rcases hmem with rfl | rfl | rfl | rfl | rfl
          · cases happlies
          · simp only [prepareAttribute, gives_pure] at hprepare
            obtain ⟨rfl, rfl⟩ := hprepare
            exact hpass (hnever (Or.inr rfl)) (ih' h)
          · have htaken := takenBy_cons_self (feature?_iff.mpr (Or.inl ⟨rfl, happlies⟩)) rest
            simp only [prepareAttribute, gives_bind, gives_pure] at hprepare
            obtain ⟨_, _, hedit, rfl, rfl⟩ := hprepare
            obtain rfl := gives_edit hedit
            obtain ⟨rfl, rfl⟩ := gives_pure.mp h
            exact ⟨hsound, rfl, by rw [htaken]; rfl, by rw [htaken]; exact .reference⟩
          · have htaken := takenBy_cons_self (feature?_iff.mpr (Or.inr (Or.inl ⟨rfl, happlies⟩))) rest
            simp only [prepareAttribute, gives_bind, gives_pure] at hprepare
            obtain ⟨handler, asked, hhandler, _, _, hedit, rfl, rfl⟩ := hprepare
            obtain ⟨rfl, haside⟩ := askHandler_aside hsound hhandler
            obtain rfl := gives_edit hedit
            obtain ⟨rfl, rfl⟩ := gives_pure.mp h
            refine ⟨haside.sound, haside.definitions, ?_, by rw [htaken]; exact .event⟩
            rw [htaken, ← haside.dom]
            rfl
          · have htaken := takenBy_cons_self (feature?_iff.mpr (Or.inr (Or.inr ⟨rfl, happlies⟩))) rest
            simp only [prepareAttribute, gives_bind, gives_pure] at hprepare
            obtain ⟨i, asked, hask, _, _, hedit, rfl, rfl⟩ := hprepare
            obtain ⟨hvalue, haside⟩ := askInterpolation_aside hsound hask
            obtain rfl := gives_edit hedit
            obtain ⟨rfl, rfl⟩ := gives_pure.mp h
            refine ⟨haside.sound, haside.definitions, ?_, by rw [htaken]; exact .binding hvalue⟩
            rw [htaken, ← haside.dom]
            rfl

theorem claim_eq (definition : NodeDefinition Blueprint) (feature : Feature) :
    definition.claim feature = { definition with
      features := if definition.features.contains feature then definition.features
        else definition.features ++ [feature] } := by
  unfold NodeDefinition.claim
  split <;> rfl

theorem index_claim (definition : NodeDefinition Blueprint) (feature : Feature) :
    (definition.claim feature).index = definition.index := by
  rw [claim_eq]

theorem unclaimed_collects (k : Nat) :
    (NodeDefinition.unclaimed k : NodeDefinition Blueprint).Collects marks [] :=
  ⟨rfl, rfl, .nil, rfl, rfl, rfl⟩

theorem eraseDups_append_singleton (features : List Feature) (feature : Feature) :
    (features ++ [feature]).eraseDups =
      if features.eraseDups.contains feature then features.eraseDups
      else features.eraseDups ++ [feature] := by
  rw [List.eraseDups_append]
  by_cases hmem : feature ∈ features
  · have hdups : features.eraseDups.contains feature = true := by simpa using hmem
    rw [if_pos hdups]
    simp [List.removeAll, hmem]
  · have hdups : ¬ features.eraseDups.contains feature = true := by simpa using hmem
    rw [if_neg hdups]
    simp [List.removeAll, hmem, List.eraseDups_cons]

theorem nodup_eraseDups (features : List Feature) : features.eraseDups.Nodup := by
  induction features using List.reverseRecOn with
  | nil => exact List.nodup_nil
  | append_singleton features feature ih =>
      rw [eraseDups_append_singleton]
      split
      · exact ih
      · rename_i hnot
        rw [List.contains_iff_mem] at hnot
        refine List.nodup_append.mpr ⟨ih, List.nodup_singleton _, ?_⟩
        rintro x hx y hy rfl
        exact hnot (List.mem_singleton.mp hy ▸ hx)

/-- One more attribute is collected. -/
theorem collects_append {offered : List Attribute} {a : Attribute}
    {definition definition' : NodeDefinition Blueprint} (h : definition.Collects marks offered)
    (htakes : Takes a definition (a.takenBy marks) definition') :
    definition'.Collects marks (offered ++ [a]) := by
  obtain ⟨hreference, hevents, hattributes, hcontent, hdirective, hfeatures⟩ := h
  have hfilter : ∀ feature, (offered ++ [a]).filter (·.takenBy marks = some feature) =
      offered.filter (·.takenBy marks = some feature) ++
        if a.takenBy marks = some feature then [a] else [] := by
    intro feature
    rw [List.filter_append, List.filter_cons, List.filter_nil]
    simp only [decide_eq_true_eq]
  have hclaimed : ∀ feature, a.takenBy marks = some feature →
      (if definition.features.contains feature then definition.features
        else definition.features ++ [feature]) =
          ((offered ++ [a]).filterMap (·.takenBy marks)).eraseDups := by
    intro feature hfeature
    rw [List.filterMap_append, List.filterMap_cons, hfeature, List.filterMap_nil,
      eraseDups_append_singleton, hfeatures]
  generalize htaken : a.takenBy marks = taken at htakes hfilter hclaimed
  cases htakes with
  | kept =>
      refine ⟨?_, ?_, ?_, hcontent, hdirective, ?_⟩
      · simpa [hfilter] using hreference
      · simpa [hfilter] using hevents
      · simpa [hfilter] using hattributes
      · rw [List.filterMap_append, List.filterMap_cons, htaken, List.filterMap_nil, List.append_nil]
        exact hfeatures
  | reference =>
      rw [claim_eq]
      refine ⟨?_, ?_, ?_, hcontent, hdirective, hclaimed _ rfl⟩
      · simp [hfilter]
      · simpa [hfilter] using hevents
      · simpa [hfilter] using hattributes
  | event =>
      rw [claim_eq]
      refine ⟨?_, ?_, ?_, hcontent, hdirective, hclaimed _ rfl⟩
      · simpa [hfilter] using hreference
      · simp [hfilter, hevents]
      · simpa [hfilter] using hattributes
  | @binding i hvalue =>
      rw [claim_eq]
      refine ⟨?_, ?_, ?_, hcontent, hdirective, hclaimed _ rfl⟩
      · simpa [hfilter] using hreference
      · simpa [hfilter] using hevents
      · rw [hfilter, if_pos rfl]
        exact List.rel_append hattributes (.cons ⟨rfl, hvalue⟩ .nil)

/-- Only the content of one node has changed. -/
structure Retagged (node : NodeId) (content : Content) (d d' : Dom) : Prop where
  valid : d'.Valid
  node : ∀ x, d'.node x = if x = node then { d.node node with content } else d.node x

section Retagged

variable {d d' d'' : Dom} {made made' : Content}

theorem Retagged.refl (hvalid : d.Valid) (node : NodeId) :
    Retagged node (d.content node) d d where
  valid := hvalid
  node x := by
    split
    · rename_i heq
      rw [heq]
      rfl
    · rfl

theorem Retagged.trans (h : Retagged node made d d') (h' : Retagged node made' d' d'') :
    Retagged node made' d d'' where
  valid := h'.valid
  node x := by
    rw [h'.node, h.node, h.node, if_pos rfl]
    split <;> rfl

theorem Retagged.content (h : Retagged node made d d') : d'.content node = made := by
  rw [Dom.content, h.node, if_pos rfl]

theorem Retagged.tree {below : List Tree} {marker : Option Nat}
    (h : Retagged node made' d d') (hvalid : d.Valid)
    (htree : d.tree node = .node made marker below) (hlive : d.Live node) :
    d'.tree node = .node made' marker below := by
  rw [Dom.tree_eq hvalid, Tree.node.injEq] at htree
  obtain ⟨_, hmarker, hchildren⟩ := htree
  have hkids : ∀ x, d'.children x = d.children x := by
    intro x
    rw [Dom.children, h.node]
    split
    · rename_i heq
      rw [heq]
      rfl
    · rfl
  rw [Dom.tree_eq h.valid, h.content, Dom.marker, hkids, h.node, if_pos rfl]
  refine Tree.node.injEq _ _ _ _ _ _ |>.mpr ⟨rfl, hmarker, ?_⟩
  rw [← hchildren]
  refine List.map_congr_left fun c hc => ?_
  have hne : ∀ x, d.Below c x → x ≠ node := by
    rintro x hx rfl
    exact hvalid.acyclic c x ((hvalid.mem_children x c).mp hc) hx
  refine Dom.tree_congr_node hvalid h.valid (hvalid.live_of_mem_children hc) fun x hx => ?_
  rw [h.node, if_neg (hne x hx)]

theorem eraseAttribute_retagged (hvalid : d.Valid) (node : NodeId) (name : String) :
    Retagged node ((d.content node).eraseAttribute name) d (d.eraseAttribute node name) :=
  ⟨(Dom.eraseAttribute_rewritten hvalid node name).valid hvalid,
    Dom.node_eraseAttribute d node name⟩

end Retagged

theorem eraseP_untaken {untaken rest : List Attribute} {a : Attribute}
    (ha : (a.takenBy marks).isNone = false)
    (huntaken : ∀ b ∈ untaken, (b.takenBy marks).isNone = true) :
    (untaken ++ a :: rest).eraseP (·.name = a.name) = untaken ++ rest := by
  rw [List.eraseP_append_right, List.eraseP_cons_of_pos]
  · simp
  · intro b hb
    simp only [decide_eq_true_eq]
    intro heq
    have hkept := huntaken b hb
    rw [takenBy_congr heq, ha] at hkept
    cases hkept

/-- A taken attribute is erased, and no other one. -/
theorem offerAttribute_retagged {tag : String} {offered rest : List Attribute} {a : Attribute}
    {d d' : Dom} (hvalid : d.Valid)
    (hcontent : d.content node = .element tag (untaken marks offered ++ a :: rest))
    (hdom : d' = if (a.takenBy marks).isNone = true then d else d.eraseAttribute node a.name) :
    Retagged node (.element tag (untaken marks (offered ++ [a]) ++ rest)) d d' := by
  cases htaken : (a.takenBy marks).isNone with
  | true =>
      have hsame : untaken marks (offered ++ [a]) ++ rest = untaken marks offered ++ a :: rest := by
        simp [untaken, htaken]
      rw [htaken, if_pos rfl] at hdom
      rw [hdom, hsame, ← hcontent]
      exact .refl hvalid node
  | false =>
      have herased : (d.content node).eraseAttribute a.name =
          .element tag (untaken marks (offered ++ [a]) ++ rest) := by
        rw [hcontent, Content.eraseAttribute, eraseP_untaken htaken]
        · simp [untaken, htaken]
        · exact fun b hb => (List.mem_filter.mp hb).2
      rw [htaken, if_neg (by decide)] at hdom
      rw [hdom, ← herased]
      exact eraseAttribute_retagged hvalid node a.name

theorem offerAttributes_offered {tag : String} {rest : List Attribute} :
    ∀ (offered : List Attribute) {definition definition' : NodeDefinition Blueprint}
      {w w' : Workbench}, w.registry.Sound nodes marks → w.dom.Valid →
      w.dom.content node = .element tag (untaken marks offered ++ rest) →
      definition.Collects marks offered →
      Gives (offerAttributes definition node rest) w definition' w' →
      w'.registry.Sound nodes marks ∧ w'.definitions = w.definitions ∧
        definition'.index = definition.index ∧ definition'.Collects marks (offered ++ rest) ∧
        Retagged node (.element tag (untaken marks (offered ++ rest))) w.dom w'.dom := by
  induction rest with
  | nil =>
      intro offered definition definition' w w' hsound hvalid hcontent hcollects h
      rw [offerAttributes, gives_pure] at h
      obtain ⟨rfl, rfl⟩ := h
      rw [List.append_nil] at hcontent ⊢
      rw [← hcontent]
      exact ⟨hsound, rfl, rfl, hcollects, .refl hvalid node⟩
  | cons a rest ih =>
      intro offered definition definition' w w' hsound hvalid hcontent hcollects h
      simp only [offerAttributes, gives_bind, gives_get] at h
      obtain ⟨_, _, ⟨rfl, rfl⟩, changed, next, hfirst, hrest⟩ := h
      rw [hsound.attributeFeatures] at hfirst
      have hoffered := offerAttribute_offered hsound (by rw [hcontent]; rfl) hsound.marks_builtin
        hfirst
      have hindex : changed.index = definition.index := by
        have htakes := hoffered.takes
        generalize a.takenBy marks = taken at htakes
        cases htakes <;> first | rfl | exact index_claim _ _
      have hretagged := offerAttribute_retagged hvalid hcontent hoffered.dom
      obtain ⟨hsound', hdefinitions, hindex', hcollects', hretagged'⟩ :=
        ih _ hoffered.sound hretagged.valid hretagged.content
          (collects_append hcollects hoffered.takes) hrest
      rw [List.append_assoc, List.singleton_append] at hcollects' hretagged'
      exact ⟨hsound', hdefinitions.trans hoffered.definitions, hindex'.trans hindex, hcollects',
        hretagged.trans hretagged'⟩

/-! ### Visits -/

/-- A plain element has been visited: the attributes that are taken are gone, and it carries a marker
when it got a definition. -/
structure Visited (nodes marks : List Feature) (node : NodeId) (tag : String)
    (attributes : List Attribute) (own : Option (NodeDefinition Blueprint)) (w w' : Workbench) :
    Prop where
  sound : w'.registry.Sound nodes marks
  valid : w'.dom.Valid
  owns : Owns marks attributes w.definitions.length own
  definitions : w'.definitions = w.definitions ++ own.toList
  node : ∀ x, w'.dom.node x =
    if x = node then
      { w.dom.node node with
        content := .element tag (untaken marks attributes)
        marker := own.map (·.index) }
    else w.dom.node x

theorem gives_claim {definition : NodeDefinition Blueprint} {u : Unit}
    (h : Gives (claim node definition) w u w') :
    w' = { w with
      dom := w.dom.setMarker node (some definition.index)
      definitions := w.definitions ++ [definition] } := by
  rwa [claim, gives_modify] at h

theorem gives_nextDefinition {definition : NodeDefinition Blueprint}
    (h : Gives nextDefinition w definition w') :
    definition = .unclaimed w.definitions.length ∧ w' = w := by
  simp only [nextDefinition, gives_bind, gives_get, gives_pure] at h
  obtain ⟨_, _, ⟨rfl, rfl⟩, rfl, rfl⟩ := h
  exact ⟨rfl, rfl⟩

/-- An element is claimed when one of its attributes is taken. -/
theorem isClaimed_iff {attributes : List Attribute} {definition : NodeDefinition Blueprint}
    (h : definition.Collects marks attributes) :
    definition.isClaimed = true ↔ ∃ a ∈ attributes, a.takenBy marks ≠ none := by
  rw [NodeDefinition.isClaimed, h.features, Bool.not_eq_true', List.isEmpty_eq_false_iff_exists_mem]
  simp only [List.mem_eraseDups, List.mem_filterMap, Option.ne_none_iff_exists']
  exact ⟨fun ⟨feature, a, ha, htaken⟩ => ⟨a, ha, feature, htaken⟩,
    fun ⟨a, ha, feature, htaken⟩ => ⟨feature, a, ha, htaken⟩⟩

theorem visitPlain_visited {tag : String} {attributes : List Attribute}
    (hsound : w.registry.Sound nodes marks) (hvalid : w.dom.Valid)
    (hcontent : w.dom.content node = .element tag attributes)
    (hmarker : w.dom.marker node = none) (h : Gives (visitPlain node) w () w') :
    ∃ own, Visited nodes marks node tag attributes own w w' := by
  have hlive : w.dom.Live node := by
    by_contra hnot
    rw [Dom.content, hvalid.vacant_eq node hnot] at hcontent
    cases hcontent
  simp only [visitPlain, gives_bind, gives_get] at h
  obtain ⟨_, _, ⟨rfl, rfl⟩, definition, _, hnext, changed, next, hoffer, h⟩ := h
  obtain ⟨rfl, rfl⟩ := gives_nextDefinition hnext
  rw [hcontent] at hoffer
  obtain ⟨hsound', hdefinitions, hindex, hcollects, hretagged⟩ :=
    offerAttributes_offered [] hsound hvalid hcontent (unclaimed_collects _) hoffer
  rw [List.nil_append] at hcollects hretagged
  have hlive' : next.dom.Live node := by
    rw [Dom.Live, hretagged.node, if_pos rfl]
    exact hlive
  split at h
  · rename_i hclaimed
    rw [gives_claim h]
    refine ⟨some changed, hsound',
      (Dom.setMarker_rewritten hretagged.valid hlive' _).valid hretagged.valid,
      ⟨hindex, hcollects, (isClaimed_iff hcollects).mp hclaimed⟩, by rw [hdefinitions]; rfl, ?_⟩
    intro x
    rw [Dom.node_setMarker hlive', hretagged.node, hretagged.node, if_pos rfl]
    split <;> rfl
  · rename_i hclaimed
    obtain ⟨-, rfl⟩ := gives_pure.mp h
    refine ⟨none, hsound', hretagged.valid, ?_, by rw [hdefinitions]; simp, ?_⟩
    · intro a ha
      by_contra htaken
      exact hclaimed ((isClaimed_iff hcollects).mpr ⟨a, ha, htaken⟩)
    · intro x
      rw [hretagged.node, Option.map_none, ← hmarker]
      rfl

end Compile

end LiveMarkup
