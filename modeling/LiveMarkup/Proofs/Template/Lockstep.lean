import LiveMarkup.Proofs.Template.Alike
import LiveMarkup.Proofs.Template.Learned

/-!
Two compilations of one source side by side. Their registries may know different things, but what they
know is right, so both take the same steps, fail alike and make alike templates.
-/

namespace LiveMarkup

namespace Compile

/-! ### Generated words -/

/-- The number that hexadecimal digits stand for. -/
def hexValue (digits : List Char) : Nat :=
  digits.foldl (fun n c => 16 * n + if c.isDigit then c.toNat - 48 else c.toNat - 87) 0

theorem hexValue_append (digits : List Char) (c : Char) :
    hexValue (digits ++ [c]) =
      16 * hexValue digits + if c.isDigit then c.toNat - 48 else c.toNat - 87 := by
  rw [hexValue, List.foldl_append, List.foldl_cons, List.foldl_nil]
  rfl

theorem hexValue_zeros (n : Nat) (digits : List Char) :
    hexValue (List.replicate n '0' ++ digits) = hexValue digits := by
  induction n with
  | zero => rfl
  | succ n ih =>
      rw [List.replicate_succ, List.cons_append, hexValue, List.foldl_cons]
      exact ih

theorem hexValue_hexDigits (n : Nat) : hexValue (Text.hexDigits n) = n := by
  induction n using Nat.base_induction 16 (by decide) with
  | single m hm =>
      rw [Text.hexDigits, Nat.toDigits_of_lt_base hm]
      revert m
      decide
  | digit m k hk hm ih =>
      rw [Text.hexDigits, ← Nat.toDigits_append_toDigits (by decide) hm hk,
        Nat.toDigits_of_lt_base hk, hexValue_append]
      change 16 * hexValue (Text.hexDigits m) + _ = _
      rw [ih]
      congr 1
      revert k
      decide

theorem uniqueText_injective {m n : Nat} (h : uniqueText m = uniqueText n) : m = n := by
  unfold uniqueText at h
  generalize "00000000-0000-4000-8000-" = layout at h
  have hdigits := congrArg String.toList h
  rw [String.toList_append, String.toList_append, List.append_cancel_left_eq,
    String.toList_ofList, String.toList_ofList] at hdigits
  have hvalue := congrArg hexValue hdigits
  rwa [hexValue_zeros, hexValue_zeros, hexValue_hexDigits, hexValue_hexDigits] at hvalue

end Compile

variable {nodes marks : List Feature} {words more : Words}

theorem NodeDefinition.AllAlike.claim {definition definition' : NodeDefinition Blueprint}
    (h : AllAlike words [definition] [definition']) (feature : Feature) :
    AllAlike words [definition.claim feature] [definition'.claim feature] := by
  cases h with
  | plain h =>
      rw [Compile.claim_eq]
      exact .plain h .nil
  | @directive definition _ _ _ _ _ _ _ _ hname hdom hroot hnested =>
      rw [Compile.claim_eq, Compile.claim_eq]
      exact @AllAlike.directive words { definition with features := _ } _ _ _ _ _ _ _ _ hname hdom
        hroot hnested .nil

/-! ### Two compilations -/

/-- Registries of the same features that are right about what they know, and the words that were
generated with their stamps. -/
structure Registry.Paired (nodes marks : List Feature) (words : Words) (r r' : Registry) : Prop where
  first : r.Faithful nodes marks
  second : r'.Faithful nodes marks
  given : ∀ pair ∈ words, ∃ s s', s < r.stamps ∧ s' < r'.stamps ∧
    pair = (Compile.uniqueText s, Compile.uniqueText s')
  oneToOne : words.OneToOne

/-- Workbenches of two compilations that have come equally far. -/
structure Workbench.Alike (nodes marks : List Feature) (words : Words) (w w' : Workbench) : Prop where
  registry : w.registry.Paired nodes marks words w'.registry
  dom : w.dom.Alike words w'.dom
  definitions : NodeDefinition.AllAlike words w.definitions w'.definitions

theorem Registry.Paired.learns {r r' s s' : Registry} (h : r.Paired nodes marks words r')
    (hfirst : r.Learns s) (hsecond : r'.Learns s') : s.Paired nodes marks words s' where
  first := hfirst.faithful h.first
  second := hsecond.faithful h.second
  given pair hpair := by
    obtain ⟨k, k', hk, hk', heq⟩ := h.given pair hpair
    exact ⟨k, k', Nat.lt_of_lt_of_le hk hfirst.stamps_le, Nat.lt_of_lt_of_le hk' hsecond.stamps_le,
      heq⟩
  oneToOne := h.oneToOne

theorem Workbench.Alike.accepts {w w' : Workbench} (h : w.Alike nodes marks words w') (node : NodeId)
    (a : Attribute) (feature : Feature) :
    feature.accepts (w'.dom.content node) (some a) = feature.accepts (w.dom.content node) (some a) := by
  rw [Feature.accepts, Feature.accepts, (h.dom.content node).isElement]

/-- Both registries give out a word. -/
theorem Registry.Paired.share {r r' : Registry} (h : r.Paired nodes marks words r') :
    (r.share ()).2.Paired nodes marks
      ((Compile.uniqueText r.stamps, Compile.uniqueText r'.stamps) :: words) (r'.share ()).2 where
  first := h.first.adorn _ _ _
  second := h.second.adorn _ _ _
  given pair hpair := by
    rcases List.mem_cons.mp hpair with rfl | hpair
    · exact ⟨r.stamps, r'.stamps, Nat.lt_succ_self _, Nat.lt_succ_self _, rfl⟩
    · obtain ⟨k, k', hk, hk', heq⟩ := h.given pair hpair
      exact ⟨k, k', Nat.lt_succ_of_lt hk, Nat.lt_succ_of_lt hk', heq⟩
  oneToOne := by
    refine ⟨List.nodup_cons.mpr ⟨fun hmem => ?_, h.oneToOne.first⟩,
      List.nodup_cons.mpr ⟨fun hmem => ?_, h.oneToOne.second⟩⟩
    · obtain ⟨pair, hpair, heq⟩ := List.mem_map.mp hmem
      obtain ⟨k, k', hk, -, rfl⟩ := h.given pair hpair
      exact Nat.ne_of_lt hk (Compile.uniqueText_injective heq)
    · obtain ⟨pair, hpair, heq⟩ := List.mem_map.mp hmem
      obtain ⟨k, k', -, hk', rfl⟩ := h.given pair hpair
      exact Nat.ne_of_lt hk' (Compile.uniqueText_injective heq)

namespace Compile

variable {α β : Type} {P : Words → α → α → Prop} {Q : Words → β → β → Prop}

/-- Both fail with one error, or both succeed with results in a relation. -/
inductive Ends (P : α → α → Prop) : Except CompileError α → Except CompileError α → Prop
  | ok {a a' : α} (h : P a a') : Ends P (.ok a) (.ok a')
  | error (e : CompileError) : Ends P (.error e) (.error e)

/-- Two runs end alike, with perhaps more words. -/
def Meets (nodes marks : List Feature) (words : Words) (P : Words → α → α → Prop)
    (result result' : Except CompileError α × Workbench) : Prop :=
  ∃ more, words ⊆ more ∧ result.2.Alike nodes marks more result'.2 ∧
    Ends (P more) result.1 result'.1

/-- Run from alike workbenches, two steps end alike. -/
def InStep (nodes marks : List Feature) (words : Words) (P : Words → α → α → Prop)
    (m m' : Compile α) : Prop :=
  ∀ (more : Words) (w w' : Workbench), words ⊆ more → w.Alike nodes marks more w' →
    Meets nodes marks more P (m w) (m' w')

theorem Meets.mono {result result' : Except CompileError α × Workbench}
    (h : Meets nodes marks more P result result') (hmore : words ⊆ more) :
    Meets nodes marks words P result result' := by
  obtain ⟨most, hmost, halike, hends⟩ := h
  exact ⟨most, List.Subset.trans hmore hmost, halike, hends⟩

theorem InStep.mono {m m' : Compile α} (h : InStep nodes marks words P m m') (hmore : words ⊆ more) :
    InStep nodes marks more P m m' :=
  fun most w w' hmost halike => h most w w' (List.Subset.trans hmore hmost) halike

/-- The second steps of two runs start from the results of the first. -/
theorem InStep.bind {m m' : Compile α} {f f' : α → Compile β}
    (hm : InStep nodes marks words P m m')
    (hf : ∀ {more : Words} {a a' : α}, words ⊆ more → P more a a' →
      InStep nodes marks more Q (f a) (f' a')) :
    InStep nodes marks words Q (m >>= f) (m' >>= f') := by
  intro more w w' hmore halike
  obtain ⟨most, hmost, halike', hends⟩ := hm more w w' hmore halike
  rw [bind_eq, bind_eq]
  generalize m w = result at halike' hends
  generalize m' w' = result' at halike' hends
  obtain ⟨answer, next⟩ := result
  obtain ⟨answer', next'⟩ := result'
  cases hends with
  | ok h =>
      exact (hf (List.Subset.trans hmore hmost) h most next next' (List.Subset.refl _) halike').mono
        hmost
  | error e => exact ⟨most, hmost, halike', .error e⟩

/-- What comes after a look at the workbench may use what is on it. -/
theorem inStep_get {f f' : Workbench → Compile β}
    (hf : ∀ {more : Words} {w w' : Workbench}, words ⊆ more → w.Alike nodes marks more w' →
      Meets nodes marks more Q (f w w) (f' w' w')) :
    InStep nodes marks words Q (get >>= f) (get >>= f') :=
  fun _ _ _ hmore halike => hf hmore halike

theorem inStep_pure {a a' : α} (h : ∀ {more : Words}, words ⊆ more → P more a a') :
    InStep nodes marks words P (pure a) (pure a') :=
  fun more _ _ hmore halike => ⟨more, List.Subset.refl _, halike, .ok (h hmore)⟩

theorem inStep_throw (e : CompileError) :
    InStep nodes marks words P (throw e) (throw e) :=
  fun more _ _ _ halike => ⟨more, List.Subset.refl _, halike, .error e⟩

theorem inStep_modify {f f' : Workbench → Workbench}
    (h : ∀ {more : Words} {w w' : Workbench}, words ⊆ more → w.Alike nodes marks more w' →
      (f w).Alike nodes marks more (f' w')) :
    InStep nodes marks words (fun _ _ _ => True) (modify f : Compile PUnit) (modify f') :=
  fun more _ _ hmore halike => ⟨more, List.Subset.refl _, h hmore halike, .ok trivial⟩

theorem InStep.tryCatch {m m' : Compile α} {handle handle' : CompileError → Compile α}
    (hm : InStep nodes marks words P m m')
    (hhandle : ∀ {more : Words} (e : CompileError), words ⊆ more →
      InStep nodes marks more P (handle e) (handle' e)) :
    InStep nodes marks words P (tryCatch m handle) (tryCatch m' handle') := by
  intro more w w' hmore halike
  obtain ⟨most, hmost, halike', hends⟩ := hm more w w' hmore halike
  rw [tryCatch_eq, tryCatch_eq]
  generalize m w = result at halike' hends
  generalize m' w' = result' at halike' hends
  obtain ⟨answer, next⟩ := result
  obtain ⟨answer', next'⟩ := result'
  cases hends with
  | ok h => exact ⟨most, hmost, halike', .ok h⟩
  | error e =>
      exact (hhandle e (List.Subset.trans hmore hmost) most next next' (List.Subset.refl _) halike').mono
        hmost

/-! ### The steps of a compilation -/

theorem ends_refl (answer : Except CompileError α) : Ends Eq answer answer := by
  cases answer with
  | ok a => exact .ok rfl
  | error e => exact .error e

/-- Registries that are right give one answer. -/
theorem inStep_ask {ask : Registry → Except CompileError (Shared α) × Registry}
    {answer : Except CompileError α}
    (hanswer : ∀ {r : Registry}, r.Faithful nodes marks → (ask r).1.map (·.value) = answer)
    (hlearns : ∀ r : Registry, r.Learns (ask r).2) :
    InStep nodes marks words (fun _ => Eq) (askRegistry ask) (askRegistry ask) := by
  intro more w w' _ halike
  rw [askRegistry_eq, askRegistry_eq]
  refine ⟨more, List.Subset.refl _, ⟨halike.registry.learns (hlearns _) (hlearns _), halike.dom,
    halike.definitions⟩, ?_⟩
  dsimp only
  rw [hanswer halike.registry.first, hanswer halike.registry.second]
  exact ends_refl answer

theorem inStep_askInterpolation (source : String) :
    InStep nodes marks words (fun _ => Eq) (askRegistry (·.interpolation source))
      (askRegistry (·.interpolation source)) :=
  inStep_ask (fun h => (h.interpolation source).1) fun _ => .interpolation source .refl

theorem inStep_askExpression (source : String) :
    InStep nodes marks words (fun _ => Eq) (askRegistry (·.expression source))
      (askRegistry (·.expression source)) :=
  inStep_ask (fun h => (h.expression source).1) fun _ => .expression source .refl

theorem inStep_askHandler (source : String) :
    InStep nodes marks words (fun _ => Eq) (askRegistry (·.handler source))
      (askRegistry (·.handler source)) :=
  inStep_ask (fun h => (h.handler source).1) fun _ => .handler source .refl

theorem inStep_report (notice : Notice) :
    InStep nodes marks words (fun _ _ _ => True) (report notice) (report notice) :=
  inStep_modify fun _ h =>
    ⟨h.registry.learns (.report notice .refl) (.report notice .refl), h.dom, h.definitions⟩

theorem inStep_edit {change change' : Dom → Dom}
    (h : ∀ {more : Words} {d d' : Dom}, words ⊆ more → d.Alike more d' →
      (change d).Alike more (change' d')) :
    InStep nodes marks words (fun _ _ _ => True) (edit change) (edit change') :=
  inStep_modify fun hmore halike => ⟨halike.registry, h hmore halike.dom, halike.definitions⟩

theorem inStep_create {content content' : Content} (h : content.Alike words content') :
    InStep nodes marks words (fun _ => Eq) (create content) (create content') := by
  intro more w w' hmore halike
  obtain ⟨hdom, hid⟩ := halike.dom.create (h.mono hmore)
  exact ⟨more, List.Subset.refl _, ⟨halike.registry, hdom, halike.definitions⟩, .ok hid.symm⟩

theorem inStep_replace (old new : NodeId) :
    InStep nodes marks words (fun _ => Eq) (replace old new) (replace old new) := by
  intro more w w' _ halike
  obtain ⟨hdom, hplaced⟩ := halike.dom.replaceWith old new
  exact ⟨more, List.Subset.refl _, ⟨halike.registry, hdom, halike.definitions⟩, .ok hplaced.symm⟩

/-- The words that the two give out are paired. -/
theorem inStep_freshWord :
    InStep nodes marks words (fun more word word' => (word, word') ∈ more) freshWord freshWord := by
  intro more w w' _ halike
  have hmore : more ⊆ (uniqueText w.registry.stamps, uniqueText w'.registry.stamps) :: more :=
    List.subset_cons_self _ _
  exact ⟨_, hmore, ⟨halike.registry.share, halike.dom.mono hmore, halike.definitions.mono hmore⟩,
    .ok List.mem_cons_self⟩

/-- One definition, which has no directive. -/
def Plainly (definition definition' : NodeDefinition Blueprint) : Prop :=
  definition = definition' ∧ definition.directive = none

theorem inStep_nextDefinition :
    InStep nodes marks words (fun _ => Plainly) nextDefinition nextDefinition := by
  intro more w w' _ halike
  refine ⟨more, List.Subset.refl _, halike, .ok ⟨?_, rfl⟩⟩
  rw [halike.definitions.length]

theorem inStep_claim (node : NodeId) {definition definition' : NodeDefinition Blueprint}
    (h : NodeDefinition.AllAlike words [definition] [definition']) :
    InStep nodes marks words (fun _ _ _ => True) (claim node definition) (claim node definition') := by
  refine inStep_modify fun hmore halike => ⟨halike.registry, ?_, ?_⟩
  · rw [h.index]
    exact halike.dom.setMarker node _
  · exact halike.definitions.append (h.mono hmore)

theorem inStep_nested {build build' : Compile NodeId}
    (hbuild : InStep nodes marks words (fun _ => Eq) build build') :
    InStep nodes marks words Blueprint.Alike (nested build) (nested build') := by
  refine inStep_get fun {more w w'} hmore halike => ?_
  have hrest : InStep nodes marks more Blueprint.Alike
      (build >>= fun root => do
        let inner ← get
        report (.templateCompiled inner.definitions.length)
        modify fun v => { v with dom := w.dom, definitions := w.definitions }
        pure ⟨inner.dom, root, inner.definitions⟩)
      (build' >>= fun root => do
        let inner ← get
        report (.templateCompiled inner.definitions.length)
        modify fun v => { v with dom := w'.dom, definitions := w'.definitions }
        pure ⟨inner.dom, root, inner.definitions⟩) := by
    refine (hbuild.mono hmore).bind fun {most root _} hmost hroot => ?_
    subst hroot
    refine inStep_get fun {last inner inner'} hlast hinner => ?_
    have hnested : Blueprint.Alike last ⟨inner.dom, root, inner.definitions⟩
        ⟨inner'.dom, root, inner'.definitions⟩ := ⟨hinner.dom, rfl, hinner.definitions⟩
    have hsince : more ⊆ last := List.Subset.trans hmost hlast
    rw [hinner.definitions.length]
    refine InStep.bind (inStep_report _) (fun hnext _ => ?_) last inner inner'
      (List.Subset.refl _) hinner
    refine InStep.bind (inStep_modify fun hend hstate => ?_)
      fun hend _ => inStep_pure fun h => hnested.mono
        (List.Subset.trans hnext (List.Subset.trans hend h))
    have hlater := List.Subset.trans hsince (List.Subset.trans hnext hend)
    exact ⟨hstate.registry, halike.dom.mono hlater, halike.definitions.mono hlater⟩
  exact hrest more _ _ (List.Subset.refl _) ⟨halike.registry, .refl _, .nil⟩

/-! ### Attributes -/

variable {definition : NodeDefinition Blueprint} {node : NodeId} {a : Attribute}

/-- The same outcome, and a definition without a directive if there is one. -/
def PlainlyPrepared (prepared prepared' : Option (NodeDefinition Blueprint)) : Prop :=
  prepared = prepared' ∧ ∀ definition ∈ prepared, definition.directive = none

theorem inStep_prepareAttribute (hplain : definition.directive = none) (feature : Feature) :
    InStep nodes marks words (fun _ => PlainlyPrepared) (prepareAttribute definition node a feature)
      (prepareAttribute definition node a feature) := by
  have hnothing : InStep nodes marks words (fun _ => PlainlyPrepared)
      (pure none : Compile (Option (NodeDefinition Blueprint))) (pure none) :=
    inStep_pure fun _ => ⟨rfl, fun _ h => by cases h⟩
  have htaken : ∀ {words : Words} (made : NodeDefinition Blueprint), made.directive = none →
      InStep nodes marks words (fun _ => PlainlyPrepared)
        (do edit (·.eraseAttribute node a.name); pure (some made))
        (do edit (·.eraseAttribute node a.name); pure (some made)) := fun made hmade =>
    (inStep_edit fun _ h => h.eraseAttribute node a.name).bind fun _ _ =>
      inStep_pure fun _ => ⟨rfl, fun _ h => by cases h; exact hmade⟩
  cases feature with
  | reference => exact htaken _ hplain
  | event =>
      refine InStep.bind (P := fun _ => Eq) (InStep.tryCatch ?_ fun e _ => ?_) fun _ heq => ?_
      · exact (inStep_askHandler a.value).bind fun _ heq => inStep_pure fun _ => congrArg some heq
      · exact (inStep_report _).bind fun _ _ => inStep_pure fun _ => rfl
      · subst heq
        exact htaken _ hplain
  | binding =>
      refine (inStep_askInterpolation a.value).bind fun _ heq => ?_
      subst heq
      exact htaken _ hplain
  | upper =>
      refine (inStep_askExpression a.value).bind fun _ heq => ?_
      subst heq
      exact htaken _ hplain
  | text | conditional | scope | inner => exact hnothing

theorem inStep_offerAttribute (hplain : definition.directive = none) (features : List Feature) :
    InStep nodes marks words (fun _ => Plainly) (offerAttribute definition node a features)
      (offerAttribute definition node a features) := by
  induction features generalizing words with
  | nil => exact inStep_pure fun _ => ⟨rfl, hplain⟩
  | cons feature rest ih =>
      refine inStep_get fun {more w w'} _ halike => ?_
      rw [halike.accepts]
      split
      · refine InStep.bind (inStep_prepareAttribute hplain feature)
          (fun {_ prepared _} _ hprepared => ?_)
          more w w' (List.Subset.refl _) halike
        obtain ⟨rfl, hmade⟩ := hprepared
        cases prepared with
        | none => exact ih
        | some made =>
            refine inStep_pure fun _ => ⟨rfl, ?_⟩
            rw [claim_eq]
            exact hmade made rfl
      · exact ih more w w' (List.Subset.refl _) halike

theorem inStep_offerAttributes (attributes : List Attribute) (hplain : definition.directive = none) :
    InStep nodes marks words (fun _ => Plainly) (offerAttributes definition node attributes)
      (offerAttributes definition node attributes) := by
  induction attributes generalizing words definition with
  | nil => exact inStep_pure fun _ => ⟨rfl, hplain⟩
  | cons a rest ih =>
      refine inStep_get fun {more w w'} _ halike => ?_
      rw [halike.registry.first.attributeFeatures, halike.registry.second.attributeFeatures]
      refine InStep.bind (inStep_offerAttribute hplain marks) (fun _ hmade => ?_) more w w'
        (List.Subset.refl _) halike
      obtain ⟨rfl, hmade⟩ := hmade
      exact ih hmade

/-- No feature applies to an attribute that is an id. -/
theorem appliesTo_id (value : String) (feature : Feature) :
    feature.appliesTo ⟨"id", value⟩ = false := by
  have hif : Text.sameIgnoringAsciiCase "id" "*if" = false := by decide +kernel
  cases feature <;> simp [Feature.appliesTo, Attribute.isMarkedBy, hif]

theorem offerAttribute_id (value : String) (features : List Feature) :
    offerAttribute definition node ⟨"id", value⟩ features = pure definition := by
  induction features with
  | nil => rfl
  | cons feature rest ih =>
      funext w
      rw [offerAttribute, bind_eq]
      change (if feature.accepts (w.dom.content node) (some ⟨"id", value⟩) then _ else _ :
        Compile _) w = _
      rw [Feature.accepts, appliesTo_id, Bool.and_false, if_neg Bool.false_ne_true, ih]

theorem inStep_visitPlain (node : NodeId) :
    InStep nodes marks words (fun _ _ _ => True) (visitPlain node) (visitPlain node) := by
  refine inStep_get fun {more w w'} _ halike => ?_
  have hcontent := halike.dom.content node
  refine InStep.bind inStep_nextDefinition (fun _ hnext => ?_) more w w' (List.Subset.refl _) halike
  obtain ⟨rfl, hplain⟩ := hnext
  refine InStep.bind (P := fun _ => Plainly) ?_ fun _ hmade => ?_
  · generalize w.dom.content node = content at hcontent
    generalize w'.dom.content node = content' at hcontent
    cases hcontent with
    | same => exact inStep_offerAttributes _ hplain
    | placeholder k h =>
        simp only [Content.attributes, offerAttributes, offerAttribute_id]
        exact inStep_get fun _ halike =>
          InStep.bind (inStep_pure fun _ => ⟨rfl, hplain⟩) (fun _ h => inStep_pure fun _ => h) _ _ _
            (List.Subset.refl _) halike
  · obtain ⟨rfl, hmade⟩ := hmade
    split
    · exact inStep_claim node (.plain hmade .nil)
    · exact inStep_pure fun _ => trivial

/-- A text is set in both stores only after it was read there. -/
theorem meets_visitText {s : String} {w w' : Workbench} (halike : w.Alike nodes marks more w')
    (hs : w.dom.content node = .text s) :
    Meets nodes marks more (fun _ _ _ => True) (visitText node s w) (visitText node s w') := by
  unfold visitText
  rw [bind_eq, bind_eq]
  change Meets _ _ _ _ ((if w.registry.nodeFeatures.any _ then _ else _ : Compile Unit) w)
    ((if w'.registry.nodeFeatures.any _ then _ else _ : Compile Unit) w')
  rw [halike.registry.first.nodeFeatures, halike.registry.second.nodeFeatures]
  split
  · change Meets _ _ _ _
      ((askRegistry (·.interpolation s) >>= fun i => edit (·.setTextContent node "") >>= fun _ =>
        claim node (.ofText w.definitions.length i)) w)
      ((askRegistry (·.interpolation s) >>= fun i => edit (·.setTextContent node "") >>= fun _ =>
        claim node (.ofText w'.definitions.length i)) w')
    rw [bind_eq, bind_eq, askRegistry_eq, askRegistry_eq,
      (halike.registry.first.interpolation s).1, (halike.registry.second.interpolation s).1,
      halike.definitions.length]
    have hregistry : (w.registry.interpolation s).2.Paired nodes marks more
        (w'.registry.interpolation s).2 :=
      halike.registry.learns (.interpolation s .refl) (.interpolation s .refl)
    cases Interpolation.compile s with
    | error e =>
        exact ⟨more, List.Subset.refl _, ⟨hregistry, halike.dom, halike.definitions⟩, .error e⟩
    | ok i =>
        exact inStep_claim node (.plain rfl .nil) more _ _ (List.Subset.refl _)
          ⟨hregistry, halike.dom.setTextContent hs "", halike.definitions⟩
  · exact ⟨more, List.Subset.refl _, halike, .ok trivial⟩

/-! ### Directives -/

/-- A template of its own is made from a copy of a node: `place` puts the copy where it belongs, and
`build` compiles it and answers with the root. -/
theorem inStep_nestedCopy (node : NodeId) (place : Dom → NodeId → NodeId → Dom)
    (build : Dom → NodeId → NodeId → Compile NodeId)
    (hplace : ∀ {more : Words} {d d' : Dom} (copy root : NodeId), d.Alike more d' →
      (place d copy root).Alike more (place d' copy root))
    (hbuild : ∀ {more : Words} {d d' : Dom} (copy root : NodeId), d.Alike more d' →
      InStep nodes marks more (fun _ => Eq) (build d copy root) (build d' copy root)) :
    InStep nodes marks words Blueprint.Alike
      (get >>= fun w => nested (create .fragment >>= fun root => get >>= fun v =>
        let made := v.dom.importFrom w.dom node
        let dom := place made.1 made.2.root root
        edit (fun _ => dom) >>= fun _ => build dom made.2.root root))
      (get >>= fun w => nested (create .fragment >>= fun root => get >>= fun v =>
        let made := v.dom.importFrom w.dom node
        let dom := place made.1 made.2.root root
        edit (fun _ => dom) >>= fun _ => build dom made.2.root root)) := by
  refine inStep_get fun {more w w'} _ halike => ?_
  refine inStep_nested ?_ more w w' (List.Subset.refl _) halike
  refine InStep.bind (inStep_create (.same _)) fun {most root _} hmost hroot => ?_
  subst hroot
  refine inStep_get fun {last v v'} hlast hv => ?_
  obtain ⟨himport, hcopy⟩ := hv.dom.importFrom (halike.dom.mono (List.Subset.trans hmost hlast)) node
  have hdom := hplace (v.dom.importFrom w.dom node).2.root root himport
  rw [hcopy]
  exact InStep.bind (inStep_edit fun hnext _ => hdom.mono hnext)
    (fun hnext _ => hbuild _ root (hdom.mono hnext)) last v v' (List.Subset.refl _) hv

section Directives

variable {inside : List NodeId → Compile Unit}
  (hinside : ∀ ids, InStep nodes marks [] (fun _ _ _ => True) (inside ids) (inside ids))

include hinside

theorem inStep_inside (ids : List NodeId) (root : NodeId) :
    InStep nodes marks words (fun _ => Eq) (inside ids >>= fun _ => pure root)
      (inside ids >>= fun _ => pure root) :=
  ((hinside ids).mono (List.nil_subset _)).bind fun _ _ => inStep_pure fun _ => rfl

theorem inStep_nestedElement (node : NodeId) (directive : String) :
    InStep nodes marks words Blueprint.Alike (nestedElement inside node directive)
      (nestedElement inside node directive) := by
  refine inStep_nestedCopy node
    (fun d copy root => (d.eraseAttribute copy directive).appendChild root copy)
    (fun d copy root => visitPlain copy >>= fun _ => inside (d.children copy) >>= fun _ => pure root)
    (fun copy root h => (h.eraseAttribute copy directive).appendChild root copy)
    fun copy root h => (inStep_visitPlain copy).bind fun _ _ => ?_
  rw [h.children]
  exact inStep_inside hinside _ root

theorem inStep_nestedChildren (node : NodeId) (directive : String) :
    InStep nodes marks words Blueprint.Alike (nestedChildren inside node directive)
      (nestedChildren inside node directive) := by
  refine inStep_nestedCopy node
    (fun d copy root => (d.eraseAttribute copy directive).moveChildren copy root)
    (fun d _ root => inside (d.children root) >>= fun _ => pure root)
    (fun copy root h => (h.eraseAttribute copy directive).moveChildren copy root)
    fun copy root h => ?_
  rw [h.children]
  exact inStep_inside hinside _ root

/-- The same place, and a definition that says the same but for the ids. -/
def Prepared (words : Words) (prepared prepared' : Option (NodeDefinition Blueprint × NodeId)) : Prop :=
  Option.Rel (fun made made' => NodeDefinition.AllAlike words [made.1] [made'.1] ∧ made.2 = made'.2)
    prepared prepared'

omit hinside in
theorem inStep_bindWord (definition : NodeDefinition Blueprint) (node : NodeId) (a : Attribute)
    (kind : String) {blueprint blueprint' : Blueprint} (h : blueprint.Alike words blueprint') :
    InStep nodes marks words Prepared (bindWord definition node a kind blueprint)
      (bindWord definition node a kind blueprint') := by
  refine InStep.bind (inStep_create (.same _)) fun {most anchor _} hmost hanchor => ?_
  subst hanchor
  refine InStep.bind (inStep_replace node anchor) fun {last placed _} hlast hplaced => ?_
  subst hplaced
  split
  · refine (inStep_askExpression "true").bind fun {next guard _} hnext hguard => ?_
    subst hguard
    refine inStep_pure fun hend => .some ⟨?_, rfl⟩
    have hlater := h.mono (List.Subset.trans hmost
      (List.Subset.trans hlast (List.Subset.trans hnext hend)))
    exact .directive (.bound kind a.value) hlater.dom hlater.root hlater.definitions .nil
  · exact inStep_pure fun _ => .none

theorem inStep_prepareDirective (definition : NodeDefinition Blueprint) (node : NodeId)
    (a : Attribute) (feature : Feature) :
    InStep nodes marks words Prepared (prepareDirective inside definition node a feature)
      (prepareDirective inside definition node a feature) := by
  cases feature with
  | conditional =>
      rw [prepareDirective_conditional]
      refine InStep.bind (P := fun _ => Eq) ?_ fun {more guard _} _ hguard => ?_
      · split
        · exact inStep_askInterpolation a.value
        · exact inStep_askExpression a.value
      subst hguard
      refine (inStep_nestedElement hinside node a.name).bind fun {most b b'} _ hnested => ?_
      refine inStep_freshWord.bind fun {last word word'} hlast hword => ?_
      refine InStep.bind (inStep_create (.placeholder definition.index hword))
        fun {next placeholder _} hnext hplaceholder => ?_
      subst hplaceholder
      refine (inStep_replace node placeholder).bind fun {final placed _} hfinal hplaced => ?_
      subst hplaced
      split
      · refine inStep_pure fun hend => .some ⟨?_, rfl⟩
        have hsince := List.Subset.trans hnext (List.Subset.trans hfinal hend)
        have hlater := hnested.mono (List.Subset.trans hlast hsince)
        exact .directive (.generated (hsince hword)) hlater.dom hlater.root hlater.definitions .nil
      · exact inStep_pure fun _ => .none
  | scope =>
      exact (inStep_nestedElement hinside node a.name).bind fun _ hnested =>
        inStep_bindWord definition node a "scope" hnested
  | inner =>
      exact (inStep_nestedChildren hinside node a.name).bind fun _ hnested =>
        inStep_bindWord definition node a "inner" hnested
  | text | reference | event | binding | upper => exact inStep_pure fun _ => .none

theorem inStep_offerDirective (definition : NodeDefinition Blueprint) (node : NodeId)
    (a : Attribute) (features : List Feature) :
    InStep nodes marks words (fun _ _ _ => True) (offerDirective inside definition node a features)
      (offerDirective inside definition node a features) := by
  induction features generalizing words with
  | nil => exact inStep_throw _
  | cons feature rest ih =>
      refine inStep_get fun {more w w'} _ halike => ?_
      rw [halike.accepts]
      split
      · refine InStep.bind (inStep_prepareDirective hinside definition node a feature)
          (fun _ hprepared => ?_) more w w' (List.Subset.refl _) halike
        cases hprepared with
        | none => exact ih
        | @some made made' h =>
            obtain ⟨made, place⟩ := made
            obtain ⟨made', place'⟩ := made'
            obtain ⟨hmade, rfl⟩ := h
            exact inStep_claim _ (hmade.claim feature)
      · exact ih more w w' (List.Subset.refl _) halike

theorem inStep_visitDirective (node : NodeId) (kept : Attribute) (discarded : List Attribute) :
    InStep nodes marks words (fun _ _ _ => True) (visitDirective inside node kept discarded)
      (visitDirective inside node kept discarded) := by
  have hoffer : ∀ {words : Words} (definition : NodeDefinition Blueprint),
      InStep nodes marks words (fun _ _ _ => True)
        (do offerDirective inside definition node kept (← get).registry.nodeFeatures)
        (do offerDirective inside definition node kept (← get).registry.nodeFeatures) := by
    intro words definition
    refine inStep_get fun {more w w'} _ halike => ?_
    rw [halike.registry.first.nodeFeatures, halike.registry.second.nodeFeatures]
    exact inStep_offerDirective hinside definition node kept nodes more w w' (List.Subset.refl _) halike
  refine inStep_nextDefinition.bind fun _ hnext => ?_
  obtain ⟨rfl, -⟩ := hnext
  dsimp only
  split
  · exact (inStep_report _).bind fun _ _ =>
      InStep.bind (inStep_edit fun _ h =>
        Dom.Alike.foldl (fun a h => h.eraseAttribute node a.name) discarded h) fun _ _ => hoffer _
  · exact hoffer _

end Directives

/-! ### The walk -/

theorem not_isDirective_id (value : String) :
    [(⟨"id", value⟩ : Attribute)].filter (·.isDirective) = [] := by
  simp [Attribute.isDirective]

mutual

theorem inStep_walk : ∀ (tree : Tree) (node : NodeId),
    InStep nodes marks [] (fun _ _ _ => True) (walk tree node) (walk tree node)
  | .node _ _ below, node => by
      rw [walk]
      refine inStep_get fun {more w w'} _ halike => ?_
      have hbelow : ∀ {words : Words}, InStep nodes marks words (fun _ _ _ => True)
          (do walkAll below ((← get).dom.children node))
          (do walkAll below ((← get).dom.children node)) := by
        intro words
        refine inStep_get fun {most v v'} _ hv => ?_
        rw [hv.dom.children]
        exact inStep_walkAll below _ most v v' (List.nil_subset _) hv
      have hplain := InStep.bind (inStep_visitPlain node) (fun _ _ => hbelow) more w w'
        (List.Subset.refl _) halike
      have hcontent := halike.dom.content node
      generalize hs : w.dom.content node = content at hcontent
      generalize w'.dom.content node = content' at hcontent
      cases hcontent with
      | placeholder k h =>
          simp only [not_isDirective_id]
          exact hplain
      | same =>
          cases content with
          | text s => exact meets_visitText halike hs
          | comment s => exact inStep_pure (fun _ => trivial) more w w' (List.Subset.refl _) halike
          | fragment => exact hbelow more w w' (List.Subset.refl _) halike
          | element tag attributes =>
              dsimp only
              cases attributes.filter (·.isDirective) with
              | nil => exact hplain
              | cons kept discarded =>
                  exact inStep_visitDirective (inStep_walkAll below) node kept discarded more w w'
                    (List.Subset.refl _) halike

theorem inStep_walkAll : ∀ (trees : List Tree) (ids : List NodeId),
    InStep nodes marks [] (fun _ _ _ => True) (walkAll trees ids) (walkAll trees ids)
  | [], ids => by
      rw [walkAll]
      · exact inStep_pure fun _ => trivial
      · intro _ _ _ _ hfalse
        cases hfalse
  | tree :: trees, [] => by
      rw [walkAll]
      · exact inStep_pure fun _ => trivial
      · intro _ _ _ _ _ hfalse
        cases hfalse
  | tree :: trees, id :: ids => by
      rw [walkAll]
      exact (inStep_walk tree id).bind fun hmore _ => (inStep_walkAll trees ids).mono hmore

end

end Compile

end LiveMarkup
