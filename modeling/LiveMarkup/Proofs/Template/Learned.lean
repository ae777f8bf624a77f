import LiveMarkup.Proofs.Template.Walk

/-!
What a compilation does to its registry, whether it succeeds or fails. Every step of it only makes the
registry learn, so no proof about the caches goes through the walk again.
-/

namespace LiveMarkup.Compile

variable {α β : Type}

/-- Whatever comes of a compilation, the registry has only learned. -/
def Learns (m : Compile α) : Prop :=
  ∀ w : Workbench, w.registry.Learns (m w).2.registry

theorem learns_bind {m : Compile α} {f : α → Compile β} (hm : Learns m) (hf : ∀ a, Learns (f a)) :
    Learns (m >>= f) := by
  intro w
  have hfirst := hm w
  rw [bind_eq]
  split
  · rename_i a w' heq
    rw [heq] at hfirst
    exact hfirst.trans (hf a w')
  · rename_i e w' heq
    rwa [heq] at hfirst

theorem learns_of_registry {m : Compile α} (h : ∀ w, (m w).2.registry = w.registry) : Learns m :=
  fun w => by rw [h w]; exact .refl

theorem learns_pure (a : α) : Learns (pure a : Compile α) :=
  learns_of_registry fun _ => rfl

theorem learns_get : Learns (get : Compile Workbench) :=
  learns_of_registry fun _ => rfl

theorem learns_throw (e : CompileError) : Learns (throw e : Compile α) :=
  learns_of_registry fun _ => rfl

theorem learns_edit (change : Dom → Dom) : Learns (edit change) :=
  learns_of_registry fun _ => rfl

theorem learns_create (content : Content) : Learns (create content) :=
  learns_of_registry fun _ => rfl

theorem learns_replace (old new : NodeId) : Learns (replace old new) :=
  learns_of_registry fun _ => rfl

theorem learns_claim (node : NodeId) (definition : NodeDefinition Blueprint) :
    Learns (claim node definition) :=
  learns_of_registry fun _ => rfl

theorem learns_nextDefinition : Learns nextDefinition :=
  learns_of_registry fun _ => rfl

theorem learns_report (notice : Notice) : Learns (report notice) :=
  fun _ => .report notice .refl

theorem learns_freshWord : Learns freshWord :=
  fun _ => .share .refl

theorem learns_askRegistry {ask : Registry → Except CompileError (Shared α) × Registry}
    (h : ∀ r : Registry, r.Learns (ask r).2) : Learns (askRegistry ask) := by
  intro w
  rw [askRegistry_eq]
  exact h w.registry

theorem learns_askInterpolation (source : String) : Learns (askRegistry (·.interpolation source)) :=
  learns_askRegistry fun _ => .interpolation source .refl

theorem learns_askExpression (source : String) : Learns (askRegistry (·.expression source)) :=
  learns_askRegistry fun _ => .expression source .refl

theorem learns_askHandler (source : String) : Learns (askRegistry (·.handler source)) :=
  learns_askRegistry fun _ => .handler source .refl

theorem learns_nested {build : Compile NodeId} (h : Learns build) : Learns (nested build) := by
  intro w
  have hrest : Learns (build >>= fun root => do
      let inner ← get
      report (.templateCompiled inner.definitions.length)
      modify fun v => { v with dom := w.dom, definitions := w.definitions }
      pure (⟨inner.dom, root, inner.definitions⟩ : Blueprint)) :=
    learns_bind h fun _ => learns_bind learns_get fun _ => learns_bind (learns_report _) fun _ =>
      learns_bind (learns_of_registry fun _ => rfl) fun _ => learns_pure _
  exact hrest { w with dom := Dom.empty, definitions := [] }

theorem learns_tryCatch {m : Compile α} {handle : CompileError → Compile α} (hm : Learns m)
    (hhandle : ∀ e, Learns (handle e)) : Learns (tryCatch m handle) := by
  intro w
  have hfirst := hm w
  rw [tryCatch_eq]
  split
  · rename_i heq
    rwa [heq] at hfirst
  · rename_i e w' heq
    rw [heq] at hfirst
    exact hfirst.trans (hhandle e w')

theorem learns_prepareAttribute (definition : NodeDefinition Blueprint) (node : NodeId)
    (a : Attribute) (feature : Feature) : Learns (prepareAttribute definition node a feature) := by
  cases feature with
  | reference => exact learns_bind (learns_edit _) fun _ => learns_pure _
  | event =>
      refine learns_bind (learns_tryCatch ?_ fun _ => ?_) fun _ =>
        learns_bind (learns_edit _) fun _ => learns_pure _
      · exact learns_bind (learns_askHandler _) fun _ => learns_pure _
      · exact learns_bind (learns_report _) fun _ => learns_pure _
  | binding =>
      exact learns_bind (learns_askInterpolation _) fun _ =>
        learns_bind (learns_edit _) fun _ => learns_pure _
  | upper =>
      exact learns_bind (learns_askExpression _) fun _ =>
        learns_bind (learns_edit _) fun _ => learns_pure _
  | text => exact learns_pure _
  | conditional => exact learns_pure _
  | scope => exact learns_pure _
  | inner => exact learns_pure _

theorem learns_offerAttribute (definition : NodeDefinition Blueprint) (node : NodeId)
    (a : Attribute) (features : List Feature) :
    Learns (offerAttribute definition node a features) := by
  induction features with
  | nil => exact learns_pure _
  | cons feature rest ih =>
      refine learns_bind learns_get fun w => ?_
      split
      · refine learns_bind (learns_prepareAttribute definition node a feature) fun prepared => ?_
        cases prepared with
        | none => exact ih
        | some definition => exact learns_pure _
      · exact ih

theorem learns_offerAttributes (node : NodeId) (attributes : List Attribute) :
    ∀ definition, Learns (offerAttributes definition node attributes) := by
  induction attributes with
  | nil => exact fun _ => learns_pure _
  | cons a rest ih =>
      exact fun definition => learns_bind learns_get fun _ =>
        learns_bind (learns_offerAttribute definition node a _) fun _ => ih _

theorem learns_visitPlain (node : NodeId) : Learns (visitPlain node) := by
  refine learns_bind learns_get fun _ => learns_bind learns_nextDefinition fun _ =>
    learns_bind (learns_offerAttributes node _ _) fun _ => ?_
  split
  · exact learns_claim _ _
  · exact learns_pure _

theorem learns_visitText (node : NodeId) (s : String) : Learns (visitText node s) := by
  refine learns_bind learns_get fun _ => ?_
  split
  · exact learns_bind learns_nextDefinition fun _ => learns_bind (learns_askInterpolation s) fun _ =>
      learns_bind (learns_edit _) fun _ => learns_claim _ _
  · exact learns_pure _

section Directives

variable {inside : List NodeId → Compile Unit}

theorem learns_nestedElement (hinside : ∀ ids, Learns (inside ids)) (node : NodeId)
    (directive : String) : Learns (nestedElement inside node directive) :=
  learns_bind learns_get fun _ => learns_nested <|
    learns_bind (learns_create _) fun _ => learns_bind learns_get fun _ =>
      learns_bind (learns_edit _) fun _ => learns_bind (learns_visitPlain _) fun _ =>
        learns_bind (hinside _) fun _ => learns_pure _

theorem learns_nestedChildren (hinside : ∀ ids, Learns (inside ids)) (node : NodeId)
    (directive : String) : Learns (nestedChildren inside node directive) :=
  learns_bind learns_get fun _ => learns_nested <|
    learns_bind (learns_create _) fun _ => learns_bind learns_get fun _ =>
      learns_bind (learns_edit _) fun _ => learns_bind (hinside _) fun _ => learns_pure _

theorem learns_bindWord (definition : NodeDefinition Blueprint) (node : NodeId) (a : Attribute)
    (kind : String) (blueprint : Blueprint) :
    Learns (bindWord definition node a kind blueprint) := by
  refine learns_bind (learns_create _) fun _ => learns_bind (learns_replace _ _) fun _ => ?_
  split
  · exact learns_bind (learns_askExpression _) fun _ => learns_pure _
  · exact learns_pure _

theorem learns_prepareDirective (hinside : ∀ ids, Learns (inside ids))
    (definition : NodeDefinition Blueprint) (node : NodeId) (a : Attribute) (feature : Feature) :
    Learns (prepareDirective inside definition node a feature) := by
  cases feature with
  | conditional =>
      rw [prepareDirective_conditional]
      refine learns_bind ?_ fun _ => learns_bind (learns_nestedElement hinside node a.name) fun _ =>
        learns_bind learns_freshWord fun _ => learns_bind (learns_create _) fun _ =>
          learns_bind (learns_replace _ _) fun _ => ?_
      · split
        · exact learns_askInterpolation _
        · exact learns_askExpression _
      · split
        · exact learns_pure _
        · exact learns_pure _
  | scope =>
      exact learns_bind (learns_nestedElement hinside node a.name) fun _ => learns_bindWord _ _ _ _ _
  | inner =>
      exact learns_bind (learns_nestedChildren hinside node a.name) fun _ => learns_bindWord _ _ _ _ _
  | text => exact learns_pure _
  | reference => exact learns_pure _
  | event => exact learns_pure _
  | binding => exact learns_pure _
  | upper => exact learns_pure _

theorem learns_offerDirective (hinside : ∀ ids, Learns (inside ids))
    (definition : NodeDefinition Blueprint) (node : NodeId) (a : Attribute)
    (features : List Feature) : Learns (offerDirective inside definition node a features) := by
  induction features with
  | nil => exact learns_throw _
  | cons feature rest ih =>
      refine learns_bind learns_get fun w => ?_
      split
      · refine learns_bind (learns_prepareDirective hinside definition node a feature)
          fun prepared => ?_
        cases prepared with
        | none => exact ih
        | some made => exact learns_claim _ _
      · exact ih

theorem learns_visitDirective (hinside : ∀ ids, Learns (inside ids)) (node : NodeId)
    (kept : Attribute) (discarded : List Attribute) :
    Learns (visitDirective inside node kept discarded) := by
  have hoffer : ∀ definition, Learns (do
      offerDirective inside definition node kept (← get).registry.nodeFeatures) := fun _ =>
    learns_bind learns_get fun _ => learns_offerDirective hinside _ node kept _
  refine learns_bind learns_nextDefinition fun definition => ?_
  dsimp only
  split
  · exact learns_bind (learns_report _) fun _ => learns_bind (learns_edit _) fun _ => hoffer definition
  · exact hoffer definition

end Directives

mutual

theorem learns_walk : ∀ (tree : Tree) (node : NodeId), Learns (walk tree node)
  | .node _ _ below, node => by
      rw [walk]
      refine learns_bind learns_get fun w => ?_
      split
      · exact learns_visitText node _
      · exact learns_pure _
      · exact learns_bind learns_get fun _ => learns_walkAll below _
      · split
        · exact learns_visitDirective (learns_walkAll below) node _ _
        · exact learns_bind (learns_visitPlain node) fun _ =>
            learns_bind learns_get fun _ => learns_walkAll below _

theorem learns_walkAll : ∀ (trees : List Tree) (nodes : List NodeId), Learns (walkAll trees nodes)
  | [], nodes => by
      rw [walkAll]
      · exact learns_pure _
      · intro _ _ _ _ hfalse
        cases hfalse
  | tree :: trees, [] => by
      rw [walkAll]
      · exact learns_pure _
      · intro _ _ _ _ _ hfalse
        cases hfalse
  | tree :: trees, node :: nodes => by
      rw [walkAll]
      exact learns_bind (learns_walk tree node) fun _ => learns_walkAll trees nodes

end

end LiveMarkup.Compile
