import LiveMarkup.Template.Registry

/-!
The caches that compilation fills. `Cached` says what one look into a cache can do, and `Learns` what
a whole compilation can do to a registry, so what a registry keeps up is shown for one step of it.
-/

namespace LiveMarkup.Registry

variable {nodes marks : List Feature} {r r' r'' : Registry} {source : String}

/-! ### One look into a cache -/

section Cached

variable {α : Type}

/-- What comes of asking `cache` for a source: it is held already, does not compile, or is compiled
and kept. -/
inductive Cached (r : Registry) (cache : Dict (Shared α))
    (keep : Registry → Dict (Shared α) → Registry) (compile : String → Except CompileError α)
    (source : String) : Except CompileError (Shared α) × Registry → Prop
  | held {held : Shared α} (hget : cache.get? source = some held) :
      Cached r cache keep compile source (.ok held, r)
  | failed {e : CompileError} (hget : cache.get? source = none) (herror : compile source = .error e) :
      Cached r cache keep compile source (.error e, r)
  | made {value : α} (hget : cache.get? source = none) (hvalue : compile source = .ok value) :
      Cached r cache keep compile source
        (.ok ⟨r.stamps, value⟩,
          keep { r with stamps := r.stamps + 1 } (cache.insert source ⟨r.stamps, value⟩))

theorem cached_cases (r : Registry) (cache : Dict (Shared α))
    (keep : Registry → Dict (Shared α) → Registry) (compile : String → Except CompileError α)
    (source : String) :
    Cached r cache keep compile source (r.cached cache keep compile source) := by
  unfold cached
  split
  · exact .held ‹_›
  · split
    · exact .failed ‹_› ‹_›
    · exact .made ‹_› ‹_›

/-- Every entry of a cache is what its source compiles to. -/
def Holds (cache : Dict (Shared α)) (compile : String → Except CompileError α) : Prop :=
  ∀ source held, cache.get? source = some held → compile source = .ok held.value

theorem Holds.insert {cache : Dict (Shared α)} {compile : String → Except CompileError α}
    (h : Holds cache compile) {made : Shared α} (hmade : compile source = .ok made.value) :
    Holds (cache.insert source made) compile := by
  intro other held hget
  rw [Dict.get?_insert] at hget
  split at hget
  · cases hget
    subst other
    exact hmade
  · exact h other held hget

variable {cache : Dict (Shared α)} {keep : Registry → Dict (Shared α) → Registry}
  {compile : String → Except CompileError α}

/-- The answer is what the source compiles to, wherever it comes from. -/
theorem cached_answer (hheld : Holds cache compile) :
    (r.cached cache keep compile source).1.map (·.value) = compile source := by
  generalize hresult : r.cached cache keep compile source = result
  cases hresult ▸ r.cached_cases cache keep compile source with
  | held hget => exact (hheld source _ hget).symm
  | failed _ herror => exact herror.symm
  | made _ hvalue => exact hvalue.symm

/-- What holds of a registry holds after the look, if it holds when an entry is added. -/
theorem cached_induct {P : Registry → Prop} (hr : P r)
    (hmade : ∀ value, cache.get? source = none → compile source = .ok value →
      P (keep { r with stamps := r.stamps + 1 } (cache.insert source ⟨r.stamps, value⟩))) :
    P (r.cached cache keep compile source).2 := by
  generalize hresult : r.cached cache keep compile source = result
  cases hresult ▸ r.cached_cases cache keep compile source with
  | held | failed => exact hr
  | made hget hvalue => exact hmade _ hget hvalue

end Cached

/-! ### What a registry keeps up -/

/-- A registry of given features whose caches hold what their sources compile to. -/
structure Faithful (nodes marks : List Feature) (r : Registry) : Prop where
  nodeFeatures : r.nodeFeatures = nodes
  attributeFeatures : r.attributeFeatures = marks
  interpolations : Holds r.interpolations Interpolation.compile
  expressions : Holds r.expressions Interpolation.compileBare
  handlers : Holds r.handlers Handler.compile

theorem ofFeatures_faithful (nodes marks : List Feature) :
    (ofFeatures nodes marks).Faithful nodes marks where
  nodeFeatures := rfl
  attributeFeatures := rfl
  interpolations _ _ h := by cases h
  expressions _ _ h := by cases h
  handlers _ _ h := by cases h

/-- Templates, stamps and notices are not what a registry is faithful by. -/
theorem Faithful.adorn (h : r.Faithful nodes marks) (templates : Dict (Shared Blueprint))
    (stamps : Nat) (notices : Array Notice) :
    { r with templates, stamps, notices }.Faithful nodes marks :=
  ⟨h.nodeFeatures, h.attributeFeatures, h.interpolations, h.expressions, h.handlers⟩

theorem Faithful.interpolation (h : r.Faithful nodes marks) (source : String) :
    (r.interpolation source).1.map (·.value) = Interpolation.compile source ∧
      (r.interpolation source).2.Faithful nodes marks :=
  ⟨cached_answer h.interpolations, cached_induct h fun _ _ hvalue =>
    ⟨h.nodeFeatures, h.attributeFeatures, h.interpolations.insert hvalue, h.expressions, h.handlers⟩⟩

theorem Faithful.expression (h : r.Faithful nodes marks) (source : String) :
    (r.expression source).1.map (·.value) = Interpolation.compileBare source ∧
      (r.expression source).2.Faithful nodes marks :=
  ⟨cached_answer h.expressions, cached_induct h fun _ _ hvalue =>
    ⟨h.nodeFeatures, h.attributeFeatures, h.interpolations, h.expressions.insert hvalue, h.handlers⟩⟩

theorem Faithful.handler (h : r.Faithful nodes marks) (source : String) :
    (r.handler source).1.map (·.value) = Handler.compile source ∧
      (r.handler source).2.Faithful nodes marks :=
  ⟨cached_answer h.handlers, cached_induct h fun _ _ hvalue =>
    ⟨h.nodeFeatures, h.attributeFeatures, h.interpolations, h.expressions, h.handlers.insert hvalue⟩⟩

/-! ### What compilation can do to a registry -/

/-- A registry that was asked for texts, guards and handlers, gave out stamps and made reports. -/
inductive Learns (r : Registry) : Registry → Prop
  | refl : Learns r r
  | report (notice : Notice) {r' : Registry} (h : Learns r r') : Learns r (r'.report notice)
  | share {r' : Registry} (h : Learns r r') : Learns r (r'.share ()).2
  | interpolation (source : String) {r' : Registry} (h : Learns r r') :
      Learns r (r'.interpolation source).2
  | expression (source : String) {r' : Registry} (h : Learns r r') :
      Learns r (r'.expression source).2
  | handler (source : String) {r' : Registry} (h : Learns r r') : Learns r (r'.handler source).2

theorem Learns.trans (h : r.Learns r') (h' : r'.Learns r'') : r.Learns r'' := by
  induction h' with
  | refl => exact h
  | report notice _ ih => exact ih.report notice
  | share _ ih => exact ih.share
  | interpolation source _ ih => exact ih.interpolation source
  | expression source _ ih => exact ih.expression source
  | handler source _ ih => exact ih.handler source

theorem Learns.faithful (h : r.Learns r') (hr : r.Faithful nodes marks) :
    r'.Faithful nodes marks := by
  induction h with
  | refl => exact hr
  | report notice _ ih => exact ih.adorn _ _ _
  | share _ ih => exact ih.adorn _ _ _
  | interpolation source _ ih => exact (ih.interpolation source).2
  | expression source _ ih => exact (ih.expression source).2
  | handler source _ ih => exact (ih.handler source).2

theorem Learns.templates (h : r.Learns r') : r'.templates = r.templates := by
  induction h with
  | refl => rfl
  | report _ _ ih => exact ih
  | share _ ih => exact ih
  | interpolation _ _ ih | expression _ _ ih | handler _ _ ih =>
      exact cached_induct (P := fun r' => r'.templates = r.templates) ih fun _ _ _ => ih

theorem Learns.stamps_le (h : r.Learns r') : r.stamps ≤ r'.stamps := by
  induction h with
  | refl => exact Nat.le_refl _
  | report _ _ ih => exact ih
  | share _ ih => exact Nat.le_trans ih (Nat.le_succ _)
  | interpolation _ _ ih | expression _ _ ih | handler _ _ ih =>
      exact cached_induct (P := fun r' => r.stamps ≤ r'.stamps) ih fun _ _ _ =>
        Nat.le_trans ih (Nat.le_succ _)

end LiveMarkup.Registry
