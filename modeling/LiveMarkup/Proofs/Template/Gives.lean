import LiveMarkup.Proofs.Template.Sketch

/-!
What the steps of a compilation give. A compilation that succeeds succeeds at every step.
-/

namespace LiveMarkup.Compile

variable {α β : Type} {w w' w'' : Workbench}

/-- A step succeeds with `a` and leads from one workbench to another. -/
def Gives (m : Compile α) (w : Workbench) (a : α) (w' : Workbench) : Prop :=
  m w = (.ok a, w')

theorem bind_eq (m : Compile α) (f : α → Compile β) (w : Workbench) :
    (m >>= f) w =
      match m w with
      | (.ok a, w') => f a w'
      | (.error e, w') => (.error e, w') := by
  change (ExceptT.bindCont f (m w).1) (m w).2 = _
  generalize m w = result
  obtain ⟨_ | _, _⟩ := result <;> rfl

theorem gives_bind {m : Compile α} {f : α → Compile β} {b : β} :
    Gives (m >>= f) w b w'' ↔ ∃ a w', Gives m w a w' ∧ Gives (f a) w' b w'' := by
  unfold Gives
  rw [bind_eq]
  constructor
  · intro h
    split at h
    · rename_i a w' heq
      exact ⟨a, w', heq, h⟩
    · cases h
  · rintro ⟨a, w', hfirst, hrest⟩
    rw [hfirst]
    exact hrest

@[simp]
theorem gives_pure {a b : α} : Gives (pure a) w b w' ↔ a = b ∧ w = w' := by
  change ((.ok a, w) : Except CompileError α × Workbench) = (.ok b, w') ↔ _
  simp

@[simp]
theorem gives_get {v : Workbench} : Gives (get : Compile Workbench) w v w' ↔ w = v ∧ w = w' := by
  change ((.ok w, w) : Except CompileError Workbench × Workbench) = (.ok v, w') ↔ _
  simp

@[simp]
theorem gives_set {v : Workbench} {u : PUnit} : Gives (set v : Compile PUnit) w u w' ↔ w' = v := by
  change ((.ok PUnit.unit, v) : Except CompileError PUnit × Workbench) = (.ok u, w') ↔ _
  simp [eq_comm]

@[simp]
theorem gives_modify {f : Workbench → Workbench} {u : PUnit} :
    Gives (modify f : Compile PUnit) w u w' ↔ w' = f w := by
  change ((.ok PUnit.unit, f w) : Except CompileError PUnit × Workbench) = (.ok u, w') ↔ _
  simp [eq_comm]

@[simp]
theorem not_gives_throw {e : CompileError} {a : α} : ¬ Gives (throw e : Compile α) w a w' := by
  intro h
  change ((.error e, w) : Except CompileError α × Workbench) = (.ok a, w') at h
  cases h

theorem tryCatch_eq (m : Compile α) (handle : CompileError → Compile α) (w : Workbench) :
    (tryCatch m handle) w =
      match m w with
      | (.ok a, w') => (.ok a, w')
      | (.error e, w') => handle e w' := by
  change ExceptT.tryCatch m handle w = _
  unfold ExceptT.tryCatch ExceptT.mk
  simp only [bind, StateT.bind]
  generalize m w = result
  obtain ⟨_ | _, _⟩ := result <;> rfl

/-- A step that is caught gives its own result or that of the handler. -/
theorem gives_tryCatch {m : Compile α} {handle : CompileError → Compile α} {a : α}
    (h : Gives (tryCatch m handle) w a w') :
    Gives m w a w' ∨ ∃ e w'', m w = (.error e, w'') ∧ Gives (handle e) w'' a w' := by
  unfold Gives at h ⊢
  rw [tryCatch_eq] at h
  split at h
  · rename_i heq
    exact Or.inl (heq.trans h)
  · rename_i e w'' heq
    exact Or.inr ⟨e, w'', heq, h⟩

end LiveMarkup.Compile
