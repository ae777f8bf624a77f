import LiveMarkup.Proofs.Template.Lockstep
import Mathlib.Data.Finset.Card

/-!
A registry that is asked to compile one source after another. Its caches show in nothing but which
answers are one object: what a call gives is what a registry that knows nothing yet gives.
-/

namespace LiveMarkup

/-! ### Calls and their answers -/

/-- What a registry is asked to compile. -/
inductive Call where
  | compile (markup : String)
  | compileUncached (markup : String)
  | interpolation (source : String)
  | expression (source : String)
  | handler (source : String)
  deriving DecidableEq

/-- What a call gives when its source compiles. -/
inductive Made where
  | template (made : Shared Blueprint)
  | interpolation (made : Shared Interpolation)
  | handler (made : Shared Handler)

def Made.stamp : Made → Nat
  | template made => made.stamp
  | interpolation made => made.stamp
  | handler made => made.stamp

abbrev Answer := Except CompileError Made

namespace Call

def run : Call → Registry → Answer × Registry
  | compile markup, r => (r.compile markup).map (·.map .template) id
  | compileUncached markup, r => (r.compileUncached markup).map (·.map .template) id
  | interpolation source, r => (r.interpolation source).map (·.map .interpolation) id
  | expression source, r => (r.expression source).map (·.map .interpolation) id
  | handler source, r => (r.handler source).map (·.map .handler) id

/-- The call that keeps what a call could keep. -/
def cached : Call → Call
  | compileUncached markup => compile markup
  | call => call

def isCached (call : Call) : Bool :=
  call.cached = call

end Call

/-- What a registry holds for a call. -/
def Registry.held? (r : Registry) : Call → Option Made
  | .compile markup => (r.templates.get? markup).map .template
  | .compileUncached _ => none
  | .interpolation source => (r.interpolations.get? source).map .interpolation
  | .expression source => (r.expressions.get? source).map .interpolation
  | .handler source => (r.handlers.get? source).map .handler

/-- The same value, a template but for the ids of the elements that stand for conditional ones. -/
inductive Made.Alike (words : Words) : Made → Made → Prop
  | template {made made' : Shared Blueprint} (h : made.value.Alike words made'.value) :
      Alike words (.template made) (.template made')
  | interpolation {made made' : Shared Interpolation} (h : made.value = made'.value) :
      Alike words (.interpolation made) (.interpolation made')
  | handler {made made' : Shared Handler} (h : made.value = made'.value) :
      Alike words (.handler made) (.handler made')

/-- The same error, or the same value up to the words that were generated for it. -/
inductive Answer.Same : Answer → Answer → Prop
  | ok {made made' : Made} {words : Words} (hwords : words.OneToOne) (h : made.Alike words made') :
      Same (.ok made) (.ok made')
  | error (e : CompileError) : Same (.error e) (.error e)

/-- A registry, and the calls that it has answered, in order. -/
structure Session where
  log : List (Call × Answer)
  registry : Registry

namespace Session

def start (nodes marks : List Feature) : Session :=
  ⟨[], .ofFeatures nodes marks⟩

def ask (session : Session) (call : Call) : Session :=
  ⟨session.log ++ [(call, (call.run session.registry).1)], (call.run session.registry).2⟩

/-- The markup that was compiled for the cache, if one was. -/
def compiled? : Call × Answer → Option String
  | (.compile markup, .ok _) => some markup
  | _ => none

/-- The markups that were compiled for the cache. -/
def compiled (session : Session) : List String :=
  session.log.filterMap compiled?

/-- The caches are nowhere to be seen but in which objects are one. -/
structure Transparent (nodes marks : List Feature) (session : Session) : Prop where
  /-- Every answer is the one that a fresh registry gives. -/
  fresh : ∀ entry ∈ session.log,
    Answer.Same entry.2 (entry.1.run (.ofFeatures nodes marks)).1
  /-- A call that keeps its answer gives one object, from the first time it succeeds. -/
  shared : session.log.Pairwise fun first later => first.1 = later.1 → first.1.isCached = true →
    ∀ made, first.2 = .ok made → later.2 = .ok made
  /-- All other calls give objects of their own. -/
  apart : session.log.Pairwise fun first later => first.1 ≠ later.1 ∨ first.1.isCached = false →
    ∀ made made', first.2 = .ok made → later.2 = .ok made' → made.stamp ≠ made'.stamp
  /-- A call that fails leaves no entry for its source. -/
  unheld : ∀ entry ∈ session.log, ∀ e, entry.2 = .error e →
    session.registry.held? entry.1.cached = none
  /-- A call that fails fails with the same error ever after. -/
  failing : session.log.Pairwise fun first later => first.1 = later.1 →
    ∀ e, first.2 = .error e → later.2 = .error e
  /-- There are as many templates in the cache as there are markups that were compiled for it. -/
  size : session.registry.templates.size = session.compiled.toFinset.card

end Session

variable {nodes marks : List Feature} {r r' r'' : Registry} {call call' : Call} {made made' : Made}

/-! ### What one call does -/

/-- One more object was made, and is kept if the call keeps its answer. -/
structure Registry.Stores (r : Registry) (call : Call) (made : Made) (r' : Registry) : Prop where
  unheld : r.held? call = none
  stamp : made.stamp = r.stamps
  stamps : r'.stamps = r.stamps + 1
  held : ∀ other, r'.held? other =
    if other = call ∧ call.isCached = true then some made else r.held? other

namespace Registry

theorem map_get?_insert {α β : Type} (cache : Dict α) (wrap : α → β) (source other : String) (a : α) :
    ((cache.insert source a).get? other).map wrap =
      if other = source then some (wrap a) else (cache.get? other).map wrap := by
  rw [Dict.get?_insert]
  split <;> rfl

theorem held?_interpolation {source : String} (hget : r.interpolations.get? source = none) :
    r.held? (.interpolation source) = none := by
  rw [held?, hget, Option.map_none]

theorem held?_expression {source : String} (hget : r.expressions.get? source = none) :
    r.held? (.expression source) = none := by
  rw [held?, hget, Option.map_none]

theorem held?_handler {source : String} (hget : r.handlers.get? source = none) :
    r.held? (.handler source) = none := by
  rw [held?, hget, Option.map_none]

theorem held?_compile {markup : String} (hget : r.templates.get? markup = none) :
    r.held? (.compile markup) = none := by
  rw [held?, hget, Option.map_none]

theorem stores_interpolation {source : String} (hget : r.interpolations.get? source = none)
    (value : Interpolation) : r.Stores (.interpolation source) (.interpolation ⟨r.stamps, value⟩)
      { r with
        stamps := r.stamps + 1
        interpolations := r.interpolations.insert source ⟨r.stamps, value⟩ } := by
  refine ⟨held?_interpolation hget, rfl, rfl, fun other => ?_⟩
  cases other <;> simp [held?, map_get?_insert, Call.isCached, Call.cached]

theorem stores_expression {source : String} (hget : r.expressions.get? source = none)
    (value : Interpolation) : r.Stores (.expression source) (.interpolation ⟨r.stamps, value⟩)
      { r with
        stamps := r.stamps + 1
        expressions := r.expressions.insert source ⟨r.stamps, value⟩ } := by
  refine ⟨held?_expression hget, rfl, rfl, fun other => ?_⟩
  cases other <;> simp [held?, map_get?_insert, Call.isCached, Call.cached]

theorem stores_handler {source : String} (hget : r.handlers.get? source = none) (value : Handler) :
    r.Stores (.handler source) (.handler ⟨r.stamps, value⟩)
      { r with
        stamps := r.stamps + 1
        handlers := r.handlers.insert source ⟨r.stamps, value⟩ } := by
  refine ⟨held?_handler hget, rfl, rfl, fun other => ?_⟩
  cases other <;> simp [held?, map_get?_insert, Call.isCached, Call.cached]

theorem stores_compile {markup : String} (hget : r.templates.get? markup = none)
    (blueprint : Blueprint) (notices : Array Notice) :
    r.Stores (.compile markup) (.template ⟨r.stamps, blueprint⟩)
      { r with
        stamps := r.stamps + 1
        notices
        templates := r.templates.insert markup ⟨r.stamps, blueprint⟩ } := by
  refine ⟨held?_compile hget, rfl, rfl, fun other => ?_⟩
  cases other <;> simp [held?, map_get?_insert, Call.isCached, Call.cached]

theorem stores_compileUncached (r : Registry) (markup : String) (blueprint : Blueprint)
    (notices : Array Notice) :
    r.Stores (.compileUncached markup) (.template ⟨r.stamps, blueprint⟩)
      { r with
        stamps := r.stamps + 1
        notices } := by
  refine ⟨rfl, rfl, rfl, fun other => ?_⟩
  rw [if_neg (by simp [Call.isCached, Call.cached])]
  cases other <;> rfl

/-- What holds of a registry holds after it has learned, if it does not depend on reports, holds with
more stamps given out, and holds when an object is stored. -/
theorem Learns.induct {P : Registry → Prop} (h : r.Learns r') (hr : P r)
    (hmore : ∀ {r : Registry} (stamps : Nat) (notices : Array Notice), r.stamps ≤ stamps → P r →
      P { r with stamps, notices })
    (hstores : ∀ {r r' : Registry} {call : Call} {made : Made}, P r → r.Stores call made r' → P r') :
    P r' := by
  induction h with
  | refl => exact hr
  | report _ _ ih => exact hmore _ _ (Nat.le_refl _) ih
  | share _ ih => exact hmore _ _ (Nat.le_succ _) ih
  | interpolation _ _ ih =>
      exact cached_induct ih fun value hget _ => hstores ih (stores_interpolation hget value)
  | expression _ _ ih =>
      exact cached_induct ih fun value hget _ => hstores ih (stores_expression hget value)
  | handler _ _ ih =>
      exact cached_induct ih fun value hget _ => hstores ih (stores_handler hget value)

/-- What a registry holds it holds ever after. -/
theorem Learns.held (h : r.Learns r') (hheld : r.held? call = some made) :
    r'.held? call = some made := by
  refine h.induct (P := fun r' => r'.held? call = some made) hheld (fun _ _ _ h => ?_)
    fun {_ _ stored _} h hstores => ?_
  · cases call <;> exact h
  · rw [hstores.held, if_neg, h]
    rintro ⟨rfl, -⟩
    rw [hstores.unheld] at h
    cases h

/-- Uncached compilation fails, or makes a template that nothing holds. -/
theorem compileUncached_cases (r : Registry) (markup : String) :
    (∃ e r', r.Learns r' ∧ r.compileUncached markup = (.error e, r')) ∨
      ∃ blueprint notices r', r.Learns r' ∧ r.compileUncached markup =
        (.ok ⟨r'.stamps, blueprint⟩, { r' with stamps := r'.stamps + 1, notices }) := by
  unfold compileUncached
  split
  · exact .inl ⟨_, _, .refl, rfl⟩
  · rename_i d root _
    have hlearns := Compile.learns_walk (d.tree root) root ⟨r, d, []⟩
    unfold compileFragment
    split
    · rename_i hwalk
      rw [hwalk] at hlearns
      exact .inl ⟨_, _, hlearns, rfl⟩
    · rename_i hwalk
      rw [hwalk] at hlearns
      exact .inr ⟨_, _, _, hlearns, rfl⟩

end Registry

/-- A call finds its answer, fails, or makes an object. -/
inductive Call.Runs (r : Registry) (call : Call) : Answer × Registry → Prop
  | held {made : Made} (h : r.held? call = some made) : Runs r call (.ok made, r)
  | failed {e : CompileError} {r' : Registry} (h : r.held? call = none) (hlearns : r.Learns r') :
      Runs r call (.error e, r')
  | made {made : Made} {r' r'' : Registry} (hlearns : r.Learns r')
      (hstores : r'.Stores call made r'') : Runs r call (.ok made, r'')

namespace Call

/-- A call that asks one cache. -/
theorem cached_runs {α : Type} {cache : Dict (Shared α)} {keep : Registry → Dict (Shared α) → Registry}
    {compile : String → Except CompileError α} {source : String} {wrap : Shared α → Made}
    (hheld : r.held? call = (cache.get? source).map wrap)
    (hstores : cache.get? source = none → ∀ value, r.Stores call (wrap ⟨r.stamps, value⟩)
      (keep { r with stamps := r.stamps + 1 } (cache.insert source ⟨r.stamps, value⟩))) :
    Runs r call ((r.cached cache keep compile source).map (·.map wrap) id) := by
  generalize hresult : r.cached cache keep compile source = result
  cases hresult ▸ r.cached_cases cache keep compile source with
  | held hget => exact .held (by rw [hheld, hget]; rfl)
  | failed hget => exact .failed (by rw [hheld, hget]; rfl) .refl
  | made hget => exact .made .refl (hstores hget _)

theorem runs (call : Call) (r : Registry) : Runs r call (call.run r) := by
  cases call with
  | interpolation source =>
      rw [run, Registry.interpolation]
      refine cached_runs ?_ ?_
      · rfl
      · exact Registry.stores_interpolation
  | expression source =>
      rw [run, Registry.expression]
      refine cached_runs ?_ ?_
      · rfl
      · exact Registry.stores_expression
  | handler source =>
      rw [run, Registry.handler]
      refine cached_runs ?_ ?_
      · rfl
      · exact Registry.stores_handler
  | compileUncached markup =>
      rw [run]
      rcases r.compileUncached_cases markup with ⟨e, r', hlearns, heq⟩ |
        ⟨blueprint, notices, r', hlearns, heq⟩
      · rw [heq]
        exact .failed rfl hlearns
      · rw [heq]
        exact .made hlearns (r'.stores_compileUncached markup blueprint notices)
  | compile markup =>
      rw [run, Registry.compile]
      split
      · rename_i held hget
        exact .held (by rw [Registry.held?, hget]; rfl)
      · rename_i hget
        rcases r.compileUncached_cases markup with ⟨e, r', hlearns, heq⟩ |
          ⟨blueprint, notices, r', hlearns, heq⟩
        · rw [heq]
          exact .failed (Registry.held?_compile hget) hlearns
        · rw [heq]
          rw [← hlearns.templates] at hget
          exact .made hlearns (Registry.stores_compile hget blueprint notices)

theorem run_of_held (h : r.held? call = some made) : call.run r = (.ok made, r) := by
  generalize hresult : call.run r = result
  cases hresult ▸ call.runs r with
  | held h' =>
      cases h.symm.trans h'
      rfl
  | failed h' => cases h.symm.trans h'
  | made hlearns hstores => cases (hlearns.held h).symm.trans hstores.unheld

end Call

/-! ### Answers do not depend on what is known -/

namespace Answer

theorem Same.of_error {e : CompileError} {answer : Answer} (h : Answer.Same (.error e) answer) :
    answer = .error e := by
  cases h
  rfl

theorem Same.to_error {e : CompileError} {answer : Answer} (h : Answer.Same answer (.error e)) :
    answer = .error e := by
  cases h
  rfl

variable {α : Type} {wrap : Shared α → Made}

/-- One value is the same answer, whoever holds it. -/
theorem same_of_map_eq (hwrap : ∀ {a a' : Shared α}, a.value = a'.value →
      (wrap a).Alike [] (wrap a')) {x x' : Except CompileError (Shared α)}
    (h : x.map (·.value) = x'.map (·.value)) : Answer.Same (x.map wrap) (x'.map wrap) := by
  cases x with
  | error e =>
      cases x' with
      | error e' =>
          cases h
          exact .error e
      | ok a' => cases h
  | ok a =>
      cases x' with
      | error e' => cases h
      | ok a' => exact .ok .nil (hwrap (Except.ok.inj h))

end Answer

namespace Registry

theorem Paired.nil (h : r.Faithful nodes marks) (h' : r'.Faithful nodes marks) :
    r.Paired nodes marks [] r' :=
  ⟨h, h', fun _ hpair => (List.not_mem_nil hpair).elim, .nil⟩

theorem compileUncached_same (h : r.Faithful nodes marks) (h' : r'.Faithful nodes marks)
    (markup : String) : Answer.Same ((r.compileUncached markup).1.map .template)
      ((r'.compileUncached markup).1.map .template) := by
  unfold compileUncached
  split
  · exact .error _
  · rename_i d root _
    obtain ⟨words, -, halike, hends⟩ := Compile.inStep_walk (d.tree root) root [] ⟨r, d, []⟩
      ⟨r', d, []⟩ (List.Subset.refl _) ⟨.nil h h', .refl d, .nil⟩
    unfold compileFragment
    generalize Compile.walk (d.tree root) root ⟨r, d, []⟩ = result at halike hends
    generalize Compile.walk (d.tree root) root ⟨r', d, []⟩ = result' at halike hends
    obtain ⟨answer, w⟩ := result
    obtain ⟨answer', w'⟩ := result'
    cases hends with
    | error e => exact .error e
    | ok =>
        exact .ok halike.registry.oneToOne (.template ⟨halike.dom, rfl, halike.definitions⟩)

/-- Only calls for the template cache may depend on more than that the other caches are right. -/
theorem Faithful.same (h : r.Faithful nodes marks) (h' : r'.Faithful nodes marks)
    (hcall : ∀ markup, call ≠ .compile markup) : Answer.Same (call.run r).1 (call.run r').1 := by
  cases call with
  | interpolation source =>
      rw [Call.run, Call.run, Prod.map_fst, Prod.map_fst]
      exact Answer.same_of_map_eq .interpolation
        ((h.interpolation source).1.trans (h'.interpolation source).1.symm)
  | expression source =>
      rw [Call.run, Call.run, Prod.map_fst, Prod.map_fst]
      exact Answer.same_of_map_eq .interpolation
        ((h.expression source).1.trans (h'.expression source).1.symm)
  | handler source =>
      rw [Call.run, Call.run, Prod.map_fst, Prod.map_fst]
      exact Answer.same_of_map_eq .handler
        ((h.handler source).1.trans (h'.handler source).1.symm)
  | compileUncached markup => exact compileUncached_same h h' markup
  | compile markup => exact absurd rfl (hcall markup)

/-- A registry that answers every call as a fresh one would. -/
structure Recalls (nodes marks : List Feature) (r : Registry) : Prop where
  faithful : r.Faithful nodes marks
  templates : ∀ markup held, r.templates.get? markup = some held →
    Answer.Same (.ok (.template held))
      (((ofFeatures nodes marks).compileUncached markup).1.map .template)

theorem ofFeatures_recalls (nodes marks : List Feature) :
    (ofFeatures nodes marks).Recalls nodes marks :=
  ⟨ofFeatures_faithful nodes marks, fun _ _ hget => by cases hget⟩

theorem Recalls.learns (h : r.Recalls nodes marks) (hlearns : r.Learns r') :
    r'.Recalls nodes marks :=
  ⟨hlearns.faithful h.faithful, by rw [hlearns.templates]; exact h.templates⟩

theorem compile_of_error {markup : String} {e : CompileError} {r' : Registry}
    (hget : r.templates.get? markup = none) (h : r.compileUncached markup = (.error e, r')) :
    r.compile markup = (.error e, r') := by
  rw [compile, hget]
  dsimp only
  rw [h]

theorem compile_of_ok {markup : String} {made : Shared Blueprint} {r' : Registry}
    (hget : r.templates.get? markup = none) (h : r.compileUncached markup = (.ok made, r')) :
    r.compile markup = (.ok made, { r' with templates := r'.templates.insert markup made }) := by
  rw [compile, hget]
  dsimp only
  rw [h]

theorem compile_of_none {markup : String} (hget : r.templates.get? markup = none) :
    (r.compile markup).1 = (r.compileUncached markup).1 := by
  rcases h : r.compileUncached markup with ⟨e | made, r'⟩
  · rw [compile_of_error hget h]
  · rw [compile_of_ok hget h]

theorem Recalls.same (h : r.Recalls nodes marks) (call : Call) :
    Answer.Same (call.run r).1 (call.run (ofFeatures nodes marks)).1 := by
  have hfresh := ofFeatures_faithful nodes marks
  cases call with
  | compile markup =>
      change Answer.Same ((r.compile markup).1.map .template)
        (((ofFeatures nodes marks).compile markup).1.map .template)
      rw [compile_of_none (r := ofFeatures nodes marks) rfl]
      cases hget : r.templates.get? markup with
      | some held =>
          rw [compile, hget]
          exact h.templates markup held hget
      | none =>
          rw [compile_of_none hget]
          exact compileUncached_same h.faithful hfresh markup
  | interpolation | expression | handler | compileUncached =>
      exact h.faithful.same hfresh fun _ heq => by cases heq

theorem compileUncached_learns (r : Registry) (markup : String) :
    r.Learns (r.compileUncached markup).2 := by
  unfold compileUncached
  split
  · exact .refl
  · rename_i d root _
    have hlearns := Compile.learns_walk (d.tree root) root ⟨r, d, []⟩
    unfold compileFragment
    split
    · rename_i hwalk
      rwa [hwalk] at hlearns
    · rename_i hwalk
      rw [hwalk] at hlearns
      exact hlearns.share.report _

theorem run_learns (r : Registry) (hcall : ∀ markup, call ≠ .compile markup) :
    r.Learns (call.run r).2 := by
  cases call with
  | interpolation source =>
      rw [Call.run, Prod.map_snd, id]
      exact .interpolation source .refl
  | expression source =>
      rw [Call.run, Prod.map_snd, id]
      exact .expression source .refl
  | handler source =>
      rw [Call.run, Prod.map_snd, id]
      exact .handler source .refl
  | compileUncached markup => exact r.compileUncached_learns markup
  | compile markup => exact absurd rfl (hcall markup)

theorem Recalls.run (h : r.Recalls nodes marks) (call : Call) :
    (call.run r).2.Recalls nodes marks := by
  cases call with
  | interpolation | expression | handler | compileUncached =>
      exact h.learns (r.run_learns fun _ heq => by cases heq)
  | compile markup =>
      have huncached := h.learns (r.compileUncached_learns markup)
      have hsame := compileUncached_same h.faithful (ofFeatures_faithful nodes marks) markup
      change (r.compile markup).2.Recalls nodes marks
      unfold compile
      split
      · exact h
      · generalize r.compileUncached markup = result at huncached hsame
        obtain ⟨_ | made, r'⟩ := result
        · exact huncached
        · refine ⟨huncached.faithful.adorn _ _ _, fun other held hget => ?_⟩
          rw [Dict.get?_insert] at hget
          split at hget
          · subst other
            cases hget
            exact hsame
          · exact huncached.templates other held hget

end Registry

/-! ### Objects of their own -/

/-- What a call would be given, or was given by a log. -/
def Registry.Out (r : Registry) (log : List (Call × Answer)) (call : Call) (made : Made) : Prop :=
  r.held? call = some made ∨ (call, .ok made) ∈ log

/-- Objects that are out under different calls have different stamps. -/
structure Registry.Distinct (r : Registry) (log : List (Call × Answer)) : Prop where
  lt : ∀ {call : Call} {made : Made}, r.Out log call made → made.stamp < r.stamps
  unique : ∀ {call call' : Call} {made made' : Made}, r.Out log call made → r.Out log call' made' →
    made.stamp = made'.stamp → call = call'

namespace Registry

variable {log log' : List (Call × Answer)}

theorem Distinct.mono (h : r.Distinct log) (hle : r.stamps ≤ r'.stamps)
    (hout : ∀ call made, r'.Out log' call made → r.Out log call made) : r'.Distinct log' where
  lt hmade := Nat.lt_of_lt_of_le (h.lt (hout _ _ hmade)) hle
  unique hmade hmade' := h.unique (hout _ _ hmade) (hout _ _ hmade')

/-- A new object is out under the call that it was made for. -/
theorem Distinct.stores (h : r.Distinct log) (hstores : r.Stores call made r')
    (hlog : ∀ other made', (other, .ok made') ∈ log' →
      (other, .ok made') ∈ log ∨ other = call ∧ made' = made) : r'.Distinct log' := by
  have hout : ∀ {other made'}, r'.Out log' other made' →
      r.Out log other made' ∨ other = call ∧ made' = made := by
    rintro other made' (hheld | hmem)
    · rw [hstores.held] at hheld
      split at hheld
      · rename_i hcall
        exact .inr ⟨hcall.1, (Option.some.inj hheld).symm⟩
      · exact .inl (.inl hheld)
    · exact (hlog other made' hmem).imp_left .inr
  constructor
  · intro other made' hmade
    rw [hstores.stamps]
    rcases hout hmade with hold | ⟨-, rfl⟩
    · exact Nat.lt_succ_of_lt (h.lt hold)
    · rw [hstores.stamp]
      exact Nat.lt_succ_self _
  · intro first second made₁ made₂ hfirst hsecond heq
    rcases hout hfirst with hold | ⟨rfl, rfl⟩
    · rcases hout hsecond with hold' | ⟨rfl, rfl⟩
      · exact h.unique hold hold' heq
      · exact absurd (h.lt hold) (by rw [heq, hstores.stamp]; exact Nat.lt_irrefl _)
    · rcases hout hsecond with hold' | ⟨rfl, rfl⟩
      · exact absurd (h.lt hold') (by rw [← heq, hstores.stamp]; exact Nat.lt_irrefl _)
      · rfl

theorem Distinct.learns (h : r.Distinct log) (hlearns : r.Learns r') : r'.Distinct log := by
  refine hlearns.induct (P := fun r' => r'.Distinct log) h (fun {r} stamps notices hle h => ?_)
    fun h hstores => h.stores hstores fun _ _ => .inl
  refine h.mono hle fun call made => ?_
  cases call <;> exact id

theorem held?_of_not_isCached (r : Registry) (h : call.isCached = false) : r.held? call = none := by
  cases call with
  | compileUncached => rfl
  | compile | interpolation | expression | handler => simp [Call.isCached, Call.cached] at h

end Registry

namespace Session

variable {session : Session}

/-- Which of the answers of a session are one object. -/
structure Separate (session : Session) : Prop where
  distinct : session.registry.Distinct session.log
  kept : ∀ call made, (call, .ok made) ∈ session.log → call.isCached = true →
    session.registry.held? call = some made
  shared : session.log.Pairwise fun first later => first.1 = later.1 → first.1.isCached = true →
    ∀ made, first.2 = .ok made → later.2 = .ok made
  apart : session.log.Pairwise fun first later => first.1 ≠ later.1 ∨ first.1.isCached = false →
    ∀ made made', first.2 = .ok made → later.2 = .ok made' → made.stamp ≠ made'.stamp

theorem pairwise_concat {α : Type} {R : α → α → Prop} {l : List α} {a : α} (h : l.Pairwise R)
    (ha : ∀ b ∈ l, R b a) : (l ++ [a]).Pairwise R := by
  rw [List.pairwise_append]
  refine ⟨h, List.pairwise_singleton R a, fun b hb x hx => ?_⟩
  rw [List.mem_singleton.mp hx]
  exact ha b hb

/-- A call that is held gives what it gave before. -/
theorem Separate.recall (h : session.Separate) {call : Call} {made : Made}
    (hheld : session.registry.held? call = some made) :
    Separate ⟨session.log ++ [(call, .ok made)], session.registry⟩ := by
  have hmem : ∀ other made', (other, .ok made') ∈ session.log ++ [(call, .ok made)] →
      (other, .ok made') ∈ session.log ∨ other = call ∧ made' = made := by
    simp
  refine ⟨h.distinct.mono (Nat.le_refl _) ?_, ?_, pairwise_concat h.shared ?_,
    pairwise_concat h.apart ?_⟩
  · rintro other made' (hother | hlogged)
    · exact .inl hother
    · rcases hmem other made' hlogged with hold | ⟨rfl, rfl⟩
      · exact .inr hold
      · exact .inl hheld
  · intro other made' hlogged hcached
    rcases hmem other made' hlogged with hold | ⟨rfl, rfl⟩
    · exact h.kept other made' hold hcached
    · exact hheld
  · rintro ⟨first, answer⟩ hfirst rfl hcached made' rfl
    have hkept := h.kept first made' hfirst hcached
    rw [Option.some.inj (hheld.symm.trans hkept)]
  · rintro ⟨first, answer⟩ hfirst hother made₁ made₂ rfl heq hstamp
    cases heq
    obtain rfl := h.distinct.unique (.inr hfirst) (.inl hheld) hstamp
    rcases hother with hne | hnot
    · exact hne rfl
    · cases hheld.symm.trans (session.registry.held?_of_not_isCached hnot)

theorem Separate.fail (h : session.Separate) {call : Call} {e : CompileError} {r' : Registry}
    (hheld : session.registry.held? call = none) (hlearns : session.registry.Learns r') :
    Separate ⟨session.log ++ [(call, .error e)], r'⟩ := by
  have hmem : ∀ other made', (other, .ok made') ∈ session.log ++ [(call, .error e)] →
      (other, .ok made') ∈ session.log := by
    simp
  have hdistinct := h.distinct.learns hlearns
  refine ⟨hdistinct.mono (Nat.le_refl _) ?_, ?_, pairwise_concat h.shared ?_,
    pairwise_concat h.apart ?_⟩
  · exact fun other made' hout => hout.imp_right (hmem other made')
  · exact fun other made' hlogged hcached =>
      hlearns.held (h.kept other made' (hmem other made' hlogged) hcached)
  · rintro ⟨first, answer⟩ hfirst rfl hcached made' rfl
    cases hheld.symm.trans (h.kept first made' hfirst hcached)
  · rintro ⟨first, answer⟩ hfirst - made₁ made₂ - heq
    cases heq

/-- A new object has a stamp that no other one has. -/
theorem Separate.store (h : session.Separate) {call : Call} {made : Made} {r' r'' : Registry}
    (hlearns : session.registry.Learns r') (hstores : r'.Stores call made r'') :
    Separate ⟨session.log ++ [(call, .ok made)], r''⟩ := by
  have hmem : ∀ other made', (other, .ok made') ∈ session.log ++ [(call, .ok made)] →
      (other, .ok made') ∈ session.log ∨ other = call ∧ made' = made := by
    simp
  have hlater : ∀ other made', (other, .ok made') ∈ session.log → other.isCached = true →
      r'.held? other = some made' := fun other made' hlogged hcached =>
    hlearns.held (h.kept other made' hlogged hcached)
  have hdistinct := h.distinct.learns hlearns
  refine ⟨hdistinct.stores hstores hmem, ?_, pairwise_concat h.shared ?_,
    pairwise_concat h.apart ?_⟩
  · intro other made' hlogged hcached
    rw [hstores.held]
    rcases hmem other made' hlogged with hold | ⟨rfl, rfl⟩
    · rw [if_neg, hlater other made' hold hcached]
      rintro ⟨rfl, -⟩
      cases hstores.unheld.symm.trans (hlater other made' hold hcached)
    · exact if_pos ⟨rfl, hcached⟩
  · rintro ⟨first, answer⟩ hfirst rfl hcached made' rfl
    cases hstores.unheld.symm.trans (hlater first made' hfirst hcached)
  · rintro ⟨first, answer⟩ hfirst - made₁ made₂ rfl heq
    cases heq
    refine Nat.ne_of_lt ?_
    rw [hstores.stamp]
    exact hdistinct.lt (.inr hfirst)

theorem Separate.ask (h : session.Separate) (call : Call) : (session.ask call).Separate := by
  have hruns := call.runs session.registry
  unfold Session.ask
  generalize call.run session.registry = result at hruns
  cases hruns with
  | held hheld => exact h.recall hheld
  | failed hheld hlearns => exact h.fail hheld hlearns
  | made hlearns hstores => exact h.store hlearns hstores

/-! ### The template cache -/

/-- The markups in the template cache are the ones that were compiled for it. -/
structure Counted (session : Session) : Prop where
  mem : ∀ markup, markup ∈ session.compiled ↔
    session.registry.templates.get? markup ≠ none
  size : session.registry.templates.size = session.compiled.toFinset.card

theorem compiled_ask (session : Session) (call : Call) : (session.ask call).compiled =
    session.compiled ++ (compiled? (call, (call.run session.registry).1)).toList := by
  rw [compiled, Session.ask, List.filterMap_append]
  rfl

theorem Counted.of_eq (h : session.Counted) {session' : Session}
    (hcompiled : session'.compiled.toFinset = session.compiled.toFinset)
    (htemplates : session'.registry.templates = session.registry.templates) : session'.Counted := by
  refine ⟨fun markup => ?_, ?_⟩
  · rw [← List.mem_toFinset, hcompiled, List.mem_toFinset, htemplates]
    exact h.mem markup
  · rw [hcompiled, htemplates]
    exact h.size

/-- A markup that was not held yet is compiled, and is held. -/
theorem Counted.add (h : session.Counted) {session' : Session} {markup : String}
    (made : Shared Blueprint) (hget : session.registry.templates.get? markup = none)
    (hcompiled : session'.compiled = session.compiled ++ [markup])
    (htemplates : session'.registry.templates = session.registry.templates.insert markup made) :
    session'.Counted := by
  constructor
  · intro other
    rw [hcompiled, htemplates, List.mem_append, List.mem_singleton, h.mem, Dict.get?_insert]
    by_cases heq : other = markup
    · simp [heq]
    · simp [heq]
  · have hnew : markup ∉ session.compiled.toFinset := fun hmem =>
      (h.mem markup).mp (List.mem_toFinset.mp hmem) hget
    rw [htemplates, Dict.size_insert hget, h.size, hcompiled, List.toFinset_append,
      List.toFinset_cons, List.toFinset_nil, insert_empty_eq, Finset.union_comm, ← Finset.insert_eq,
      Finset.card_insert_of_notMem hnew]

theorem Counted.ask (h : session.Counted) (call : Call) : (session.ask call).Counted := by
  have hcompiled := session.compiled_ask call
  cases call with
  | interpolation | expression | handler | compileUncached =>
      refine h.of_eq ?_ (session.registry.run_learns fun _ heq => by cases heq).templates
      rw [hcompiled]
      exact congrArg List.toFinset (List.append_nil _)
  | compile markup =>
      cases hget : session.registry.templates.get? markup with
      | some held =>
          have hrun : (Call.compile markup).run session.registry =
              (.ok (.template held), session.registry) :=
            Call.run_of_held (by rw [Registry.held?, hget]; rfl)
          have hmem := (h.mem markup).mpr (by rw [hget]; exact Option.some_ne_none _)
          refine h.of_eq ?_ (by rw [Session.ask, hrun])
          rw [hcompiled, hrun, compiled?, Option.toList_some, List.toFinset_append]
          simpa using hmem
      | none =>
          have htemplates := (session.registry.compileUncached_learns markup).templates
          rcases hresult : session.registry.compileUncached markup with ⟨e | made, r'⟩
          · have hrun : (Call.compile markup).run session.registry = (.error e, r') := by
              rw [Call.run, Registry.compile_of_error hget hresult]
              rfl
            rw [hresult] at htemplates
            refine h.of_eq ?_ (by rw [Session.ask, hrun]; exact htemplates)
            rw [hcompiled, hrun]
            exact congrArg List.toFinset (List.append_nil _)
          · have hrun : (Call.compile markup).run session.registry = (.ok (.template made),
                { r' with templates := r'.templates.insert markup made }) := by
              rw [Call.run, Registry.compile_of_ok hget hresult]
              rfl
            rw [hresult] at htemplates
            refine h.add made hget (by rw [hcompiled, hrun]; rfl) ?_
            rw [Session.ask, hrun, ← htemplates]

/-! ### A whole session -/

/-- Every answer of a session is the one that a fresh registry gives, and so would the next one be. -/
structure Faithful (nodes marks : List Feature) (session : Session) : Prop where
  recalls : session.registry.Recalls nodes marks
  fresh : ∀ entry ∈ session.log,
    Answer.Same entry.2 (entry.1.run (.ofFeatures nodes marks)).1

theorem Faithful.ask (h : session.Faithful nodes marks) (call : Call) :
    (session.ask call).Faithful nodes marks := by
  refine ⟨h.recalls.run call, fun entry hentry => ?_⟩
  rcases List.mem_append.mp hentry with hold | hnew
  · exact h.fresh entry hold
  · rw [List.mem_singleton.mp hnew]
    exact h.recalls.same call

/-- What holds at the start and after every call holds of every session. -/
theorem foldl_ask {P : Session → Prop} (hask : ∀ {session : Session} (call : Call), P session →
    P (session.ask call)) (calls : List Call) (h : P session) : P (calls.foldl ask session) := by
  induction calls generalizing session with
  | nil => exact h
  | cons call rest ih => exact ih (hask call h)

theorem start_faithful (nodes marks : List Feature) : (start nodes marks).Faithful nodes marks :=
  ⟨Registry.ofFeatures_recalls nodes marks, fun _ hmem => (List.not_mem_nil hmem).elim⟩

theorem held?_ofFeatures (nodes marks : List Feature) (call : Call) :
    (Registry.ofFeatures nodes marks).held? call = none := by
  cases call <;> rfl

theorem start_separate (nodes marks : List Feature) : (start nodes marks).Separate where
  distinct := by
    have hout : ∀ call made, ¬ (start nodes marks).registry.Out (start nodes marks).log call made := by
      rintro call made (hheld | hlogged)
      · cases (held?_ofFeatures nodes marks call).symm.trans hheld
      · exact List.not_mem_nil hlogged
    exact ⟨fun hmade => absurd hmade (hout _ _), fun hmade => absurd hmade (hout _ _)⟩
  kept _ _ hlogged := (List.not_mem_nil hlogged).elim
  shared := .nil
  apart := .nil

theorem start_counted (nodes marks : List Feature) : (start nodes marks).Counted where
  mem _ := ⟨fun hmem => (List.not_mem_nil hmem).elim, fun h => absurd rfl h⟩
  size := rfl

theorem run_cached_ofFeatures (nodes marks : List Feature) (call : Call) :
    (call.cached.run (.ofFeatures nodes marks)).1 = (call.run (.ofFeatures nodes marks)).1 := by
  cases call with
  | compileUncached markup =>
      exact congrArg (·.map Made.template)
        (Registry.compile_of_none (r := .ofFeatures nodes marks) rfl)
  | compile | interpolation | expression | handler => rfl

/-- A call that failed leaves nothing that it or its like would be given. -/
theorem Faithful.unheld (h : session.Faithful nodes marks) {entry : Call × Answer}
    (hentry : entry ∈ session.log) {e : CompileError} (he : entry.2 = .error e) :
    session.registry.held? entry.1.cached = none := by
  have hfailed := h.fresh entry hentry
  cases hheld : session.registry.held? entry.1.cached with
  | none => rfl
  | some made =>
      have hrecalled := h.recalls.same entry.1.cached
      rw [Call.run_of_held hheld, run_cached_ofFeatures] at hrecalled
      rw [he] at hfailed
      cases hfailed.of_error ▸ hrecalled

/-- The caches of a registry are transparent, whatever it is asked and in which order. -/
theorem transparent (nodes marks : List Feature) (calls : List Call) :
    (calls.foldl ask (start nodes marks)).Transparent nodes marks := by
  have hfaithful := foldl_ask (P := Faithful nodes marks) (fun call h => h.ask call) calls
    (start_faithful nodes marks)
  have hseparate := foldl_ask (P := Separate) (fun call h => h.ask call) calls
    (start_separate nodes marks)
  have hcounted := foldl_ask (P := Counted) (fun call h => h.ask call) calls
    (start_counted nodes marks)
  refine ⟨hfaithful.fresh, hseparate.shared, hseparate.apart,
    fun entry hentry e he => hfaithful.unheld hentry he, ?_, hcounted.size⟩
  refine List.pairwise_of_forall_mem_list fun first hfirst later hlater heq e he => ?_
  have hfailed := hfaithful.fresh first hfirst
  rw [he, heq] at hfailed
  have hagain := hfaithful.fresh later hlater
  rw [hfailed.of_error] at hagain
  exact hagain.to_error

end Session

end LiveMarkup
