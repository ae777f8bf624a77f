import LiveMarkup.Proofs.Template.Learned

/-!
Templates compiled from markup. A registry that only ever compiled has what its sources say in its
caches, so every template it hands out says what the parsed markup says.
-/

namespace LiveMarkup

/-! ### What compilation makes -/

variable {nodes marks : List Feature}

/-- A template holds what some parsed trees compile to. -/
structure Blueprint.Compiled (nodes marks : List Feature) (parsed : List Tree)
    (blueprint : Blueprint) : Prop where
  valid : blueprint.dom.Valid
  trees : ∃ trees, blueprint.dom.tree blueprint.root = .node .fragment none trees ∧
    Tree.CompileTo nodes marks 0 parsed trees blueprint.definitions

/-- Markup is read without an error, as a fragment of some trees. -/
structure Markup.ReadsAs (markup : String) (parsed : List Tree) : Prop where
  error : (Markup.read markup).error = none
  tree : (Markup.read markup).tree = .node .fragment none parsed

namespace Registry

variable {r : Registry} {markup : String}

/-- A registry whose templates hold what their markup compiles to. -/
structure Honest (nodes marks : List Feature) (r : Registry) : Prop where
  sound : r.Sound nodes marks
  templates : ∀ markup held, r.templates.get? markup = some held →
    ∃ parsed, Markup.ReadsAs markup parsed ∧ held.value.Compiled nodes marks parsed

theorem compileFragment_compiled {d : Dom} {root : NodeId} {parsed : List Tree}
    (hsound : r.Sound nodes marks) (hvalid : d.Valid) (hlive : d.Live root)
    (htree : d.tree root = .node .fragment none parsed) (hparsed : Tree.AreParsed parsed)
    {made : Shared Blueprint} (h : (r.compileFragment d root).1 = .ok made) :
    made.value.Compiled nodes marks parsed := by
  have hshape := htree
  rw [Dom.tree_eq hvalid, Tree.node.injEq] at hshape
  obtain ⟨hcontent, hmarker, hchildren⟩ := hshape
  unfold compileFragment at h
  rw [htree] at h
  split at h
  · cases h
  · rename_i w hwalk
    cases h
    rw [Compile.walk] at hwalk
    obtain ⟨_, _, hget, hwalk⟩ := Compile.gives_bind.mp hwalk
    obtain ⟨rfl, rfl⟩ := Compile.gives_get.mp hget
    rw [hcontent] at hwalk
    obtain ⟨_, _, hget, hwalk⟩ := Compile.gives_bind.mp hwalk
    obtain ⟨rfl, rfl⟩ := Compile.gives_get.mp hget
    obtain ⟨ids, added, hreworked, hadded, hcompiled⟩ :=
      Compile.walkAll_walks hparsed _ _ root [] [] _ hsound hvalid hlive (by simp) hchildren hwalk
    refine ⟨hreworked.valid, ids.map w.dom.tree, ?_, ?_⟩
    · obtain ⟨hcontent', hmarker', -⟩ := hreworked.place
      dsimp only
      rw [Dom.tree_eq hreworked.valid, hcontent', hmarker', hcontent, hmarker,
        hreworked.children]
      simp
    · dsimp only at hadded ⊢
      rw [hadded, List.nil_append]
      exact hcompiled

theorem compileUncached_compiled (hsound : r.Sound nodes marks) {made : Shared Blueprint}
    (h : (r.compileUncached markup).1 = .ok made) :
    ∃ parsed, Markup.ReadsAs markup parsed ∧ made.value.Compiled nodes marks parsed := by
  have hgraft := Dom.graft_grafted (Markup.read markup).tree Dom.empty_valid
  unfold compileUncached Dom.parse at h
  dsimp only at h
  cases herror : (Markup.read markup).error with
  | some e =>
      rw [herror] at h
      cases h
  | none =>
      obtain ⟨hstray, parsed, htree, hparsed⟩ := Markup.read_parsed herror
      rw [herror, hstray] at h
      dsimp only at h
      generalize Dom.empty.graft (Markup.read markup).tree = made' at hgraft h
      obtain ⟨d, copy⟩ := made'
      rw [htree] at hgraft
      have hlive := (hgraft.toGrown.fresh (List.mem_singleton_self copy.root)).1
      exact ⟨parsed, ⟨herror, htree⟩,
        compileFragment_compiled hsound hgraft.valid hlive hgraft.tree hparsed h⟩

theorem Honest.learns (h : r.Honest nodes marks) {r' : Registry} (hlearns : r.Learns r') :
    r'.Honest nodes marks :=
  ⟨h.sound.of_faithful (hlearns.faithful h.sound.toFaithful), by
    rw [hlearns.templates]
    exact h.templates⟩

theorem compileFragment_honest (h : r.Honest nodes marks) (d : Dom) (root : NodeId) :
    (r.compileFragment d root).2.Honest nodes marks := by
  have hlearns := Compile.learns_walk (d.tree root) root ⟨r, d, []⟩
  unfold compileFragment
  split
  · rename_i e w hwalk
    rw [hwalk] at hlearns
    exact h.learns hlearns
  · rename_i w hwalk
    rw [hwalk] at hlearns
    exact h.learns (hlearns.share.report _)

theorem compileUncached_honest (h : r.Honest nodes marks) (markup : String) :
    (r.compileUncached markup).2.Honest nodes marks := by
  unfold compileUncached
  split
  · exact h
  · exact compileFragment_honest h _ _

theorem compile_compiled (h : r.Honest nodes marks) {made : Shared Blueprint}
    (hmade : (r.compile markup).1 = .ok made) :
    ∃ parsed, Markup.ReadsAs markup parsed ∧ made.value.Compiled nodes marks parsed := by
  unfold compile at hmade
  split at hmade
  · rename_i held hget
    cases hmade
    exact h.templates markup _ hget
  · split at hmade
    · cases hmade
    · rename_i made' r' heq
      cases hmade
      exact compileUncached_compiled h.sound (congrArg Prod.fst heq)

theorem compile_honest (h : r.Honest nodes marks) (markup : String) :
    (r.compile markup).2.Honest nodes marks := by
  unfold compile
  split
  · exact h
  · have huncached := compileUncached_honest h markup
    split
    · rename_i e r' heq
      rw [heq] at huncached
      exact huncached
    · rename_i made r' heq
      rw [heq] at huncached
      refine ⟨huncached.sound.adorn _ _ _, ?_⟩
      intro other held hget
      dsimp only at hget
      rw [Dict.get?_insert] at hget
      split at hget
      · rename_i hsame
        cases hget
        rw [hsame]
        exact compileUncached_compiled h.sound (congrArg Prod.fst heq)
      · exact huncached.templates other held hget

theorem ofFeatures_honest (hnodes : ∀ feature ∈ nodes, feature ∈ Feature.builtin)
    (hmarks : ∀ feature ∈ marks, feature ∈ Feature.builtin) :
    (ofFeatures nodes marks).Honest nodes marks :=
  ⟨ofFeatures_sound hnodes hmarks, fun _ _ hget => by cases hget⟩

/-- A registry that began as `first` and has compiled since. -/
inductive Since (first : Registry) : Registry → Prop where
  | first : Since first first
  | interpolation (source : String) {r : Registry} (h : Since first r) :
    Since first (r.interpolation source).2
  | expression (source : String) {r : Registry} (h : Since first r) :
    Since first (r.expression source).2
  | handler (source : String) {r : Registry} (h : Since first r) : Since first (r.handler source).2
  | compile (markup : String) {r : Registry} (h : Since first r) : Since first (r.compile markup).2
  | compileUncached (markup : String) {r : Registry} (h : Since first r) :
    Since first (r.compileUncached markup).2
  | compileFragment (d : Dom) (root : NodeId) {r : Registry} (h : Since first r) :
    Since first (r.compileFragment d root).2

theorem Since.honest {first : Registry} (hfirst : first.Honest nodes marks) (h : Since first r) :
    r.Honest nodes marks := by
  induction h with
  | first => exact hfirst
  | interpolation source _ ih => exact ih.learns (.interpolation source .refl)
  | expression source _ ih => exact ih.learns (.expression source .refl)
  | handler source _ ih => exact ih.learns (.handler source .refl)
  | compile markup _ ih => exact compile_honest ih markup
  | compileUncached markup _ ih => exact compileUncached_honest ih markup
  | compileFragment d root _ ih => exact compileFragment_honest ih d root

/-- A registry that began with the features of every template and has compiled since. -/
inductive Reached : Registry → Prop where
  | builtin : Reached builtin
  | interpolation (source : String) {r : Registry} (h : Reached r) :
    Reached (r.interpolation source).2
  | expression (source : String) {r : Registry} (h : Reached r) : Reached (r.expression source).2
  | handler (source : String) {r : Registry} (h : Reached r) : Reached (r.handler source).2
  | compile (markup : String) {r : Registry} (h : Reached r) : Reached (r.compile markup).2

theorem Reached.since (h : r.Reached) : Since Registry.builtin r := by
  induction h with
  | builtin => exact .first
  | interpolation source _ ih => exact ih.interpolation source
  | expression source _ ih => exact ih.expression source
  | handler source _ ih => exact ih.handler source
  | compile markup _ ih => exact ih.compile markup

theorem builtin_honest : builtin.Honest [.text, .conditional] [.reference, .event, .binding] :=
  ofFeatures_honest (by decide) (by decide)

theorem Reached.honest (h : r.Reached) :
    r.Honest [.text, .conditional] [.reference, .event, .binding] :=
  h.since.honest builtin_honest

/-- Whatever was compiled before, a template is its parsed markup with directives, names, events and
bound attributes taken out and texts with spans left blank, and its definitions say what was there. -/
theorem compileUncached_compiles (hsince : Since builtin r) {made : Shared Blueprint}
    (hmade : (r.compileUncached markup).1 = .ok made) :
    ∃ parsed, Markup.ReadsAs markup parsed ∧
      made.value.Compiled [.text, .conditional] [.reference, .event, .binding] parsed :=
  compileUncached_compiled (hsince.honest builtin_honest).sound hmade

/-- A template with every feature in it, the second directive of an element among them. -/
def everything : String :=
  "<p #a @click=\"this.n = 1\" :Title=\"\x7b\x7b this.n \x7d\x7d\" b>\x7b\x7b this.n \x7d\x7d</p>" ++
    "<i *if=\"this.n\" *else #b>one<u *if=\"\x7b\x7b this.n \x7d\x7d\"></u></i>"

theorem compiles_everything : ∃ made, (builtin.compileUncached everything).1 = .ok made ∧
    ∃ parsed, Markup.ReadsAs everything parsed ∧
      made.value.Compiled [.text, .conditional] [.reference, .event, .binding] parsed := by
  have hok : (builtin.compileUncached everything).1.isOk = true := by decide +kernel
  cases hmade : (builtin.compileUncached everything).1 with
  | error e =>
      rw [hmade] at hok
      cases hok
  | ok made => exact ⟨made, rfl, compileUncached_compiles .first hmade⟩

end Registry

end LiveMarkup
