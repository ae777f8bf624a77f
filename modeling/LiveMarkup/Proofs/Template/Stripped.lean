import LiveMarkup.Proofs.Dom.Contents
import LiveMarkup.Proofs.Template.Instances

/-!
Templates without template syntax. Wherever compilation starts, nothing of the syntax is left at or
below the root and a copy lists every definition, unless the root carries a directive of its own. Such
a root compiles only where it has a parent. The placeholder then takes its place there, outside the
template, while the root keeps its directive and everything below it.
-/

namespace LiveMarkup

/-- Neither an attribute nor a text of a node is template syntax. -/
def Content.IsBare : Content → Prop
  | .element _ attributes => ∀ a ∈ attributes, a.isPlain = true
  | .text s => Markup.hasSpan s = false
  | _ => True

variable {nodes marks : List Feature} {k : Nat} {parsed made : List Tree}
  {definitions : List (NodeDefinition Blueprint)}

theorem isMarked_of_feature? {a : Attribute} (h : a.feature? = none) : a.isMarked = false := by
  by_cases href : a.isMarkedBy '#' = true
  · simp [Attribute.feature?, href] at h
  · by_cases hevent : a.isMarkedBy '@' = true
    · simp [Attribute.feature?, href, hevent] at h
    · by_cases hbinding : a.isMarkedBy ':' = true
      · simp [Attribute.feature?, href, hevent, hbinding] at h
      · simp [Attribute.isMarked, href, hevent, hbinding]

/-- What no feature takes is plain once the directives are out, if all features are there. -/
theorem isPlain_of_untaken (hmarks : ∀ feature, feature = .reference ∨ feature = .event ∨
      feature = .binding → feature ∈ marks) {attributes : List Attribute}
    (hnone : ∀ a ∈ attributes, a.isDirective = false) {a : Attribute}
    (ha : a ∈ untaken marks attributes) : a.isPlain = true := by
  obtain ⟨hmem, huntaken⟩ := List.mem_filter.mp ha
  have hfeature : a.feature? = none := by
    cases hsome : a.feature? with
    | none => rfl
    | some feature =>
        have hin : feature ∈ marks := by
          apply hmarks
          rcases Compile.feature?_iff.mp hsome with ⟨rfl, _⟩ | ⟨rfl, _⟩ | ⟨rfl, _⟩ <;> simp
        simp [Compile.takenBy_iff.mpr ⟨hsome, hin⟩] at huntaken
  simp [Attribute.isPlain, hnone a hmem, isMarked_of_feature? hfeature]

theorem isPlain_id (value : String) : (⟨"id", value⟩ : Attribute).isPlain = true := by
  simp [Attribute.isPlain, Attribute.isDirective, Attribute.isMarked, Attribute.isMarkedBy]

/-- Of what is compiled with all features no syntax is left. -/
theorem Tree.CompileTo.bare (hnodes : Feature.text ∈ nodes)
    (hmarks : ∀ feature, feature = .reference ∨ feature = .event ∨ feature = .binding →
      feature ∈ marks) (h : CompileTo nodes marks k parsed made definitions) :
    EverywhereAll Content.IsBare made := by
  induction h with
  | nil => trivial
  | cons _ _ ihfirst ihrest => exact ⟨ihfirst.1, ihrest⟩
  | comment => exact ⟨⟨trivial, trivial⟩, trivial⟩
  | text hnot => exact ⟨⟨hnot.resolve_right fun habsent => habsent hnodes, trivial⟩, trivial⟩
  | span => exact ⟨⟨by simp [Content.IsBare]; decide +kernel, trivial⟩, trivial⟩
  | element hnone _ _ ih =>
      exact ⟨⟨fun a ha => isPlain_of_untaken hmarks hnone ha, ih⟩, trivial⟩
  | conditional =>
      refine ⟨⟨fun a ha => ?_, trivial⟩, trivial⟩
      rw [List.mem_singleton.mp ha]
      exact isPlain_id _

mutual

/-- What has been parsed only holds no markers. -/
theorem Tree.IsParsed.marks_eq_nil : ∀ {tree : Tree}, tree.IsParsed → tree.marks = []
  | .node content marker below, hparsed => by
      obtain ⟨rfl, hparsed⟩ := hparsed
      rw [Tree.marks]
      cases content with
      | fragment => exact hparsed.elim
      | text s | comment s =>
          obtain rfl := hparsed
          rfl
      | element tag attributes => exact Tree.AreParsed.marksFrom_eq_nil 0 hparsed.2

theorem Tree.AreParsed.marksFrom_eq_nil (i : Nat) :
    ∀ {trees : List Tree}, Tree.AreParsed trees → Tree.marksFrom i trees = []
  | [], _ => rfl
  | tree :: rest, hparsed => by
      rw [Tree.marksFrom, hparsed.1.marks_eq_nil, hparsed.2.marksFrom_eq_nil (i + 1)]
      rfl

end

/-- Attributes of other names stay. -/
theorem mem_foldl_eraseP {a : Attribute} {names : List String} (hnot : a.name ∉ names) :
    ∀ {attributes : List Attribute}, a ∈ attributes →
      a ∈ names.foldl (fun rest name => rest.eraseP (·.name = name)) attributes := by
  induction names with
  | nil => exact fun ha => ha
  | cons name names ih =>
      obtain ⟨hne, hnot⟩ := not_or.mp (List.mem_cons.not.mp hnot)
      intro attributes ha
      exact ih hnot ((List.mem_eraseP_of_neg (by simpa using hne)).mpr ha)

/-- The directive that is kept is none of those that are dropped. -/
theorem kept_not_discarded {attributes discarded : List Attribute} {kept : Attribute}
    (hnodup : (attributes.map (·.name)).Nodup)
    (hsplit : attributes.filter (·.isDirective) = kept :: discarded) :
    kept.name ∉ discarded.map (·.name) := by
  have hdirectives : ((kept :: discarded).map (·.name)).Nodup := by
    rw [← hsplit]
    exact hnodup.sublist (List.filter_sublist.map _)
  exact (List.nodup_cons.mp hdirectives).1

/-- No syntax is left in a template, and every copy lists all its definitions. -/
structure Blueprint.Stripped (blueprint : Blueprint) : Prop where
  bare : (blueprint.dom.tree blueprint.root).Everywhere Content.IsBare
  listed : ∀ target : Dom, (blueprint.instantiate target).2.marked.map (·.1) =
    List.range blueprint.definitions.length

namespace Registry

variable {r : Registry} {d : Dom} {root : NodeId}

/-- Some of the features, and all that are needed for every attribute and text. -/
structure Complete (nodes marks : List Feature) (r : Registry) : Prop extends
    r.Sound nodes marks where
  text : Feature.text ∈ nodes
  all : ∀ feature, feature = .reference ∨ feature = .event ∨ feature = .binding → feature ∈ marks

/-- A fragment leaves no syntax in its template. -/
theorem compileFragment_stripped (h : r.Complete nodes marks) (hvalid : d.Valid)
    (hlive : d.Live root) (htree : d.tree root = .node .fragment none parsed)
    (hparsed : Tree.AreParsed parsed) {made : Shared Blueprint}
    (hmade : (r.compileFragment d root).1 = .ok made) : made.value.Stripped := by
  have hcompiled := compileFragment_compiled h.toSound hvalid hlive htree hparsed hmade
  obtain ⟨trees, hroot, hcompile⟩ := hcompiled.trees
  refine ⟨?_, hcompiled.listed⟩
  rw [hroot]
  exact ⟨trivial, hcompile.bare h.text h.all⟩

/-- Neither does a node without a directive of its own, wherever it is. -/
theorem compileFragment_stripped_of_parsed (h : r.Complete nodes marks) (hvalid : d.Valid)
    (hparsed : (d.tree root).IsParsed)
    (hnone : (d.content root).attributes.filter (·.isDirective) = []) {made : Shared Blueprint}
    (hmade : (r.compileFragment d root).1 = .ok made) : made.value.Stripped := by
  unfold compileFragment at hmade
  split at hmade
  · cases hmade
  · rename_i w hwalk
    cases hmade
    have htree := Dom.tree_eq hvalid root
    rw [htree] at hparsed hwalk
    obtain ⟨added, hplain⟩ := Compile.walk_plain Compile.walkAll_walks hparsed h.toSound hvalid htree
      hnone hwalk
    have hdefinitions : w.definitions = added := hplain.definitions
    have hcompiled := hplain.compiled
    refine ⟨(hcompiled.bare h.text h.all).1, fun target => ?_⟩
    calc ((Blueprint.mk w.dom root w.definitions).instantiate target).2.marked.map (·.1)
        = (w.dom.tree root).marks.map (·.1) := Dom.fst_marked_graft target _
      _ = (Tree.marksFrom 0 [w.dom.tree root]).map (·.1) := by simp [Tree.marksFrom]
      _ = List.range' 0 added.length := hcompiled.fst_marksFrom 0
      _ = List.range w.definitions.length := by rw [hdefinitions, List.range_eq_range']

/-- A root with a directive of its own has a parent, and a definition that no copy lists: the root keeps
the directive and all that is below it. -/
theorem compileFragment_directive (h : r.Sound nodes marks) (hvalid : d.Valid) {tag : String}
    {attributes discarded : List Attribute} {kept : Attribute} {below : List Tree}
    (htree : d.tree root = .node (.element tag attributes) none below)
    (hparsed : (Tree.node (.element tag attributes) none below).IsParsed)
    (hsplit : attributes.filter (·.isDirective) = kept :: discarded) {made : Shared Blueprint}
    (hmade : (r.compileFragment d root).1 = .ok made) :
    (∃ p, d.parent root = some p) ∧ made.value.definitions.length = 1 ∧
      (∃ rest, kept ∈ rest ∧
        made.value.dom.tree made.value.root = .node (.element tag rest) none below) ∧
      ∀ target : Dom, (made.value.instantiate target).2.marked = [] := by
  unfold compileFragment at hmade
  split at hmade
  · cases hmade
  · rename_i w hwalk
    cases hmade
    obtain ⟨-, hnodup, hbelow⟩ := hparsed
    rw [htree] at hwalk
    obtain ⟨p, new, cleared, definition, hparent, htaken⟩ :=
      Compile.walk_taken (Compile.walkAll_walks hbelow) h hvalid htree hsplit hwalk
    have hdefinitions : w.definitions = [definition] := htaken.definitions
    obtain ⟨placeholder, hsubstituted⟩ := htaken.substituted
    have hlive := (hvalid.live_of_parent hparent).1
    have hroot := hsubstituted.removed.trans (htaken.retagged.tree hvalid htree hlive)
    have hfirst : kept ∈ attributes.filter (·.isDirective) := by
      rw [hsplit]
      exact List.mem_cons_self
    have hkept := (List.mem_filter.mp hfirst).1
    refine ⟨⟨p, hparent⟩, ?_, ⟨_, mem_foldl_eraseP (kept_not_discarded hnodup hsplit) hkept, hroot⟩,
      fun target => (List.map_eq_nil_iff (f := (·.1))).mp ?_⟩
    · rw [hdefinitions]
      rfl
    · calc ((Blueprint.mk w.dom root w.definitions).instantiate target).2.marked.map (·.1)
          = (w.dom.tree root).marks.map (·.1) := Dom.fst_marked_graft target _
        _ = (Tree.marksFrom 0 below).map (·.1) := by rw [hroot]; rfl
        _ = [] := by rw [hbelow.marksFrom_eq_nil]; rfl

end Registry

end LiveMarkup
