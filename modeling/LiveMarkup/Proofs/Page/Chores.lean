import LiveMarkup.Page.Wire
import LiveMarkup.Proofs.Page.Family

/-!
The wiring of a fresh copy as a list of chores, one for each thing to be done at a claimed node.
-/

namespace LiveMarkup

/-- One thing to be done for a claimed node. -/
inductive Job where
  | unmark
  | write (task : Task) (fields : Names)
  | guard (index : Nat) (directive : Directive Blueprint)
  | nest (directive : Directive Blueprint)
  | refer (name : String)
  | listen (binding : EventBinding)
  | unknown (index : Nat)

structure Chore where
  owner : InstanceId
  node : NodeId
  job : Job

/-- What a feature asks for at the node that it claimed. -/
def NodeDefinition.jobs (definition : NodeDefinition Blueprint) : Feature → List Job
  | .text => definition.content.map fun i => .write (.writeText i) i.dependencies
  | .upper => definition.content.map fun i => .write (.writeUpper i) i.dependencies
  | .binding => definition.attributes.map fun a =>
      .write (.writeAttribute a.name a.interpolation) a.interpolation.dependencies
  | .event => definition.events.map .listen
  | .reference => definition.reference.toList.map .refer
  | .conditional => definition.directive.toList.map (.guard definition.index)
  | .scope => definition.directive.toList.map .nest
  | .inner => definition.directive.toList.map .nest

/-- What is to be done for a node with a marker. -/
def Blueprint.choresAt (blueprint : Blueprint) (owner : InstanceId) (entry : Nat × NodeId) :
    List Chore :=
  match blueprint.definition? entry.1 with
  | none => [⟨owner, entry.2, .unknown entry.1⟩]
  | some definition =>
    (.unmark :: definition.features.flatMap definition.jobs).map (⟨owner, entry.2, ·⟩)

def Blueprint.chores (blueprint : Blueprint) (owner : InstanceId) (marked : List (Nat × NodeId)) :
    List Chore :=
  marked.flatMap (blueprint.choresAt owner)

/-- Whether an effect writes to its node. -/
def Task.writes : Task → Bool
  | .writeText _ => true
  | .writeUpper _ => true
  | .writeAttribute _ _ => true
  | .guardFragment _ => false
  | .mountFragment => false

/-- What the chores of an instance are about. -/
structure Chore.Belongs (blueprint : Blueprint) (owner : InstanceId) (chore : Chore) : Prop where
  owner : chore.owner = owner
  nests : ∀ directive, (chore.job = .nest directive ∨ ∃ index, chore.job = .guard index directive) →
    blueprint.Nests directive.blueprint
  writes : ∀ task fields, chore.job = .write task fields → task.writes = true

theorem NodeDefinition.belongs_of_mem_jobs {blueprint : Blueprint}
    {definition : NodeDefinition Blueprint} (hdefinition : definition ∈ blueprint.definitions)
    {feature : Feature} {job : Job} (h : job ∈ definition.jobs feature) (owner : InstanceId)
    (node : NodeId) : Chore.Belongs blueprint owner ⟨owner, node, job⟩ := by
  have hnests : ∀ {directive}, directive ∈ definition.directive.toList →
      blueprint.Nests directive.blueprint := fun hdirective =>
    ⟨definition, hdefinition, _, by simpa using hdirective, rfl⟩
  refine ⟨rfl, ?_, ?_⟩
  · rintro directive hjob
    dsimp only at hjob
    cases feature with
    | text | upper | binding | event | reference =>
        obtain ⟨_, _, rfl⟩ := List.mem_map.mp h
        simp at hjob
    | conditional | scope | inner =>
        obtain ⟨other, hother, rfl⟩ := List.mem_map.mp h
        simp at hjob
        exact hjob ▸ hnests hother
  · rintro task fields rfl
    cases feature with
    | text | upper | binding | event | reference | conditional | scope | inner =>
        obtain ⟨_, _, heq⟩ := List.mem_map.mp h
        cases heq
        try rfl

theorem Blueprint.belongs_of_mem_chores {blueprint : Blueprint} {owner : InstanceId}
    {marked : List (Nat × NodeId)} {chore : Chore} (h : chore ∈ blueprint.chores owner marked) :
    chore.Belongs blueprint owner := by
  obtain ⟨⟨index, node⟩, _, hchore⟩ := List.mem_flatMap.mp h
  rw [choresAt] at hchore
  split at hchore
  · rw [List.mem_singleton] at hchore
    subst hchore
    exact ⟨rfl, by simp, by simp⟩
  · rename_i definition hdefinition
    obtain ⟨job, hjob, rfl⟩ := List.mem_map.mp hchore
    rcases List.mem_cons.mp hjob with rfl | hjob
    · exact ⟨rfl, by simp, by simp⟩
    · obtain ⟨feature, _, hjob⟩ := List.mem_flatMap.mp hjob
      exact NodeDefinition.belongs_of_mem_jobs (List.mem_of_getElem? hdefinition) hjob owner node

namespace Page

def perform (mount : InstanceId → Page → Page) (page : Page) (chore : Chore) : Page :=
  match chore.job with
  | .unmark => page.editDom (·.setMarker chore.node none)
  | .write task fields => page.install mount chore.owner fields chore.node none task
  | .guard index directive =>
    let (page, anchor) := (page.reportMismatch index directive chore.node).placeAnchor chore.node
    let (page, fragment) := page.createFragment chore.owner directive.blueprint anchor .empty
    page.install mount chore.owner directive.dependencies anchor (some fragment)
      (.guardFragment directive.guard)
  | .nest directive =>
    let locals := Dict.empty.insert "item" (.ofString directive.placeholder)
    let (page, fragment) :=
      page.createFragment chore.owner directive.blueprint chore.node locals
    page.install mount chore.owner [] chore.node (some fragment) .mountFragment
  | .refer name => page.setReference chore.owner name chore.node
  | .listen binding => listen chore.owner chore.node page binding
  | .unknown index => page.report (.undefinedMarker index)

theorem wire_eq (mount : InstanceId → Page → Page) (owner : InstanceId)
    (definition : NodeDefinition Blueprint) (node : NodeId) (page : Page) (feature : Feature) :
    wire mount owner definition node page feature =
      ((definition.jobs feature).map (⟨owner, node, ·⟩)).foldl (perform mount) page := by
  cases feature with
  | text => simp only [wire, NodeDefinition.jobs, List.map_map, List.foldl_map, perform,
      Function.comp_apply]
  | upper => simp only [wire, NodeDefinition.jobs, List.map_map, List.foldl_map, perform,
      Function.comp_apply]
  | binding => simp only [wire, NodeDefinition.jobs, List.map_map, List.foldl_map, perform,
      Function.comp_apply]
  | event => simp only [wire, NodeDefinition.jobs, List.map_map, List.foldl_map, perform,
      Function.comp_apply]
  | reference =>
      rw [wire, NodeDefinition.jobs]
      cases definition.reference <;> rfl
  | conditional =>
      rw [wire, NodeDefinition.jobs]
      cases definition.directive <;> rfl
  | scope =>
      rw [wire, NodeDefinition.jobs]
      cases definition.directive <;> rfl
  | inner =>
      rw [wire, NodeDefinition.jobs]
      cases definition.directive <;> rfl

theorem foldl_wire_eq (mount : InstanceId → Page → Page) (owner : InstanceId)
    (definition : NodeDefinition Blueprint) (node : NodeId) (features : List Feature)
    (page : Page) :
    features.foldl (wire mount owner definition node) page =
      ((features.flatMap definition.jobs).map (⟨owner, node, ·⟩)).foldl (perform mount) page := by
  induction features generalizing page with
  | nil => rfl
  | cons feature rest ih =>
      rw [List.foldl_cons, ih, wire_eq, List.flatMap_cons, List.map_append, List.foldl_append]

/-- Wiring does one chore after the other. -/
theorem wireAll_eq (mount : InstanceId → Page → Page) (owner : InstanceId) (blueprint : Blueprint)
    (marked : List (Nat × NodeId)) (page : Page) :
    wireAll mount owner blueprint marked page =
      (blueprint.chores owner marked).foldl (perform mount) page := by
  induction marked generalizing page with
  | nil => rfl
  | cons entry rest ih =>
      obtain ⟨index, node⟩ := entry
      rw [wireAll, Blueprint.chores, List.flatMap_cons, List.foldl_append, Blueprint.choresAt]
      cases blueprint.definition? index with
      | none => exact ih _
      | some definition =>
          dsimp only
          rw [ih, foldl_wire_eq]
          rfl

end Page

end LiveMarkup
