import LiveMarkup.Notice
import LiveMarkup.Template.Blueprint

/-!
The features that templates are compiled with, and everything compiled so far. What a source
compiles to is kept under the source, one cache for each way to compile it; a source that does not
compile leaves nothing behind.
-/

namespace LiveMarkup

/-- A value that its users hold in common. Two values with one stamp are one and the same. -/
structure Shared (α : Type) where
  stamp : Nat
  value : α

structure Registry where
  /-- The features offered texts and directives, in this order. -/
  nodeFeatures : List Feature
  /-- The features offered the other attributes, in this order. -/
  attributeFeatures : List Feature
  interpolations : Dict (Shared Interpolation)
  expressions : Dict (Shared Interpolation)
  handlers : Dict (Shared Handler)
  templates : Dict (Shared Blueprint)
  /-- How many stamps were given out. -/
  stamps : Nat
  notices : Array Notice

namespace Registry

def ofFeatures (nodeFeatures attributeFeatures : List Feature) : Registry :=
  ⟨nodeFeatures, attributeFeatures, .empty, .empty, .empty, .empty, 0, #[]⟩

/-- A registry of the features that every template has. -/
def builtin : Registry :=
  ofFeatures [.text, .conditional] [.reference, .event, .binding]

def report (r : Registry) (notice : Notice) : Registry :=
  { r with notices := r.notices.push notice }

/-- A value that nobody holds yet. -/
def share {α : Type} (r : Registry) (value : α) : Shared α × Registry :=
  (⟨r.stamps, value⟩, { r with stamps := r.stamps + 1 })

/-- What `cache` holds under `source`, or what `source` compiles to, which `keep` then stores. -/
def cached {α : Type} (r : Registry) (cache : Dict (Shared α))
    (keep : Registry → Dict (Shared α) → Registry) (compile : String → Except CompileError α)
    (source : String) : Except CompileError (Shared α) × Registry :=
  match cache.get? source with
  | some held => (.ok held, r)
  | none =>
    match compile source with
    | .error e => (.error e, r)
    | .ok value =>
      let (made, r) := r.share value
      (.ok made, keep r (cache.insert source made))

/-- The interpolation that a text holds. -/
def interpolation (r : Registry) :
    String → Except CompileError (Shared Interpolation) × Registry :=
  r.cached r.interpolations (fun r interpolations => { r with interpolations })
    Interpolation.compile

/-- The interpolation of an expression by itself. -/
def expression (r : Registry) : String → Except CompileError (Shared Interpolation) × Registry :=
  r.cached r.expressions (fun r expressions => { r with expressions }) Interpolation.compileBare

def handler (r : Registry) : String → Except CompileError (Shared Handler) × Registry :=
  r.cached r.handlers (fun r handlers => { r with handlers }) Handler.compile

end Registry

end LiveMarkup
