import LiveMarkup.Yaml.Node

/-!
What a document says: its tree with the nodes that aliases stand for in their places. The keys of
mappings are scalars.
-/

namespace LiveMarkup

inductive Yaml where
  | scalar (style : Yaml.Style) (tag : Option String) (s : String)
  | sequence (tag : Option String) (items : List Yaml)
  | mapping (tag : Option String) (entries : List (String × Yaml))

namespace Yaml

/-- Aliases replaced so far are counted down, so that a document stays within a multiple of its
size. -/
abbrev Replace :=
  StateT Nat Option

/-- The node that an alias stands for, or the node itself. -/
def Document.resolve (d : Document) (node : Node) : Replace Node :=
  match node with
  | .alias number => fun left =>
    match left, d.targets.lookup number with
    | left + 1, some node => some (node, left)
    | _, _ => none
  | node => pure node

/-- The text of a key. -/
def Document.keyText (d : Document) (node : Node) : Replace String := do
  match ← d.resolve node with
  | .scalar _ _ s => pure s
  | _ => fun _ => none

/-- A node without aliases. Sequences and mappings lie in each other `depth` deep at most. -/
def Document.replaceIn (d : Document) : Nat → Node → Replace Yaml
  | 0, node => do
    match ← d.resolve node with
    | .scalar style tag s => pure (.scalar style tag s)
    | _ => fun _ => none
  | depth + 1, node => do
    match ← d.resolve node with
    | .scalar style tag s => pure (.scalar style tag s)
    | .sequence tag items => do
      let items ← items.mapM (d.replaceIn depth)
      pure (.sequence tag items)
    | .mapping tag entries => do
      let entries ← entries.mapM fun (key, value) => do
        let name ← d.keyText key
        let value ← d.replaceIn depth value
        pure (name, value)
      pure (.mapping tag entries)
    | .alias _ => fun _ => none

/-- The most aliases that are replaced for each end of a node in a document. -/
def aliasesPerEnd : Nat := 100

/-- The document in a text. -/
def read? (source : String) : Option Yaml := do
  let tokens ← tokens? source
  let d ← Document.ofTokens? tokens
  let (root, _) ← (d.replaceIn maxDepth d.root).run (aliasesPerEnd * d.size)
  pure root

end Yaml

end LiveMarkup
