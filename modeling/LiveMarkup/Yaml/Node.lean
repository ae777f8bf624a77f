import LiveMarkup.Yaml.Token

/-!
The tree of a document from its tokens. An alias stands for the node with the anchor of its name
that was given last before it; one text holds one document.
-/

namespace LiveMarkup.Yaml

inductive Node where
  /-- Stands for the node that has the number. -/
  | alias (number : Nat)
  | scalar (style : Style) (tag : Option String) (s : String)
  | sequence (tag : Option String) (items : List Node)
  | mapping (tag : Option String) (entries : List (Node × Node))

instance : Inhabited Node :=
  ⟨.scalar .plain none ""⟩

structure Document where
  root : Node
  /-- The nodes that aliases stand for, by their numbers. -/
  targets : List (Nat × Node)
  /-- The number of scalars and aliases, and of the ends of sequences and mappings. -/
  size : Nat

/-- A document while it is read. -/
structure Reading where
  tokens : List Token
  /-- What the handles of tags stand for. -/
  handles : List (String × String)
  /-- The names of anchors, with the number that each was given last. -/
  anchors : List (String × Nat)
  /-- The places of the anchored nodes, by their numbers, the last one in front. -/
  places : List (Nat × Nat)
  /-- The anchored nodes that are read, by their places. -/
  nodes : List (Nat × Node)
  size : Nat

abbrev Parse :=
  StateT Reading Option

namespace Parse

def peek : Parse (Option Token) := do
  return (← get).tokens.head?

def skip : Parse Unit :=
  modify fun r => { r with tokens := r.tokens.drop 1 }

def fail {α : Type} : Parse α :=
  fun _ => none

/-- Skips the given token, which has to come next. -/
def expect (token : Token) : Parse Unit := do
  if (← peek) = some token then skip else fail

/-- Whether the next token is one of the given ones. -/
def isNext (tokens : List Token) : Parse Bool := do
  return (← peek).any tokens.contains

/-- Counts one end of a node. -/
def count : Parse Unit :=
  modify fun r => { r with size := r.size + 1 }

/-- Gives a number to the anchor of the node that begins here: the number of anchors so far. -/
def openAnchor (name : String) : Parse Unit :=
  modify fun r =>
    let number := r.anchors.length
    let others := r.anchors.filter fun (other, _) => other ≠ name
    { r with anchors := (name, number) :: others, places := (number, r.size) :: r.places }

/-- Reads a node that may have an anchor. -/
def anchored (anchor : Option String) (read : Parse Node) : Parse Node := do
  match anchor with
  | none => read
  | some name =>
    let place := (← get).size
    openAnchor name
    let node ← read
    modify fun r => { r with nodes := (place, node) :: r.nodes }
    pure node

def leaf (style : Style) (tag : Option String) (s : String) : Parse Node := do
  count
  pure (.scalar style tag s)

/-- What stands where nothing stands. -/
def absent : Parse Node :=
  leaf .plain none ""

def collection (read : Parse Node) : Parse Node := do
  count
  let node ← read
  count
  pure node

/-- The tag that a name stands for. -/
def tagOf (name : TagName) : Parse String := do
  if name.handle.isEmpty then pure name.suffix
  else
    match (← get).handles.lookup name.handle with
    | some stem => pure (stem ++ name.suffix)
    | none => fail

def takeAnchor : Parse (Option String) := do
  match ← peek with
  | some (.anchor name) => do
    skip
    pure (some name)
  | _ => pure none

def takeTag : Parse (Option String) := do
  match ← peek with
  | some (.tag name) => do
    skip
    let tag ← tagOf name
    pure (some tag)
  | _ => pure none

/-- The anchor and the tag before a node, in either order. -/
def properties : Parse (Option String × Option String) := do
  match ← takeAnchor with
  | some name => do
    let tag ← takeTag
    pure (some name, tag)
  | none => do
    let tag ← takeTag
    let anchor ← if tag.isSome then takeAnchor else pure none
    pure (anchor, tag)

def aliasOf (name : String) : Parse Node := do
  match (← get).anchors.lookup name with
  | some number => do
    count
    pure (.alias number)
  | none => fail

/-- The comma before an item or an entry, unless it is the first one. -/
def separator (isFirst : Bool) : Parse Unit :=
  if isFirst then pure () else expect .comma

mutual

/-- The node here; `inBlock` says whether a block may begin and `indentless` whether a sequence may
begin without one. The number bounds the steps. -/
def node (inBlock indentless : Bool) : Nat → Parse Node
  | 0 => fail
  | steps + 1 => do
    match ← peek with
    | some (.alias name) => do
      skip
      aliasOf name
    | _ => do
      let (anchor, tag) ← properties
      anchored anchor (content inBlock indentless (anchor.isSome || tag.isSome) tag steps)

/-- The node after its anchor and its tag, which may stand alone. -/
def content (inBlock indentless alone : Bool) (tag : Option String) : Nat → Parse Node
  | 0 => fail
  | steps + 1 => do
    match ← peek with
    | some (.scalar style s) => do
      skip
      leaf style tag s
    | some .item =>
      if indentless then collection (bareItems tag [] steps)
      else if alone then leaf .plain tag ""
      else fail
    | some .flowSequence => do
      skip
      collection (flowItems tag [] steps)
    | some .flowMapping => do
      skip
      collection (flowEntries tag [] steps)
    | some .blockSequence =>
      if inBlock then do
        skip
        collection (blockItems tag [] steps)
      else if alone then leaf .plain tag ""
      else fail
    | some .blockMapping =>
      if inBlock then do
        skip
        collection (blockEntries tag [] steps)
      else if alone then leaf .plain tag ""
      else fail
    | _ => if alone then leaf .plain tag "" else fail

/-- A node of a block, or nothing before one of the given tokens. -/
def blockPart (indentless : Bool) (ends : List Token) : Nat → Parse Node
  | 0 => fail
  | steps + 1 => do
    if ← isNext ends then absent else node true indentless steps

/-- A node between brackets, or nothing before one of the given tokens. -/
def flowPart (ends : List Token) : Nat → Parse Node
  | 0 => fail
  | steps + 1 => do
    if ← isNext ends then absent else node false false steps

/-- The rest of a block sequence; the items before it are given in reverse. -/
def blockItems (tag : Option String) (items : List Node) : Nat → Parse Node
  | 0 => fail
  | steps + 1 => do
    if ← isNext [.blockEnd] then do
      skip
      pure (.sequence tag items.reverse)
    else do
      expect .item
      let item ← blockPart false [.item, .blockEnd] steps
      blockItems tag (item :: items) steps

/-- The rest of a sequence in the column of the mapping that it stands in. -/
def bareItems (tag : Option String) (items : List Node) : Nat → Parse Node
  | 0 => fail
  | steps + 1 => do
    if ← isNext [.item] then do
      skip
      let item ← blockPart false [.item, .key, .value, .blockEnd] steps
      bareItems tag (item :: items) steps
    else pure (.sequence tag items.reverse)

/-- The rest of a block mapping; the entries before it are given in reverse. -/
def blockEntries (tag : Option String) (entries : List (Node × Node)) : Nat → Parse Node
  | 0 => fail
  | steps + 1 => do
    if ← isNext [.blockEnd] then do
      skip
      pure (.mapping tag entries.reverse)
    else do
      expect .key
      let key ← blockPart true [.key, .value, .blockEnd] steps
      let value ←
        if ← isNext [.value] then do
          skip
          blockPart true [.key, .value, .blockEnd] steps
        else absent
      blockEntries tag ((key, value) :: entries) steps

/-- The rest of a sequence between brackets; the items before it are given in reverse. -/
def flowItems (tag : Option String) (items : List Node) : Nat → Parse Node
  | 0 => fail
  | steps + 1 => do
    let finish := do
      skip
      pure (Node.sequence tag items.reverse)
    if ← isNext [.flowSequenceEnd] then finish
    else do
      separator items.isEmpty
      if ← isNext [.key] then do
        skip
        let pair ← collection (flowPair steps)
        flowItems tag (pair :: items) steps
      else if ← isNext [.flowSequenceEnd] then finish
      else do
        let item ← node false false steps
        flowItems tag (item :: items) steps

/-- A mapping of one entry in a sequence between brackets, after the mark of its key. A key that is
left out takes the token after it with it. -/
def flowPair : Nat → Parse Node
  | 0 => fail
  | steps + 1 => do
    let key ←
      if ← isNext [.value, .comma, .flowSequenceEnd] then do
        skip
        absent
      else node false false steps
    let value ← flowValue [.comma, .flowSequenceEnd] steps
    pure (.mapping none [(key, value)])

/-- The value after a key between brackets. -/
def flowValue (ends : List Token) : Nat → Parse Node
  | 0 => fail
  | steps + 1 => do
    if ← isNext [.value] then do
      skip
      flowPart ends steps
    else absent

/-- The rest of a mapping between brackets; the entries before it are given in reverse. -/
def flowEntries (tag : Option String) (entries : List (Node × Node)) : Nat → Parse Node
  | 0 => fail
  | steps + 1 => do
    let finish := do
      skip
      pure (Node.mapping tag entries.reverse)
    if ← isNext [.flowMappingEnd] then finish
    else do
      separator entries.isEmpty
      if ← isNext [.key] then do
        skip
        let key ← flowPart [.value, .comma, .flowMappingEnd] steps
        let value ← flowValue [.comma, .flowMappingEnd] steps
        flowEntries tag ((key, value) :: entries) steps
      else if ← isNext [.flowMappingEnd] then finish
      else do
        let key ← node false false steps
        let value ← absent
        flowEntries tag ((key, value) :: entries) steps

end

/-- Reads the directives before a document, of which none is given twice. -/
def directives (sawVersion : Bool) : Nat → Parse Unit
  | 0 => fail
  | steps + 1 => do
    match ← peek with
    | some (.directive (.version major minor)) =>
      if sawVersion || major ≠ 1 || (minor ≠ 1 && minor ≠ 2) then fail
      else do
        skip
        directives true steps
    | some (.directive (.handle handle stem)) =>
      if ((← get).handles.lookup handle).isSome then fail
      else do
        skip
        modify fun r => { r with handles := (handle, stem) :: r.handles }
        directives sawVersion steps
    | _ => pure ()

/-- What the handles that need no directive stand for. -/
def defaultHandles : List (String × String) :=
  [("!", "!"), ("!!", "tag:yaml.org,2002:")]

/-- Whether a directive comes next. -/
def isAtDirective : Parse Bool := do
  match ← peek with
  | some (.directive _) => pure true
  | _ => pure false

/-- The root of the document. Directives stand before the mark that begins it, and nothing may stand
after that mark. -/
def root (steps : Nat) : Parse Node := do
  let hasDirectives ← isAtDirective
  directives false steps
  modify fun r => { r with handles := r.handles ++ defaultHandles }
  let isMarked ← isNext [.documentStart]
  if isMarked then
    skip
    let isDirective ← isAtDirective
    let next ← peek
    if next.isNone || isDirective || next = some .documentStart || next = some .documentEnd then
      absent
    else node true false (4 * steps + 8)
  else if hasDirectives then fail
  else node true false (4 * steps + 8)

end Parse

/-- The document of some tokens, after which only marks of its end stand. -/
def Document.ofTokens? (tokens : List Token) : Option Document := do
  let (root, r) ← (Parse.root (tokens.length + 1)).run ⟨tokens, [], [], [], [], 0⟩
  if r.tokens.all (· = .documentEnd) then
    some ⟨root, r.places.filterMap fun (number, place) => (r.nodes.lookup place).map (number, ·),
      r.size⟩
  else none

end LiveMarkup.Yaml
