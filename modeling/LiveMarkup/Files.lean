import LiveMarkup.Dict

/-!
Where templates and style sheets that are named by a path come from: from memory, or from the files
below a directory. A path that could leave the directory is not followed.
-/

namespace LiveMarkup

/-- Files and directories. Names in a directory are distinct. -/
inductive FileTree where
  | file (content : ByteArray)
  | directory (entries : List (String × FileTree))

/-- Why the text of a file is not there: there is no such file, or its content is no text. -/
inductive LoadError where
  | notFound (path : String)
  | unreadable (path : String)
  deriving DecidableEq, Repr

def LoadError.message : LoadError → String
  | notFound path => "resource not found: " ++ path
  | unreadable path => "failed to read " ++ path ++ ": stream did not contain valid UTF-8"

/-- The text of a file, or why there is none. -/
abbrev Loader := String → Except LoadError String

namespace FileTree

/-- The parts of a path between slashes, empty ones too. -/
def segments : List Char → List (List Char)
  | [] => [[]]
  | c :: rest =>
    if c = '/' then [] :: segments rest
    else
      match segments rest with
      | [] => [[c]]
      | first :: more => (c :: first) :: more

/-- What lies at the end of a path. Empty parts and single dots stay where they are, in a directory;
`above` holds the directories around it, the nearest first. Nothing is known of what lies around the
tree. -/
def locate? (above : List FileTree) : List (List Char) → FileTree → Option FileTree
  | [], tree => some tree
  | _ :: _, file _ => none
  | name :: rest, directory entries =>
    if name = [] ∨ name = ['.'] then locate? above rest (directory entries)
    else if name = ['.', '.'] then
      match above with
      | outer :: further => locate? further rest outer
      | [] => none
    else
      (entries.lookup (String.ofList name)).bind (locate? (directory entries :: above) rest)

/-- What lies at a path from the top of a tree; absolute paths lead out of the tree. -/
def resolve? (tree : FileTree) (path : String) : Option FileTree :=
  if path.toList.head? = some '/' then none else locate? [] (segments path.toList) tree

/-- Puts a file under a name into a list of entries, over what was there. -/
def setEntry (name : String) (tree : FileTree) (entries : List (String × FileTree)) :
    List (String × FileTree) :=
  entries.filter (·.1 ≠ name) ++ [(name, tree)]

/-- Puts a file at the end of a path, in new directories where there are none. -/
def write (content : ByteArray) : List String → FileTree → FileTree
  | [], _ => file content
  | name :: rest, tree =>
    let entries := match tree with
      | directory entries => entries
      | file _ => []
    let below := (entries.lookup name).getD (directory [])
    directory (setEntry name (write content rest below) entries)

end FileTree

/-- Whether a path is absolute or has a part that leads upwards. -/
def leavesRoot (path : List Char) : Bool :=
  path.head? = some '/' || (FileTree.segments path).contains ['.', '.']

namespace Loader

/-- Loads nothing. -/
def empty : Loader :=
  fun path => .error (.notFound path)

def memory (entries : Dict String) : Loader :=
  fun path =>
    match entries.get? path with
    | some s => .ok s
    | none => .error (.notFound path)

/-- A path as it is written behind its root. -/
def joined (root path : String) : String :=
  if root.isEmpty || root.endsWith '/' then root ++ path else root ++ "/" ++ path

/-- The bytes that a path behind its root may have. -/
def maxPathBytes : Nat := 4079

/-- Whether a path is too long to name a file. -/
def isTooLong (root path : String) : Bool :=
  maxPathBytes < (joined root path).utf8ByteSize

/-- Loads files below a directory of a tree. -/
def files (tree : FileTree) (root : String) : Loader :=
  fun path =>
    if leavesRoot path.toList || isTooLong root path then .error (.notFound path)
    else
      match tree.resolve? (joined root path) with
      | some (.file content) =>
        match String.fromUTF8? content with
        | some s => .ok s
        | none => .error (.unreadable (joined root path))
      | _ => .error (.notFound path)

end Loader

end LiveMarkup
