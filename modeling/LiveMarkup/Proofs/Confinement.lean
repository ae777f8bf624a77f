import LiveMarkup.Files

/-!
# Confinement

The files of a loader lie below its root. A path is joined to the root as it is written, with its
slashes and dots, and what the joined text leads to is what the path leads to from the root
(`resolve?_joined`), as no part of it leads upwards. Main result: a result depends on nothing but what
lies at the root and below it, paths that could leave the root are not followed, and a text that is
loaded is the content of the file to which the names of the path lead (`files_confined`).
-/

namespace LiveMarkup

namespace FileTree

variable {tree tree' place : FileTree} {above above' : List FileTree}
  {parts front : List (List Char)}

/-! ### Names -/

/-- The names on a path: its parts without empty ones and single dots. -/
def names (parts : List (List Char)) : List String :=
  (parts.filter fun part => part ≠ [] ∧ part ≠ ['.']).map String.ofList

/-- What names lead to, each in the directory of the one before it. -/
def descend? : List String → FileTree → Option FileTree
  | [], tree => some tree
  | _ :: _, file _ => none
  | name :: rest, directory entries => (entries.lookup name).bind (descend? rest)

theorem segments_eq_splitOn (s : List Char) : segments s = s.splitOn '/' := by
  induction s with
  | nil => rfl
  | cons c rest ih =>
      rw [segments, List.splitOn, List.splitOnP_cons_eq_if_modifyHead, ← List.splitOn, ← ih]
      by_cases hc : c = '/'
      · simp only [if_pos hc, beq_iff_eq]
      · simp only [if_neg hc, beq_iff_eq]
        cases hrest : segments rest with
        | nil => exact absurd (ih ▸ hrest) (List.splitOn_ne_nil '/' rest)
        | cons first more => rfl

theorem segments_ne_nil (s : List Char) : segments s ≠ [] :=
  segments_eq_splitOn s ▸ List.splitOn_ne_nil '/' s

theorem segments_append_slash (front back : List Char) :
    segments (front ++ '/' :: back) = segments front ++ segments back := by
  simp only [segments_eq_splitOn, List.splitOn]
  exact List.splitOnP_append_cons front back rfl

theorem names_cons_of_stays {part : List Char} (h : part = [] ∨ part = ['.']) :
    names (part :: parts) = names parts := by
  obtain rfl | rfl := h <;> rfl

theorem names_cons_of_name {part : List Char} (h : ¬ (part = [] ∨ part = ['.'])) :
    names (part :: parts) = String.ofList part :: names parts := by
  rw [not_or] at h
  rw [names, List.filter_cons_of_pos (by simpa using h), List.map_cons, names]

/-! ### Paths that do not lead upwards -/

variable {part : List Char} {entries : List (String × FileTree)}

theorem locate?_cons_of_stays (h : part = [] ∨ part = ['.']) :
    locate? above (part :: parts) (directory entries) = locate? above parts (directory entries) :=
  if_pos h

theorem locate?_cons_of_name (h : ¬ (part = [] ∨ part = ['.'])) (hup : ['.', '.'] ≠ part) :
    locate? above (part :: parts) (directory entries) =
      (entries.lookup (String.ofList part)).bind (locate? (directory entries :: above) parts) :=
  (if_neg h).trans (if_neg hup.symm)

/-- Where a path leads that does not lead upwards depends on nothing above. -/
theorem locate?_above (hparts : ['.', '.'] ∉ parts) :
    locate? above parts tree = locate? above' parts tree := by
  induction parts generalizing above above' tree with
  | nil => rfl
  | cons part rest ih =>
      obtain ⟨hup, hrest⟩ := List.ne_and_not_mem_of_not_mem_cons hparts
      cases tree with
      | file content => rfl
      | directory entries =>
          by_cases hstays : part = [] ∨ part = ['.']
          · rw [locate?_cons_of_stays hstays, locate?_cons_of_stays hstays, ih hrest]
          · rw [locate?_cons_of_name hstays hup, locate?_cons_of_name hstays hup]
            exact Option.bind_congr fun below _ => ih hrest

theorem locate?_append (hparts : ['.', '.'] ∉ parts) :
    locate? above (front ++ parts) tree =
      (locate? above front tree).bind (locate? [] parts) := by
  induction front generalizing above tree with
  | nil => exact locate?_above hparts
  | cons part rest ih =>
      cases tree with
      | file content => rfl
      | directory entries =>
          rw [List.cons_append]
          by_cases hstays : part = [] ∨ part = ['.']
          · rw [locate?_cons_of_stays hstays, locate?_cons_of_stays hstays, ih]
          · by_cases hup : ['.', '.'] = part
            · subst hup
              cases above with
              | nil => rfl
              | cons outer further => exact ih
            · rw [locate?_cons_of_name hstays hup, locate?_cons_of_name hstays hup,
                Option.bind_assoc]
              exact Option.bind_congr fun below _ => ih

/-- A slash before a path leads nowhere else: with it or without it the path begins in a directory. -/
theorem locate?_slash (hparts : parts ≠ []) :
    locate? above ([] :: parts) tree = locate? above parts tree := by
  obtain ⟨part, rest, rfl⟩ := List.exists_cons_of_ne_nil hparts
  cases tree with
  | file content => rfl
  | directory entries => exact locate?_cons_of_stays (.inl rfl)

theorem descend?_of_locate? (hparts : ['.', '.'] ∉ parts)
    (h : locate? above parts tree = some place) : descend? (names parts) tree = some place := by
  induction parts generalizing above tree with
  | nil => exact h
  | cons part rest ih =>
      obtain ⟨hup, hrest⟩ := List.ne_and_not_mem_of_not_mem_cons hparts
      cases tree with
      | file content => cases h
      | directory entries =>
          by_cases hstays : part = [] ∨ part = ['.']
          · rw [locate?_cons_of_stays hstays] at h
            rw [names_cons_of_stays hstays]
            exact ih hrest h
          · rw [locate?_cons_of_name hstays hup, Option.bind_eq_some_iff] at h
            obtain ⟨below, hlookup, hbelow⟩ := h
            rw [names_cons_of_name hstays, descend?, hlookup]
            exact ih hrest hbelow

/-! ### Places that look the same -/

/-- What is in a file; nothing for a directory. -/
def content? : FileTree → Option ByteArray
  | file content => some content
  | directory _ => none

/-- The same lies at two places and below them: where names lead from the one they lead from the other,
to a directory as to a directory and to a file as to a file of the same content. -/
def Alike (place place' : Option FileTree) : Prop :=
  ∀ names, (place.bind (descend? names)).map content? = (place'.bind (descend? names)).map content?

/-- A path that does not lead upwards ends alike from places that look the same. -/
theorem Alike.locate? {place place' : Option FileTree} (h : Alike place place')
    (hparts : ['.', '.'] ∉ parts) :
    (place.bind (locate? above parts)).map content? =
      (place'.bind (locate? above' parts)).map content? := by
  induction parts generalizing above above' place place' with
  | nil => exact h []
  | cons part rest ih =>
      obtain ⟨hup, hrest⟩ := List.ne_and_not_mem_of_not_mem_cons hparts
      match place, place', h, h [] with
      | none, none, _, _ => rfl
      | some (file _), some (file _), _, _ => rfl
      | some (directory entries), some (directory entries'), h, _ =>
          simp only [Option.bind_some]
          by_cases hstays : part = [] ∨ part = ['.']
          · rw [locate?_cons_of_stays hstays, locate?_cons_of_stays hstays]
            exact ih h hrest
          · rw [locate?_cons_of_name hstays hup, locate?_cons_of_name hstays hup]
            exact ih (fun names => h (String.ofList part :: names)) hrest

end FileTree

namespace Loader

open FileTree

variable {tree tree' : FileTree} {root path s : String} {content : ByteArray}

/-! ### Joined paths -/

/-- A path that is absolute or has a part that leads upwards. -/
def Escapes (path : String) : Prop :=
  (∃ rest, path.toList = '/' :: rest) ∨ ['.', '.'] ∈ path.toList.splitOn '/'

theorem leavesRoot_iff : leavesRoot path.toList = true ↔ Escapes path := by
  rw [leavesRoot, Bool.or_eq_true, decide_eq_true_iff, List.contains_iff_mem, segments_eq_splitOn,
    Escapes, List.head?_eq_some_iff]

theorem not_mem_segments (hpath : ¬ Escapes path) : ['.', '.'] ∉ segments path.toList :=
  fun hmem => hpath (.inr (segments_eq_splitOn path.toList ▸ hmem))

theorem toList_joined (root path : String) :
    (joined root path).toList = root.toList ++ path.toList ∧
        (root = "" ∨ ∃ front, root.toList = front ++ ['/']) ∨
      (joined root path).toList = root.toList ++ '/' :: path.toList ∧ root ≠ "" := by
  by_cases hroot : (root.isEmpty || root.endsWith '/') = true
  · refine .inl ⟨by rw [joined, if_pos hroot, String.toList_append], ?_⟩
    rw [Bool.or_eq_true, String.isEmpty_iff, String.endsWith_char_iff_exists_append] at hroot
    refine hroot.imp_right fun ⟨front, hfront⟩ => ⟨front.toList, ?_⟩
    rw [hfront, String.toList_append, String.toList_singleton]
  · refine .inr ⟨?_, fun hnil => hroot (by rw [hnil]; rfl)⟩
    rw [joined, if_neg hroot, String.toList_append, String.toList_append, List.append_assoc]
    rfl

/-- The parts of a path follow those of its root, but for the slash at the end of the root. -/
theorem exists_segments_joined (root path : String) :
    ∃ front, segments (joined root path).toList = front ++ segments path.toList ∧
      (segments root.toList = front ∨ segments root.toList = front ++ [[]]) := by
  obtain ⟨hjoined, rfl | ⟨front, hroot⟩⟩ | ⟨hjoined, -⟩ := toList_joined root path
  · exact ⟨[], by rw [hjoined]; rfl, .inr rfl⟩
  · rw [hjoined, hroot, List.append_assoc]
    exact ⟨segments front, segments_append_slash front path.toList,
      .inr (segments_append_slash front [])⟩
  · rw [hjoined]
    exact ⟨segments root.toList, segments_append_slash root.toList path.toList, .inl rfl⟩

theorem head?_joined (hpath : ¬ Escapes path) :
    (joined root path).toList.head? = some '/' ↔ root.toList.head? = some '/' := by
  obtain ⟨hjoined, rfl | ⟨front, hroot⟩⟩ | ⟨hjoined, hne⟩ := toList_joined root path
  · refine iff_of_false (fun h => hpath (.inl ?_)) nofun
    rwa [hjoined, List.head?_eq_some_iff] at h
  · rw [hjoined, List.head?_append, Option.or_of_isSome (List.isSome_head?.mpr (by simp [hroot]))]
  · have hroot : root.toList ≠ [] := mt String.toList_eq_nil_iff.mp hne
    rw [hjoined, List.head?_append, Option.or_of_isSome (List.isSome_head?.mpr hroot)]

/-- **A joined text leads where the path leads from the root.** -/
theorem resolve?_joined (hpath : ¬ Escapes path) :
    tree.resolve? (joined root path) =
      (tree.resolve? root).bind (locate? [] (segments path.toList)) := by
  have hup := not_mem_segments hpath
  by_cases hroot : root.toList.head? = some '/'
  · rw [resolve?, resolve?, if_pos hroot, if_pos ((head?_joined hpath).mpr hroot)]
    rfl
  · rw [resolve?, resolve?, if_neg hroot, if_neg (mt (head?_joined hpath).mp hroot)]
    obtain ⟨front, hjoined, hfront | hfront⟩ := exists_segments_joined root path
    · rw [hjoined, hfront, locate?_append hup]
    · rw [hjoined, hfront, locate?_append hup, locate?_append (by decide), Option.bind_assoc]
      refine Option.bind_congr fun below _ => ?_
      rw [← locate?_append hup, List.singleton_append, locate?_slash (segments_ne_nil path.toList)]

/-! ### What is loaded -/

theorem fromUTF8?_eq_some_iff : String.fromUTF8? content = some s ↔ content = s.toUTF8 := by
  rw [String.fromUTF8?]
  split
  · rename_i hvalid
    rw [Option.some_inj, ← String.toByteArray_inj]
    exact Iff.rfl
  · rename_i hinvalid
    refine iff_of_false nofun fun h => hinvalid (h ▸ s.isValidUTF8)

theorem files_of_escapes (h : Escapes path) : files tree root path = .error (.notFound path) := by
  rw [files, leavesRoot_iff.mpr h, Bool.true_or, if_pos rfl]

theorem files_of_alike (h : Alike (tree.resolve? root) (tree'.resolve? root)) :
    files tree root path = files tree' root path := by
  by_cases hpath : Escapes path
  · rw [files_of_escapes hpath, files_of_escapes hpath]
  · have hsame : (tree.resolve? (joined root path)).map content? =
        (tree'.resolve? (joined root path)).map content? := by
      rw [resolve?_joined hpath, resolve?_joined hpath]
      exact h.locate? (not_mem_segments hpath)
    rw [files, files]
    match tree.resolve? (joined root path), tree'.resolve? (joined root path), hsame with
    | none, none, _ => rfl
    | some (.directory _), some (.directory _), _ => rfl
    | some (.file content), some (.file _), h =>
        cases h
        rfl

theorem files_eq_ok_iff :
    files tree root path = .ok s ↔ ¬ Escapes path ∧ isTooLong root path = false ∧
      tree.resolve? (joined root path) = some (.file s.toUTF8) := by
  rw [files]
  by_cases hrefused : (leavesRoot path.toList || isTooLong root path) = true
  · rw [if_pos hrefused]
    rw [Bool.or_eq_true, leavesRoot_iff] at hrefused
    refine iff_of_false nofun fun ⟨hpath, hlong, _⟩ => ?_
    exact hrefused.elim hpath (by rw [hlong]; nofun)
  · rw [if_neg hrefused]
    rw [Bool.or_eq_true, leavesRoot_iff, not_or, Bool.not_eq_true] at hrefused
    rw [and_iff_right hrefused.1, and_iff_right hrefused.2]
    cases tree.resolve? (joined root path) with
    | none => exact iff_of_false nofun nofun
    | some place =>
        cases place with
        | directory entries => exact iff_of_false nofun nofun
        | file content =>
            rw [Option.some_inj, FileTree.file.injEq, ← fromUTF8?_eq_some_iff]
            dsimp only
            cases String.fromUTF8? content with
            | none => exact iff_of_false nofun nofun
            | some text => rw [Except.ok.injEq, Option.some_inj]

/-- A loader of files below a root stays below it. -/
structure Confined (root path : String) : Prop where
  /-- Nothing counts but what lies at the root and below it. -/
  alike (tree tree' : FileTree) : Alike (tree.resolve? root) (tree'.resolve? root) →
    files tree root path = files tree' root path
  escapes : Escapes path → ∀ tree : FileTree, files tree root path = .error (.notFound path)
  loaded (tree : FileTree) (s : String) : files tree root path = .ok s ↔
    ¬ Escapes path ∧ isTooLong root path = false ∧
      tree.resolve? (joined root path) = some (.file s.toUTF8)
  /-- A text that is loaded lies where the names of the path lead from the root. -/
  descends (tree : FileTree) (s : String) : files tree root path = .ok s →
    (tree.resolve? root).bind (descend? (names (path.toList.splitOn '/'))) =
      some (.file s.toUTF8)

/-- **Files are loaded from below the root only.** -/
theorem files_confined (root path : String) : Confined root path where
  alike _ _ := files_of_alike
  escapes h _ := files_of_escapes h
  loaded _ _ := files_eq_ok_iff
  descends tree s h := by
    obtain ⟨hpath, -, hplace⟩ := files_eq_ok_iff.mp h
    rw [resolve?_joined hpath, Option.bind_eq_some_iff] at hplace
    obtain ⟨place, hroot, hplace⟩ := hplace
    rw [hroot, Option.bind_some, ← segments_eq_splitOn]
    exact descend?_of_locate? (not_mem_segments hpath) hplace

/-- A directory with one file in a directory below it. -/
def shelf : FileTree :=
  .directory [("a", .directory [("b.txt", .file "x".toUTF8)])]

/-- What lies beside a root does not count, and no path leads there. -/
theorem files_confined_shelf :
    files (.directory [("key", .file "k".toUTF8), ("in", shelf)]) "in" "./a//b.txt" =
        files (.directory [("in", shelf), ("out", shelf)]) "in" "./a//b.txt" ∧
      files (.directory [("in", shelf), ("out", shelf)]) "in" "./a//b.txt" = .ok "x" ∧
      files (.directory [("key", .file "k".toUTF8), ("in", shelf)]) "in" "a/../../key" =
        .error (.notFound "a/../../key") := by
  have hpath : ¬ Escapes "./a//b.txt" := mt leavesRoot_iff.mpr (by decide +kernel)
  have hescapes : Escapes "a/../../key" := leavesRoot_iff.mp (by decide +kernel)
  refine ⟨(files_confined _ _).alike _ _ ?_, ((files_confined _ _).loaded _ _).mpr ?_,
    (files_confined _ _).escapes hescapes _⟩
  · exact fun _ => rfl
  · exact ⟨hpath, by decide +kernel, by rw [resolve?_joined hpath]; rfl⟩

end Loader

end LiveMarkup
