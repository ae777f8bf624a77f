import LiveMarkup.Proofs.Expr.Updates
import LiveMarkup.Proofs.Template.Statements

/-!
# Assignments

What a handler does with one assignment: it compiles the source that the value is pasted into, unless
the value runs over a line (`compile_assignment`). `=` takes the values that read as expressions and no
others (`compile_plain_iff`). `+=` and `-=` take those that leave room for parentheses around them
(`compile_update`) and more, since parentheses in a value can close the ones around it
(`compile_escape`).
-/

namespace LiveMarkup

namespace Handler

open Text (AreBlank trim)

variable {field rhs s t : List Char} {sign : Option Char}

/-! ### The text of an assignment -/

/-- What stands before the value. -/
def assignmentFront (field : List Char) (sign : Option Char) : List Char :=
  "this.".toList ++ field ++ ' ' :: (sign.toList ++ ['=', ' '])

theorem assignmentFront_append (field : List Char) (sign : Option Char) (rhs : List Char) :
    assignmentFront field sign ++ rhs =
      "this.".toList ++ (field ++ ' ' :: (sign.toList ++ '=' :: ' ' :: rhs)) := by
  change "this.".toList ++ field ++ ' ' :: (sign.toList ++ ['=', ' ']) ++ rhs = _
  generalize "this.".toList = front
  simp

def assignmentText (field : List Char) (sign : Option Char) (rhs : List Char) : String :=
  String.ofList (assignmentFront field sign ++ rhs)

/-- A value without blanks at its ends and without semicolons outside quotes. -/
structure IsValue (rhs : List Char) : Prop where
  ne_nil : rhs ≠ []
  trimmed : trim rhs = rhs
  whole : ';' ∉ unquoted .outside rhs

theorem isBare_assignmentFront (hfield : IsName field) (hsign : ∀ c ∈ sign, c = '+' ∨ c = '-') :
    IsBare (assignmentFront field sign) ∧ ';' ∉ assignmentFront field sign := by
  have hmark : IsBare (' ' :: (sign.toList ++ ['=', ' '])) ∧
      ';' ∉ ' ' :: (sign.toList ++ ['=', ' ']) := by
    cases sign with
    | none => decide
    | some c => obtain rfl | rfl := hsign c rfl <;> decide
  have hname : ';' ∉ field := fun hmem => absurd (hfield.word _ hmem) (by decide)
  refine ⟨isBare_append.mpr ⟨isBare_append.mpr ⟨isBare_this, hfield.isBare⟩, hmark.1⟩, ?_⟩
  intro hmem
  rcases List.mem_append.mp hmem with hmem | hmem
  · rcases List.mem_append.mp hmem with hmem | hmem
    · exact absurd hmem (by decide)
    · exact hname hmem
  · exact hmark.2 hmem

theorem statementTexts_assignment (hfield : IsName field) (hsign : ∀ c ∈ sign, c = '+' ∨ c = '-')
    (h : IsValue rhs) : statementTexts (assignmentText field sign rhs) =
      [assignmentFront field sign ++ rhs] := by
  obtain ⟨hbare, hseparator⟩ := isBare_assignmentFront hfield hsign
  have htrim : trim (assignmentFront field sign ++ rhs) = assignmentFront field sign ++ rhs :=
    Text.trim_append_of_trim (c := 't') (by decide) h.trimmed h.ne_nil _
  have hwhole : ';' ∉ unquoted .outside (assignmentFront field sign ++ rhs) := by
    rw [unquoted_append, behind_bare hbare, List.mem_append, not_or]
    exact ⟨fun hmem => hseparator (unquoted_subset hmem), h.whole⟩
  have hhead : trim (assignmentText field sign rhs).toList =
      't' :: ("his.".toList ++ field ++ ' ' :: (sign.toList ++ ['=', ' ']) ++ rhs) := by
    rw [assignmentText, String.toList_ofList, htrim]
    rfl
  rw [statementTexts_of_head hhead (by decide) (by decide), assignmentText, String.toList_ofList, texts,
    splitIn_eq_singleton hwhole, List.map_singleton, htrim]
  rfl

/-! ### Its field and its value -/

theorem strip?_append (front s : List Char) : strip? front (front ++ s) = some s := by
  rw [strip?, if_pos (List.isPrefixOf_iff_prefix.mpr (List.prefix_append front s)), List.drop_left]

theorem takeWhile_name (hfield : IsName field) (s : List Char) :
    (field ++ ' ' :: s).takeWhile Text.isWord = field ∧
      (field ++ ' ' :: s).dropWhile Text.isWord = ' ' :: s := by
  have hspace : Text.isWord ' ' = false := by decide
  rw [List.takeWhile_append_of_pos hfield.word, List.dropWhile_append_of_pos hfield.word,
    List.takeWhile_cons_of_neg (by simp [hspace]), List.dropWhile_cons_of_neg (by simp [hspace]),
    List.append_nil]
  exact ⟨rfl, rfl⟩

theorem skipBlanks_space {c : Char} (hc : Text.isBlank c = false) (s : List Char) :
    skipBlanks (' ' :: c :: s) = c :: s := by
  have hspace : Text.isBlank ' ' = true := by decide
  rw [skipBlanks, List.dropWhile_cons_of_pos hspace, List.dropWhile_cons_of_neg (by simp [hc])]

theorem fieldAt?_assignment (hfield : IsName field) (hsign : ∀ c ∈ sign, c = '+' ∨ c = '-')
    (rhs : List Char) : fieldAt? (assignmentFront field sign ++ rhs) =
      some (field, sign.toList ++ '=' :: ' ' :: rhs) := by
  have hblanks : skipBlanks (' ' :: (sign.toList ++ '=' :: ' ' :: rhs)) =
      sign.toList ++ '=' :: ' ' :: rhs := by
    cases sign with
    | none => exact skipBlanks_space (by decide) _
    | some c => obtain rfl | rfl := hsign c rfl <;> exact skipBlanks_space (by decide) _
  have hne : field.isEmpty = false := by
    simpa using hfield.ne_nil
  obtain ⟨htake, hdrop⟩ := takeWhile_name hfield (sign.toList ++ '=' :: ' ' :: rhs)
  rw [fieldAt?, assignmentFront_append, strip?_append]
  dsimp only [Option.bind_eq_bind, Option.bind_some]
  rw [htake, hdrop, hblanks, hne, if_neg (by decide)]

theorem rightSide?_space (h : IsValue rhs) :
    rightSide? (' ' :: rhs) = if '\n' ∈ rhs then none else some rhs := by
  obtain ⟨c, more, hrhs⟩ := List.exists_cons_of_ne_nil h.ne_nil
  have hc : Text.isBlank c = false := Text.isBlank_head_trim (h.trimmed.trans hrhs)
  have hblanks : skipBlanks (' ' :: rhs) = rhs := by
    rw [hrhs, skipBlanks_space hc]
  have hempty : rhs.isEmpty = false := by
    simpa using h.ne_nil
  rw [rightSide?, hblanks, h.trimmed]
  simp only [hempty, Bool.false_eq_true, false_or, List.contains_iff_mem]

theorem assignment?_assignment (hfield : IsName field) (hsign : ∀ c ∈ sign, c = '+' ∨ c = '-')
    (h : IsValue rhs) : assignment? (assignmentFront field sign ++ rhs) =
      if '\n' ∈ rhs then none else some (field, sign, rhs) := by
  rw [assignment?, fieldAt?_assignment hfield hsign]
  dsimp only [Option.bind_eq_bind, Option.bind_some]
  have hmap : ∀ {α : Type} (f : List Char → α),
      (rightSide? (' ' :: rhs)).map f = if '\n' ∈ rhs then none else some (f rhs) := by
    intro α f
    rw [rightSide?_space h]
    split <;> rfl
  cases sign with
  | none => exact hmap _
  | some c => obtain rfl | rfl := hsign c rfl <;> exact hmap _

theorem step?_assignment (hfield : IsName field) (hsign : ∀ c ∈ sign, c = '+' ∨ c = '-')
    (rhs : List Char) : step? (assignmentFront field sign ++ rhs) = none := by
  rw [step?, fieldAt?_assignment hfield hsign]
  cases sign with
  | none => rfl
  | some c => obtain rfl | rfl := hsign c rfl <;> rfl

theorem methodAt?_eq_none {c : Char} (h : skipBlanks (s.dropWhile Text.isWord) = c :: t)
    (hc : c ≠ '(') : methodAt? s = none := by
  rw [methodAt?, h]
  simp [strip?, Ne.symm hc]

theorem method?_assignment (hfield : IsName field) (hsign : ∀ c ∈ sign, c = '+' ∨ c = '-')
    (rhs : List Char) : method? (assignmentFront field sign ++ rhs) = none := by
  have hdrop := (takeWhile_name hfield (sign.toList ++ '=' :: ' ' :: rhs)).2
  have hthis : methodAt? (field ++ ' ' :: (sign.toList ++ '=' :: ' ' :: rhs)) = none := by
    cases sign with
    | none => exact methodAt?_eq_none (hdrop ▸ skipBlanks_space (by decide) _) (by decide)
    | some c =>
        obtain rfl | rfl := hsign c rfl
        · exact methodAt?_eq_none (hdrop ▸ skipBlanks_space (by decide) _) (by decide)
        · exact methodAt?_eq_none (hdrop ▸ skipBlanks_space (by decide) _) (by decide)
  have hbare : methodAt? ("this.".toList ++ (field ++ ' ' :: (sign.toList ++ '=' :: ' ' :: rhs))) =
      none :=
    methodAt?_eq_none (c := '.') rfl (by decide)
  rw [method?, assignmentFront_append, strip?_append]
  dsimp only [Option.bind_some]
  rw [hthis, hbare]

/-! ### The assignment -/

theorem compileStatement_assignment (location : String) (hfield : IsName field)
    (hsign : ∀ c ∈ sign, c = '+' ∨ c = '-') (h : IsValue rhs) :
    compileStatement location (assignmentFront field sign ++ rhs) =
      if '\n' ∈ rhs ∨ sign = none ∧ rhs.head? = some '=' then
        .error (.expression location
          (.unsupportedStatement (String.ofList (assignmentFront field sign ++ rhs))))
      else assign location field (assignedSource field sign rhs) := by
  rw [compileStatement, step?_assignment hfield hsign, assignment?_assignment hfield hsign h,
    method?_assignment hfield hsign]
  by_cases hline : '\n' ∈ rhs
  · rw [if_pos hline, if_pos (Or.inl hline)]
  · rw [if_neg hline]
    simp only [hline, false_or, Option.isNone_iff_eq_none]

/-- An assignment compiles to the source that its value is pasted into, unless the value runs over a line
or begins with an equals sign behind the one of the assignment. -/
theorem compile_assignment (hfield : IsName field) (hsign : ∀ c ∈ sign, c = '+' ∨ c = '-')
    (h : IsValue rhs) : compile (assignmentText field sign rhs) =
      if '\n' ∈ rhs ∨ sign = none ∧ rhs.head? = some '=' then
        .error (.expression (assignmentText field sign rhs)
          (.unsupportedStatement (assignmentText field sign rhs)))
      else
        (assign (assignmentText field sign rhs) field (assignedSource field sign rhs)).map fun st =>
          ⟨assignmentText field sign rhs, [st]⟩ := by
  rw [compile, statementTexts_assignment hfield hsign h, List.mapM_cons, List.mapM_nil,
    compileStatement_assignment _ hfield hsign h]
  split
  · rfl
  · cases assign (assignmentText field sign rhs) field (assignedSource field sign rhs) <;> rfl

/-- A plain assignment compiles where its value reads as an expression on one line, and stores that
expression. -/
theorem compile_plain_iff (hfield : IsName field) (h : IsValue rhs) {handler : Handler} :
    compile (assignmentText field none rhs) = .ok handler ↔ '\n' ∉ rhs ∧
      ∃ e, Expr.read? (String.ofList rhs) = some e ∧ handler =
        ⟨assignmentText field none rhs,
          [.assign (String.ofList field) (String.ofList rhs) e]⟩ := by
  rw [compile_assignment hfield (by simp) h]
  by_cases hline : '\n' ∈ rhs
  · simp [hline]
  by_cases hequals : rhs.head? = some '='
  · obtain ⟨s, rfl⟩ : ∃ s, rhs = '=' :: s := by
      cases rhs with
      | nil => cases hequals
      | cons c s => exact ⟨s, by rw [Option.some.inj hequals]⟩
    rw [Expr.read?_equals]
    simp
  · have hassign : assign (assignmentText field none rhs) field (assignedSource field none rhs) =
        assign (assignmentText field none rhs) field rhs := rfl
    rw [if_neg (by simp [hline, hequals]), hassign, assign]
    cases Expr.read? (String.ofList rhs) with
    | none => simp [Except.map]
    | some e => simp [Except.map, hline, eq_comm]

theorem isAscii_of_isAlphanum {c : Char} (h : c.isAlphanum = true) : Text.isAscii c = true := by
  simp only [Char.isAlphanum, Char.isAlpha, Char.isUpper, Char.isLower, Char.isDigit, Text.isAscii,
    Bool.or_eq_true, Bool.and_eq_true, decide_eq_true_eq, ge_iff_le, UInt32.le_iff_toNat_le,
    Char.toNat] at h ⊢
  rcases h with (⟨-, h⟩ | ⟨-, h⟩) | ⟨-, h⟩
  · exact Nat.lt_of_le_of_lt h (by decide)
  · exact Nat.lt_of_le_of_lt h (by decide)
  · exact Nat.lt_of_le_of_lt h (by decide)

theorem isWord_of_isNamePart {c : Char} (h : Expr.isNamePart c = true) : Text.isWord c = true := by
  rw [Expr.isNamePart, Bool.or_eq_true, decide_eq_true_eq] at h
  rcases h with h | rfl
  · rw [Text.isWord, if_pos (isAscii_of_isAlphanum h), h]
    rfl
  · rfl

theorem isName_of_isIdentifier (h : Expr.IsIdentifier field) : IsName field := by
  refine ⟨?_, fun c hc => isWord_of_isNamePart (List.all_eq_true.mp h.parts c hc)⟩
  rintro rfl
  cases h.first

/-- What an assignment with a sign stores, from the source that the value is pasted into. -/
theorem compile_of_read? {c : Char} {op : Expr.BinaryOp} {e : Expr.Term} (hop : Expr.IsUpdate c op)
    (hfield : Expr.IsIdentifier field) (h : IsValue rhs) (hline : '\n' ∉ rhs)
    (hread : Expr.read?
      (String.ofList ("this.".toList ++ field ++ [' ', c, ' ', '('] ++ rhs ++ [')'])) = some e) :
    compile (assignmentText field (some c) rhs) = .ok ⟨assignmentText field (some c) rhs,
      [.assign (String.ofList field) (String.ofList (assignedSource field (some c) rhs)) e]⟩ := by
  have hsign : ∀ d ∈ some c, d = '+' ∨ d = '-' := by
    rintro d ⟨⟩
    cases hop with
    | add => exact Or.inl rfl
    | sub => exact Or.inr rfl
  have hassign : assign (assignmentText field (some c) rhs) field (assignedSource field (some c) rhs) =
      .ok (.assign (String.ofList field) (String.ofList (assignedSource field (some c) rhs)) e) := by
    rw [assign, assignedSource_some, hread]
  rw [compile_assignment (isName_of_isIdentifier hfield) hsign h, if_neg (by simp [hline]), hassign]
  rfl

/-- A value that reads as an expression is added to the field or taken away from it. -/
theorem compile_update {c : Char} {op : Expr.BinaryOp} {e : Expr.Term} (hop : Expr.IsUpdate c op)
    (hfield : Expr.IsIdentifier field) (h : IsValue rhs) (hline : '\n' ∉ rhs)
    (hrhs : Expr.IsEnclosable (String.ofList rhs) e) :
    compile (assignmentText field (some c) rhs) = .ok ⟨assignmentText field (some c) rhs,
      [.assign (String.ofList field) (String.ofList (assignedSource field (some c) rhs))
        (.binary op (.member (.name "this") (String.ofList field)) e)]⟩ :=
  compile_of_read? hop hfield h hline (Expr.read?_update hop hfield hrhs)

/-- A value that closes the parenthesis around it and opens another one is no expression, and yet it is
compiled, as two operands. -/
theorem compile_escape {first second : List Char} {c c' : Char} {op op' : Expr.BinaryOp}
    {e e' : Expr.Term} (hop : Expr.IsUpdate c op) (hop' : Expr.IsUpdate c' op')
    (hfield : Expr.IsIdentifier field)
    (hfirst : Expr.IsEnclosable (String.ofList first) e)
    (hsecond : Expr.IsEnclosable (String.ofList second) e')
    (h : IsValue (first ++ [')', ' ', c', ' ', '('] ++ second))
    (hline : '\n' ∉ first ++ [')', ' ', c', ' ', '('] ++ second) :
    Expr.read? (String.ofList (first ++ [')', ' ', c', ' ', '('] ++ second)) = none ∧
    compile (assignmentText field (some c) (first ++ [')', ' ', c', ' ', '('] ++ second)) =
      .ok ⟨assignmentText field (some c) (first ++ [')', ' ', c', ' ', '('] ++ second),
        [.assign (String.ofList field)
          (String.ofList (assignedSource field (some c) (first ++ [')', ' ', c', ' ', '('] ++ second)))
          (.binary op' (.binary op (.member (.name "this") (String.ofList field)) e) e')]⟩ := by
  refine ⟨?_, compile_of_read? hop hfield h hline
    (Expr.read?_update_update hop hop' hfield hfirst hsecond)⟩
  have hclose := Expr.read?_close hfirst (' ' :: c' :: ' ' :: '(' :: second)
  rwa [List.append_assoc]

end Handler

end LiveMarkup
