import LiveMarkup.Dict
import LiveMarkup.Text.Chars

/-!
The fields that a text names as `this.field`, whatever stands around them. The word before the dot
may be written in capitals, and it begins where no word character stands before it.
-/

namespace LiveMarkup.Dependencies

/-- The letters that stand for each letter of the word before the dot. -/
def keyword : List (List Char) :=
  [['t', 'T'], ['h', 'H'], ['i', 'I'], ['s', 'S', 'ſ'], ['.']]

/-- The text after letters of the given classes. -/
def after? : List (List Char) → List Char → Option (List Char)
  | [], s => some s
  | letters :: more, c :: rest => if letters.contains c then after? more rest else none
  | _ :: _, [] => none

theorem length_of_after? {letters : List (List Char)} {s rest : List Char}
    (h : after? letters s = some rest) : rest.length + letters.length = s.length := by
  induction letters generalizing s with
  | nil =>
    simp only [after?, Option.some.injEq] at h
    simp [h]
  | cons first more ih =>
    cases s with
    | nil => simp [after?] at h
    | cons c s =>
      unfold after? at h
      split at h
      · have := ih h
        simp only [List.length_cons]
        omega
      · simp at h

/-- The name of a field at the front of a text, after the keyword, and the text after the name. -/
def reference? (s : List Char) : Option (List Char × List Char) :=
  match after? keyword s with
  | none => none
  | some rest =>
    if (rest.takeWhile Text.isWord).isEmpty then none
    else some (rest.takeWhile Text.isWord, rest.dropWhile Text.isWord)

theorem length_lt_of_reference? {s name rest : List Char} (h : reference? s = some (name, rest)) :
    rest.length < s.length := by
  unfold reference? at h
  split at h
  · simp at h
  · rename_i tail htail
    split at h
    · simp at h
    · simp only [Option.some.injEq, Prod.mk.injEq] at h
      obtain ⟨-, rfl⟩ := h
      have := length_of_after? htail
      have := (List.dropWhile_sublist (l := tail) Text.isWord).length_le
      simp only [keyword, List.length_cons, List.length_nil] at *
      omega

/-- The names in the order of the text; `afterWord` says whether a word character stands before it.
-/
def references (afterWord : Bool) (s : List Char) : List String :=
  match s with
  | [] => []
  | c :: rest =>
    match h : if afterWord then none else reference? (c :: rest) with
    | some (name, after) =>
      have : after.length < rest.length + 1 := by
        cases afterWord <;> simp at h
        exact length_lt_of_reference? h
      String.ofList name :: references true after
    | none => references (Text.isWord c) rest
termination_by s.length

/-- Adds the fields that a text names. -/
def scanInto (source : String) (names : Names) : Names :=
  names.union (references false source.toList)

def scan (source : String) : Names :=
  scanInto source []

end LiveMarkup.Dependencies
