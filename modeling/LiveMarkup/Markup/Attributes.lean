import LiveMarkup.Dom.Basic
import LiveMarkup.Markup.Reference
import LiveMarkup.Markup.Token

/-!
The attributes of a start tag. A value may be quoted, bare or absent, and blanks may stand around
the equals sign. Reading stops at a name that was there before and at a value that is missing or not
closed.
-/

namespace LiveMarkup.Markup

inductive AttributeStep where
  | done
  | bad
  | item (name value rest : List Char)

/-- The value after an equals sign. -/
def valueStep (name s : List Char) : AttributeStep :=
  match s.dropWhile isTagBlank with
  | [] => .bad
  | c :: rest =>
    if c = '"' ∨ c = '\'' then
      match Text.cut [c] rest with
      | some (value, after) => .item name value after
      | none => .bad
    else
      .item name (c :: rest.takeWhile fun c => !isTagBlank c)
        (rest.dropWhile fun c => !isTagBlank c)

def endsName (c : Char) : Bool :=
  c = '=' || isTagBlank c

/-- The first attribute of a text. A name has one character at least, so it may begin with an equals
sign. -/
def attributeStep (s : List Char) : AttributeStep :=
  match s.dropWhile isTagBlank with
  | [] => .done
  | c :: rest =>
    let name := c :: rest.takeWhile fun c => !endsName c
    match (rest.dropWhile fun c => !endsName c).dropWhile isTagBlank with
    | '=' :: after => valueStep name after
    | after => .item name [] after

theorem length_lt_of_valueStep {name s n v rest : List Char}
    (h : valueStep name s = .item n v rest) : rest.length < s.length := by
  have hdrop := (List.dropWhile_sublist (l := s) isTagBlank).length_le
  unfold valueStep at h
  split at h
  · simp at h
  · rename_i c after heq
    rw [heq] at hdrop
    simp only [List.length_cons] at hdrop
    split at h
    · split at h
      · rename_i value after' hcut
        simp only [AttributeStep.item.injEq] at h
        obtain ⟨-, -, rfl⟩ := h
        have := Text.length_lt_of_cut (by simp) hcut
        omega
      · simp at h
    · simp only [AttributeStep.item.injEq] at h
      obtain ⟨-, -, rfl⟩ := h
      have := (List.dropWhile_sublist (l := after) fun c => !isTagBlank c).length_le
      omega

theorem length_lt_of_attributeStep {s name value rest : List Char}
    (h : attributeStep s = .item name value rest) : rest.length < s.length := by
  have hdrop := (List.dropWhile_sublist (l := s) isTagBlank).length_le
  unfold attributeStep at h
  split at h
  · simp at h
  · rename_i c after heq
    rw [heq] at hdrop
    simp only [List.length_cons] at hdrop
    have hname := (List.dropWhile_sublist (l := after) fun c => !endsName c).length_le
    have hblank := (List.dropWhile_sublist (l := after.dropWhile fun c => !endsName c)
      isTagBlank).length_le
    simp only at h
    split at h
    · rename_i more heq
      rw [heq] at hblank
      simp only [List.length_cons] at hblank
      have := length_lt_of_valueStep h
      omega
    · simp only [AttributeStep.item.injEq] at h
      obtain ⟨-, -, rfl⟩ := h
      omega

structure Attributes where
  /-- The attributes up to the first bad one. -/
  items : List Attribute
  complete : Bool

/-- Reads attributes after those named in `seen`. -/
def readAttributes (seen : List (List Char)) (s : List Char) : Attributes :=
  match h : attributeStep s with
  | .done => ⟨[], true⟩
  | .bad => ⟨[], false⟩
  | .item name value rest =>
    have := length_lt_of_attributeStep h
    if seen.contains name then ⟨[], false⟩
    else
      let more := readAttributes (name :: seen) rest
      { more with items := ⟨String.ofList name, String.ofList (decodeValue value)⟩ :: more.items }
termination_by s.length

end LiveMarkup.Markup
