/-!
Finding one text inside another. `cut mark s` splits `s` around the first `mark`; its pieces and the
mark make up `s` again, so a loop over what is left grows shorter.
-/

namespace LiveMarkup.Text

/-- The text before the first `mark` and the text after it. -/
def cut (mark : List Char) : List Char → Option (List Char × List Char)
  | [] => if mark.isEmpty then some ([], []) else none
  | c :: rest =>
    if mark.isPrefixOf (c :: rest) then some ([], (c :: rest).drop mark.length)
    else (cut mark rest).map fun (before, after) => (c :: before, after)

theorem append_of_cut {mark s before after : List Char} (h : cut mark s = some (before, after)) :
    s = before ++ mark ++ after := by
  induction s generalizing before with
  | nil =>
    cases mark <;> simp_all [cut]
  | cons c rest ih =>
    rw [cut] at h
    split at h
    · rename_i hmark
      obtain ⟨t, ht⟩ := List.isPrefixOf_iff_prefix.1 hmark
      simp only [Option.some.injEq, Prod.mk.injEq] at h
      obtain ⟨rfl, rfl⟩ := h
      rw [← ht]
      simp
    · simp only [Option.map_eq_some_iff, Prod.mk.injEq] at h
      obtain ⟨⟨b, a⟩, hcut, rfl, rfl⟩ := h
      simp [ih hcut]

theorem length_lt_of_cut {mark s before after : List Char} (hmark : mark ≠ [])
    (h : cut mark s = some (before, after)) : after.length < s.length := by
  have := List.length_pos_iff.2 hmark
  rw [append_of_cut h]
  simp
  omega

/-- Whether a text can be cut at a mark. -/
def occursIn (mark : List Char) : List Char → Bool
  | [] => mark.isEmpty
  | c :: rest => mark.isPrefixOf (c :: rest) || occursIn mark rest

theorem isSome_cut (mark s : List Char) : (cut mark s).isSome = occursIn mark s := by
  induction s with
  | nil => cases mark <;> rfl
  | cons c rest ih =>
    rw [cut, occursIn]
    split <;> simp_all

/-- Writes `new` for every `mark`, found from left to right. -/
def replaceAll (mark new : List Char) (hmark : mark ≠ []) (s : List Char) : List Char :=
  match h : cut mark s with
  | none => s
  | some (before, after) =>
    have := length_lt_of_cut hmark h
    before ++ new ++ replaceAll mark new hmark after
termination_by s.length

/-- Whether a text holds another one. -/
def contains (s mark : String) : Bool :=
  occursIn mark.toList s.toList

end LiveMarkup.Text
