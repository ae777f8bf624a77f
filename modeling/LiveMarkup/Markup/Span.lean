import LiveMarkup.Text.Find

/-!
Spans `{{ … }}` in markup. What a span holds is literal, so `protect` writes references for the
characters in it that would begin or end a tag.
-/

namespace LiveMarkup.Markup

def spanOpen : List Char := ['\x7b', '\x7b']

def spanClose : List Char := ['\x7d', '\x7d']

def hasSpan (s : String) : Bool :=
  Text.occursIn spanOpen s.toList

/-- Splits after the first `>` outside quotes; `quote` is the quote that is open. -/
def splitTag? (quote : Option Char) : List Char → Option (List Char × List Char)
  | [] => none
  | c :: rest =>
    match quote with
    | some q =>
      let quote := if c = q then none else quote
      (splitTag? quote rest).map fun (tag, after) => (c :: tag, after)
    | none =>
      if c = '>' then some ([], rest)
      else
        let opened := if c = '"' ∨ c = '\'' then some c else none
        (splitTag? opened rest).map fun (tag, after) => (c :: tag, after)

theorem append_of_splitTag? {quote : Option Char} {s tag after : List Char}
    (h : splitTag? quote s = some (tag, after)) : s = tag ++ '>' :: after := by
  induction s generalizing quote tag with
  | nil => simp [splitTag?] at h
  | cons c rest ih =>
    unfold splitTag? at h
    split at h
    · simp only [Option.map_eq_some_iff, Prod.mk.injEq] at h
      obtain ⟨⟨t, a⟩, hsplit, rfl, rfl⟩ := h
      simp [ih hsplit]
    · split at h
      · simp_all
      · simp only [Option.map_eq_some_iff, Prod.mk.injEq] at h
        obtain ⟨⟨t, a⟩, hsplit, rfl, rfl⟩ := h
        simp [ih hsplit]

def protectChar (c : Char) : List Char :=
  if c = '<' then "&lt;".toList
  else if c = '>' then "&gt;".toList
  else if c = '&' then "&amp;".toList
  else [c]

def commentOpen : List Char := "<!--".toList

def commentClose : List Char := "-->".toList

theorem length_lt_of_cut_drop {mark rest body after : List Char} {n : Nat} (hmark : mark ≠ [])
    (h : Text.cut mark (rest.drop n) = some (body, after)) : after.length < rest.length + 1 := by
  have := Text.length_lt_of_cut hmark h
  rw [List.length_drop] at this
  omega

theorem length_lt_of_splitTag? {rest tag after : List Char} {quote : Option Char}
    (h : splitTag? quote rest = some (tag, after)) : after.length < rest.length + 1 := by
  rw [append_of_splitTag? h, List.length_append, List.length_cons]
  omega

/-- Protects the spans between tags. Tags and comments are copied, and so is the rest of the text
from a span or a comment that does not end. -/
def protect (s : List Char) : List Char :=
  match s with
  | [] => []
  | c :: rest =>
    if commentOpen.isPrefixOf (c :: rest) then
      match h : Text.cut commentClose (rest.drop 3) with
      | none => c :: rest
      | some (body, after) =>
        have := length_lt_of_cut_drop (by decide) h
        commentOpen ++ body ++ commentClose ++ protect after
    else if c = '<' then
      match h : splitTag? none rest with
      | none => c :: rest
      | some (tag, after) =>
        have := length_lt_of_splitTag? h
        c :: tag ++ '>' :: protect after
    else if spanOpen.isPrefixOf (c :: rest) then
      match h : Text.cut spanClose (rest.drop 1) with
      | none => c :: rest
      | some (body, after) =>
        have := length_lt_of_cut_drop (by decide) h
        spanOpen ++ body.flatMap protectChar ++ spanClose ++ protect after
    else c :: protect rest
termination_by s.length

end LiveMarkup.Markup
