import LiveMarkup.Dom.Html
import LiveMarkup.Markup.Parse

/-!
What is written into tags and between them can be read back: escaped texts, attributes and comments.
-/

namespace LiveMarkup.Markup

open Html

variable {s p v rest : List Char} {c : Char}

/-! ### Escaped characters -/

/-- What is written for a character. -/
theorem escapeChar_cases (inAttribute : Bool) (c : Char) :
    (∃ name, escapeChar inAttribute c = '&' :: name ++ [';'] ∧
      (∀ d ∈ name, isNameChar d = true ∧ d ≠ '<' ∧ d ≠ '>' ∧ d ≠ '"' ∧ d ≠ '\x7b') ∧
        referenced? name = some c) ∨
      escapeChar inAttribute c = [c] ∧ c ≠ '&' ∧ c ≠ '<' ∧ c ≠ '>' ∧
        (inAttribute = true → c ≠ '"') := by
  by_cases hamp : c = '&'
  · subst hamp
    exact Or.inl ⟨['a', 'm', 'p'], rfl, by simp [isNameChar], by decide +kernel⟩
  by_cases hlt : c = '<'
  · subst hlt
    exact Or.inl ⟨['l', 't'], rfl, by simp [isNameChar], by decide +kernel⟩
  by_cases hgt : c = '>'
  · subst hgt
    exact Or.inl ⟨['g', 't'], rfl, by simp [isNameChar], by decide +kernel⟩
  by_cases hquote : inAttribute = true ∧ c = '"'
  · obtain ⟨rfl, rfl⟩ := hquote
    exact Or.inl ⟨['q', 'u', 'o', 't'], rfl, by simp [isNameChar], by decide +kernel⟩
  · refine Or.inr ⟨?_, hamp, hlt, hgt, fun h hc => hquote ⟨h, hc⟩⟩
    simp [escapeChar, hamp, hlt, hgt, hquote]

/-- A reference stands for its character. -/
theorem decode?_reference {name : List Char} (hname : ∀ d ∈ name, isNameChar d = true)
    (hc : referenced? name = some c) (rest : List Char) :
    decode? ('&' :: name ++ ';' :: rest) = (decode? rest).map (c :: ·) := by
  have htake : (name ++ ';' :: rest).takeWhile isNameChar = name := by
    rw [List.takeWhile_append_of_pos hname]
    simp [isNameChar]
  have hdrop : (name ++ ';' :: rest).dropWhile isNameChar = ';' :: rest := by
    rw [List.dropWhile_append_of_pos hname]
    simp [isNameChar]
  rw [List.cons_append, decode?, if_pos rfl]
  split
  · rename_i after heq
    rw [hdrop, List.cons.injEq] at heq
    obtain ⟨-, rfl⟩ := heq
    rw [htake, hc, Option.bind_some]
  · rename_i hnot
    exact absurd hdrop (hnot rest)

theorem decode?_escape (inAttribute : Bool) (s : List Char) :
    decode? (s.flatMap (escapeChar inAttribute)) = some s := by
  induction s with
  | nil => rw [List.flatMap_nil, decode?]
  | cons c s ih =>
      rw [List.flatMap_cons]
      obtain ⟨name, hname, hchars, hc⟩ | ⟨hsame, hamp, -⟩ := escapeChar_cases inAttribute c
      · rw [hname, List.append_assoc, List.singleton_append,
          decode?_reference (fun d hd => (hchars d hd).1) hc, ih, Option.map_some]
      · rw [hsame, List.singleton_append, decode?, if_neg hamp, ih, Option.map_some]

theorem decodeText_escape (s : List Char) : decodeText (s.flatMap (escapeChar false)) = s := by
  rw [decodeText, decode?_escape, Option.getD_some]

theorem decodeValue_escape (s : List Char) : decodeValue (s.flatMap (escapeChar true)) = s := by
  rw [decodeValue, decode?_escape, Option.getD_some]

theorem mem_escape {inAttribute : Bool} (hc : c ∈ s.flatMap (escapeChar inAttribute)) :
    c ≠ '<' ∧ c ≠ '>' ∧ (inAttribute = true → c ≠ '"') := by
  obtain ⟨d, -, hd⟩ := List.mem_flatMap.mp hc
  obtain ⟨name, hname, hchars, -⟩ | ⟨hsame, -, hlt, hgt, hquote⟩ := escapeChar_cases inAttribute d
  · rw [hname] at hd
    simp only [List.cons_append, List.mem_cons, List.mem_append, List.not_mem_nil, or_false] at hd
    rcases hd with rfl | hd | rfl
    · simp
    · obtain ⟨-, hlt, hgt, hquote, -⟩ := hchars c hd
      exact ⟨hlt, hgt, fun _ => hquote⟩
    · simp
  · rw [hsame, List.mem_singleton] at hd
    subst hd
    exact ⟨hlt, hgt, hquote⟩

/-! ### Spans -/

theorem isPrefixOf_of_ne {m : Char} (hne : m ≠ c) (mark rest : List Char) :
    (m :: mark).isPrefixOf (c :: rest) = false := by
  simp [List.isPrefixOf, hne]

theorem protect_cons (hc : c ≠ '<') (hopen : spanOpen.isPrefixOf (c :: rest) = false) :
    protect (c :: rest) = c :: protect rest := by
  have hcomment : commentOpen.isPrefixOf (c :: rest) = false := isPrefixOf_of_ne (Ne.symm hc) _ _
  rw [protect, hcomment, hopen, if_neg Bool.false_ne_true, if_neg hc, if_neg Bool.false_ne_true]

theorem protect_plain (hp : ∀ c ∈ p, c ≠ '<' ∧ c ≠ '\x7b') (rest : List Char) :
    protect (p ++ rest) = p ++ protect rest := by
  induction p with
  | nil => rfl
  | cons c p ih =>
      rw [List.forall_mem_cons] at hp
      rw [List.cons_append, protect_cons hp.1.1 (isPrefixOf_of_ne (Ne.symm hp.1.2) _ _), ih hp.2,
        List.cons_append]

theorem head?_escape (hc : (s.flatMap (escapeChar false) ++ rest).head? = some '\x7b') :
    (s ++ rest).head? = some '\x7b' := by
  cases s with
  | nil => exact hc
  | cons d s =>
      rw [List.flatMap_cons] at hc
      obtain ⟨name, hname, -⟩ | ⟨hsame, -⟩ := escapeChar_cases false d
      · rw [hname] at hc
        simp at hc
      · rw [hsame] at hc
        simpa using hc

/-- A text without spans is copied, unless what follows makes one of its end. -/
theorem protect_escape (hs : Text.occursIn spanOpen s = false)
    (hrest : rest.head? ≠ some '\x7b') :
    protect (s.flatMap (escapeChar false) ++ rest) =
      s.flatMap (escapeChar false) ++ protect rest := by
  induction s with
  | nil => rfl
  | cons c s ih =>
      rw [Text.occursIn, Bool.or_eq_false_iff] at hs
      rw [List.flatMap_cons, List.append_assoc, List.append_assoc, ← ih hs.2]
      obtain ⟨name, hname, hchars, -⟩ | ⟨hsame, -, hlt, -⟩ := escapeChar_cases false c
      · rw [hname]
        refine protect_plain (fun d hd => ?_) _
        simp only [List.cons_append, List.mem_cons, List.mem_append, List.not_mem_nil,
          or_false] at hd
        rcases hd with rfl | hd | rfl
        · simp
        · obtain ⟨-, hlt, -, -, hopen⟩ := hchars d hd
          exact ⟨hlt, hopen⟩
        · simp
      · rw [hsame, List.singleton_append, List.singleton_append]
        refine protect_cons hlt (Bool.eq_false_iff.mpr fun hopen => ?_)
        -- A brace must not meet another one, neither in the text nor behind it.
        rw [spanOpen, List.isPrefixOf_iff_prefix, List.cons_prefix_cons] at hopen
        obtain ⟨rfl, more, hmore⟩ := hopen
        have hhead : (s ++ rest).head? = some '\x7b' := head?_escape (by rw [← hmore]; rfl)
        cases s with
        | nil => exact hrest hhead
        | cons d s =>
            rw [List.cons_append, List.head?_cons, Option.some.injEq] at hhead
            subst hhead
            simp [spanOpen] at hs

end LiveMarkup.Markup
