import LiveMarkup.Expr.Token
import Mathlib

/-!
# Tokens before a closing parenthesis

The tokens of a text stay what they are when a closing parenthesis follows it, unless the last one is
broken (`lex_close`).
-/

namespace LiveMarkup.Expr

variable {c : Char} {front rest s t : List Char} {token : Token} {length : Nat}

theorem lex_nil : lex [] = [] := by
  rw [lex]

theorem lex_blank (hc : isAsciiBlank c = true) (rest : List Char) : lex (c :: rest) = lex rest := by
  rw [lex, if_pos hc]

theorem lex_token (hc : isAsciiBlank c = false)
    (htoken : tokenAt? (c :: rest) = some (token, length)) :
    lex (c :: rest) = token :: lex (rest.drop (length - 1)) := by
  rw [lex, if_neg (by simp [hc]), htoken]

theorem lex_broken (hc : isAsciiBlank c = false) (htoken : tokenAt? (c :: rest) = none) :
    lex (c :: rest) = [.broken] := by
  rw [lex, if_neg (by simp [hc]), htoken]

/-! ### Texts -/

theorem unescape?_nil : unescape? none [] = some [] := by
  unfold unescape?
  rfl

theorem unescape?_cons (hc : c ≠ '\\') (s : List Char) :
    unescape? none (c :: s) = (unescape? none s).map (c :: ·) := by
  rw [unescape?.eq_def none (c :: s)]
  split
  · simp_all
  · simp_all
  · split
    · simp_all
    · split
      · simp_all
      · simp_all
      · rename_i h
        cases h
        simp [hc]
      · simp_all

theorem unescape?_plain (hs : '\\' ∉ s) : unescape? none s = some s := by
  induction s with
  | nil => exact unescape?_nil
  | cons c s ih =>
      rw [List.mem_cons, not_or] at hs
      rw [unescape?_cons (Ne.symm hs.1), ih hs.2, Option.map_some]

theorem unescape?_quote (s : List Char) :
    unescape? none ('\\' :: '"' :: s) = (unescape? none s).map ('"' :: ·) := by
  rw [unescape?.eq_def none ('\\' :: '"' :: s)]
  simp

/-- A character that begins no pair of symbols. -/
theorem isPair_of_head (h : ∀ p ∈ pairSymbols, p.toList.head? ≠ some c) (rest : List Char) :
    pairSymbols.contains (String.ofList ((c :: rest).take 2)) = false := by
  refine Bool.eq_false_iff.mpr fun hpair => ?_
  have hfirst := h _ (List.contains_iff_mem.mp hpair)
  rw [String.toList_ofList] at hfirst
  exact hfirst rfl

theorem tokenAt?_text {body : List Char} (hc : c = '"' ∨ c = '\'')
    (hscan : scanText c false rest = some body) (hs : unescape? none body = some s) :
    tokenAt? (c :: rest) = some (.text (String.ofList s), body.length + 2) := by
  have hpair : pairSymbols.contains (String.ofList ((c :: rest).take 2)) = false := by
    rcases hc with rfl | rfl
    · exact isPair_of_head (by decide) rest
    · exact isPair_of_head (by decide) rest
  have hsingle : singleSymbols.contains c = false := by
    rcases hc with rfl | rfl
    · decide
    · decide
  rw [tokenAt?, hpair, hsingle, if_neg (by decide), if_neg (by decide), if_pos hc, hscan]
  simp [hs]

theorem scanText_append {quote : Char} {escaped : Bool} {body : List Char}
    (h : scanText quote escaped s = some body) (t : List Char) :
    scanText quote escaped (s ++ t) = some body := by
  induction s generalizing escaped body with
  | nil => cases h
  | cons c s ih =>
      rw [scanText] at h
      rw [List.cons_append, scanText]
      split at h
      · rename_i hclose
        rwa [if_pos hclose]
      · rename_i hclose
        obtain ⟨more, hmore, rfl⟩ := Option.map_eq_some_iff.mp h
        rw [if_neg hclose, ih hmore, Option.map_some]

theorem length_lt_of_scanText {quote : Char} {escaped : Bool} {body : List Char}
    (h : scanText quote escaped s = some body) : body.length < s.length := by
  induction s generalizing escaped body with
  | nil => cases h
  | cons c s ih =>
      rw [scanText] at h
      split at h
      · cases h
        simp
      · obtain ⟨more, hmore, rfl⟩ := Option.map_eq_some_iff.mp h
        simpa using ih hmore

/-! ### A closing parenthesis -/

theorem any_head?_close {p : Char → Bool} (hp : p ')' = false) (s t : List Char) :
    (s ++ ')' :: t).head?.any p = s.head?.any p := by
  cases s with
  | nil => simp [hp]
  | cons c s => rfl

theorem takeWhile_close {p : Char → Bool} (hp : p ')' = false) (s t : List Char) :
    (s ++ ')' :: t).takeWhile p = s.takeWhile p := by
  induction s with
  | nil => simp [hp]
  | cons c s ih =>
      rw [List.cons_append, List.takeWhile_cons, List.takeWhile_cons, ih]

theorem startsExponent_close (s t : List Char) :
    startsExponent (s ++ ')' :: t) = startsExponent s := by
  cases s with
  | nil => rfl
  | cons mark rest =>
      have hsign := any_head?_close (p := fun c => c = '+' || c = '-') (by decide) rest t
      rw [List.cons_append, startsExponent, startsExponent, hsign]
      split
      · rename_i hmark
        cases rest with
        | nil => cases hmark
        | cons c rest =>
            have hdigit := any_head?_close (p := Char.isDigit) (by decide) rest t
            simpa using congrArg ((mark = 'e' || mark = 'E') && ·) hdigit
      · rw [any_head?_close (by decide)]

theorem dotIsFraction_close (s t : List Char) : dotIsFraction (s ++ ')' :: t) = dotIsFraction s := by
  rw [dotIsFraction, dotIsFraction, any_head?_close (by decide), startsExponent_close]

theorem scanNumber_close (state : NumberState) (s t : List Char) :
    scanNumber state (s ++ ')' :: t) = scanNumber state s := by
  induction s generalizing state with
  | nil => cases state <;> rfl
  | cons c s ih =>
      have hnext : state.next? c (s ++ ')' :: t) = state.next? c s := by
        cases state <;> simp only [NumberState.next?, dotIsFraction_close]
      rw [List.cons_append, scanNumber, scanNumber, hnext]
      split
      · rfl
      · rw [ih]

theorem decimal_close (s t : List Char) : number?.decimal (s ++ ')' :: t) = number?.decimal s := by
  rw [number?.decimal, number?.decimal, scanNumber_close]

theorem number?_decimal (h : ∀ mark rest, s ≠ '0' :: mark :: rest) :
    number? s = number?.decimal s := by
  unfold number?
  split <;> simp_all

theorem number?_close (s t : List Char) : number? (s ++ ')' :: t) = number? s := by
  by_cases hzero : ∃ mark rest, s = '0' :: mark :: rest
  · obtain ⟨mark, rest, rfl⟩ := hzero
    have hdecimal := decimal_close ('0' :: mark :: rest) t
    rw [List.cons_append, List.cons_append] at hdecimal ⊢
    rw [number?, number?]
    cases hbase : baseOfMark? mark with
    | none => exact hdecimal
    | some base =>
        have hdigit : Markup.digitOfBase? 16 ')' = none := by decide
        have hclose : isBaseDigit base ')' = false := by
          simp [isBaseDigit, hdigit, Char.isDigit]
        dsimp only
        rw [takeWhile_close hclose]
  have hplain : ∀ mark rest, s ≠ '0' :: mark :: rest :=
    fun mark rest heq => hzero ⟨mark, rest, heq⟩
  rw [number?_decimal hplain, ← decimal_close s t]
  cases s with
  | nil => exact number?_decimal (by simp)
  | cons c s =>
      cases s with
      | nil =>
          by_cases hc : c = '0'
          · rw [hc]
            rfl
          · exact number?_decimal (by simp [hc])
      | cons d s =>
          refine number?_decimal fun mark rest heq => ?_
          obtain ⟨rfl, -⟩ := List.cons.inj heq
          exact hplain d s rfl

/-! ### Symbols and names -/

theorem isPair_toList (s : List Char) (h : pairSymbols.contains (String.ofList s) = true) :
    s.length = 2 ∧ ')' ∉ s := by
  have hpairs : ∀ p ∈ pairSymbols, p.toList.length = 2 ∧ ')' ∉ p.toList := by decide
  have hs := hpairs _ (List.contains_iff_mem.mp h)
  rwa [String.toList_ofList] at hs

/-- A closing parenthesis is no part of a symbol before it. -/
theorem isPair_close (c : Char) (rest t : List Char) :
    pairSymbols.contains (String.ofList ((c :: (rest ++ ')' :: t)).take 2)) =
      pairSymbols.contains (String.ofList ((c :: rest).take 2)) := by
  cases rest with
  | cons d rest => rfl
  | nil =>
      have hshort : pairSymbols.contains (String.ofList ((c :: []).take 2)) = false := by
        refine Bool.eq_false_iff.mpr fun h => ?_
        exact absurd (isPair_toList _ h).1 (by simp)
      rw [hshort]
      refine Bool.eq_false_iff.mpr fun h => ?_
      exact (isPair_toList _ h).2 (by simp)

theorem tokenAt?_close (h : tokenAt? s = some (token, length)) :
    tokenAt? (s ++ ')' :: t) = some (token, length) := by
  cases s with
  | nil => cases h
  | cons c rest =>
      rw [tokenAt?] at h
      rw [List.cons_append, tokenAt?, isPair_close]
      split at h
      · rename_i hpair
        cases rest with
        | nil => exact absurd (isPair_toList _ hpair).1 (by simp)
        | cons d rest =>
            rw [if_pos hpair]
            exact h
      rename_i hpair
      rw [if_neg hpair]
      split at h
      · rename_i hsymbol
        rw [if_pos hsymbol]
        exact h
      rename_i hsymbol
      rw [if_neg hsymbol]
      split at h
      · rename_i hquote
        rw [if_pos hquote]
        obtain ⟨body, hbody, htext⟩ := Option.bind_eq_some_iff.mp h
        rw [scanText_append hbody]
        exact htext
      rename_i hquote
      rw [if_neg hquote]
      split at h
      · rename_i hdigit
        rw [if_pos hdigit, ← h]
        exact number?_close (c :: rest) t
      rename_i hdigit
      rw [if_neg hdigit]
      split at h
      · rename_i hname
        have hclose := takeWhile_close (p := isNamePart) (by decide) (c :: rest) t
        rw [List.cons_append] at hclose
        rw [if_pos hname, hclose]
        exact h
      · cases h

theorem prefix_of_scanNumber (state : NumberState) (s : List Char) :
    (scanNumber state s).1 <+: s := by
  induction s generalizing state with
  | nil => exact List.nil_prefix
  | cons c s ih =>
      rw [scanNumber]
      split
      · exact List.nil_prefix
      · exact List.cons_prefix_cons.mpr ⟨rfl, ih _⟩

theorem length_takeWhile_le {p : Char → Bool} (s : List Char) : (s.takeWhile p).length ≤ s.length :=
  (List.takeWhile_prefix p).length_le

theorem length_le_of_number? (h : number? s = some (token, length)) : length ≤ s.length := by
  have hdecimal : ∀ {s : List Char}, number?.decimal s = some (token, length) → length ≤ s.length := by
    intro s h
    obtain ⟨found, -, heq⟩ := Option.map_eq_some_iff.mp h
    cases heq
    exact (prefix_of_scanNumber _ s).length_le
  unfold number? at h
  split at h
  · split at h
    · obtain ⟨found, -, heq⟩ := Option.map_eq_some_iff.mp h
      cases heq
      simpa using length_takeWhile_le _
    · exact hdecimal h
  · exact hdecimal h

/-- A token lies within the text. -/
theorem length_le_of_tokenAt? (h : tokenAt? s = some (token, length)) : length ≤ s.length := by
  cases s with
  | nil => cases h
  | cons c rest =>
      rw [tokenAt?] at h
      split at h
      · rename_i hpair
        cases h
        rw [← (isPair_toList _ hpair).1]
        exact List.length_take_le' 2 (c :: rest)
      split at h
      · cases h
        simp
      split at h
      · obtain ⟨body, hbody, htext⟩ := Option.bind_eq_some_iff.mp h
        obtain ⟨text, -, heq⟩ := Option.bind_eq_some_iff.mp htext
        cases heq
        have hlt := length_lt_of_scanText hbody
        rw [List.length_cons]
        omega
      split at h
      · exact length_le_of_number? h
      split at h
      · cases h
        exact length_takeWhile_le _
      · cases h

/-! ### Names -/

/-- Characters that make up one name. -/
structure IsIdentifier (name : List Char) : Prop where
  first : name.head?.any isNameStart = true
  parts : name.all isNamePart = true

theorem isDigit_of_isNameStart (hc : isNameStart c = true) : c.isDigit = false := by
  rw [isNameStart, Bool.or_eq_true, decide_eq_true_eq] at hc
  rcases hc with hc | rfl
  · simp only [Char.isAlpha, Char.isUpper, Char.isLower, Char.isDigit] at hc ⊢
    grind
  · rfl

theorem isAsciiBlank_of_isNameStart (hc : isNameStart c = true) : isAsciiBlank c = false := by
  refine Bool.eq_false_iff.mpr fun hblank => ?_
  simp only [isAsciiBlank, Bool.or_eq_true, decide_eq_true_eq] at hblank
  obtain (((rfl | rfl) | rfl) | rfl) | rfl := hblank <;> cases hc

theorem tokenAt?_name (hc : isNameStart c = true) (rest : List Char) :
    tokenAt? (c :: rest) = some (.name (String.ofList ((c :: rest).takeWhile isNamePart)),
      ((c :: rest).takeWhile isNamePart).length) := by
  have hpairs : ∀ p ∈ pairSymbols, p.toList.head?.any isNameStart = false := by decide
  have hsingles : singleSymbols.all (!isNameStart ·) = true := by decide
  have hpair : pairSymbols.contains (String.ofList ((c :: rest).take 2)) = false := by
    apply isPair_of_head
    intro p hp hfirst
    have hnone := hpairs p hp
    rw [hfirst, Option.any_some, hc] at hnone
    cases hnone
  have hsingle : singleSymbols.contains c = false := by
    refine Bool.eq_false_iff.mpr fun h => ?_
    have hfirst := List.all_eq_true.mp hsingles c (List.contains_iff_mem.mp h)
    rw [hc] at hfirst
    cases hfirst
  have hquote : ¬(c = '"' ∨ c = '\'') := by
    rintro (rfl | rfl)
    · cases hc
    · cases hc
  have hdigit := isDigit_of_isNameStart hc
  rw [tokenAt?, hpair, hsingle, if_neg (by decide), if_neg (by decide), if_neg hquote, hdigit,
    if_neg (by decide), if_pos hc]

theorem lex_name {name : List Char} (h : IsIdentifier name)
    (hrest : rest.head?.any isNamePart = false) :
    lex (name ++ rest) = .name (String.ofList name) :: lex rest := by
  obtain ⟨hfirst, hparts⟩ := h
  cases name with
  | nil => cases hfirst
  | cons c more =>
      have hc : isNameStart c = true := hfirst
      have hstop : rest.takeWhile isNamePart = [] := by
        cases rest with
        | nil => rfl
        | cons d rest => exact List.takeWhile_cons_of_neg (by simpa using hrest)
      have htake : ((c :: more) ++ rest).takeWhile isNamePart = c :: more := by
        rw [List.takeWhile_append_of_pos (List.all_eq_true.mp hparts), hstop, List.append_nil]
      have htoken := tokenAt?_name hc (more ++ rest)
      rw [← List.cons_append, htake] at htoken
      have hlex : lex (c :: (more ++ rest)) =
          .name (String.ofList (c :: more)) :: lex ((more ++ rest).drop more.length) :=
        lex_token (isAsciiBlank_of_isNameStart hc) htoken
      rw [List.cons_append, hlex, List.drop_left]

/-- A character that is a symbol by itself and begins no pair. -/
theorem lex_symbol (hsingle : singleSymbols.contains c = true)
    (hpair : ∀ p ∈ pairSymbols, p.toList.head? ≠ some c) (rest : List Char) :
    lex (c :: rest) = .symbol (String.singleton c) :: lex rest := by
  have hsingles : singleSymbols.all (!isAsciiBlank ·) = true := by decide
  have htoken : tokenAt? (c :: rest) = some (.symbol (String.singleton c), 1) := by
    rw [tokenAt?, isPair_of_head hpair, hsingle, if_neg (by decide), if_pos rfl]
  have hblank := List.all_eq_true.mp hsingles c (List.contains_iff_mem.mp hsingle)
  rw [Bool.not_eq_true'] at hblank
  exact lex_token hblank htoken

theorem exists_lex_equals (s : List Char) :
    ∃ symbol rest, lex ('=' :: s) = .symbol symbol :: rest ∧ (symbol = "=" ∨ symbol = "==") := by
  have hblank : isAsciiBlank '=' = false := by decide
  have hpairs : ∀ p ∈ pairSymbols, p.toList.head? = some '=' → p = "==" := by decide
  by_cases hpair : pairSymbols.contains (String.ofList (('=' :: s).take 2)) = true
  · have htoken : tokenAt? ('=' :: s) = some (.symbol (String.ofList (('=' :: s).take 2)), 2) := by
      rw [tokenAt?, if_pos hpair]
    have hsymbol := hpairs _ (List.contains_iff_mem.mp hpair) (by simp)
    exact ⟨_, _, lex_token hblank htoken, Or.inr hsymbol⟩
  · have htoken : tokenAt? ('=' :: s) = some (.symbol "=", 1) := by
      rw [tokenAt?, if_neg hpair]
      rfl
    exact ⟨_, _, lex_token hblank htoken, Or.inl rfl⟩

/-- A closing parenthesis behind a text ends its last token. -/
theorem lex_close (h : .broken ∉ lex s) : lex (s ++ ')' :: t) = lex s ++ .symbol ")" :: lex t := by
  induction hlength : s.length using Nat.strong_induction_on generalizing s with
  | h n ih =>
      cases s with
      | nil =>
          rw [List.nil_append, lex_symbol (by decide) (by decide), lex_nil]
          rfl
      | cons c rest =>
          by_cases hc : isAsciiBlank c = true
          · rw [List.cons_append, lex_blank hc, lex_blank hc]
            rw [lex_blank hc] at h
            exact ih rest.length (by simp [← hlength]) h rfl
          rw [Bool.not_eq_true] at hc
          cases htoken : tokenAt? (c :: rest) with
          | none =>
              rw [lex_broken hc htoken] at h
              exact absurd List.mem_cons_self h
          | some found =>
              obtain ⟨token, length⟩ := found
              have hclose := tokenAt?_close (t := t) htoken
              have hle := length_le_of_tokenAt? htoken
              rw [List.cons_append] at hclose ⊢
              rw [lex_token hc htoken, List.mem_cons, not_or] at h
              have hdrop : (rest ++ ')' :: t).drop (length - 1) =
                  rest.drop (length - 1) ++ ')' :: t := by
                rw [List.drop_append_of_le_length]
                rw [List.length_cons] at hle
                omega
              have hless : (rest.drop (length - 1)).length < n := by
                rw [List.length_drop, ← hlength, List.length_cons]
                omega
              rw [lex_token hc hclose, lex_token hc htoken, hdrop, ih _ hless h.2 rfl,
                List.cons_append]

end LiveMarkup.Expr
