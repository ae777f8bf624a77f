import LiveMarkup.Proofs.Expr.Parsing
import LiveMarkup.Proofs.Expr.Tokens

/-!
# Values in parentheses

A field with a value added to it or taken away from it reads as that, whatever expression the value
is (`read?_update`).
-/

namespace LiveMarkup.Expr

variable {fuel nesting : Nat} {tokens rest : List Token} {e left right : Term} {level next : Level}

/-! ### Levels without an operator -/

theorem parseOperand_of_next (hnext : level.next? = some next)
    (h : parseLevel fuel nesting next tokens = some (e, rest)) :
    parseOperand (fuel + 1) nesting level tokens = some (e, rest) := by
  rw [parseOperand, hnext]
  exact h

theorem parseLevel_of_operand (hnot : skipName? "not" tokens = none)
    (h : parseOperand (fuel + 1) nesting level tokens = some (e, rest))
    (hlevel : level ≠ .comparison) (hoperator : level.operator? rest = none) :
    parseLevel (fuel + 2) nesting level tokens = some (e, rest) := by
  rw [parseLevel, hnot, ite_self, h]
  dsimp only [Option.bind_eq_bind, Option.bind_some]
  rw [if_neg hlevel, levelTail, hoperator]

/-- The operators of updates. -/
inductive IsUpdate : Char → BinaryOp → Prop where
  | add : IsUpdate '+' .add
  | sub : IsUpdate '-' .sub

/-- Tokens before which an operand of a sum ends. -/
inductive IsSumEnd : List Token → Prop where
  | nil : IsSumEnd []
  | sign {sign : Char} {op : BinaryOp} (hop : IsUpdate sign op) (rest : List Token) :
    IsSumEnd (.symbol (String.singleton sign) :: rest)

theorem IsSumEnd.operator? (h : IsSumEnd rest) (hlevel : level ∈ [Level.power, .product, .concat]) :
    level.operator? rest = none := by
  simp only [List.mem_cons, List.not_mem_nil, or_false] at hlevel
  cases h with
  | nil => obtain rfl | rfl | rfl := hlevel <;> rfl
  | sign hop rest => cases hop <;> obtain rfl | rfl | rfl := hlevel <;> rfl

theorem IsSumEnd.postfixTail (h : IsSumEnd rest) :
    Expr.postfixTail (fuel + 1) nesting e rest = some (e, rest) := by
  cases h with
  | nil => rfl
  | sign hop rest => cases hop <;> rfl

theorem IsSumEnd.filterTail (h : IsSumEnd rest) :
    Expr.filterTail (fuel + 1) nesting e rest = some (e, rest) := by
  cases h with
  | nil => rfl
  | sign hop rest => cases hop <;> rfl

/-- A single operand is an operand of a sum. -/
theorem parseOperand_sum (hnot : skipName? "not" tokens = none)
    (h : parseSingle fuel nesting tokens = some (e, rest)) (hrest : IsSumEnd rest) :
    parseOperand (fuel + 7) nesting .sum tokens = some (e, rest) := by
  have hpower : parseLevel (fuel + 2) nesting .power tokens = some (e, rest) :=
    parseLevel_of_operand hnot h (by decide) (hrest.operator? (by decide))
  have hproduct : parseLevel (fuel + 4) nesting .product tokens = some (e, rest) :=
    parseLevel_of_operand hnot (parseOperand_of_next rfl hpower) (by decide)
      (hrest.operator? (by decide))
  have hconcat : parseLevel (fuel + 6) nesting .concat tokens = some (e, rest) :=
    parseLevel_of_operand hnot (parseOperand_of_next rfl hproduct) (by decide)
      (hrest.operator? (by decide))
  exact parseOperand_of_next rfl hconcat

/-- A sum that the tokens end with is a whole expression. -/
theorem parseExpr_of_sum (hnot : skipName? "not" tokens = none)
    (h : parseLevel (fuel + 1) nesting .sum tokens = some (e, [])) :
    parseExpr (fuel + 11) (nesting + 1) tokens = some (e, []) := by
  have hcomparison : parseLevel (fuel + 3) nesting .comparison tokens = some (e, []) := by
    rw [parseLevel, hnot, ite_self, parseOperand_of_next rfl h]
    rfl
  have hnotLevel : parseLevel (fuel + 5) nesting .not tokens = some (e, []) :=
    parseLevel_of_operand hnot (parseOperand_of_next rfl hcomparison) (by decide) rfl
  have hand : parseLevel (fuel + 7) nesting .and tokens = some (e, []) :=
    parseLevel_of_operand hnot (parseOperand_of_next rfl hnotLevel) (by decide) rfl
  have hor : parseLevel (fuel + 9) nesting .or tokens = some (e, []) :=
    parseLevel_of_operand hnot (parseOperand_of_next rfl hand) (by decide) rfl
  rw [parseExpr, parseChoice, hor]
  rfl

/-! ### A field and values in parentheses -/

theorem parseOperand_field {fuel' : Nat} (hfuel : 11 ≤ fuel') (name : String) (hrest : IsSumEnd rest) :
    parseOperand fuel' (nesting + 1) .sum (.name "this" :: .symbol "." :: .name name :: rest) =
      some (.member (.name "this") name, rest) := by
  obtain ⟨fuel, rfl⟩ := Nat.exists_eq_add_of_le' hfuel
  have hmember : postfixTail (fuel + 3) (nesting + 1) (.name "this")
      (.symbol "." :: .name name :: rest) = some (.member (.name "this") name, rest) :=
    hrest.postfixTail
  have hsigned : parseSigned (fuel + 3) (nesting + 1)
      (.name "this" :: .symbol "." :: .name name :: rest) =
        some (.name "this", .symbol "." :: .name name :: rest) := rfl
  have hsingle : parseSingle (fuel + 4) (nesting + 1)
      (.name "this" :: .symbol "." :: .name name :: rest) =
        some (.member (.name "this") name, rest) := by
    rw [parseSingle, hsigned]
    dsimp only [Option.bind_eq_bind, Option.bind_some]
    rw [hmember]
    exact hrest.filterTail
  exact parseOperand_sum rfl hsingle hrest

theorem skip?_of_parseExpr (h : parseExpr fuel nesting tokens = some (e, rest)) (tail : List Token) :
    skip? ")" (tokens ++ tail) = none := by
  cases tokens with
  | nil =>
      rw [parseExpr_nil] at h
      cases h
  | cons t more =>
      cases t with
      | symbol s =>
          by_cases hs : ")" = s
          · subst hs
            rw [parseExpr_stop (Or.inr ⟨more, rfl⟩)] at h
            cases h
          · simp [skip?, hs]
      | _ => rfl

theorem parseOperand_parentheses {fuel' : Nat} (hfuel : fuel + 10 ≤ fuel') (hbroken : .broken ∉ tokens)
    (h : parseExpr fuel nesting tokens = some (e, [])) (hrest : IsSumEnd rest) :
    parseOperand fuel' (nesting + 1) .sum (.symbol "(" :: (tokens ++ .symbol ")" :: rest)) =
      some (e, rest) := by
  obtain ⟨more, rfl⟩ := Nat.exists_eq_add_of_le' hfuel
  have hinner : parseExpr (more + fuel) nesting (tokens ++ .symbol ")" :: rest) =
      some (e, .symbol ")" :: rest) :=
    parseExpr_append (Or.inr ⟨rest, rfl⟩) (Nat.le_add_left fuel more) (Nat.le_refl nesting) hbroken h
  have hprimary : parsePrimary (more + fuel + 1) (nesting + 1)
      (.symbol "(" :: (tokens ++ .symbol ")" :: rest)) = some (e, rest) := by
    rw [parsePrimary, skip?_of_parseExpr h, hinner]
    rfl
  have hsigned : parseSigned (more + fuel + 2) (nesting + 1)
      (.symbol "(" :: (tokens ++ .symbol ")" :: rest)) = some (e, rest) := hprimary
  have hsingle : parseSingle (more + fuel + 3) (nesting + 1)
      (.symbol "(" :: (tokens ++ .symbol ")" :: rest)) = some (e, rest) := by
    rw [parseSingle, hsigned]
    dsimp only [Option.bind_eq_bind, Option.bind_some]
    rw [hrest.postfixTail]
    exact hrest.filterTail
  exact parseOperand_sum rfl hsingle hrest

theorem levelTail_sum {sign : Char} {op : BinaryOp} (hop : IsUpdate sign op) {after : List Token}
    (h : parseOperand fuel nesting .sum after = some (right, rest)) :
    levelTail (fuel + 1) nesting .sum left (.symbol (String.singleton sign) :: after) =
      levelTail fuel nesting .sum (.binary op left right) rest := by
  have hoperator : Level.sum.operator? (.symbol (String.singleton sign) :: after) =
      some (.binary op, after) := by
    cases hop <;> rfl
  rw [levelTail, hoperator]
  dsimp only [Option.bind_eq_bind]
  rw [h]
  rfl

theorem parseLevel_sum (hnot : skipName? "not" tokens = none)
    (h : parseOperand fuel nesting .sum tokens = some (left, rest)) :
    parseLevel (fuel + 1) nesting .sum tokens = levelTail fuel nesting .sum left rest := by
  rw [parseLevel, hnot, ite_self, h]
  rfl

/-- The tokens of a field and a value that is added to it or taken away from it. -/
def updateTokens (name : String) (sign : Char) (tokens rest : List Token) : List Token :=
  .name "this" :: .symbol "." :: .name name :: .symbol (String.singleton sign) :: .symbol "(" ::
    (tokens ++ .symbol ")" :: rest)

/-- A field with a value in parentheses is a sum or a difference, which other operands may follow. -/
theorem parseLevel_update {fuel' : Nat} {sign : Char} {op : BinaryOp} (hop : IsUpdate sign op)
    (name : String) (hfuel : fuel + 10 ≤ fuel') (hbroken : .broken ∉ tokens)
    (h : parseExpr fuel nesting tokens = some (e, [])) (hrest : IsSumEnd rest) :
    parseLevel (fuel' + 2) (nesting + 1) .sum (updateTokens name sign tokens rest) =
      levelTail fuel' (nesting + 1) .sum (.binary op (.member (.name "this") name) e) rest := by
  have hleft : parseOperand (fuel' + 1) (nesting + 1) .sum (updateTokens name sign tokens rest) =
      some (.member (.name "this") name,
        .symbol (String.singleton sign) :: .symbol "(" :: (tokens ++ .symbol ")" :: rest)) :=
    parseOperand_field (by omega) name (.sign hop _)
  have hright := parseOperand_parentheses hfuel hbroken h hrest
  exact (parseLevel_sum rfl hleft).trans (levelTail_sum hop hright)

/-! ### Whole texts -/

/-- A text that reads as an expression with room for a pair of parentheses around it. -/
structure IsEnclosable (value : String) (e : Term) : Prop where
  tokens : .broken ∉ lex value.toList
  term : ∃ raw, parseExpr (fuelFor (lex value.toList)) (maxNesting - 2) (lex value.toList) =
    some (raw, []) ∧ raw.fold = e

theorem IsEnclosable.read? {value : String} (h : IsEnclosable value e) : read? value = some e := by
  obtain ⟨hbroken, raw, hraw, rfl⟩ := h
  have hparse := parseExpr_append (Or.inl rfl) (Nat.le_refl _) (Nat.sub_le maxNesting 2) hbroken hraw
  rw [List.append_nil] at hparse
  rw [Expr.read?, hparse]
  rfl

theorem isEnclosable_text {value : List Char} {s : String} (h : lex value = [.text s]) :
    IsEnclosable (String.ofList value) (.constant (.ofString s)) := by
  refine ⟨?_, .constant (.ofString s), ?_, rfl⟩
  · rw [String.toList_ofList, h]
    simp
  · rw [String.toList_ofList, h]
    rfl

theorem lex_sign {sign : Char} {op : BinaryOp} (hop : IsUpdate sign op) (s : List Char) :
    lex (' ' :: sign :: ' ' :: s) = .symbol (String.singleton sign) :: lex s := by
  have hsign : lex (sign :: ' ' :: s) = .symbol (String.singleton sign) :: lex (' ' :: s) := by
    cases hop with
    | add => exact lex_symbol (by decide) (by decide) _
    | sub => exact lex_symbol (by decide) (by decide) _
  rw [lex_blank (by decide), hsign, lex_blank (by decide)]

theorem lex_update {field value after : List Char} {sign : Char} {op : BinaryOp}
    (hop : IsUpdate sign op) (hfield : IsIdentifier field) (hvalue : .broken ∉ lex value) :
    lex ("this.".toList ++ field ++ [' ', sign, ' ', '('] ++ value ++ ')' :: after) =
      updateTokens (String.ofList field) sign (lex value) (lex after) := by
  have hthis : IsIdentifier "this".toList := ⟨by decide, by decide⟩
  have hsource : "this.".toList ++ field ++ [' ', sign, ' ', '('] ++ value ++ ')' :: after =
      "this".toList ++ '.' :: (field ++ ' ' :: sign :: ' ' :: '(' :: (value ++ ')' :: after)) := by
    simp
  rw [hsource, lex_name hthis rfl, lex_symbol (by decide) (by decide), lex_name hfield rfl,
    lex_sign hop, lex_symbol (by decide) (by decide), lex_close hvalue, String.ofList_toList]
  rfl

/-- A field with a value in parentheses added to it, or taken away from it, reads as the sum or the
difference. -/
theorem read?_update {field value : List Char} {sign : Char} {op : BinaryOp} (hop : IsUpdate sign op)
    (hfield : IsIdentifier field) (h : IsEnclosable (String.ofList value) e) :
    read? (String.ofList ("this.".toList ++ field ++ [' ', sign, ' ', '('] ++ value ++ [')'])) =
      some (.binary op (.member (.name "this") (String.ofList field)) e) := by
  obtain ⟨hbroken, raw, hraw, rfl⟩ := h
  rw [String.toList_ofList] at hbroken hraw
  have hfuel : fuelFor (updateTokens (String.ofList field) sign (lex value) []) =
      fuelFor (lex value) + 132 + 12 := by
    simp only [fuelFor, updateTokens, List.length_cons, List.length_append, List.length_nil]
    omega
  have hlevel : parseLevel (fuelFor (lex value) + 132 + 2) (maxNesting - 1) .sum
      (updateTokens (String.ofList field) sign (lex value) []) =
        levelTail (fuelFor (lex value) + 132) (maxNesting - 1) .sum
          (.binary op (.member (.name "this") (String.ofList field)) raw) [] :=
    parseLevel_update hop (String.ofList field) (by omega) hbroken hraw .nil
  have hparse := parseExpr_of_sum rfl (hlevel.trans rfl)
  rw [show maxNesting - 1 + 1 = maxNesting from rfl] at hparse
  rw [Expr.read?, String.toList_ofList, lex_update hop hfield hbroken, lex_nil, hfuel, hparse]
  rfl

/-- A field steps by one. -/
theorem read?_step {field : List Char} {sign : Char} {op : BinaryOp} (hop : IsUpdate sign op)
    (hfield : IsIdentifier field) :
    read? (String.ofList ("this.".toList ++ field ++ [' ', sign, ' ', '1'])) =
      some (.binary op (.member (.name "this") (String.ofList field)) (.constant (.natural 1))) := by
  have hthis : IsIdentifier "this".toList := ⟨by decide, by decide⟩
  have hsource : "this.".toList ++ field ++ [' ', sign, ' ', '1'] =
      "this".toList ++ '.' :: (field ++ ' ' :: sign :: ' ' :: ['1']) := by
    simp
  have htoken : tokenAt? ['1'] = some (.number 1, 1) := rfl
  have hone : lex ['1'] = [.number 1] :=
    (lex_token (by decide) htoken).trans (congrArg _ lex_nil)
  rw [Expr.read?, String.toList_ofList, hsource, lex_name hthis rfl, lex_symbol (by decide) (by decide),
    lex_name hfield rfl, lex_sign hop, hone]
  cases hop with
  | add => rfl
  | sub => rfl

/-- A value does not read on behind a parenthesis that it does not open. -/
theorem read?_close {value : List Char} (h : IsEnclosable (String.ofList value) e)
    (after : List Char) : read? (String.ofList (value ++ ')' :: after)) = none := by
  obtain ⟨hbroken, raw, hraw, -⟩ := h
  rw [String.toList_ofList] at hbroken hraw
  have hfuel : fuelFor (lex value) ≤ fuelFor (lex value ++ .symbol ")" :: lex after) := by
    simp only [fuelFor, List.length_append]
    omega
  have hparse := parseExpr_append (Or.inr ⟨lex after, rfl⟩) hfuel (Nat.sub_le maxNesting 2) hbroken
    hraw
  rw [Expr.read?, String.toList_ofList, lex_close hbroken, hparse]
  rfl

/-- No expression begins with an equals sign. -/
theorem read?_equals (s : List Char) : read? (String.ofList ('=' :: s)) = none := by
  obtain ⟨symbol, rest, hlex, hsymbol⟩ := exists_lex_equals s
  have hparse : parseExpr (fuelFor (lex ('=' :: s))) maxNesting (lex ('=' :: s)) = none := by
    rw [hlex]
    apply parseExpr_eq_none rfl
    · obtain rfl | rfl := hsymbol
      · rfl
      · rfl
    · intro fuel nesting
      obtain rfl | rfl := hsymbol
      · exact parsePrimary_symbol (by decide) (by decide) (by decide)
      · exact parsePrimary_symbol (by decide) (by decide) (by decide)
  rw [Expr.read?, String.toList_ofList, hparse]
  rfl

/-- Two values between which a parenthesis is closed and opened again are two operands. -/
theorem read?_update_update {field first second : List Char} {sign sign' : Char} {op op' : BinaryOp}
    {e' : Term} (hop : IsUpdate sign op) (hop' : IsUpdate sign' op') (hfield : IsIdentifier field)
    (hfirst : IsEnclosable (String.ofList first) e) (hsecond : IsEnclosable (String.ofList second) e') :
    read? (String.ofList ("this.".toList ++ field ++ [' ', sign, ' ', '('] ++
        (first ++ [')', ' ', sign', ' ', '('] ++ second) ++ [')'])) =
      some (.binary op' (.binary op (.member (.name "this") (String.ofList field)) e) e') := by
  obtain ⟨hbroken, raw, hraw, rfl⟩ := hfirst
  obtain ⟨hbroken', raw', hraw', rfl⟩ := hsecond
  rw [String.toList_ofList] at hbroken hraw hbroken' hraw'
  have hsource : "this.".toList ++ field ++ [' ', sign, ' ', '('] ++
      (first ++ [')', ' ', sign', ' ', '('] ++ second) ++ [')'] =
        "this.".toList ++ field ++ [' ', sign, ' ', '('] ++ first ++
          ')' :: ' ' :: sign' :: ' ' :: '(' :: (second ++ [')']) := by
    simp
  have hafter : lex (' ' :: sign' :: ' ' :: '(' :: (second ++ [')'])) =
      .symbol (String.singleton sign') :: .symbol "(" :: (lex second ++ [.symbol ")"]) := by
    rw [lex_sign hop', lex_symbol (by decide) (by decide), lex_close hbroken', lex_nil]
    rfl
  obtain ⟨fuel, hfuel, hle, hle'⟩ : ∃ fuel, fuelFor (updateTokens (String.ofList field) sign (lex first)
      (.symbol (String.singleton sign') :: .symbol "(" :: (lex second ++ [.symbol ")"]))) =
        fuel + 2 + 12 ∧ fuelFor (lex first) + 10 ≤ fuel + 2 ∧
          fuelFor (lex second) + 10 ≤ fuel + 1 := by
    refine ⟨24 * ((lex first).length + (lex second).length) + 226, ?_⟩
    simp only [fuelFor, updateTokens, List.length_cons, List.length_append, List.length_nil]
    omega
  have hright := parseOperand_parentheses hle' hbroken' hraw' .nil
  have hlevel := parseLevel_update hop (String.ofList field) hle hbroken hraw
    (.sign hop' (.symbol "(" :: (lex second ++ [.symbol ")"])))
  have hparse := parseExpr_of_sum rfl ((hlevel.trans (levelTail_sum hop' hright)).trans rfl)
  rw [show maxNesting - 2 + 1 + 1 = maxNesting from rfl] at hparse
  rw [Expr.read?, String.toList_ofList, hsource, lex_update hop hfield hbroken, hafter, hfuel, hparse]
  rfl

end LiveMarkup.Expr
