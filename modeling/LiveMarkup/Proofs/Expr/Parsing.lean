import LiveMarkup.Expr.Parse
import Mathlib

/-!
# Expressions before a closing parenthesis

Tokens that read as an expression read as the same expression when a closing parenthesis follows them.
-/

namespace LiveMarkup.Expr

variable {α β : Type} {fuel fuel' nesting nesting' : Nat} {tail tokens rest : List Token} {s : String}

/-! ### Tokens that continue nothing -/

/-- No tokens, or a closing parenthesis before any others. -/
def IsStop (tail : List Token) : Prop :=
  tail = [] ∨ ∃ more, tail = .symbol ")" :: more

theorem skip?_append (hne : tokens ≠ []) (tail : List Token) :
    skip? s (tokens ++ tail) = (skip? s tokens).map (· ++ tail) := by
  obtain ⟨t, rest, rfl⟩ := List.exists_cons_of_ne_nil hne
  cases t <;> simp [skip?, apply_ite]

theorem skip?_append_stop (htail : IsStop tail) (hs : s ≠ ")") (tokens : List Token) :
    skip? s (tokens ++ tail) = (skip? s tokens).map (· ++ tail) := by
  cases tokens with
  | nil =>
      rcases htail with rfl | ⟨more, rfl⟩
      · rfl
      · simp [skip?, hs]
  | cons t rest => exact skip?_append (List.cons_ne_nil t rest) tail

theorem skipName?_append (htail : IsStop tail) (tokens : List Token) :
    skipName? s (tokens ++ tail) = (skipName? s tokens).map (· ++ tail) := by
  cases tokens with
  | nil =>
      rcases htail with rfl | ⟨more, rfl⟩
      · rfl
      · rfl
  | cons t rest => cases t <;> simp [skipName?, apply_ite]

theorem operator?_append (htail : IsStop tail) (level : Level) (tokens : List Token) :
    level.operator? (tokens ++ tail) =
      (level.operator? tokens).map fun (make, rest) => (make, rest ++ tail) := by
  cases tokens with
  | nil =>
      rcases htail with rfl | ⟨more, rfl⟩
      · cases level <;> rfl
      · cases level <;> rfl
  | cons t rest =>
      rw [List.cons_append]
      unfold Level.operator?
      split <;> simp_all

theorem comparison?_append (htail : IsStop tail) (tokens : List Token) :
    comparison? (tokens ++ tail) =
      (comparison? tokens).map fun (comparison, rest) => (comparison, rest ++ tail) := by
  rcases htail with rfl | ⟨more, rfl⟩
  · simp
  cases tokens with
  | nil => rfl
  | cons t rest =>
      cases rest with
      | nil =>
          unfold comparison?
          split <;> simp_all
      | cons u rest =>
          simp only [List.cons_append]
          unfold comparison?
          split <;> simp_all

theorem isBrokenComparison_append (htail : IsStop tail) (tokens : List Token) :
    isBrokenComparison (tokens ++ tail) = isBrokenComparison tokens := by
  cases tokens with
  | nil =>
      rcases htail with rfl | ⟨more, rfl⟩
      · rfl
      · rfl
  | cons t rest =>
      rw [List.cons_append]
      unfold isBrokenComparison
      split <;> simp_all

theorem joinTexts_append (htail : IsStop tail) (s : String) (tokens : List Token) :
    joinTexts s (tokens ++ tail) = ((joinTexts s tokens).1, (joinTexts s tokens).2 ++ tail) := by
  induction tokens generalizing s with
  | nil =>
      rcases htail with rfl | ⟨more, rfl⟩
      · rfl
      · rfl
  | cons t rest ih =>
      cases t with
      | text u => exact ih (s ++ u)
      | _ => rfl

theorem dottedTail?_append (htail : IsStop tail) (name : String) (tokens : List Token) :
    dottedTail? name (tokens ++ tail) =
      (dottedTail? name tokens).map fun (name, rest) => (name, rest ++ tail) := by
  fun_induction dottedTail? name tokens with
  | case1 name part rest ih => exact ih
  | case2 name rest hname =>
      rcases htail with rfl | ⟨more, rfl⟩
      · rw [List.append_nil, Option.map_none, dottedTail?]
        exact hname
      · cases rest with
        | nil => rfl
        | cons t rest =>
            cases t with
            | name part => exact absurd rfl (hname part rest)
            | _ => rfl
  | case3 name tokens hname hdot =>
      have hstay : ∀ more, (∀ rest, more ≠ .symbol "." :: rest) →
          dottedTail? name more = some (name, more) := by
        intro more hmore
        unfold dottedTail?
        split <;> simp_all
      rw [Option.map_some]
      apply hstay
      intro rest heq
      cases tokens with
      | nil =>
          rcases htail with rfl | ⟨more, rfl⟩
          · cases heq
          · simp at heq
      | cons t more =>
          obtain ⟨rfl, -⟩ := List.cons.inj heq
          exact hdot more rfl

theorem dottedName?_append (htail : IsStop tail) (tokens : List Token) :
    dottedName? (tokens ++ tail) =
      (dottedName? tokens).map fun (name, rest) => (name, rest ++ tail) := by
  cases tokens with
  | nil =>
      rcases htail with rfl | ⟨more, rfl⟩
      · rfl
      · rfl
  | cons t rest =>
      cases t with
      | name name => exact dottedTail?_append htail name rest
      | _ => rfl

theorem beginsArgument_append (htail : IsStop tail) (tokens : List Token) :
    beginsArgument (tokens ++ tail) = beginsArgument tokens := by
  cases tokens with
  | nil =>
      rcases htail with rfl | ⟨more, rfl⟩
      · rfl
      · simp [beginsArgument]
  | cons t rest => cases t <;> rfl

theorem spreading_append (htail : IsStop tail) (tokens : List Token) :
    spreading (tokens ++ tail) = ((spreading tokens).1, (spreading tokens).2 ++ tail) := by
  cases tokens with
  | nil =>
      rcases htail with rfl | ⟨more, rfl⟩
      · rfl
      · rfl
  | cons t rest =>
      rw [List.cons_append]
      unfold spreading
      split <;> simp_all

/-- Nothing is read where no operand begins. -/
theorem parseExpr_eq_none (hnot : skipName? "not" tokens = none) (hminus : skip? "-" tokens = none)
    (hprimary : ∀ fuel nesting, parsePrimary fuel nesting tokens = none) (fuel nesting : Nat) :
    parseExpr fuel nesting tokens = none := by
  have hsigned : ∀ fuel nesting, parseSigned fuel nesting tokens = none := by
    intro fuel nesting
    cases fuel with
    | zero => rfl
    | succ fuel =>
        rw [parseSigned, hminus]
        exact hprimary fuel nesting
  have hsingle : ∀ fuel nesting, parseSingle fuel nesting tokens = none := by
    intro fuel nesting
    cases fuel with
    | zero => rfl
    | succ fuel =>
        rw [parseSingle, hsigned]
        rfl
  have hlevel : ∀ fuel nesting level, parseLevel fuel nesting level tokens = none ∧
      parseOperand fuel nesting level tokens = none := by
    intro fuel
    induction fuel with
    | zero => exact fun _ _ => ⟨rfl, rfl⟩
    | succ fuel ih =>
        intro nesting level
        refine ⟨?_, ?_⟩
        · rw [parseLevel, hnot, ite_self, (ih nesting level).2]
          rfl
        · rw [parseOperand]
          cases level.next? with
          | some next => exact (ih nesting next).1
          | none => exact hsingle fuel nesting
  cases fuel with
  | zero => rfl
  | succ fuel =>
      cases nesting with
      | zero => rfl
      | succ nesting =>
          cases fuel with
          | zero => rfl
          | succ fuel =>
              rw [parseExpr, parseChoice, (hlevel fuel nesting .or).1]
              rfl

theorem parsePrimary_symbol (hparen : s ≠ "(") (hbracket : s ≠ "[") (hbrace : s ≠ "\x7b") :
    parsePrimary fuel nesting (.symbol s :: rest) = none := by
  unfold parsePrimary
  split
  · split <;> simp_all
  · rfl

theorem parsePrimary_stop (htail : IsStop tail) (fuel nesting : Nat) :
    parsePrimary fuel nesting tail = none := by
  cases fuel with
  | zero => rfl
  | succ fuel =>
      cases nesting with
      | zero => rfl
      | succ nesting =>
          rcases htail with rfl | ⟨more, rfl⟩
          · rfl
          · rfl

theorem parseExpr_stop (htail : IsStop tail) (fuel nesting : Nat) :
    parseExpr fuel nesting tail = none :=
  parseExpr_eq_none (skipName?_append htail []) (skip?_append_stop htail (by decide) [])
    (parsePrimary_stop htail) fuel nesting

theorem parseExpr_nil (fuel nesting : Nat) : parseExpr fuel nesting [] = none :=
  parseExpr_stop (Or.inl rfl) fuel nesting

/-! ### Tokens without a broken one -/

theorem not_mem_of_skip? (h : .broken ∉ tokens) (hskip : skip? s tokens = some rest) :
    .broken ∉ rest := by
  unfold skip? at hskip
  split at hskip
  · split at hskip
    · cases hskip
      exact fun hmem => h (List.mem_cons_of_mem _ hmem)
    · cases hskip
  · cases hskip

theorem not_mem_of_skipName? (h : .broken ∉ tokens) (hskip : skipName? s tokens = some rest) :
    .broken ∉ rest := by
  unfold skipName? at hskip
  split at hskip
  · split at hskip
    · cases hskip
      exact fun hmem => h (List.mem_cons_of_mem _ hmem)
    · cases hskip
  · cases hskip

theorem not_mem_of_operator? {level : Level} {make : Term → Term → Term} (h : .broken ∉ tokens)
    (hoperator : level.operator? tokens = some (make, rest)) : .broken ∉ rest := by
  unfold Level.operator? at hoperator
  split at hoperator <;> first
    | cases hoperator
      exact fun hmem => h (List.mem_cons_of_mem _ hmem)
    | cases hoperator

theorem not_mem_of_comparison? {comparison : Comparison} (h : .broken ∉ tokens)
    (hcomparison : comparison? tokens = some (comparison, rest)) : .broken ∉ rest := by
  unfold comparison? at hcomparison
  split at hcomparison <;> first
    | cases hcomparison
      exact fun hmem => h (by simp [hmem])
    | cases hcomparison

theorem not_mem_joinTexts (h : .broken ∉ tokens) (s : String) :
    .broken ∉ (joinTexts s tokens).2 := by
  induction tokens generalizing s with
  | nil => exact h
  | cons t rest ih =>
      cases t with
      | text u => exact ih (fun hmem => h (List.mem_cons_of_mem _ hmem)) (s ++ u)
      | _ => exact h

theorem not_mem_of_dottedTail? {name found : String} (h : .broken ∉ tokens)
    (hname : dottedTail? name tokens = some (found, rest)) : .broken ∉ rest := by
  fun_induction dottedTail? name tokens with
  | case1 name part more ih =>
      exact ih (fun hmem => h (by simp [hmem])) hname
  | case2 name more _ => cases hname
  | case3 name tokens _ _ =>
      cases hname
      exact h

theorem not_mem_of_dottedName? {found : String} (h : .broken ∉ tokens)
    (hname : dottedName? tokens = some (found, rest)) : .broken ∉ rest := by
  cases tokens with
  | nil => cases hname
  | cons t more =>
      cases t with
      | name name => exact not_mem_of_dottedTail? (fun hmem => h (by simp [hmem])) hname
      | _ => cases hname

theorem not_mem_spreading (h : .broken ∉ tokens) : .broken ∉ (spreading tokens).2 := by
  unfold spreading
  split
  · exact fun hmem => h (List.mem_cons_of_mem _ hmem)
  · exact fun hmem => h (List.mem_cons_of_mem _ hmem)
  · exact h

/-! ### Results with a tail behind the rest -/

/-- Whatever the first result is, the second one is the same with a tail behind the rest. -/
def Extends (tail : List Token) (p q : Option (α × List Token)) : Prop :=
  ∀ x rest, p = some (x, rest) → .broken ∉ rest ∧ q = some (x, rest ++ tail)

theorem Extends.none (q : Option (α × List Token)) : Extends tail .none q := by
  intro x rest h
  cases h

theorem Extends.some {x : α} (h : .broken ∉ rest) :
    Extends tail (.some (x, rest)) (.some (x, rest ++ tail)) := by
  rintro x rest ⟨⟩
  exact ⟨h, rfl⟩

theorem Extends.bind {p q : Option (α × List Token)}
    {f g : α × List Token → Option (β × List Token)} (hp : Extends tail p q)
    (hf : ∀ x rest, .broken ∉ rest → Extends tail (f (x, rest)) (g (x, rest ++ tail))) :
    Extends tail (p >>= f) (q >>= g) := by
  intro y last h
  obtain ⟨⟨x, rest⟩, hx, hy⟩ := Option.bind_eq_some_iff.mp h
  obtain ⟨hbroken, hq⟩ := hp x rest hx
  obtain ⟨hlast, hg⟩ := hf x rest hbroken y last hy
  refine ⟨hlast, ?_⟩
  rw [hq]
  exact hg

theorem Extends.skip {f g : List Token → Option (α × List Token)} (htail : IsStop tail)
    (hs : s ≠ ")") (hbroken : .broken ∉ tokens)
    (hf : ∀ rest, .broken ∉ rest → Extends tail (f rest) (g (rest ++ tail))) :
    Extends tail (skip? s tokens >>= f) (skip? s (tokens ++ tail) >>= g) := by
  rw [skip?_append_stop htail hs]
  cases hskip : skip? s tokens with
  | none => exact Extends.none _
  | some rest => exact hf rest (not_mem_of_skip? hbroken hskip)

/-- One more layer of the parser: with `fuel` and `fuel'` every part of it reads the same before the
tail. -/
structure Stable (tail : List Token) (fuel fuel' : Nat) : Prop where
  expr : ∀ {nesting nesting' tokens}, nesting ≤ nesting' → .broken ∉ tokens →
    Extends tail (parseExpr fuel nesting tokens) (parseExpr fuel' nesting' (tokens ++ tail))
  choice : ∀ {nesting nesting' tokens}, nesting ≤ nesting' → .broken ∉ tokens →
    Extends tail (parseChoice fuel nesting tokens) (parseChoice fuel' nesting' (tokens ++ tail))
  choiceTail : ∀ {nesting nesting' e tokens}, nesting ≤ nesting' → .broken ∉ tokens →
    Extends tail (choiceTail fuel nesting e tokens) (choiceTail fuel' nesting' e (tokens ++ tail))
  level : ∀ {nesting nesting' level tokens}, nesting ≤ nesting' → .broken ∉ tokens →
    Extends tail (parseLevel fuel nesting level tokens)
      (parseLevel fuel' nesting' level (tokens ++ tail))
  operand : ∀ {nesting nesting' level tokens}, nesting ≤ nesting' → .broken ∉ tokens →
    Extends tail (parseOperand fuel nesting level tokens)
      (parseOperand fuel' nesting' level (tokens ++ tail))
  levelTail : ∀ {nesting nesting' level e tokens}, nesting ≤ nesting' → .broken ∉ tokens →
    Extends tail (levelTail fuel nesting level e tokens)
      (levelTail fuel' nesting' level e (tokens ++ tail))
  links : ∀ {nesting nesting' tokens}, nesting ≤ nesting' → .broken ∉ tokens →
    Extends tail (parseLinks fuel nesting tokens) (parseLinks fuel' nesting' (tokens ++ tail))
  single : ∀ {nesting nesting' tokens}, nesting ≤ nesting' → .broken ∉ tokens →
    Extends tail (parseSingle fuel nesting tokens) (parseSingle fuel' nesting' (tokens ++ tail))
  signed : ∀ {nesting nesting' tokens}, nesting ≤ nesting' → .broken ∉ tokens →
    Extends tail (parseSigned fuel nesting tokens) (parseSigned fuel' nesting' (tokens ++ tail))
  primary : ∀ {nesting nesting' tokens}, nesting ≤ nesting' → .broken ∉ tokens →
    Extends tail (parsePrimary fuel nesting tokens) (parsePrimary fuel' nesting' (tokens ++ tail))
  items : ∀ {nesting nesting' closing tokens}, nesting ≤ nesting' → .broken ∉ tokens →
    Extends tail (parseItems fuel nesting closing tokens)
      (parseItems fuel' nesting' closing (tokens ++ tail))
  entries : ∀ {nesting nesting' tokens}, nesting ≤ nesting' → .broken ∉ tokens →
    Extends tail (parseEntries fuel nesting tokens) (parseEntries fuel' nesting' (tokens ++ tail))
  arguments : ∀ {nesting nesting' count named tokens}, nesting ≤ nesting' → .broken ∉ tokens →
    Extends tail (parseArguments fuel nesting count named tokens)
      (parseArguments fuel' nesting' count named (tokens ++ tail))
  moreArguments : ∀ {nesting nesting' count named tokens}, nesting ≤ nesting' → .broken ∉ tokens →
    Extends tail (moreArguments fuel nesting count named tokens)
      (moreArguments fuel' nesting' count named (tokens ++ tail))
  postfixTail : ∀ {nesting nesting' e tokens}, nesting ≤ nesting' → .broken ∉ tokens →
    Extends tail (postfixTail fuel nesting e tokens) (postfixTail fuel' nesting' e (tokens ++ tail))
  bound : ∀ {nesting nesting' tokens}, nesting ≤ nesting' → .broken ∉ tokens →
    Extends tail (parseBound fuel nesting tokens) (parseBound fuel' nesting' (tokens ++ tail))
  filterTail : ∀ {nesting nesting' e tokens}, nesting ≤ nesting' → .broken ∉ tokens →
    Extends tail (filterTail fuel nesting e tokens) (filterTail fuel' nesting' e (tokens ++ tail))
  optionalArguments : ∀ {nesting nesting' tokens}, nesting ≤ nesting' → .broken ∉ tokens →
    Extends tail (optionalArguments fuel nesting tokens)
      (optionalArguments fuel' nesting' (tokens ++ tail))
  testArguments : ∀ {nesting nesting' tokens}, nesting ≤ nesting' → .broken ∉ tokens →
    Extends tail (testArguments fuel nesting tokens) (testArguments fuel' nesting' (tokens ++ tail))

theorem Stable.zero (tail : List Token) (fuel' : Nat) : Stable tail 0 fuel' := by
  constructor <;> exact fun _ _ => Extends.none _

/-! ### What follows an operand -/

theorem postfixTail_stay {e : Term} (hdot : ∀ rest, tokens ≠ .symbol "." :: rest)
    (hitem : ∀ rest, tokens ≠ .symbol "[" :: rest) (hcall : ∀ rest, tokens ≠ .symbol "(" :: rest) :
    postfixTail (fuel + 1) nesting e tokens = some (e, tokens) := by
  unfold postfixTail
  split <;> simp_all

theorem filterTail_stay {e : Term} (hfilter : ∀ rest, tokens ≠ .symbol "|" :: rest)
    (htest : ∀ rest, tokens ≠ .name "is" :: rest) :
    filterTail (fuel + 1) nesting e tokens = some (e, tokens) := by
  unfold filterTail
  split <;> simp_all

theorem parsePrimary_text (h : rest ≠ [.broken]) (s : String) :
    parsePrimary (fuel + 1) (nesting + 1) (.text s :: rest) =
      some (.constant (.ofString (joinTexts s rest).1), (joinTexts s rest).2) := by
  unfold parsePrimary
  split <;> simp_all

/-- A token that is not in the way stays in front of a tail. -/
theorem append_ne (htail : IsStop tail) {t : Token} (ht : t ≠ .symbol ")")
    (h : ∀ rest, tokens ≠ t :: rest) (rest : List Token) : tokens ++ tail ≠ t :: rest := by
  intro heq
  cases tokens with
  | nil =>
      rcases htail with rfl | ⟨more, rfl⟩
      · cases heq
      · exact ht (List.cons.inj heq).1.symm
  | cons u more => exact h more (congrArg (· :: more) (List.cons.inj heq).1)

section Layers

variable (htail : IsStop tail) (h : Stable tail fuel fuel') (hnesting : nesting ≤ nesting')
  (hbroken : .broken ∉ tokens)

include h hnesting hbroken

theorem parseExpr_layer :
    Extends tail (parseExpr (fuel + 1) nesting tokens)
      (parseExpr (fuel' + 1) nesting' (tokens ++ tail)) := by
  cases nesting with
  | zero => exact Extends.none _
  | succ nesting =>
      obtain ⟨nesting', rfl⟩ := Nat.exists_eq_add_of_lt hnesting
      exact h.choice (by omega) hbroken

theorem parseChoice_layer :
    Extends tail (parseChoice (fuel + 1) nesting tokens)
      (parseChoice (fuel' + 1) nesting' (tokens ++ tail)) := by
  apply (h.level hnesting hbroken).bind
  intro e rest hrest
  exact h.choiceTail hnesting hrest

theorem parseOperand_layer (level : Level) :
    Extends tail (parseOperand (fuel + 1) nesting level tokens)
      (parseOperand (fuel' + 1) nesting' level (tokens ++ tail)) := by
  rw [parseOperand, parseOperand]
  cases level.next? with
  | none => exact h.single hnesting hbroken
  | some next => exact h.level hnesting hbroken

theorem parseSingle_layer :
    Extends tail (parseSingle (fuel + 1) nesting tokens)
      (parseSingle (fuel' + 1) nesting' (tokens ++ tail)) := by
  apply (h.signed hnesting hbroken).bind
  intro e rest hrest
  apply (h.postfixTail hnesting hrest).bind
  intro e rest hrest
  exact h.filterTail hnesting hrest

include htail

theorem choiceTail_layer (e : Term) :
    Extends tail (choiceTail (fuel + 1) nesting e tokens)
      (choiceTail (fuel' + 1) nesting' e (tokens ++ tail)) := by
  rw [choiceTail, choiceTail, skipName?_append htail]
  cases hif : skipName? "if" tokens with
  | none => exact Extends.some hbroken
  | some rest =>
      apply (h.level hnesting (not_mem_of_skipName? hbroken hif)).bind
      intro test rest hrest
      dsimp only
      rw [skipName?_append htail]
      cases helse : skipName? "else" rest with
      | none => exact h.choiceTail hnesting hrest
      | some more =>
          apply (h.choice hnesting (not_mem_of_skipName? hrest helse)).bind
          intro otherwise rest hrest
          exact h.choiceTail hnesting hrest

theorem parseLevel_layer (level : Level) :
    Extends tail (parseLevel (fuel + 1) nesting level tokens)
      (parseLevel (fuel' + 1) nesting' level (tokens ++ tail)) := by
  have hskip : (if level = .not then skipName? "not" (tokens ++ tail) else none) =
      (if level = .not then skipName? "not" tokens else none).map (· ++ tail) := by
    rw [skipName?_append htail]
    split <;> rfl
  rw [parseLevel, parseLevel, hskip]
  cases hnot : (if level = .not then skipName? "not" tokens else none) with
  | some rest =>
      have hrest : .broken ∉ rest := by
        split at hnot
        · exact not_mem_of_skipName? hbroken hnot
        · cases hnot
      apply (h.level hnesting hrest).bind
      intro e rest hrest
      exact Extends.some hrest
  | none =>
      apply (h.operand hnesting hbroken).bind
      intro left rest hrest
      dsimp only
      split
      · apply (h.links hnesting hrest).bind
        intro links rest hrest
        exact Extends.some hrest
      · exact h.levelTail hnesting hrest

theorem levelTail_layer (level : Level) (e : Term) :
    Extends tail (levelTail (fuel + 1) nesting level e tokens)
      (levelTail (fuel' + 1) nesting' level e (tokens ++ tail)) := by
  rw [levelTail, levelTail, operator?_append htail]
  cases hoperator : level.operator? tokens with
  | none => exact Extends.some hbroken
  | some found =>
      obtain ⟨make, rest⟩ := found
      apply (h.operand hnesting (not_mem_of_operator? hbroken hoperator)).bind
      intro right rest hrest
      exact h.levelTail hnesting hrest

theorem parseLinks_layer :
    Extends tail (parseLinks (fuel + 1) nesting tokens)
      (parseLinks (fuel' + 1) nesting' (tokens ++ tail)) := by
  rw [parseLinks, parseLinks, comparison?_append htail]
  cases hcomparison : comparison? tokens with
  | none =>
      simp only [Option.map_none, isBrokenComparison_append htail]
      split
      · exact Extends.none _
      · exact Extends.some hbroken
  | some found =>
      obtain ⟨comparison, rest⟩ := found
      apply (h.operand hnesting (not_mem_of_comparison? hbroken hcomparison)).bind
      intro right rest hrest
      apply (h.links hnesting hrest).bind
      intro links rest hrest
      exact Extends.some hrest

theorem parseSigned_layer :
    Extends tail (parseSigned (fuel + 1) nesting tokens)
      (parseSigned (fuel' + 1) nesting' (tokens ++ tail)) := by
  rw [parseSigned, parseSigned, skip?_append_stop htail (by decide)]
  cases hskip : skip? "-" tokens with
  | none => exact h.primary hnesting hbroken
  | some rest =>
      apply (h.signed hnesting (not_mem_of_skip? hbroken hskip)).bind
      intro e rest hrest
      exact Extends.some hrest

theorem parseEntries_layer :
    Extends tail (parseEntries (fuel + 1) nesting tokens)
      (parseEntries (fuel' + 1) nesting' (tokens ++ tail)) := by
  rw [parseEntries, parseEntries, skip?_append_stop htail (by decide)]
  cases hskip : skip? "\x7d" tokens with
  | some rest => exact Extends.some (not_mem_of_skip? hbroken hskip)
  | none =>
      apply (h.expr hnesting hbroken).bind
      intro key rest hrest
      apply Extends.skip htail (by decide) hrest
      intro rest hrest
      apply (h.expr hnesting hrest).bind
      intro value rest hrest
      dsimp only
      rw [skip?_append_stop htail (by decide)]
      cases hclose : skip? "\x7d" rest with
      | some rest' => exact Extends.some (not_mem_of_skip? hrest hclose)
      | none =>
          apply Extends.skip htail (by decide) hrest
          intro rest hrest
          apply (h.entries hnesting hrest).bind
          intro entries rest hrest
          exact Extends.some hrest

theorem parseBound_layer :
    Extends tail (parseBound (fuel + 1) nesting tokens)
      (parseBound (fuel' + 1) nesting' (tokens ++ tail)) := by
  rw [parseBound, parseBound, skip?_append_stop htail (by decide),
    skip?_append_stop htail (by decide), Option.isSome_map, Option.isSome_map]
  split
  · exact Extends.some hbroken
  · apply (h.expr hnesting hbroken).bind
    intro e rest hrest
    exact Extends.some hrest

theorem parseItems_layer (closing : String) :
    Extends tail (parseItems (fuel + 1) nesting closing tokens)
      (parseItems (fuel' + 1) nesting' closing (tokens ++ tail)) := by
  by_cases hne : tokens = []
  · rw [hne, parseItems, parseExpr_nil]
    exact Extends.none _
  rw [parseItems, parseItems, skip?_append hne]
  cases hskip : skip? closing tokens with
  | some rest => exact Extends.some (not_mem_of_skip? hbroken hskip)
  | none =>
      apply (h.expr hnesting hbroken).bind
      intro e rest hrest
      by_cases hne : rest = []
      · rw [hne]
        exact Extends.none _
      dsimp only
      rw [skip?_append hne]
      cases hclose : skip? closing rest with
      | some rest' => exact Extends.some (not_mem_of_skip? hrest hclose)
      | none =>
          apply Extends.skip htail (by decide) hrest
          intro rest hrest
          apply (h.items hnesting hrest).bind
          intro items rest hrest
          exact Extends.some hrest

theorem moreArguments_layer (count : Nat) (named : Bool) :
    Extends tail (moreArguments (fuel + 1) nesting count named tokens)
      (moreArguments (fuel' + 1) nesting' count named (tokens ++ tail)) := by
  rw [moreArguments, moreArguments]
  split
  · exact Extends.none _
  by_cases hne : tokens = []
  · rw [hne]
    exact Extends.none _
  rw [skip?_append hne]
  cases hskip : skip? ")" tokens with
  | some rest => exact Extends.some (not_mem_of_skip? hbroken hskip)
  | none =>
      apply Extends.skip htail (by decide) hbroken
      intro rest hrest
      exact h.arguments hnesting hrest

theorem parseArguments_layer (count : Nat) (named : Bool) :
    Extends tail (parseArguments (fuel + 1) nesting count named tokens)
      (parseArguments (fuel' + 1) nesting' count named (tokens ++ tail)) := by
  by_cases hne : tokens = []
  · have hnil : parseArguments (fuel + 1) nesting count named [] = none := by
      rw [parseArguments]
      dsimp only [skip?, spreading]
      rw [parseExpr_nil]
      rfl
    rw [hne, hnil]
    exact Extends.none _
  have hspread := not_mem_spreading hbroken
  rw [parseArguments, parseArguments, skip?_append hne, spreading_append htail]
  cases hpair : spreading tokens with | mk form spread =>
  rw [hpair] at hspread
  cases hskip : skip? ")" tokens with
  | some rest => exact Extends.some (not_mem_of_skip? hbroken hskip)
  | none =>
      apply (h.expr hnesting hspread).bind
      intro e rest hrest
      have hmore : ∀ form : ArgumentForm, Extends tail
          (if named ∧ form = .positional then none
            else (moreArguments fuel nesting (count + 1) (named || form.isNamed) rest).bind fun found =>
              some ((form, e) :: found.1, found.2))
          (if named ∧ form = .positional then none
            else (moreArguments fuel' nesting' (count + 1) (named || form.isNamed)
              (rest ++ tail)).bind fun found => some ((form, e) :: found.1, found.2)) := by
        intro form
        split
        · exact Extends.none _
        · apply (h.moreArguments hnesting hrest).bind
          intro more rest hrest
          exact Extends.some hrest
      dsimp only
      rw [skip?_append_stop htail (by decide)]
      -- Only a positional name before an equals sign makes a named argument.
      cases form with
      | positional =>
          cases e with
          | name name =>
              cases hequals : skip? "=" rest with
              | none => exact hmore _
              | some value =>
                  apply (h.expr hnesting (not_mem_of_skip? hrest hequals)).bind
                  intro value rest hrest
                  apply (h.moreArguments hnesting hrest).bind
                  intro more rest hrest
                  exact Extends.some hrest
          | _ => exact hmore _
      | _ => exact hmore _

theorem parsePrimary_layer :
    Extends tail (parsePrimary (fuel + 1) nesting tokens)
      (parsePrimary (fuel' + 1) nesting' (tokens ++ tail)) := by
  cases nesting with
  | zero => exact Extends.none _
  | succ nesting =>
      obtain ⟨nesting', rfl⟩ := Nat.exists_eq_add_of_lt hnesting
      cases tokens with
      | nil => exact Extends.none _
      | cons t rest =>
          have hrest : .broken ∉ rest := fun hmem => hbroken (List.mem_cons_of_mem _ hmem)
          cases t with
          | name s => exact Extends.some hrest
          | number n => exact Extends.some hrest
          | float x => exact Extends.some hrest
          | broken => exact absurd List.mem_cons_self hbroken
          | text s =>
              have hlone : rest ≠ [.broken] := by
                rintro rfl
                exact hrest List.mem_cons_self
              have hlone' : rest ++ tail ≠ [.broken] := by
                intro heq
                obtain ⟨-, rfl⟩ | ⟨heq, -⟩ := List.append_eq_singleton_iff.mp heq
                · rcases htail with htail | ⟨more, htail⟩
                  · cases htail
                  · cases htail
                · exact hlone heq
              rw [List.cons_append, parsePrimary_text hlone, parsePrimary_text hlone',
                joinTexts_append htail]
              exact Extends.some (not_mem_joinTexts hrest s)
          | symbol s =>
              by_cases hparen : s = "("
              · subst hparen
                by_cases hne : rest = []
                · rw [hne, parsePrimary]
                  dsimp only [skip?]
                  rw [parseExpr_nil]
                  exact Extends.none _
                rw [List.cons_append, parsePrimary, parsePrimary, skip?_append hne]
                cases hskip : skip? ")" rest with
                | some more => exact Extends.some (not_mem_of_skip? hrest hskip)
                | none =>
                    apply (h.expr (by omega) hrest).bind
                    intro e rest hrest
                    by_cases hne : rest = []
                    · rw [hne]
                      exact Extends.none _
                    dsimp only
                    rw [skip?_append hne]
                    cases hclose : skip? ")" rest with
                    | some more => exact Extends.some (not_mem_of_skip? hrest hclose)
                    | none =>
                        apply Extends.skip htail (by decide) hrest
                        intro rest hrest
                        apply (h.items (by omega) hrest).bind
                        intro items rest hrest
                        exact Extends.some hrest
              by_cases hbracket : s = "["
              · subst hbracket
                apply (h.items (by omega) hrest).bind
                intro items rest hrest
                exact Extends.some hrest
              by_cases hbrace : s = "\x7b"
              · subst hbrace
                apply (h.entries (by omega) hrest).bind
                intro entries rest hrest
                exact Extends.some hrest
              rw [parsePrimary_symbol hparen hbracket hbrace]
              exact Extends.none _

theorem postfixTail_layer (e : Term) :
    Extends tail (postfixTail (fuel + 1) nesting e tokens)
      (postfixTail (fuel' + 1) nesting' e (tokens ++ tail)) := by
  by_cases hdot : ∃ rest, tokens = .symbol "." :: rest
  · obtain ⟨rest, rfl⟩ := hdot
    cases rest with
    | nil => exact Extends.none _
    | cons t rest =>
        have hrest : .broken ∉ rest := fun hmem => hbroken (by simp [hmem])
        cases t with
        | name name => exact h.postfixTail hnesting hrest
        | number n => exact h.postfixTail hnesting hrest
        | _ => exact Extends.none _
  by_cases hitem : ∃ rest, tokens = .symbol "[" :: rest
  · obtain ⟨rest, rfl⟩ := hitem
    have hrest : .broken ∉ rest := fun hmem => hbroken (List.mem_cons_of_mem _ hmem)
    rw [List.cons_append, postfixTail, postfixTail]
    apply (h.bound hnesting hrest).bind
    intro start rest hrest
    dsimp only
    rw [skip?_append_stop htail (by decide)]
    cases hcolon : skip? ":" rest with
    | none =>
        cases start with
        | none => exact Extends.none _
        | some key =>
            apply Extends.skip htail (by decide) hrest
            intro rest hrest
            exact h.postfixTail hnesting hrest
    | some rest' =>
        apply (h.bound hnesting (not_mem_of_skip? hrest hcolon)).bind
        intro stop rest hrest
        dsimp only
        rw [skip?_append_stop htail (by decide)]
        have hclose : ∀ (step : Option Term) (rest : List Token), .broken ∉ rest →
            Extends tail
              (do
                let rest ← skip? "]" rest
                let bound := fun (bound : Option Term) => bound.getD (.constant .none)
                postfixTail fuel nesting (.slice e (bound start) (bound stop) (bound step)) rest)
              (do
                let rest ← skip? "]" (rest ++ tail)
                let bound := fun (bound : Option Term) => bound.getD (.constant .none)
                postfixTail fuel' nesting' (.slice e (bound start) (bound stop) (bound step))
                  rest) := by
          intro step rest hrest
          apply Extends.skip htail (by decide) hrest
          intro rest hrest
          exact h.postfixTail hnesting hrest
        cases hstep : skip? ":" rest with
        | none => exact hclose none rest hrest
        | some rest' =>
            apply (h.bound hnesting (not_mem_of_skip? hrest hstep)).bind
            intro step rest hrest
            exact hclose step rest hrest
  by_cases hcall : ∃ rest, tokens = .symbol "(" :: rest
  · obtain ⟨rest, rfl⟩ := hcall
    have hrest : .broken ∉ rest := fun hmem => hbroken (List.mem_cons_of_mem _ hmem)
    apply (h.arguments hnesting hrest).bind
    intro args rest hrest
    exact h.postfixTail hnesting hrest
  rw [not_exists] at hdot hitem hcall
  rw [postfixTail_stay hdot hitem hcall, postfixTail_stay (append_ne htail (by simp) hdot)
    (append_ne htail (by simp) hitem) (append_ne htail (by simp) hcall)]
  exact Extends.some hbroken

theorem filterTail_layer (e : Term) :
    Extends tail (filterTail (fuel + 1) nesting e tokens)
      (filterTail (fuel' + 1) nesting' e (tokens ++ tail)) := by
  by_cases hfilter : ∃ rest, tokens = .symbol "|" :: rest
  · obtain ⟨rest, rfl⟩ := hfilter
    have hrest : .broken ∉ rest := fun hmem => hbroken (List.mem_cons_of_mem _ hmem)
    rw [List.cons_append, filterTail, filterTail, dottedName?_append htail]
    cases hname : dottedName? rest with
    | none => exact Extends.none _
    | some found =>
        obtain ⟨name, rest'⟩ := found
        apply (h.optionalArguments hnesting (not_mem_of_dottedName? hrest hname)).bind
        intro args rest hrest
        exact h.filterTail hnesting hrest
  by_cases htest : ∃ rest, tokens = .name "is" :: rest
  · obtain ⟨rest, rfl⟩ := htest
    have hrest : .broken ∉ rest := fun hmem => hbroken (List.mem_cons_of_mem _ hmem)
    have hsubject : .broken ∉ (skipName? "not" rest).getD rest := by
      cases hnot : skipName? "not" rest with
      | none => exact hrest
      | some rest' => exact not_mem_of_skipName? hrest hnot
    have happend : ((skipName? "not" rest).map (· ++ tail)).getD (rest ++ tail) =
        (skipName? "not" rest).getD rest ++ tail := by
      cases skipName? "not" rest <;> rfl
    rw [List.cons_append, filterTail, filterTail, skipName?_append htail, happend,
      dottedName?_append htail, Option.isSome_map]
    cases hname : dottedName? ((skipName? "not" rest).getD rest) with
    | none => exact Extends.none _
    | some found =>
        obtain ⟨name, rest'⟩ := found
        apply (h.testArguments hnesting (not_mem_of_dottedName? hsubject hname)).bind
        intro args rest hrest
        exact h.filterTail hnesting hrest
  rw [not_exists] at hfilter htest
  rw [filterTail_stay hfilter htest, filterTail_stay (append_ne htail (by simp) hfilter)
    (append_ne htail (by simp) htest)]
  exact Extends.some hbroken

theorem optionalArguments_layer :
    Extends tail (optionalArguments (fuel + 1) nesting tokens)
      (optionalArguments (fuel' + 1) nesting' (tokens ++ tail)) := by
  rw [optionalArguments, optionalArguments, skip?_append_stop htail (by decide)]
  cases hskip : skip? "(" tokens with
  | none => exact Extends.some hbroken
  | some rest => exact h.arguments hnesting (not_mem_of_skip? hbroken hskip)

theorem testArguments_layer :
    Extends tail (testArguments (fuel + 1) nesting tokens)
      (testArguments (fuel' + 1) nesting' (tokens ++ tail)) := by
  rw [testArguments, testArguments, skip?_append_stop htail (by decide), Option.isNone_map,
    beginsArgument_append htail]
  split
  · apply (h.signed hnesting hbroken).bind
    intro e rest hrest
    apply (h.postfixTail hnesting hrest).bind
    intro e rest hrest
    exact Extends.some hrest
  · exact h.optionalArguments hnesting hbroken

end Layers

theorem Stable.succ (htail : IsStop tail) (h : Stable tail fuel fuel') :
    Stable tail (fuel + 1) (fuel' + 1) where
  expr := parseExpr_layer h
  choice := parseChoice_layer h
  choiceTail hn hb := choiceTail_layer htail h hn hb _
  level hn hb := parseLevel_layer htail h hn hb _
  operand hn hb := parseOperand_layer h hn hb _
  levelTail hn hb := levelTail_layer htail h hn hb _ _
  links := parseLinks_layer htail h
  single := parseSingle_layer h
  signed := parseSigned_layer htail h
  primary := parsePrimary_layer htail h
  items hn hb := parseItems_layer htail h hn hb _
  entries := parseEntries_layer htail h
  arguments hn hb := parseArguments_layer htail h hn hb _ _
  moreArguments hn hb := moreArguments_layer htail h hn hb _ _
  postfixTail hn hb := postfixTail_layer htail h hn hb _
  bound := parseBound_layer htail h
  filterTail hn hb := filterTail_layer htail h hn hb _
  optionalArguments := optionalArguments_layer htail h
  testArguments := testArguments_layer htail h

theorem stable (htail : IsStop tail) (h : fuel ≤ fuel') : Stable tail fuel fuel' := by
  induction fuel generalizing fuel' with
  | zero => exact Stable.zero tail fuel'
  | succ fuel ih =>
      obtain ⟨fuel', rfl⟩ := Nat.exists_eq_add_of_lt h
      exact (ih (Nat.le_add_right fuel fuel')).succ htail

/-- What reads as an expression reads as the same one with more fuel, with more room to nest, and before
a closing parenthesis. -/
theorem parseExpr_append {e : Term} (htail : IsStop tail) (hfuel : fuel ≤ fuel')
    (hnesting : nesting ≤ nesting') (hbroken : .broken ∉ tokens)
    (h : parseExpr fuel nesting tokens = some (e, rest)) :
    parseExpr fuel' nesting' (tokens ++ tail) = some (e, rest ++ tail) :=
  ((stable htail hfuel).expr hnesting hbroken e rest h).2

end LiveMarkup.Expr
