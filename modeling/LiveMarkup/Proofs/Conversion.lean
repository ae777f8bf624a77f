import LiveMarkup.Component.Property
import LiveMarkup.Proofs.Template.Separators

/-!
# Conversion

A value of a property goes to an attribute and comes back. Main results: what comes back is the value
itself, unless it is an integer that only an unsigned word holds (`toValue_toAttribute_iff`), and what
an attribute stands for is kept by writing it and reading it again, unless it is a float
(`toValue_toAttribute_toValue`).
-/

namespace LiveMarkup

/-! ### Integers -/

namespace Decimal

variable {c : Char} {n : Nat}

theorem natOfDigits_toDigits (n : Nat) : natOfDigits (Nat.toDigits 10 n) = n :=
  Nat.ofDigitChars_eq_foldl.symm.trans Nat.ofDigitChars_ten_toDigits

theorem isDigit_of_mem_toDigits (h : c ∈ Nat.toDigits 10 n) : c.isDigit = true :=
  Nat.isDigit_of_mem_toDigits (by decide) (by decide) h

/-- A text that begins with a digit has no sign. -/
theorem splitSign_of_isDigit {s : List Char} (h : c.isDigit = true) :
    splitSign (c :: s) = (false, c :: s) := by
  unfold splitSign
  split
  · rename_i heq
    cases heq
    cases h
  · rename_i heq
    cases heq
    cases h
  · rfl

/-- The digits of a number, behind the sign of a negative one. -/
theorem toList_toString (n : Int) :
    (toString n).toList = (if n < 0 then ['-'] else []) ++ Nat.toDigits 10 n.natAbs := by
  cases n with
  | ofNat m => simp [Int.toString_eq_repr, Int.repr]
  | negSucc m => simp [Int.toString_eq_repr, Int.repr]

theorem readInt?_toString (n : Int) : readInt? (toString n).toList = some n := by
  have hdigits : (Nat.toDigits 10 n.natAbs).all Char.isDigit = true :=
    List.all_eq_true.mpr fun c hc => isDigit_of_mem_toDigits hc
  have hne : (Nat.toDigits 10 n.natAbs).isEmpty = false := by
    simp [Nat.toDigits_ne_nil]
  have hsplit : splitSign (toString n).toList = (decide (n < 0), Nat.toDigits 10 n.natAbs) := by
    rw [toList_toString]
    by_cases hneg : n < 0
    · simp [hneg, splitSign]
    · have hdigit : Nat.toDigits 10 n.natAbs ≠ [] := Nat.toDigits_ne_nil
      obtain ⟨c, s, hcons⟩ := List.exists_cons_of_ne_nil hdigit
      have hc : c.isDigit = true := isDigit_of_mem_toDigits (hcons ▸ List.mem_cons_self)
      rw [if_neg hneg, List.nil_append, hcons, splitSign_of_isDigit hc, decide_eq_false hneg]
  rw [readInt?, hsplit]
  simp only [hne, hdigits, natOfDigits_toDigits, decide_eq_true_eq]
  refine congrArg some ?_
  by_cases hneg : n < 0
  · rw [if_pos hneg]
    omega
  · rw [if_neg hneg]
    omega

end Decimal

theorem Text.trim_eq_self {s : List Char} (h : ∀ c ∈ s, isBlank c = false) : trim s = s := by
  have hfront : s.dropWhile isBlank = s := by
    cases s with
    | nil => rfl
    | cons c rest => exact List.dropWhile_cons_of_neg (by simp [h c List.mem_cons_self])
  rw [trim_eq_rdropWhile, hfront, List.rdropWhile_eq_self_iff]
  exact fun hne => by simp [h _ (List.getLast_mem hne)]

theorem Text.isBlank_of_isDigit {c : Char} (h : c.isDigit = true) : isBlank c = false := by
  have hbounds : 48 ≤ c.toNat ∧ c.toNat ≤ 57 := by
    simpa [Char.isDigit, UInt32.le_iff_toNat_le] using h
  simp [isBlank, inRanges]
  omega

theorem Text.trim_toString (n : Int) : trim (toString n).toList = (toString n).toList := by
  refine trim_eq_self fun c hc => ?_
  rw [Decimal.toList_toString, List.mem_append] at hc
  rcases hc with hsign | hdigit
  · split at hsign
    · rw [List.mem_singleton.mp hsign]
      decide
    · cases hsign
  · exact isBlank_of_isDigit (Decimal.isDigit_of_mem_toDigits hdigit)

/-! ### Numbers -/

/-- A text reads as an integer between the bounds, as a float or as null. -/
theorem readNumber_cases (s : String) :
    (∃ n, Json.minInt ≤ n ∧ n ≤ Json.maxInt ∧ readNumber s = .int n) ∨
      (∃ x, readNumber s = .float x) ∨ readNumber s = .null := by
  unfold readNumber
  dsimp only
  split
  · rename_i n hint
    have hbounds := (Option.filter_eq_some_iff.mp hint).2
    simp only [Bool.and_eq_true, decide_eq_true_eq] at hbounds
    exact Or.inl ⟨n, hbounds.1, hbounds.2, rfl⟩
  · split
    · rename_i x _
      exact Or.inr (Or.inl ⟨x, rfl⟩)
    · exact Or.inr (Or.inr rfl)

theorem readNumber_toString {n : Int} (hlow : Json.minInt ≤ n) (hhigh : n ≤ Json.maxInt) :
    readNumber (toString n) = .int n := by
  rw [readNumber, Text.trim_toString, Decimal.readInt?_toString,
    Option.filter_some_pos (by simp [hlow, hhigh])]

theorem Json.maxInt_le_maxUnsigned : maxInt ≤ maxUnsigned := by
  decide

/-- The values of a type: a number is null or any integer that a value holds. -/
inductive AttributeType.Has : AttributeType → Json → Prop where
  | flag (b : Bool) : Has .boolean (.bool b)
  | text (s : String) : Has .string (.text s)
  | noText : Has .string .null
  | number {n : Int} : Json.minInt ≤ n → n ≤ Json.maxUnsigned → Has .number (.int n)
  | noNumber : Has .number .null

namespace Converter

variable {converter : Converter} {value : Json} {n : Int}

/-! ### There and back -/

theorem toValue_toAttribute_int (htype : converter.type = .number) (hlow : Json.minInt ≤ n) :
    converter.toValue (converter.toAttribute (.int n)) = .int n ↔ n ≤ Json.maxInt := by
  have hread : converter.toValue (converter.toAttribute (.int n)) = readNumber (toString n) := by
    simp [toValue, toAttribute, htype, Json.compact]
  rw [hread]
  refine ⟨fun hback => ?_, readNumber_toString hlow⟩
  rcases readNumber_cases (toString n) with ⟨m, -, hhigh, hint⟩ | ⟨x, hfloat⟩ | hnull
  · rw [hint] at hback
    cases hback
    exact hhigh
  · rw [hfloat] at hback
    cases hback
  · rw [hnull] at hback
    cases hback

theorem toValue_toAttribute_iff (h : converter.type.Has value) :
    converter.toValue (converter.toAttribute value) = value ↔
      ∀ n, value = .int n → n ≤ Json.maxInt := by
  obtain ⟨type, force⟩ := converter
  cases h with
  | flag b => cases b <;> simp [toValue, toAttribute, Json.isTruthy]
  | text s => simp [toValue, toAttribute]
  | noText | noNumber => simp [toValue, toAttribute]
  | number hlow _ => simpa using @toValue_toAttribute_int ⟨.number, force⟩ _ rfl hlow

/-- What an attribute stands for is a value of the type, and an integer has a sign. -/
theorem has_toValue {text : Option String} (h : ∀ x, converter.toValue text ≠ .float x) :
    converter.type.Has (converter.toValue text) ∧
      ∀ n, converter.toValue text = .int n → n ≤ Json.maxInt := by
  obtain ⟨type, force⟩ := converter
  match type, text with
  | .boolean, none | .boolean, some s => exact ⟨.flag _, fun n heq => by cases heq⟩
  | .string, some s => exact ⟨.text s, fun n heq => by cases heq⟩
  | .string, none => exact ⟨.noText, fun n heq => by cases heq⟩
  | .number, none => exact ⟨.noNumber, fun n heq => by cases heq⟩
  | .number, some s =>
      change ∀ x, readNumber s ≠ .float x at h
      change AttributeType.number.Has (readNumber s) ∧
        ∀ n, readNumber s = .int n → n ≤ Json.maxInt
      rcases readNumber_cases s with ⟨n, hlow, hhigh, hint⟩ | ⟨x, hfloat⟩ | hnull
      · rw [hint]
        refine ⟨.number hlow (Int.le_trans hhigh Json.maxInt_le_maxUnsigned), fun m heq => ?_⟩
        cases heq
        exact hhigh
      · exact absurd hfloat (h x)
      · rw [hnull]
        exact ⟨.noNumber, fun n heq => by cases heq⟩

theorem toValue_toAttribute_toValue {text : Option String}
    (h : ∀ x, converter.toValue text ≠ .float x) :
    converter.toValue (converter.toAttribute (converter.toValue text)) = converter.toValue text :=
  have hvalue := has_toValue h
  (toValue_toAttribute_iff hvalue.1).mpr hvalue.2

end Converter

end LiveMarkup
