import LiveMarkup.Proofs.Markup.References
import Mathlib.Data.List.Find
import Mathlib.Data.List.TakeWhile

/-!
# Each reference is decoded once

The lenient decoder replaces one name after the other in the whole text, the one of the `&` last.
Main result: that is one pass from left to right, in which a reference is decoded the same way
whatever stands before and after it. Where the strict decoder takes a text, the two of them agree
exactly if the text refers to no character by its number (`decodeLenient_once`).
-/

namespace LiveMarkup.Markup

variable {c m : Char} {name : String} {names : List (String × Char)} {s w raw rest : List Char}

/-! ### One reference beside others -/

/-- A word stops short of a character that it does not have. -/
theorem prefix_append_cons_iff (hw : m ∉ w) : w <+: s ++ m :: rest ↔ w <+: s := by
  induction w generalizing s with
  | nil => simp
  | cons x w ih =>
      rw [List.mem_cons, not_or] at hw
      cases s with
      | nil => simp [List.cons_prefix_cons, Ne.symm hw.1]
      | cons c s => rw [List.cons_append, List.cons_prefix_cons, List.cons_prefix_cons, ih hw.2]

theorem isPrefixOf_reference_append (hname : '&' ∉ name.toList) (hs : s ≠ []) (rest : List Char) :
    (reference name).isPrefixOf (s ++ '&' :: rest) = (reference name).isPrefixOf s := by
  obtain ⟨c, s, rfl⟩ := List.exists_cons_of_ne_nil hs
  have hword : '&' ∉ name.toList ++ [';'] := by simpa using hname
  rw [Bool.eq_iff_iff, List.isPrefixOf_iff_prefix, List.isPrefixOf_iff_prefix, reference,
    List.cons_append, List.cons_append, List.cons_prefix_cons, List.cons_prefix_cons,
    prefix_append_cons_iff hword]

/-- What stands before an `&` is decoded by itself. -/
theorem decodeNames_append (hnames : ∀ entry ∈ names, '&' ∉ entry.1.toList) (s rest : List Char) :
    decodeNames names (s ++ '&' :: rest) =
      decodeNames names s ++ decodeNames names ('&' :: rest) := by
  induction s using decodeNames.induct names with
  | case1 =>
      have hnil : decodeNames names [] = [] := by rw [decodeNames]
      rw [hnil, List.nil_append, List.nil_append]
  | case2 c s name d hfound ih =>
      have hprefix := List.find?_some hfound
      obtain ⟨tail, htail⟩ := List.isPrefixOf_iff_prefix.mp hprefix
      have hbehind : s.drop (name.toList.length + 1) = tail := by
        rw [reference_append, List.cons.injEq] at htail
        simp [← htail.2]
      have hfound' : names.find? (fun entry => (reference entry.1).isPrefixOf
          (reference name ++ (tail ++ '&' :: rest))) = some (name, d) := by
        rw [← hfound, ← List.append_assoc, htail]
        exact List.find?_congr fun entry hentry =>
          isPrefixOf_reference_append (hnames entry hentry) (by simp) rest
      rw [← htail] at hfound ⊢
      rw [List.append_assoc, decodeNames_found hfound', decodeNames_found hfound, ← hbehind, ih,
        List.cons_append]
  | case3 c s hnone ih =>
      have hnot : ∀ entry ∈ names, (reference entry.1).isPrefixOf (c :: s) = false :=
        fun entry hentry => Bool.eq_false_iff.mpr (List.find?_eq_none.mp hnone entry hentry)
      have hnot' : ∀ entry ∈ names,
          (reference entry.1).isPrefixOf (c :: (s ++ '&' :: rest)) = false := fun entry hentry => by
        rw [← List.cons_append, isPrefixOf_reference_append (hnames entry hentry) (by simp),
          hnot entry hentry]
      rw [List.cons_append, decodeNames_cons hnot', decodeNames_cons hnot, ih, List.cons_append]

theorem decodeNames_append_reference (hname : (name, c) ∈ predefined) (s rest : List Char) :
    decodeNames predefined (s ++ (reference name ++ rest)) =
      decodeNames predefined s ++ c :: decodeNames predefined rest := by
  have hnames : ∀ entry ∈ predefined, '&' ∉ entry.1.toList := by decide
  rw [← decodeNames_predefined hname, reference_append]
  exact decodeNames_append hnames s _

/-! ### Texts in which every `&` begins a reference -/

/-- A text in which every `&` begins a reference, and what it is read as. -/
inductive Refers : List Char → List Char → Prop where
  | nil : Refers [] []
  | plain {c : Char} {raw s : List Char} (hc : c ≠ '&') (h : Refers raw s) :
      Refers (c :: raw) (c :: s)
  | reference {word : List Char} {c : Char} {raw s : List Char}
      (hword : ∀ d ∈ word, isNameChar d = true) (hc : referenced? word = some c)
      (h : Refers raw s) : Refers ('&' :: word ++ ';' :: raw) (c :: s)

theorem beginsReference_iff : beginsReference s = true ↔ ∃ word c rest,
    (∀ d ∈ word, isNameChar d = true) ∧ referenced? word = some c ∧ s = word ++ ';' :: rest := by
  constructor
  · intro h
    have hsplit := List.takeWhile_append_dropWhile (p := isNameChar) (l := s)
    rw [beginsReference] at h
    split at h
    · rename_i rest hbehind
      obtain ⟨c, hc⟩ := Option.isSome_iff_exists.mp h
      rw [hbehind] at hsplit
      exact ⟨_, c, rest, fun d hd => List.mem_takeWhile_imp hd, hc, hsplit.symm⟩
    · cases h
  · rintro ⟨word, c, rest, hword, hc, rfl⟩
    rw [beginsReference, List.dropWhile_append_of_pos hword, List.takeWhile_append_of_pos hword]
    simp [isNameChar, hc]

theorem refers_of_decode? (h : decode? raw = some s) : Refers raw s := by
  induction hlength : raw.length using Nat.strong_induction_on generalizing raw s with
  | h length ih =>
      subst hlength
      cases raw with
      | nil =>
          rw [decode?, Option.some.injEq] at h
          exact h ▸ .nil
      | cons c raw =>
          by_cases hc : c = '&'
          · subst hc
            cases hbegin : beginsReference raw with
            | false =>
                rw [decode?_bare hbegin] at h
                cases h
            | true =>
                obtain ⟨word, c, rest, hword, hc, rfl⟩ := beginsReference_iff.mp hbegin
                rw [← List.cons_append, decode?_reference hword hc, Option.map_eq_some_iff] at h
                obtain ⟨s, hs, rfl⟩ := h
                exact .reference hword hc (ih _ (by simp; omega) hs rfl)
          · rw [decode?, if_neg hc, Option.map_eq_some_iff] at h
            obtain ⟨s, hs, rfl⟩ := h
            exact .plain hc (ih _ (by simp) hs rfl)

/-- The strict decoder takes the texts in which every `&` begins a reference. -/
theorem decode?_eq_some_iff : decode? raw = some s ↔ Refers raw s := by
  constructor
  · exact refers_of_decode?
  · intro h
    induction h with
    | nil => rw [decode?]
    | plain hc _ ih => rw [decode?, if_neg hc, ih, Option.map_some]
    | reference hword hc _ ih => rw [decode?_reference hword hc, ih, Option.map_some]

/-! ### References by number -/

/-- Whether an `&` before a text begins a reference to a character by its number. -/
def beginsNumber (s : List Char) : Bool :=
  s.head? = some '#' && beginsReference s

def holdsNumber : List Char → Bool
  | [] => false
  | c :: rest => (c = '&' && beginsNumber rest) || holdsNumber rest

theorem holdsNumber_append (hw : '&' ∉ w) (rest : List Char) :
    holdsNumber (w ++ rest) = holdsNumber rest := by
  induction w with
  | nil => rfl
  | cons c w ih =>
      rw [List.mem_cons, not_or] at hw
      rw [List.cons_append, holdsNumber, ih hw.2]
      simp [Ne.symm hw.1]

theorem not_mem_of_isNameChar (hw : ∀ d ∈ w, isNameChar d = true) : '&' ∉ w ++ [';'] := by
  rw [List.mem_append, not_or]
  refine ⟨fun hmem => ?_, by simp⟩
  have hamp := hw '&' hmem
  simp [isNameChar] at hamp

theorem holdsNumber_reference (hw : ∀ d ∈ w, isNameChar d = true) (hc : referenced? w = some c)
    (rest : List Char) : holdsNumber ('&' :: w ++ ';' :: rest) =
      (decide (w.head? = some '#') || holdsNumber rest) := by
  have hbegin : beginsReference (w ++ ';' :: rest) = true :=
    beginsReference_iff.mpr ⟨w, c, rest, hw, hc, rfl⟩
  have hhead : decide ((w ++ ';' :: rest).head? = some '#') = decide (w.head? = some '#') := by
    cases w <;> simp
  have hrest : holdsNumber (w ++ ';' :: rest) = holdsNumber rest := by
    rw [List.append_cons, holdsNumber_append (not_mem_of_isNameChar hw)]
  rw [List.cons_append, holdsNumber, beginsNumber, hbegin, hrest, hhead]
  simp

/-- A reference that is not by number is by one of the names. -/
theorem exists_name_of_referenced? (hc : referenced? w = some c) (hw : w.head? ≠ some '#') :
    ∃ name : String, w = name.toList ∧ (name, c) ∈ predefined := by
  unfold referenced? at hc
  split at hc
  · simp at hw
  · simp at hw
  · obtain ⟨before, after, hsplit, -⟩ := List.lookup_eq_some_iff.mp hc
    exact ⟨String.ofList w, String.toList_ofList.symm, by simp [hsplit]⟩

/-- The names leave a reference by number as it is. -/
theorem decodeNames_number (hw : ∀ d ∈ w, isNameChar d = true) (hnumber : w.head? = some '#')
    (rest : List Char) : decodeNames predefined ('&' :: w ++ ';' :: rest) =
      '&' :: w ++ ';' :: decodeNames predefined rest := by
  obtain ⟨digits, rfl⟩ : ∃ digits, w = '#' :: digits := List.head?_eq_some_iff.mp hnumber
  have hnot : ∀ entry ∈ predefined,
      (reference entry.1).isPrefixOf ('&' :: ('#' :: digits ++ ';' :: rest)) = false := by
    intro entry hentry
    simp only [predefined, List.mem_cons, List.not_mem_nil, or_false] at hentry
    rcases hentry with rfl | rfl | rfl | rfl | rfl <;> rfl
  have hplain : decodeNames predefined ('#' :: digits ++ [';'] ++ rest) =
      '#' :: digits ++ [';'] ++ decodeNames predefined rest :=
    decodeNames_plain (not_mem_of_isNameChar hw) rest
  rw [← List.append_cons, ← List.append_cons] at hplain
  rw [List.cons_append, decodeNames_cons hnot, hplain]
  rfl

/-- The two decoders agree, unless the lenient one leaves a reference by number, which is longer. -/
theorem Refers.decodeNames_cases (h : Refers raw s) :
    holdsNumber raw = false ∧ decodeNames predefined raw = s ∨
      holdsNumber raw = true ∧ s.length < (decodeNames predefined raw).length := by
  induction h with
  | nil => exact Or.inl ⟨rfl, by rw [decodeNames]⟩
  | @plain c raw s hc _ ih =>
      have hdecoded : decodeNames predefined (c :: raw) = c :: decodeNames predefined raw :=
        decodeNames_cons fun entry _ => isPrefixOf_reference_of_ne hc _ _
      have hnumber : holdsNumber (c :: raw) = holdsNumber raw :=
        holdsNumber_append (w := [c]) (by simpa using Ne.symm hc) raw
      rw [hdecoded, hnumber, List.cons.injEq, List.length_cons, List.length_cons]
      simpa using ih
  | @reference word c raw s hword hc _ ih =>
      rw [holdsNumber_reference hword hc]
      by_cases hhead : word.head? = some '#'
      · have hle : s.length ≤ (decodeNames predefined raw).length := by
          rcases ih with ⟨-, rfl⟩ | ⟨-, hlt⟩ <;> omega
        refine Or.inr ⟨by rw [decide_eq_true hhead, Bool.true_or], ?_⟩
        rw [decodeNames_number hword hhead, List.length_append, List.length_cons, List.length_cons,
          List.length_cons]
        omega
      · obtain ⟨name, rfl, hname⟩ := exists_name_of_referenced? hc hhead
        have hdecoded := decodeNames_predefined hname raw
        rw [reference_append] at hdecoded
        rw [List.cons_append, hdecoded, decide_eq_false hhead, Bool.false_or, List.cons.injEq,
          List.length_cons, List.length_cons]
        simpa using ih

/-- **Each reference is decoded once.** -/
theorem decodeLenient_once (s : List Char) :
    decodeLenient s = decodeNames predefined s ∧
      (∀ entry ∈ predefined, ∀ before after, s = before ++ (reference entry.1 ++ after) →
        decodeLenient s = decodeLenient before ++ entry.2 :: decodeLenient after) ∧
        ∀ t, decode? s = some t → (decodeLenient s = t ↔ holdsNumber s = false) := by
  refine ⟨decodeLenient_eq s, ?_, fun t ht => ?_⟩
  · rintro ⟨name, c⟩ hname before after rfl
    rw [decodeLenient_eq, decodeLenient_eq, decodeLenient_eq, decodeNames_append_reference hname]
  · rw [decodeLenient_eq]
    rcases (decode?_eq_some_iff.mp ht).decodeNames_cases with ⟨hnone, heq⟩ | ⟨hsome, hlt⟩
    · exact iff_of_true heq hnone
    · refine iff_of_false ?_ (by simp [hsome])
      rintro rfl
      exact absurd hlt (Nat.lt_irrefl _)

/-- What an escaped `&` is written for does not become part of the name behind it. -/
theorem decodeLenient_once_nested :
    ("amp", '&') ∈ predefined ∧
      "&quot;&amp;amp;lt;".toList = "&quot;".toList ++ (reference "amp" ++ "amp;lt;".toList) ∧
        decode? "&quot;&amp;amp;lt;".toList = some "\"&amp;lt;".toList ∧
          decodeLenient "&quot;&amp;amp;lt;".toList =
            decodeLenient "&quot;".toList ++ '&' :: decodeLenient "amp;lt;".toList ∧
              decodeLenient "&quot;&amp;amp;lt;".toList = "\"&amp;lt;".toList := by
  have hname : ("amp", '&') ∈ predefined := by decide
  have hsplit : "&quot;&amp;amp;lt;".toList =
      "&quot;".toList ++ (reference "amp" ++ "amp;lt;".toList) := by
    decide +kernel
  have hstrict : decode? "&quot;&amp;amp;lt;".toList = some "\"&amp;lt;".toList := by
    decide +kernel
  obtain ⟨-, hbeside, hagree⟩ := decodeLenient_once "&quot;&amp;amp;lt;".toList
  exact ⟨hname, hsplit, hstrict, hbeside _ hname _ _ hsplit,
    (hagree _ hstrict).mpr (by decide +kernel)⟩

end LiveMarkup.Markup
