import LiveMarkup.Proofs.Template.Statements
import LiveMarkup.Template.Interpolation
import Mathlib

/-!
# Self references

A character that is neither in a word nor a dot ends every reference that stands before it, so that
the texts on its two sides are scanned each for itself (`references_append_separator`). The marks of
spans and blanks are such characters. The fields that a text with spans depends on are therefore
those that its parts name (`scan_eq_union`).
-/

namespace LiveMarkup

/-! ### Sets of names -/

namespace Names

variable {name : String} {names more : Names}

def Ascending (names : Names) : Prop :=
  names.Pairwise (· < ·)

theorem Ascending.insert (h : names.Ascending) (name : String) :
    (Names.insert name names).Ascending := by
  induction h with
  | nil => exact List.pairwise_singleton _ _
  | @cons other rest hother hrest ih =>
      rw [Names.insert]
      split
      · exact List.Pairwise.cons hother hrest
      split
      · rename_i hlt
        refine List.Pairwise.cons (fun third hthird => ?_) (List.Pairwise.cons hother hrest)
        obtain rfl | hthird := List.mem_cons.mp hthird
        · exact hlt
        · exact lt_trans hlt (hother third hthird)
      · rename_i hne hlt
        refine List.Pairwise.cons (fun third hthird => ?_) ih
        obtain rfl | hthird := Names.mem_insert.mp hthird
        · exact lt_of_le_of_ne (not_lt.mp hlt) (Ne.symm hne)
        · exact hother third hthird

theorem Ascending.union (h : names.Ascending) (more : List String) :
    (names.union more).Ascending := by
  induction more generalizing names with
  | nil => exact h
  | cons name more ih => exact ih (h.insert name)

theorem ascending_nil : Ascending [] :=
  List.Pairwise.nil

/-- Ascending names are known by what is among them. -/
theorem Ascending.ext (h : names.Ascending) (hmore : more.Ascending)
    (hmem : ∀ name, name ∈ names ↔ name ∈ more) : names = more :=
  List.Pairwise.eq_of_mem_iff h hmore hmem

def unionAll (sets : List Names) : Names :=
  sets.foldl union []

theorem ascending_unionAll (sets : List Names) : (unionAll sets).Ascending := by
  rw [unionAll]
  apply List.foldlRecOn (motive := Ascending) sets union ascending_nil
  exact fun names hnames more _ => hnames.union more

theorem mem_foldl_union {sets : List Names} :
    name ∈ sets.foldl union names ↔ name ∈ names ∨ ∃ more ∈ sets, name ∈ more := by
  induction sets generalizing names with
  | nil => simp
  | cons more sets ih => rw [List.foldl_cons, ih, mem_union, List.exists_mem_cons_iff, or_assoc]

theorem mem_unionAll {sets : List Names} :
    name ∈ unionAll sets ↔ ∃ names ∈ sets, name ∈ names := by
  rw [unionAll, mem_foldl_union, or_iff_right List.not_mem_nil]

end Names

namespace Dependencies

variable {a b s : List Char} {c : Char} {afterWord : Bool}

/-! ### Separators -/

/-- `c` is neither in a word nor a dot. -/
structure Separates (c : Char) : Prop where
  not_word : Text.isWord c = false
  ne_dot : c ≠ '.'

theorem Separates.not_mem_keyword (h : Separates c) :
    ∀ letters ∈ keyword, letters.contains c = false := by
  have hkeyword : keyword.all (·.all fun d => Text.isWord d || d = '.') = true := by decide +kernel
  intro letters hletters
  rw [List.contains_eq_mem, decide_eq_false_iff_not]
  intro hc
  have hall := List.all_eq_true.mp (List.all_eq_true.mp hkeyword letters hletters) c hc
  rw [h.not_word, Bool.false_or, decide_eq_true_eq] at hall
  exact h.ne_dot hall

theorem after?_append {letters : List (List Char)}
    (h : ∀ first ∈ letters, first.contains c = false) (a b : List Char) :
    after? letters (a ++ c :: b) = (after? letters a).map (· ++ c :: b) := by
  induction letters generalizing a with
  | nil => rfl
  | cons first more ih =>
      cases a with
      | nil => rw [List.nil_append, after?, h first List.mem_cons_self, after?]; rfl
      | cons d a =>
          rw [List.cons_append, after?, after?]
          split
          · exact ih (fun letters hletters => h letters (List.mem_cons_of_mem _ hletters)) a
          · rfl

theorem takeWhile_append_of_neg {p : Char → Bool} (h : p c = false) (a b : List Char) :
    (a ++ c :: b).takeWhile p = a.takeWhile p := by
  induction a with
  | nil => rw [List.nil_append, List.takeWhile_cons_of_neg (by simp [h]), List.takeWhile_nil]
  | cons d a ih => rw [List.cons_append, List.takeWhile_cons, List.takeWhile_cons, ih]

theorem dropWhile_append_of_neg {p : Char → Bool} (h : p c = false) (a b : List Char) :
    (a ++ c :: b).dropWhile p = a.dropWhile p ++ c :: b := by
  induction a with
  | nil => rw [List.nil_append, List.dropWhile_cons_of_neg (by simp [h]), List.dropWhile_nil,
      List.nil_append]
  | cons d a ih =>
      rw [List.cons_append, List.dropWhile_cons, List.dropWhile_cons, ih]
      split <;> rfl

theorem reference?_append (h : Separates c) (a b : List Char) :
    reference? (a ++ c :: b) = (reference? a).map fun r => (r.1, r.2 ++ c :: b) := by
  rw [reference?, reference?, after?_append h.not_mem_keyword]
  cases after? keyword a with
  | none => rfl
  | some rest =>
      rw [Option.map_some]
      dsimp only
      rw [takeWhile_append_of_neg h.not_word, dropWhile_append_of_neg h.not_word]
      split <;> rfl

theorem references_of_some {name after : List Char}
    (h : (if afterWord then none else reference? (c :: s)) = some (name, after)) :
    references afterWord (c :: s) = String.ofList name :: references true after := by
  rw [references]
  split
  · rename_i hsome
    rw [h] at hsome
    cases hsome
    rfl
  · rename_i hnone
    rw [h] at hnone
    cases hnone

theorem references_of_none (h : (if afterWord then none else reference? (c :: s)) = none) :
    references afterWord (c :: s) = references (Text.isWord c) s := by
  rw [references]
  split
  · rename_i hsome
    rw [h] at hsome
    cases hsome
  · rfl

/-- A separator begins no reference and no word. -/
theorem references_separator_cons (h : Separates c) (afterWord : Bool) (s : List Char) :
    references afterWord (c :: s) = references false s := by
  have hnone : reference? (c :: s) = none := reference?_append h [] s
  rw [references_of_none (by rw [hnone, ite_self]), h.not_word]

theorem references_append_separator (h : Separates c) (afterWord : Bool) (a b : List Char) :
    references afterWord (a ++ c :: b) = references afterWord a ++ references false b := by
  -- Along the scan of `a`: a reference found there is the one found with `c :: b` behind it.
  have happend : ∀ (afterWord : Bool) (a : List Char),
      (if afterWord then none else reference? (a ++ c :: b)) =
        (if afterWord then none else reference? a).map fun r => (r.1, r.2 ++ c :: b) := by
    intro afterWord a
    split
    · rfl
    · exact reference?_append h a b
  fun_induction references afterWord a with
  | case1 afterWord => exact references_separator_cons h afterWord b
  | case2 afterWord d rest name after hsome _ ih =>
      have hlonger := happend afterWord (d :: rest)
      rw [dite_eq_ite] at hsome
      rw [hsome, Option.map_some, List.cons_append] at hlonger
      rw [List.cons_append, references_of_some hlonger, ih, List.cons_append]
  | case3 afterWord d rest hnone ih =>
      have hlonger := happend afterWord (d :: rest)
      rw [dite_eq_ite] at hnone
      rw [hnone, Option.map_none, List.cons_append] at hlonger
      rw [List.cons_append, references_of_none hlonger, ih]

theorem references_separators_append (h : ∀ c ∈ a, Separates c) :
    references false (a ++ b) = references false b := by
  induction a with
  | nil => rfl
  | cons c a ih =>
      rw [List.cons_append, references_separator_cons (h c List.mem_cons_self)]
      exact ih fun d hd => h d (List.mem_cons_of_mem _ hd)

/-- The texts on the two sides of separators are scanned each for itself. -/
theorem references_append_separators {seam : List Char} (h : ∀ c ∈ seam, Separates c)
    (hne : seam ≠ []) (a b : List Char) :
    references false (a ++ seam ++ b) = references false a ++ references false b := by
  obtain ⟨c, rest, rfl⟩ := List.exists_cons_of_ne_nil hne
  have hrest : ∀ c ∈ rest, Separates c := fun d hd => h d (List.mem_cons_of_mem _ hd)
  calc references false (a ++ c :: rest ++ b)
      = references false (a ++ c :: (rest ++ b)) := by rw [List.append_assoc, List.cons_append]
    _ = references false a ++ references false (rest ++ b) :=
        references_append_separator (h c List.mem_cons_self) false a _
    _ = references false a ++ references false b := by
        rw [references_separators_append hrest]

/-! ### Blanks -/

theorem inRanges_of_disjoint {ranges others : List (Nat × Nat)} (h : Text.inRanges ranges c = true)
    (hdisjoint : ranges.all (fun r => others.all fun o => r.2 < o.1 || o.2 < r.1) = true) :
    Text.inRanges others c = false := by
  obtain ⟨r, hr, hc⟩ := List.any_eq_true.mp h
  rw [Text.inRanges, List.any_eq_false]
  intro o ho
  have hapart := List.all_eq_true.mp (List.all_eq_true.mp hdisjoint r hr) o ho
  simp only [Bool.or_eq_true, Bool.and_eq_true, decide_eq_true_eq] at hapart hc ⊢
  omega

/-- The word characters of ASCII. -/
def asciiWordRanges : List (Nat × Nat) :=
  [(48, 57), (65, 90), (95, 95), (97, 122)]

theorem inRanges_of_isAlphanum (h : c.isAlphanum = true) :
    Text.inRanges asciiWordRanges c = true := by
  simp only [Char.isAlphanum, Char.isAlpha, Char.isUpper, Char.isLower, Char.isDigit,
    Bool.or_eq_true, Bool.and_eq_true, decide_eq_true_eq, UInt32.le_iff_toNat_le, ge_iff_le] at h
  change ((65 ≤ c.toNat ∧ c.toNat ≤ 90) ∨ (97 ≤ c.toNat ∧ c.toNat ≤ 122)) ∨
    (48 ≤ c.toNat ∧ c.toNat ≤ 57) at h
  simp only [Text.inRanges, asciiWordRanges, List.any_cons, List.any_nil, Bool.or_eq_true,
    Bool.and_eq_true, decide_eq_true_eq]
  omega

theorem separates_of_isBlank (h : Text.isBlank c = true) : Separates c := by
  have hascii : Text.inRanges asciiWordRanges c = false := inRanges_of_disjoint h (by decide)
  have hword : Text.inRanges Text.wordRanges c = false :=
    inRanges_of_disjoint h (by decide +kernel)
  constructor
  · rw [Text.isWord]
    split
    · by_contra hc
      simp only [Bool.not_eq_false, Bool.or_eq_true, decide_eq_true_eq] at hc
      obtain hc | rfl := hc
      · rw [inRanges_of_isAlphanum hc] at hascii
        cases hascii
      · cases hascii
    · exact hword
  · rintro rfl
    cases h

theorem references_trim (s : List Char) :
    references false (Text.trim s) = references false s := by
  obtain ⟨front, back, hfront, hback, hs⟩ := Text.exists_trim s
  have hfront : ∀ c ∈ front, Separates c := fun c hc => separates_of_isBlank (hfront c hc)
  have hback : ∀ c ∈ back, Separates c := fun c hc => separates_of_isBlank (hback c hc)
  symm
  calc references false s
      = references false (front ++ (Text.trim s ++ back)) := by rw [← List.append_assoc, ← hs]
    _ = references false (Text.trim s ++ back ++ []) := by
        rw [references_separators_append hfront, List.append_nil]
    _ = references false (Text.trim s) := by
        cases back with
        | nil => rw [List.append_nil, List.append_nil]
        | cons c back =>
            rw [references_append_separators hback (List.cons_ne_nil _ _), references,
              List.append_nil]

/-! ### Scanning -/

variable {name source : String} {names : Names}

theorem mem_scanInto :
    name ∈ scanInto source names ↔ name ∈ names ∨ name ∈ references false source.toList :=
  Names.mem_union

theorem mem_scan : name ∈ scan source ↔ name ∈ references false source.toList := by
  rw [scan, mem_scanInto, or_iff_right List.not_mem_nil]

theorem ascending_scan (source : String) : (scan source).Ascending :=
  Names.ascending_nil.union _

theorem scanInto_eq_union (h : names.Ascending) (source : String) :
    scanInto source names = names.union (scan source) := by
  refine Names.Ascending.ext (h.union _) (h.union _) fun name => ?_
  calc name ∈ scanInto source names
      ↔ name ∈ names ∨ name ∈ references false source.toList := mem_scanInto
    _ ↔ name ∈ names.union (scan source) := by rw [Names.mem_union, mem_scan]

theorem scan_append_separator (h : Separates c) (a b : String) :
    scan (a ++ String.singleton c ++ b) = (scan a).union (scan b) := by
  apply Names.Ascending.ext (ascending_scan _) ((ascending_scan a).union _)
  intro name
  have htext : (a ++ String.singleton c ++ b).toList = a.toList ++ c :: b.toList := by simp
  rw [Names.mem_union, mem_scan, mem_scan, mem_scan, htext, references_append_separator h,
    List.mem_append]

end Dependencies

/-! ### Texts with spans -/

/-- The text of a piece. -/
def Piece.written : Piece → List Char
  | literal s => s
  | span body => body

/-- The text of a part. -/
def Part.written : Part → String
  | literal s => s
  | expression source _ => source

namespace Dependencies

variable {i : Interpolation} {part : Part} {parts : List Part} {piece : Piece} {location : String}

theorem separates_of_mem_marks : ∀ c ∈ Markup.spanOpen ++ Markup.spanClose, Separates c := by
  have hmarks : (Markup.spanOpen ++ Markup.spanClose).all
      (fun c => !Text.isWord c && c ≠ '.') = true := by decide
  intro c hc
  have hall := List.all_eq_true.mp hmarks c hc
  rw [Bool.and_eq_true, Bool.not_eq_true', decide_eq_true_eq] at hall
  exact ⟨hall.1, hall.2⟩

theorem references_literals (s : List Char) :
    (Piece.literals s).flatMap (fun piece => references false piece.written) =
      references false s := by
  rw [Piece.literals]
  split
  · rename_i hs
    rw [List.isEmpty_iff.mp hs, references, List.flatMap_nil]
  · rw [List.flatMap_singleton, Piece.written]

/-- The marks of spans are separators, so no reference stands across a cut. -/
theorem references_cut (s : List Char) :
    (Piece.cut s).flatMap (fun piece => references false piece.written) =
      references false s := by
  have hopens : ∀ c ∈ Markup.spanOpen, Separates c :=
    fun c hc => separates_of_mem_marks c (List.mem_append_left _ hc)
  have hcloses : ∀ c ∈ Markup.spanClose, Separates c :=
    fun c hc => separates_of_mem_marks c (List.mem_append_right _ hc)
  fun_induction Piece.cut s with
  | case1 s _ => exact references_literals s
  | case2 s before body _ _ => exact references_literals s
  | case3 s before inside hopen body after hclose _ _ ih =>
      rw [List.flatMap_append, List.flatMap_cons, references_literals, ih, Piece.written,
        Text.append_of_cut hopen, Text.append_of_cut hclose,
        references_append_separators hopens (by decide),
        references_append_separators hcloses (by decide)]

theorem references_of_ofPiece (h : Interpolation.ofPiece location piece = .ok part) :
    references false part.written.toList = references false piece.written := by
  cases piece with
  | literal s =>
      cases h
      rw [Part.written, Piece.written, String.toList_ofList]
  | span body =>
      rw [Interpolation.ofPiece, Interpolation.readPart] at h
      split at h
      · cases h
        rw [Part.written, Piece.written, String.toList_ofList, references_trim]
      · cases h

theorem references_parts {pieces : List Piece}
    (h : List.Forall₂ (fun piece part => Interpolation.ofPiece location piece = .ok part)
      pieces parts) :
    parts.flatMap (fun part => references false part.written.toList) =
      pieces.flatMap fun piece => references false piece.written := by
  induction h with
  | nil => rfl
  | cons hpart _ ih => rw [List.flatMap_cons, List.flatMap_cons, references_of_ofPiece hpart, ih]

variable {name source : String}

/-- The whole text is scanned, blanks and marks and all, but only the parts name fields. -/
theorem references_of_compile (h : Interpolation.compile source = .ok i) :
    i.dependencies = scan source ∧
      i.parts.flatMap (fun part => references false part.written.toList) =
        references false source.toList := by
  rw [Interpolation.compile] at h
  cases hparts : (Piece.cut (Text.trim source.toList)).mapM (Interpolation.ofPiece source) with
  | error error =>
      rw [hparts] at h
      cases h
  | ok parts =>
      rw [hparts] at h
      cases h
      refine ⟨rfl, ?_⟩
      calc parts.flatMap (fun part => references false part.written.toList)
          = (Piece.cut (Text.trim source.toList)).flatMap
              fun piece => references false piece.written :=
            references_parts (Handler.mapM_eq_ok_iff.mp hparts)
        _ = references false source.toList := by rw [references_cut, references_trim]

theorem dependencies_eq_unionAll (h : Interpolation.compile source = .ok i) :
    i.dependencies = Names.unionAll (i.parts.map fun part => scan part.written) := by
  obtain ⟨hscan, hparts⟩ := references_of_compile h
  rw [hscan]
  refine Names.Ascending.ext (ascending_scan _) (Names.ascending_unionAll _) fun name => ?_
  rw [mem_scan, ← hparts, Names.mem_unionAll]
  simp only [List.mem_flatMap, List.mem_map, exists_exists_and_eq_and, mem_scan]

/-- `s` names a field of `this`: neither is part of a longer word, and `this` is no field itself. -/
structure NamesField (s : List Char) (field : List Char) : Prop where
  ne_nil : field ≠ []
  word : ∀ c ∈ field, Text.isWord c = true
  names : ∃ before after, s = before ++ "this.".toList ++ field ++ after ∧
    (∀ c ∈ before.getLast?, Separates c) ∧ ∀ c ∈ after.head?, Text.isWord c = false

theorem reference?_this {field after : List Char} (hne : field ≠ [])
    (hword : ∀ c ∈ field, Text.isWord c = true)
    (hafter : ∀ c ∈ after.head?, Text.isWord c = false) :
    reference? ("this.".toList ++ (field ++ after)) = some (field, after) := by
  have hkeyword : after? keyword ("this.".toList ++ (field ++ after)) = some (field ++ after) := rfl
  have hnone : after.takeWhile Text.isWord = [] ∧ after.dropWhile Text.isWord = after := by
    cases after with
    | nil => exact ⟨rfl, rfl⟩
    | cons c after =>
        have hc : ¬Text.isWord c = true := by simp [hafter c rfl]
        exact ⟨List.takeWhile_cons_of_neg hc, List.dropWhile_cons_of_neg hc⟩
  rw [reference?, hkeyword]
  dsimp only
  rw [List.takeWhile_append_of_pos hword, List.dropWhile_append_of_pos hword, hnone.1, hnone.2,
    List.append_nil, if_neg (by simpa using hne)]

theorem mem_references_of_namesField {s field : List Char} (h : NamesField s field) :
    String.ofList field ∈ references false s := by
  obtain ⟨before, after, hs, hbefore, hafter⟩ := h.names
  have hhead : String.ofList field ∈ references false ("this.".toList ++ (field ++ after)) := by
    have hfound := reference?_this h.ne_nil h.word hafter
    have hrest : references false ("this.".toList ++ (field ++ after)) =
        String.ofList field :: references true after :=
      references_of_some (by rw [if_neg Bool.false_ne_true]; exact hfound)
    rw [hrest]
    exact List.mem_cons_self
  rw [hs, List.append_assoc, List.append_assoc]
  obtain rfl | ⟨front, c, rfl⟩ := List.eq_nil_or_concat before
  · exact hhead
  · have hc : Separates c := hbefore c (by simp)
    rw [List.concat_eq_append, List.append_assoc, List.singleton_append,
      references_append_separator hc]
    exact List.mem_append_right _ hhead

/-- The scan of a text comes from the scans of its stretches, whatever separates them, and that of a
text with spans from the scans of its parts. -/
theorem scan_compositional :
    (∀ (c : Char) (a b : String), Separates c →
      scan (a ++ String.singleton c ++ b) = (scan a).union (scan b)) ∧
    (∀ (source : String) (names : Names), names.Ascending →
      scanInto source names = names.union (scan source)) ∧
    ∀ (source : String) (i : Interpolation), Interpolation.compile source = .ok i →
      i.dependencies = Names.unionAll (i.parts.map fun part => scan part.written) ∧
      ∀ (text : String) (e : Expr.Term), .expression text e ∈ i.parts →
        ∀ field, NamesField text.toList field → String.ofList field ∈ i.dependencies := by
  refine ⟨fun c a b h => scan_append_separator h a b, fun source names h =>
    scanInto_eq_union h source, fun source i hi => ⟨dependencies_eq_unionAll hi, ?_⟩⟩
  intro text e hpart field hfield
  rw [dependencies_eq_unionAll hi, Names.mem_unionAll]
  refine ⟨scan text, List.mem_map.mpr ⟨_, hpart, rfl⟩, ?_⟩
  rw [mem_scan]
  exact mem_references_of_namesField hfield

/-- Two spans that touch; what the first one holds ends in a name. -/
def touchingReferences : String :=
  "\x7b\x7bthis.a\x7d\x7d\x7b\x7b1+this.b\x7d\x7d"

def expressionText? : Part → Option String
  | .literal _ => none
  | .expression text _ => some text

theorem touchingReferences_scanned :
    scan "this.a+this.b" = (scan "this.a").union (scan "this.b") ∧
    scanInto "this.a" ["b"] = Names.union ["b"] (scan "this.a") ∧
    ∃ i, Interpolation.compile touchingReferences = .ok i ∧
      i.dependencies = Names.unionAll (i.parts.map fun part => scan part.written) ∧
      "b" ∈ i.dependencies := by
  obtain ⟨hseparator, hinto, hcompile⟩ := scan_compositional
  refine ⟨hseparator '+' "this.a" "this.b" ⟨by decide, by decide⟩,
    hinto "this.a" ["b"] (List.pairwise_singleton _ _), ?_⟩
  have hparts : (Interpolation.compile touchingReferences).toOption.map
      (fun i => i.parts.filterMap expressionText?) = some ["this.a", "1+this.b"] := by
    decide +kernel
  cases hi : Interpolation.compile touchingReferences with
  | error error =>
      rw [hi] at hparts
      cases hparts
  | ok i =>
      rw [hi] at hparts
      obtain ⟨hunion, hnamed⟩ := hcompile _ _ hi
      have htexts : i.parts.filterMap expressionText? = ["this.a", "1+this.b"] :=
        Option.some.inj hparts
      have hmem : "1+this.b" ∈ i.parts.filterMap expressionText? := by
        rw [htexts]
        decide
      obtain ⟨part, hpart, htext⟩ := List.mem_filterMap.mp hmem
      cases part with
      | literal s => cases htext
      | expression text e =>
          cases htext
          refine ⟨i, rfl, hunion, hnamed _ e hpart ['b'] ⟨List.cons_ne_nil _ _, ?_, ?_⟩⟩
          · exact List.forall_mem_singleton.mpr (by decide)
          · exact ⟨['1', '+'], [], rfl, by simpa using ⟨by decide, by decide⟩, by simp⟩

end Dependencies

end LiveMarkup
