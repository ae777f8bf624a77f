import LiveMarkup.Template.Handler
import Mathlib.Data.List.DropRight

/-!
# Separators

A handler is cut at the semicolons that no quote holds. Nothing is lost by the cuts and no such
semicolon is left in a piece (`intercalate_splitIn`, `not_mem_unquoted_of_splitIn`). Where no quote is
open at the end of a text, what follows the next semicolon is cut on its own
(`texts_append_separator`).
-/

namespace LiveMarkup

namespace Text

variable {front back s : List Char} {c d : Char}

/-! ### Blanks at the ends -/

def AreBlank (s : List Char) : Prop :=
  ∀ c ∈ s, isBlank c = true

theorem trim_eq_rdropWhile (s : List Char) : trim s = (s.dropWhile isBlank).rdropWhile isBlank :=
  rfl

theorem trim_blank_append (h : AreBlank front) : trim (front ++ s) = trim s := by
  rw [trim, trim, List.dropWhile_append_of_pos h]

theorem trim_append_blank (h : AreBlank back) : trim (s ++ back) = trim s := by
  have hback : back.dropWhile isBlank = [] := List.dropWhile_eq_nil_iff.mpr h
  have hreverse : ∀ c ∈ back.reverse, isBlank c = true := by
    simpa [AreBlank] using h
  rw [trim, trim, List.dropWhile_append]
  by_cases hs : (s.dropWhile isBlank).isEmpty = true
  · rw [if_pos hs, hback, List.isEmpty_iff.mp hs]
  · rw [if_neg hs, List.reverse_append, List.dropWhile_append_of_pos hreverse]

theorem trim_eq_nil (h : AreBlank s) : trim s = [] := by
  rw [trim, List.dropWhile_eq_nil_iff.mpr h]
  rfl

theorem exists_trim (s : List Char) :
    ∃ front back, AreBlank front ∧ AreBlank back ∧ s = front ++ trim s ++ back := by
  refine ⟨s.takeWhile isBlank, (s.dropWhile isBlank).rtakeWhile isBlank, ?_, ?_, ?_⟩
  · exact fun _ hc => List.mem_takeWhile_imp hc
  · exact fun _ hc => List.mem_rtakeWhile_imp hc
  · rw [trim_eq_rdropWhile, List.append_assoc, List.rdropWhile_append_rtakeWhile,
      List.takeWhile_append_dropWhile]

/-- Blanks go away at the end only, behind a text that begins and ends with a character. -/
theorem trim_append_of_ends (hfirst : isBlank c = false) (hlast : isBlank d = false)
    (front s : List Char) :
    trim (c :: (front ++ d :: s)) = c :: (front ++ d :: s.rdropWhile isBlank) := by
  rw [trim_eq_rdropWhile, List.dropWhile_cons_of_neg (by simp [hfirst]), List.rdropWhile,
    ← List.cons_append, List.reverse_append, List.reverse_cons, List.append_assoc,
    List.dropWhile_append]
  by_cases hs : (s.reverse.dropWhile isBlank).isEmpty = true
  · rw [if_pos hs, List.singleton_append, List.dropWhile_cons_of_neg (by simp [hlast]),
      List.rdropWhile, List.isEmpty_iff.mp hs]
    simp
  · rw [if_neg hs, List.rdropWhile]
    simp

theorem trim_eq_of_ends (hfirst : isBlank c = false) (hlast : isBlank d = false) (s : List Char) :
    trim (c :: (s ++ [d])) = c :: (s ++ [d]) := by
  rw [trim_append_of_ends hfirst hlast, List.rdropWhile_nil]

/-- A character at the front is kept. -/
theorem exists_trim_cons (h : isBlank c = false) (s : List Char) : ∃ t, trim (c :: s) = c :: t := by
  have hprefix := List.rdropWhile_prefix isBlank (c :: s)
  have hdrop : trim (c :: s) = (c :: s).rdropWhile isBlank := by
    rw [trim_eq_rdropWhile, List.dropWhile_cons_of_neg (by simp [h])]
  have hne : (c :: s).rdropWhile isBlank ≠ [] := by
    simp [List.rdropWhile_eq_nil_iff, h]
  obtain ⟨d, t, hcons⟩ := List.exists_cons_of_ne_nil hne
  rw [hcons] at hprefix
  rw [hdrop, hcons, (List.cons_prefix_cons.mp hprefix).1]
  exact ⟨t, rfl⟩

/-- What is left of a text begins with no blank. -/
theorem isBlank_head_trim (h : trim s = c :: back) : isBlank c = false := by
  have hprefix := List.rdropWhile_prefix isBlank (s.dropWhile isBlank)
  rw [← trim_eq_rdropWhile, h] at hprefix
  obtain ⟨rest, hrest⟩ := hprefix
  have hhead := List.head?_dropWhile_not isBlank s
  rw [← hrest] at hhead
  simpa using hhead

/-- What follows a text does not change its first character. -/
theorem exists_trim_append (h : trim s = c :: front) (t : List Char) :
    ∃ rest, trim (s ++ t) = c :: rest := by
  obtain ⟨before, back, hbefore, -, hs⟩ := exists_trim s
  rw [hs, h, List.append_assoc, List.append_assoc, trim_blank_append hbefore]
  exact exists_trim_cons (isBlank_head_trim h) _

/-- A text without blanks at its ends keeps its last character behind any other text. -/
theorem trim_append_of_trim (hfirst : isBlank c = false) (h : trim s = s) (hne : s ≠ [])
    (front : List Char) : trim (c :: (front ++ s)) = c :: (front ++ s) := by
  have hlast : ¬isBlank (s.getLast hne) = true := by
    have hright : (s.dropWhile isBlank).rdropWhile isBlank = s := h
    have hne' : (s.dropWhile isBlank).rdropWhile isBlank ≠ [] := by rwa [hright]
    have hend := List.rdropWhile_last_not isBlank _ hne'
    simpa only [hright] using hend
  have hs := List.dropLast_append_getLast hne
  rw [← hs, ← List.append_assoc]
  exact trim_eq_of_ends hfirst (by simpa using hlast) _

theorem trim_trim (s : List Char) : trim (trim s) = trim s := by
  cases h : trim s with
  | nil => rfl
  | cons c t =>
      rw [trim_eq_rdropWhile, List.dropWhile_cons_of_neg (by simp [isBlank_head_trim h]), ← h,
        trim_eq_rdropWhile, List.rdropWhile_idempotent]

end Text

namespace Handler

open Text (AreBlank trim)

variable {c : Char} {first front s t : List Char} {rest : List (List Char)}

/-! ### Quotes -/

/-- The quote that is open, and whether the next character in it is escaped. -/
abbrev Mode := Option Char × Bool

def Mode.after (mode : Mode) (c : Char) : Mode :=
  match mode with
  | (none, _) => (if c = '\'' ∨ c = '"' then some c else none, false)
  | (some q, true) => (some q, false)
  | (some q, false) => if c = '\\' then (some q, true) else (if c = q then none else some q, false)

def Mode.outside : Mode := (none, false)

/-- A character that is no quote opens none. -/
theorem Mode.after_bare {mode : Mode} (hmode : mode.1 = none) (hsingle : c ≠ '\'')
    (hdouble : c ≠ '"') : mode.after c = outside := by
  obtain ⟨quote | q, escaped⟩ := mode
  · simp [after, outside, hsingle, hdouble]
  · cases hmode

theorem Mode.after_separator {mode : Mode} (hmode : mode.1 = none) : mode.after ';' = outside :=
  after_bare hmode (by decide) (by decide)

/-- The mode at the end of a text. -/
def Mode.behind (mode : Mode) (s : List Char) : Mode :=
  s.foldl Mode.after mode

/-- No quote is open at the end of the text. -/
def IsTerminated (s : List Char) : Prop :=
  (Mode.outside.behind s).1 = none

/-- The characters that are read while no quote is open. -/
def unquoted (mode : Mode) : List Char → List Char
  | [] => []
  | c :: rest =>
    if mode.1 = none then c :: unquoted (mode.after c) rest else unquoted (mode.after c) rest

theorem unquoted_subset {mode : Mode} : unquoted mode s ⊆ s := by
  induction s generalizing mode with
  | nil => exact List.Subset.refl []
  | cons c s ih =>
      rw [unquoted]
      split
      · exact List.cons_subset_cons c ih
      · exact List.subset_cons_of_subset c ih

theorem unquoted_append (mode : Mode) (s t : List Char) :
    unquoted mode (s ++ t) = unquoted mode s ++ unquoted (mode.behind s) t := by
  induction s generalizing mode with
  | nil => rfl
  | cons c s ih =>
      rw [List.cons_append, unquoted, unquoted, ih]
      split <;> rfl

/-- The pieces of a text that begins in the given mode. -/
def splitIn (mode : Mode) (s : List Char) : List (List Char) :=
  split mode.1 mode.2 s

theorem splitIn_cons (mode : Mode) (c : Char) (s : List Char) : splitIn mode (c :: s) =
    if mode.1 = none ∧ c = ';' then [] :: splitIn .outside s
    else consFirst c (splitIn (mode.after c) s) := by
  obtain ⟨quote | q, escaped⟩ := mode
  · by_cases hc : c = ';'
    · simp [splitIn, split, Mode.outside, hc]
    · simp [splitIn, split, Mode.after, hc]
  · cases escaped with
    | true => simp [splitIn, split, Mode.after]
    | false =>
        by_cases hc : c = '\\'
        · simp [splitIn, split, Mode.after, hc]
        · simp [splitIn, split, Mode.after, hc]

theorem exists_splitIn (mode : Mode) (s : List Char) :
    ∃ first rest, splitIn mode s = first :: rest := by
  cases s with
  | nil => exact ⟨[], [], rfl⟩
  | cons c s =>
      rw [splitIn_cons]
      split
      · exact ⟨_, _, rfl⟩
      · cases splitIn (mode.after c) s with
        | nil => exact ⟨_, _, rfl⟩
        | cons => exact ⟨_, _, rfl⟩

/-- The pieces between the semicolons make up the text. -/
theorem intercalate_splitIn (mode : Mode) (s : List Char) :
    [';'].intercalate (splitIn mode s) = s := by
  induction s generalizing mode with
  | nil => rfl
  | cons c s ih =>
      obtain ⟨first, rest, hsplit⟩ := exists_splitIn (mode.after c) s
      rw [splitIn_cons]
      split
      · rename_i hcut
        obtain ⟨first, rest, hsplit⟩ := exists_splitIn .outside s
        have hrest := ih .outside
        rw [hsplit] at hrest ⊢
        rw [List.intercalate_cons_cons, hrest, hcut.2]
        rfl
      · have hrest := ih (mode.after c)
        rw [hsplit] at hrest ⊢
        rw [consFirst, ← hrest]
        cases rest with
        | nil => simp
        | cons => simp [List.intercalate_cons_cons]

/-- No piece holds a semicolon outside quotes, the first one read in the mode of the text. -/
theorem not_mem_unquoted_of_splitIn {mode : Mode} (h : splitIn mode s = first :: rest) :
    ';' ∉ unquoted mode first ∧ ∀ piece ∈ rest, ';' ∉ unquoted .outside piece := by
  induction s generalizing mode first rest with
  | nil =>
      cases h
      simp [unquoted]
  | cons c s ih =>
      rw [splitIn_cons] at h
      split at h
      · obtain ⟨next, more, hsplit⟩ := exists_splitIn .outside s
        cases h
        rw [hsplit]
        have hmore := ih hsplit
        simpa [unquoted] using hmore
      · rename_i hcut
        obtain ⟨next, more, hsplit⟩ := exists_splitIn (mode.after c) s
        rw [hsplit] at h
        cases h
        obtain ⟨hnext, hmore⟩ := ih hsplit
        refine ⟨?_, hmore⟩
        rw [unquoted]
        split
        · rename_i hmode
          have hc : ';' ≠ c := fun heq => hcut ⟨hmode, heq.symm⟩
          simpa [hc] using hnext
        · exact hnext

theorem splitIn_eq_singleton {mode : Mode} (h : ';' ∉ unquoted mode s) : splitIn mode s = [s] := by
  induction s generalizing mode with
  | nil => rfl
  | cons c s ih =>
      rw [unquoted] at h
      split at h
      · rw [List.mem_cons, not_or] at h
        rw [splitIn_cons, if_neg fun hcut => h.1 hcut.2.symm, ih h.2]
        rfl
      · rename_i hmode
        rw [splitIn_cons, if_neg fun hcut => hmode hcut.1, ih h]
        rfl

/-- A text whose pieces all end outside quotes ends outside quotes. -/
theorem behind_of_splitIn {mode : Mode} (h : splitIn mode s = first :: rest)
    (hfirst : (mode.behind first).1 = none) (hrest : ∀ piece ∈ rest, IsTerminated piece) :
    (mode.behind s).1 = none := by
  induction s generalizing mode first rest with
  | nil =>
      cases h
      exact hfirst
  | cons c s ih =>
      rw [splitIn_cons] at h
      split at h
      · rename_i hcut
        obtain ⟨next, more, hsplit⟩ := exists_splitIn .outside s
        cases h
        rw [hsplit, List.forall_mem_cons] at hrest
        have hnext := ih hsplit hrest.1 hrest.2
        rwa [Mode.behind, List.foldl_cons, hcut.2, Mode.after_separator hcut.1]
      · obtain ⟨next, more, hsplit⟩ := exists_splitIn (mode.after c) s
        rw [hsplit] at h
        cases h
        exact ih hsplit hfirst hrest

/-- What follows a text goes on in its last piece. -/
theorem exists_splitIn_append (mode : Mode) (s : List Char) :
    ∃ front last, splitIn mode s = front ++ [last] ∧ ∀ {t first rest},
      splitIn (mode.behind s) t = first :: rest →
        splitIn mode (s ++ t) = front ++ (last ++ first) :: rest := by
  induction s generalizing mode with
  | nil => exact ⟨[], [], rfl, fun h => h⟩
  | cons c s ih =>
      by_cases hcut : mode.1 = none ∧ c = ';'
      · obtain ⟨front, last, hsplit, happend⟩ := ih .outside
        refine ⟨[] :: front, last, ?_, ?_⟩
        · rw [splitIn_cons, if_pos hcut, hsplit, List.cons_append]
        · intro t first rest ht
          rw [Mode.behind, List.foldl_cons, hcut.2, Mode.after_separator hcut.1] at ht
          rw [List.cons_append, splitIn_cons, if_pos hcut, happend ht, List.cons_append]
      · obtain ⟨front, last, hsplit, happend⟩ := ih (mode.after c)
        cases front with
        | nil =>
            refine ⟨[], c :: last, ?_, ?_⟩
            · rw [splitIn_cons, if_neg hcut, hsplit]
              rfl
            · intro t first rest ht
              rw [List.cons_append, splitIn_cons, if_neg hcut, happend ht]
              rfl
        | cons next front =>
            refine ⟨(c :: next) :: front, last, ?_, ?_⟩
            · rw [splitIn_cons, if_neg hcut, hsplit]
              rfl
            · intro t first rest ht
              rw [List.cons_append, splitIn_cons, if_neg hcut, happend ht]
              rfl

/-! ### The texts of statements -/

/-- The statements in a body. -/
def texts (body : List Char) : List (List Char) :=
  ((splitIn .outside body).map trim).filter (!·.isEmpty)

theorem statementTexts_eq (source : String) : statementTexts source =
    texts (stripBraces (trim (stripArrow (trim source.toList)))) :=
  rfl

theorem ne_of_isBlank {d : Char} (hc : Text.isBlank c = true) (hd : Text.isBlank d = false) :
    c ≠ d := by
  rintro rfl
  rw [hc] at hd
  cases hd

theorem splitIn_blank_cons (mode : Mode) (hc : Text.isBlank c = true) (s : List Char) :
    splitIn mode (c :: s) = consFirst c (splitIn (mode.after c) s) := by
  have hseparator := ne_of_isBlank (d := ';') hc (by decide)
  rw [splitIn_cons, if_neg fun hcut => hseparator hcut.2]

theorem after_blank {mode : Mode} (hmode : mode.1 = none) (hc : Text.isBlank c = true) :
    mode.after c = .outside :=
  Mode.after_bare hmode (ne_of_isBlank hc (by decide)) (ne_of_isBlank hc (by decide))

theorem splitIn_blank (mode : Mode) (h : AreBlank s) : splitIn mode s = [s] := by
  induction s generalizing mode with
  | nil => rfl
  | cons c s ih =>
      rw [AreBlank, List.forall_mem_cons] at h
      rw [splitIn_blank_cons mode h.1, ih _ h.2]
      rfl

theorem texts_blank (h : AreBlank s) : texts s = [] := by
  rw [texts, splitIn_blank _ h, List.map_singleton, Text.trim_eq_nil h]
  rfl

theorem texts_blank_append (h : AreBlank front) : texts (front ++ s) = texts s := by
  induction front with
  | nil => rfl
  | cons c front ih =>
      rw [AreBlank, List.forall_mem_cons] at h
      rw [← ih h.2, texts, texts, List.cons_append, splitIn_blank_cons _ h.1, after_blank rfl h.1]
      obtain ⟨first, rest, hsplit⟩ := exists_splitIn .outside (front ++ s)
      have hblank : AreBlank [c] := by simpa [AreBlank] using h.1
      have htrim : trim (c :: first) = trim first := Text.trim_blank_append hblank
      rw [hsplit, consFirst, List.map_cons, List.map_cons, htrim]

theorem texts_append_blank {back : List Char} (h : AreBlank back) : texts (s ++ back) = texts s := by
  obtain ⟨front, last, hsplit, happend⟩ := exists_splitIn_append .outside s
  rw [texts, texts, hsplit, happend (splitIn_blank _ h), List.map_append, List.map_append,
    List.map_singleton, List.map_singleton, Text.trim_append_blank h]

theorem texts_trim (s : List Char) : texts (trim s) = texts s := by
  obtain ⟨front, back, hfront, hback, hs⟩ := Text.exists_trim s
  conv_rhs => rw [hs, texts_append_blank hback, texts_blank_append hfront]

theorem texts_append_separator (hs : IsTerminated s) (t : List Char) :
    texts (s ++ ';' :: t) = texts s ++ texts t := by
  obtain ⟨front, last, hsplit, happend⟩ := exists_splitIn_append .outside s
  have hcut : splitIn (Mode.outside.behind s) (';' :: t) = [] :: splitIn .outside t := by
    rw [splitIn_cons, if_pos ⟨hs, rfl⟩]
  rw [texts, texts, texts, hsplit, happend hcut, List.append_nil, List.append_cons,
    List.map_append, List.filter_append]

/-- A body that begins with a character begins with a statement. -/
theorem exists_texts_cons (hblank : Text.isBlank c = false) (hseparator : c ≠ ';') (s : List Char) :
    ∃ t rest, texts (c :: s) = (c :: t) :: rest := by
  obtain ⟨first, rest, hsplit⟩ := exists_splitIn (Mode.outside.after c) s
  obtain ⟨t, ht⟩ := Text.exists_trim_cons hblank first
  rw [texts, splitIn_cons, if_neg fun hcut => hseparator hcut.2, hsplit, consFirst, List.map_cons, ht]
  exact ⟨t, _, rfl⟩

/-! ### Ends of texts -/

theorem isTerminated_append_separator (hs : IsTerminated s) :
    IsTerminated (s ++ ';' :: t) ↔ IsTerminated t := by
  rw [IsTerminated, IsTerminated, Mode.behind, List.foldl_append, List.foldl_cons]
  exact iff_of_eq (congrArg (fun mode => (Mode.behind mode t).1 = none) (Mode.after_separator hs))

/-- Characters that open no quote. -/
def IsBare (s : List Char) : Prop :=
  '\'' ∉ s ∧ '"' ∉ s

instance : Decidable (IsBare s) :=
  inferInstanceAs (Decidable (_ ∧ _))

theorem isBare_append : IsBare (s ++ t) ↔ IsBare s ∧ IsBare t := by
  simp only [IsBare, List.mem_append, not_or]
  tauto

theorem isBare_of_areBlank (h : AreBlank s) : IsBare s :=
  ⟨fun hmem => absurd (h _ hmem) (by decide), fun hmem => absurd (h _ hmem) (by decide)⟩

/-- What is open is a quote. -/
def Mode.IsProper (mode : Mode) : Prop :=
  ∀ q ∈ mode.1, q = '\'' ∨ q = '"'

theorem Mode.IsProper.after {mode : Mode} (h : mode.IsProper) (c : Char) :
    (mode.after c).IsProper := by
  obtain ⟨quote | q, escaped⟩ := mode
  · by_cases hc : c = '\'' ∨ c = '"'
    · simp [Mode.after, IsProper, hc]
    · simp [Mode.after, IsProper, hc]
  · have hafter : (Mode.after (some q, escaped) c).1 = none ∨
        (Mode.after (some q, escaped) c).1 = some q := by
      cases escaped with
      | true => exact Or.inr rfl
      | false =>
          rw [Mode.after]
          split
          · exact Or.inr rfl
          · by_cases hq : c = q <;> simp [hq]
    intro p hp
    rcases hafter with hnone | hsome
    · rw [hnone] at hp
      cases hp
    · exact h p (hsome ▸ hp)

theorem Mode.IsProper.behind {mode : Mode} (h : mode.IsProper) (s : List Char) :
    (mode.behind s).IsProper := by
  induction s generalizing mode with
  | nil => exact h
  | cons c s ih => exact ih (h.after c)

/-- Characters that are no quotes leave the quote that is open, if there is one. -/
theorem Mode.IsProper.behind_bare {mode : Mode} (h : mode.IsProper) (hs : IsBare s) :
    (mode.behind s).1 = mode.1 := by
  induction s generalizing mode with
  | nil => rfl
  | cons c s ih =>
      simp only [IsBare, List.mem_cons, not_or] at hs
      have hafter : (mode.after c).1 = mode.1 := by
        obtain ⟨quote | q, escaped⟩ := mode
        · rw [Mode.after_bare rfl (Ne.symm hs.1.1) (Ne.symm hs.2.1)]
          rfl
        · have hclose : c ≠ q := by
            obtain rfl | rfl := h q rfl
            · exact Ne.symm hs.1.1
            · exact Ne.symm hs.2.1
          cases escaped <;> simp only [Mode.after, hclose, if_false]
          split <;> rfl
      rw [← hafter]
      exact ih (h.after c) ⟨hs.1.2, hs.2.2⟩

theorem Mode.outside_isProper : Mode.outside.IsProper := by
  simp [Mode.outside, IsProper]

theorem isTerminated_append_bare (ht : IsBare t) : IsTerminated (s ++ t) ↔ IsTerminated s := by
  rw [IsTerminated, IsTerminated, Mode.behind, List.foldl_append]
  exact iff_of_eq (congrArg (· = none) ((Mode.outside_isProper.behind s).behind_bare ht))

theorem isTerminated_of_isBare (h : IsBare s) : IsTerminated s :=
  Mode.outside_isProper.behind_bare h

theorem behind_bare (h : IsBare s) : Mode.outside.behind s = .outside := by
  induction s with
  | nil => rfl
  | cons c s ih =>
      simp only [IsBare, List.mem_cons, not_or] at h
      rw [Mode.behind, List.foldl_cons, Mode.after_bare rfl (Ne.symm h.1.1) (Ne.symm h.2.1)]
      exact ih ⟨h.1.2, h.2.2⟩

/-- Without quotes at its front a text ends as the rest does. -/
theorem isTerminated_bare_append (h : IsBare s) : IsTerminated (s ++ t) ↔ IsTerminated t := by
  rw [IsTerminated, IsTerminated, Mode.behind, List.foldl_append]
  exact iff_of_eq (congrArg (fun mode => (Mode.behind mode t).1 = none) (behind_bare h))

theorem isTerminated_trim : IsTerminated (trim s) ↔ IsTerminated s := by
  obtain ⟨front, back, hfront, hback, hs⟩ := Text.exists_trim s
  conv_rhs =>
    rw [hs, List.append_assoc, isTerminated_bare_append (isBare_of_areBlank hfront),
      isTerminated_append_bare (isBare_of_areBlank hback)]

/-- A body ends outside quotes when each of its statements does. -/
theorem isTerminated_of_texts (h : ∀ t ∈ texts s, IsTerminated t) : IsTerminated s := by
  have hpiece : ∀ piece ∈ splitIn .outside s, IsTerminated piece := by
    intro piece hmem
    rw [← isTerminated_trim]
    by_cases hnil : trim piece = []
    · rw [hnil]
      rfl
    · apply h
      rw [texts, List.mem_filter]
      exact ⟨List.mem_map_of_mem hmem, by simpa using hnil⟩
  obtain ⟨first, rest, hsplit⟩ := exists_splitIn .outside s
  rw [hsplit, List.forall_mem_cons] at hpiece
  exact behind_of_splitIn hsplit hpiece.1 hpiece.2

end Handler

end LiveMarkup
