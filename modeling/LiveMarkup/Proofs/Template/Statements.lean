import LiveMarkup.Proofs.Template.Separators
import Mathlib.Data.List.Forall2

/-!
# Statements

What the text of a statement can be (`compileStatement_cases`), and which texts a handler is cut into.
-/

namespace LiveMarkup

namespace Handler

open Text (AreBlank trim)

variable {field name rest s t value : List Char} {location source : String} {st : Statement}

/-! ### The forms of statements -/

theorem eq_append_of_strip? {front : List Char} (h : strip? front s = some rest) :
    s = front ++ rest := by
  rw [strip?] at h
  split at h
  · rename_i hprefix
    obtain ⟨more, rfl⟩ := List.isPrefixOf_iff_prefix.mp hprefix
    rw [List.drop_left, Option.some.injEq] at h
    rw [h]
  · cases h

/-- A name of a field or a method. -/
structure IsName (name : List Char) : Prop where
  ne_nil : name ≠ []
  word : ∀ c ∈ name, Text.isWord c = true

theorem IsName.isBare (h : IsName name) : IsBare name :=
  ⟨fun hmem => absurd (h.word _ hmem) (by decide), fun hmem => absurd (h.word _ hmem) (by decide)⟩

theorem IsName.exists_cons (h : IsName name) : ∃ c more, name = c :: more ∧ Text.isWord c = true := by
  obtain ⟨c, more, rfl⟩ := List.exists_cons_of_ne_nil h.ne_nil
  exact ⟨c, more, rfl, h.word c List.mem_cons_self⟩

theorem isName_takeWhile (h : (s.takeWhile Text.isWord).isEmpty ≠ true) :
    IsName (s.takeWhile Text.isWord) :=
  ⟨fun hnil => h (List.isEmpty_iff.mpr hnil), fun _ hc => List.mem_takeWhile_imp hc⟩

theorem exists_skipBlanks (s : List Char) : ∃ blanks, AreBlank blanks ∧ s = blanks ++ skipBlanks s :=
  ⟨_, fun _ hc => List.mem_takeWhile_imp hc, (List.takeWhile_append_dropWhile (p := Text.isBlank)).symm⟩

theorem fieldAt?_spec (h : fieldAt? s = some (field, rest)) : IsName field ∧
    ∃ blanks, AreBlank blanks ∧ s = "this.".toList ++ field ++ blanks ++ rest := by
  rw [fieldAt?] at h
  simp only [Option.bind_eq_bind, Option.bind_eq_some_iff] at h
  obtain ⟨after, hstrip, h⟩ := h
  split at h
  · cases h
  · rename_i hne
    cases h
    obtain ⟨blanks, hblanks, hafter⟩ := exists_skipBlanks (after.dropWhile Text.isWord)
    refine ⟨isName_takeWhile hne, blanks, hblanks, ?_⟩
    rw [eq_append_of_strip? hstrip, List.append_assoc, List.append_assoc, ← hafter,
      List.takeWhile_append_dropWhile]

theorem isBare_this : IsBare "this.".toList := by
  decide

theorem step?_spec {sign : Char} (h : step? s = some (field, sign)) :
    IsName field ∧ ∃ after, IsBare after ∧ s = "this.".toList ++ field ++ after := by
  rw [step?] at h
  simp only [Option.bind_eq_bind, Option.bind_eq_some_iff] at h
  obtain ⟨⟨name, rest⟩, hfield, h⟩ := h
  obtain ⟨hname, blanks, hblanks, rfl⟩ := fieldAt?_spec hfield
  have hrest : IsBare rest ∧ name = field := by
    dsimp only at h
    split at h
    · rename_i hplus
      cases h
      exact ⟨hplus ▸ by decide, rfl⟩
    split at h
    · rename_i hminus
      cases h
      exact ⟨hminus ▸ by decide, rfl⟩
    · cases h
  obtain ⟨hrest, rfl⟩ := hrest
  refine ⟨hname, blanks ++ rest, isBare_append.mpr ⟨isBare_of_areBlank hblanks, hrest⟩, ?_⟩
  simp only [List.append_assoc]

theorem rightSide?_spec (h : rightSide? s = some value) : value = trim s := by
  obtain ⟨blanks, hblanks, hs⟩ := exists_skipBlanks s
  rw [rightSide?] at h
  split at h
  · cases h
  · cases h
    conv_rhs => rw [hs, Text.trim_blank_append hblanks]

theorem assignment?_spec {sign : Option Char} (h : assignment? s = some (field, sign, value)) :
    IsName field ∧ (∀ c ∈ sign, c = '+' ∨ c = '-') ∧ ∃ mark right, IsBare mark ∧
      value = trim right ∧ s = "this.".toList ++ field ++ mark ++ right := by
  rw [assignment?] at h
  simp only [Option.bind_eq_bind, Option.bind_eq_some_iff] at h
  obtain ⟨⟨name, rest⟩, hfield, h⟩ := h
  obtain ⟨hname, blanks, hblanks, rfl⟩ := fieldAt?_spec hfield
  have hrest : ∃ op right, IsBare op ∧ rest = op ++ right ∧ rightSide? right = some value ∧
      name = field ∧ ∀ c ∈ sign, c = '+' ∨ c = '-' := by
    dsimp only at h
    split at h
    · obtain ⟨found, hvalue, heq⟩ := Option.map_eq_some_iff.mp h
      cases heq
      exact ⟨['+', '='], _, by decide, rfl, hvalue, rfl, by simp⟩
    · obtain ⟨found, hvalue, heq⟩ := Option.map_eq_some_iff.mp h
      cases heq
      exact ⟨['-', '='], _, by decide, rfl, hvalue, rfl, by simp⟩
    · obtain ⟨found, hvalue, heq⟩ := Option.map_eq_some_iff.mp h
      cases heq
      exact ⟨['='], _, by decide, rfl, hvalue, rfl, by simp⟩
    · cases h
  obtain ⟨op, right, hop, rfl, hvalue, rfl, hsign⟩ := hrest
  refine ⟨hname, hsign, blanks ++ op, right, ?_, rightSide?_spec hvalue,
    by simp only [List.append_assoc]⟩
  exact isBare_append.mpr ⟨isBare_of_areBlank hblanks, hop⟩

theorem methodAt?_spec (h : methodAt? s = some name) :
    IsName name ∧ ∃ after, IsBare after ∧ s = name ++ after := by
  rw [methodAt?] at h
  obtain ⟨blanks, hblanks, hafter⟩ := exists_skipBlanks (s.dropWhile Text.isWord)
  have hs := List.takeWhile_append_dropWhile (p := Text.isWord) (l := s)
  split at h
  · cases h
  rename_i hne
  rw [hafter] at hs
  split at h
  · rename_i hempty
    cases h
    rw [List.isEmpty_iff.mp hempty, List.append_nil] at hs
    exact ⟨isName_takeWhile hne, blanks, isBare_of_areBlank hblanks, hs.symm⟩
  · simp only [Option.bind_eq_bind, Option.bind_eq_some_iff] at h
    obtain ⟨rest, hstrip, h⟩ := h
    split at h
    · rename_i hclose
      cases h
      obtain ⟨inner, hinner, hrest⟩ := exists_skipBlanks rest
      rw [eq_append_of_strip? hstrip, hrest, hclose] at hs
      refine ⟨isName_takeWhile hne, _, ?_, hs.symm⟩
      simp only [isBare_append]
      exact ⟨isBare_of_areBlank hblanks, by decide, isBare_of_areBlank hinner, by decide⟩
    · cases h

theorem method?_spec (h : method? s = some name) :
    IsBare s ∧ ∃ c more, s = c :: more ∧ Text.isWord c = true := by
  rw [method?] at h
  split at h
  · rename_i found hfound
    obtain ⟨rest, hstrip, hmethod⟩ := Option.bind_eq_some_iff.mp hfound
    obtain ⟨hname, after, hafter, rfl⟩ := methodAt?_spec hmethod
    rw [eq_append_of_strip? hstrip]
    refine ⟨?_, 't', _, rfl, by decide⟩
    exact isBare_append.mpr ⟨isBare_this, isBare_append.mpr ⟨hname.isBare, hafter⟩⟩
  · obtain ⟨hname, after, hafter, rfl⟩ := methodAt?_spec h
    obtain ⟨c, more, rfl, hc⟩ := hname.exists_cons
    exact ⟨isBare_append.mpr ⟨hname.isBare, hafter⟩, c, _, rfl, hc⟩

theorem assign_eq_ok {source : List Char} (h : assign location field source = .ok st) :
    ∃ value, st = .assign (String.ofList field) (String.ofList source) value := by
  rw [assign] at h
  split at h
  · cases h
    exact ⟨_, rfl⟩
  · cases h

/-- What a statement can be. -/
theorem compileStatement_cases (h : compileStatement location s = .ok st) :
    (∃ c more, s = c :: more ∧ Text.isWord c = true) ∧
      (IsBare s ∨ ∃ field sign mark right value, IsName field ∧ (∀ c ∈ sign, c = '+' ∨ c = '-') ∧
        IsBare mark ∧ s = "this.".toList ++ field ++ mark ++ right ∧
        st = .assign (String.ofList field)
          (String.ofList (assignedSource field sign (trim right))) value) := by
  rw [compileStatement] at h
  split at h
  · rename_i field sign hstep
    obtain ⟨hname, after, hafter, rfl⟩ := step?_spec hstep
    refine ⟨⟨'t', _, rfl, by decide⟩, Or.inl ?_⟩
    simp only [isBare_append]
    exact ⟨⟨isBare_this, hname.isBare⟩, hafter⟩
  · split at h
    · rename_i field sign value hassignment
      obtain ⟨hname, hsign, mark, right, hmark, rfl, rfl⟩ := assignment?_spec hassignment
      refine ⟨⟨'t', _, rfl, by decide⟩, Or.inr ?_⟩
      split at h
      · cases h
      · obtain ⟨value, rfl⟩ := assign_eq_ok h
        exact ⟨field, sign, mark, right, value, hname, hsign, hmark, rfl, rfl⟩
    · split at h
      · rename_i hmethod
        obtain ⟨hbare, hfirst⟩ := method?_spec hmethod
        exact ⟨hfirst, Or.inl hbare⟩
      · cases h

theorem assignedSource_some (field value : List Char) (c : Char) :
    assignedSource field (some c) value =
      "this.".toList ++ field ++ [' ', c, ' ', '('] ++ value ++ [')'] :=
  rfl

theorem isBare_sign {c : Char} (h : c = '+' ∨ c = '-') : IsBare [' ', c, ' ', '('] := by
  obtain rfl | rfl := h
  · decide
  · decide

/-- An assignment ends outside quotes when the source of its value does. -/
theorem isTerminated_of_compileStatement (h : compileStatement location s = .ok st)
    (hsource : ∀ field source value, st = .assign field source value →
      IsTerminated source.toList) : IsTerminated s := by
  obtain ⟨-, hbare | ⟨field, sign, mark, right, value, hname, hsign, hmark, rfl, rfl⟩⟩ :=
    compileStatement_cases h
  · exact isTerminated_of_isBare hbare
  · have hvalue := hsource _ _ _ rfl
    rw [String.toList_ofList] at hvalue
    have hfront := isBare_append.mpr ⟨isBare_this, hname.isBare⟩
    rw [isTerminated_bare_append (isBare_append.mpr ⟨hfront, hmark⟩), ← isTerminated_trim]
    cases sign with
    | none => exact hvalue
    | some c =>
        have hmark := isBare_sign (hsign c rfl)
        rwa [assignedSource_some, isTerminated_append_bare (by decide),
          isTerminated_bare_append (isBare_append.mpr ⟨hfront, hmark⟩)] at hvalue

/-- The handler that a statement stands in shows in its errors only. -/
theorem compileStatement_location (h : compileStatement location s = .ok st) (other : String) :
    compileStatement other s = .ok st := by
  have hassign : ∀ field source, assign location field source = .ok st →
      assign other field source = .ok st := by
    intro field source h
    rw [assign] at h ⊢
    split at h
    · exact h
    · cases h
  rw [compileStatement] at h ⊢
  split at h
  · exact hassign _ _ h
  · split at h
    · split at h
      · cases h
      · rename_i hcomparison
        rw [if_neg hcomparison]
        exact hassign _ _ h
    · split at h
      · exact h
      · cases h

/-! ### The body of a handler -/

theorem stripArrow_of_head {c : Char} (hc : c ≠ '(') (s : List Char) :
    stripArrow (c :: s) = c :: s := by
  simp [stripArrow, strip?, Ne.symm hc]

theorem stripBraces_of_head {c : Char} (hc : c ≠ '\x7b') (s : List Char) :
    stripBraces (c :: s) = c :: s := by
  rw [stripBraces]
  simpa using hc

theorem stripBraces_braces (s : List Char) : stripBraces ('\x7b' :: (s ++ ['\x7d'])) = s := by
  simp [stripBraces]

theorem trim_skipBlanks (s : List Char) : trim (skipBlanks s) = trim s := by
  obtain ⟨blanks, hblanks, hs⟩ := exists_skipBlanks s
  conv_rhs => rw [hs, Text.trim_blank_append hblanks]

theorem statementTexts_of_head {c : Char} (h : trim source.toList = c :: rest) (hparen : c ≠ '(')
    (hbrace : c ≠ '\x7b') : statementTexts source = texts source.toList := by
  rw [statementTexts_eq, h, stripArrow_of_head hparen, ← h, Text.trim_trim, h,
    stripBraces_of_head hbrace, ← h, texts_trim]

theorem areBlank_space : AreBlank [' '] := by
  simp [AreBlank, Text.isBlank, Text.inRanges]

theorem statementTexts_braces (body : String) :
    statementTexts ("\x7b " ++ body ++ " \x7d") = texts body.toList := by
  have hsource : ("\x7b " ++ body ++ " \x7d").toList =
      '\x7b' :: (([' '] ++ (body.toList ++ [' '])) ++ ['\x7d']) := by
    simp
  have htrim := Text.trim_eq_of_ends (c := '\x7b') (d := '\x7d') (by decide) (by decide)
    ([' '] ++ (body.toList ++ [' ']))
  rw [statementTexts_eq, hsource, htrim, stripArrow_of_head (by decide), htrim, stripBraces_braces,
    texts_blank_append areBlank_space, texts_append_blank areBlank_space]

/-- What stands behind an arrow is the body, with or without braces. -/
theorem statementTexts_arrow (body : String) : statementTexts ("() =>" ++ body) =
    texts (stripBraces (trim body.toList)) := by
  have hsource : ("() =>" ++ body).toList = '(' :: ([')', ' ', '='] ++ '>' :: body.toList) := by
    simp
  have hstrip : ∀ s, stripArrow ('(' :: ([')', ' ', '='] ++ '>' :: s)) = skipBlanks s := by
    intro s
    rfl
  have hback : AreBlank (body.toList.rtakeWhile Text.isBlank) := fun _ hc => List.mem_rtakeWhile_imp hc
  have hbody := List.rdropWhile_append_rtakeWhile (p := Text.isBlank) (l := body.toList)
  rw [statementTexts_eq, hsource, Text.trim_append_of_ends (by decide) (by decide), hstrip,
    trim_skipBlanks, ← Text.trim_append_blank hback, hbody]

theorem statementTexts_arrow_of_head {body : String} {c : Char} (h : trim body.toList = c :: rest)
    (hbrace : c ≠ '\x7b') : statementTexts ("() => " ++ body) = texts body.toList := by
  have hsource : "() => " ++ body = "() =>" ++ (" " ++ body) := by
    apply String.toList_injective
    simp
  have hbody : (" " ++ body).toList = [' '] ++ body.toList := by
    simp
  rw [hsource, statementTexts_arrow, hbody, Text.trim_blank_append areBlank_space, h,
    stripBraces_of_head hbrace, ← h, texts_trim]

theorem statementTexts_arrow_braces {body : String} (h : IsTerminated body.toList) :
    statementTexts ("() => \x7b " ++ body ++ "; \x7d") = texts body.toList := by
  have hsource : "() => \x7b " ++ body ++ "; \x7d" = "() =>" ++ (" \x7b " ++ body ++ "; \x7d") := by
    apply String.toList_injective
    simp
  have hbody : (" \x7b " ++ body ++ "; \x7d").toList =
      [' '] ++ '\x7b' :: (([' '] ++ (body.toList ++ ';' :: [' '])) ++ ['\x7d']) := by
    simp
  rw [hsource, statementTexts_arrow, hbody, Text.trim_blank_append areBlank_space,
    Text.trim_eq_of_ends (by decide) (by decide), stripBraces_braces,
    texts_blank_append areBlank_space, texts_append_separator h, texts_blank areBlank_space,
    List.append_nil]

/-! ### Compiled statements -/

theorem mapM_eq_ok_iff {α β ε : Type} {f : α → Except ε β} {xs : List α} {ys : List β} :
    xs.mapM f = .ok ys ↔ List.Forall₂ (fun x y => f x = .ok y) xs ys := by
  induction xs generalizing ys with
  | nil =>
      rw [List.mapM_nil, List.forall₂_nil_left_iff]
      exact ⟨fun h => by cases h; rfl, fun h => h ▸ rfl⟩
  | cons x xs ih =>
      rw [List.mapM_cons, List.forall₂_cons_left_iff]
      constructor
      · intro h
        cases hx : f x with
        | error e =>
            rw [hx] at h
            cases h
        | ok y =>
            cases hxs : xs.mapM f with
            | error e =>
                rw [hx, hxs] at h
                cases h
            | ok more =>
                rw [hx, hxs] at h
                cases h
                exact ⟨y, more, rfl, ih.mp hxs, rfl⟩
      · rintro ⟨y, more, hx, hxs, rfl⟩
        rw [hx, ih.mpr hxs]
        rfl

theorem compile_eq_ok_iff {statements : List Statement} :
    compile source = .ok ⟨source, statements⟩ ↔ statements ≠ [] ∧
      List.Forall₂ (fun s st => compileStatement source s = .ok st) (statementTexts source)
        statements := by
  rw [← mapM_eq_ok_iff, compile]
  cases (statementTexts source).mapM (compileStatement source) with
  | error e => simp [Except.bind, bind]
  | ok found =>
      simp only [Except.bind, bind]
      split
      · rename_i hempty
        rw [List.isEmpty_iff.mp hempty]
        simp [eq_comm]
      · rename_i hempty
        have hfound : found ≠ [] := by simpa using hempty
        simp only [pure, Except.pure, Except.ok.injEq, Handler.mk.injEq, true_and]
        exact ⟨fun heq => ⟨heq ▸ hfound, heq⟩, fun h => h.2⟩

end Handler

end LiveMarkup
