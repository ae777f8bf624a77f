import LiveMarkup.Proofs.Template.Assignments
import LiveMarkup.Proofs.Template.Literals

/-!
# Sequences of statements

Statements that compile one by one compile together, in their order, between semicolons, in braces
and after an arrow, whatever their texts hold between quotes (`compile_sequence`).
-/

namespace LiveMarkup

namespace Handler

open Text (AreBlank trim)

variable {st : Statement}

/-- A text that compiles as one statement, with neither an arrow nor braces around it. -/
structure IsPlain (s : String) (st : Statement) : Prop where
  compiled : compile s = .ok ⟨s, [st]⟩
  arrow : stripArrow (trim s.toList) = trim s.toList
  braces : stripBraces (trim s.toList) = trim s.toList
  /-- The expression that is stored closes its quotes. -/
  terminated : ∀ field source value, st = .assign field source value → IsTerminated source.toList

/-- What is stored closes its quotes when it is tokens throughout. -/
theorem isPlain_of_lex {s : String} (hcompiled : compile s = .ok ⟨s, [st]⟩)
    (harrow : stripArrow (trim s.toList) = trim s.toList)
    (hbraces : stripBraces (trim s.toList) = trim s.toList)
    (htokens : ∀ field source value, st = .assign field source value →
      .broken ∉ Expr.lex source.toList) : IsPlain s st :=
  ⟨hcompiled, harrow, hbraces, fun field source value hst =>
    (isWhole_of_lex (htokens field source value hst)).isTerminated⟩

/-- The one statement in a plain text, which begins with no parenthesis and no brace. -/
theorem IsPlain.exists_text {s : String} (h : IsPlain s st) :
    ∃ t, texts s.toList = [t] ∧ (∀ location, compileStatement location t = .ok st) ∧
      IsTerminated s.toList ∧
      ∃ c more, trim s.toList = c :: more ∧ c ≠ '(' ∧ c ≠ '\x7b' := by
  have hcompiled := (compile_eq_ok_iff.mp h.compiled).2
  rw [statementTexts_eq, h.arrow, Text.trim_trim, h.braces, texts_trim,
    List.forall₂_cons_right_iff] at hcompiled
  obtain ⟨t, others, ht, hothers, htexts⟩ := hcompiled
  rw [List.forall₂_nil_right_iff.mp hothers] at htexts
  refine ⟨t, htexts, fun location => compileStatement_location ht location, ?_, ?_⟩
  · apply isTerminated_of_texts
    rw [htexts, List.forall_mem_singleton]
    exact isTerminated_of_compileStatement ht h.terminated
  · cases htrim : trim s.toList with
    | nil =>
        rw [← texts_trim, htrim] at htexts
        cases htexts
    | cons c more =>
        refine ⟨c, more, rfl, ?_⟩
        by_cases hc : c = ';'
        · rw [hc]
          decide
        · obtain ⟨front, rest, hfirst⟩ := exists_texts_cons (Text.isBlank_head_trim htrim) hc more
          rw [← htrim, texts_trim, htexts] at hfirst
          obtain ⟨rfl, -⟩ := List.cons.inj hfirst
          obtain ⟨⟨d, after, hcons, hword⟩, -⟩ := compileStatement_cases ht
          obtain ⟨rfl, -⟩ := List.cons.inj hcons
          have hne : ∀ {d : Char}, Text.isWord d = false → c ≠ d := by
            rintro d hd rfl
            rw [hword] at hd
            cases hd
          exact ⟨hne (by decide), hne (by decide)⟩

/-- Plain texts between semicolons hold their statements in order. -/
theorem exists_texts_sequence : ∀ {ss : List (String × Statement)}, ss ≠ [] →
    (∀ p ∈ ss, IsPlain p.1 p.2) →
    List.Forall₂ (fun t st => ∀ location, compileStatement location t = .ok st)
      (texts (";".intercalate (ss.map Prod.fst)).toList) (ss.map Prod.snd) ∧
    IsTerminated (";".intercalate (ss.map Prod.fst)).toList ∧
    ∃ c more, trim (";".intercalate (ss.map Prod.fst)).toList = c :: more ∧ c ≠ '(' ∧ c ≠ '\x7b'
  | [], hne, _ => absurd rfl hne
  | [p], _, h => by
      obtain ⟨t, htexts, hcompile, hterminated, hhead⟩ := (h p List.mem_cons_self).exists_text
      rw [List.map_singleton, List.map_singleton, String.intercalate_singleton, htexts]
      exact ⟨.cons hcompile .nil, hterminated, hhead⟩
  | p :: q :: ss, _, h => by
      rw [List.forall_mem_cons] at h
      obtain ⟨t, htexts, hcompile, hterminated, c, more, htrim, hhead⟩ := h.1.exists_text
      obtain ⟨hmore, hend, -⟩ := exists_texts_sequence (List.cons_ne_nil q ss) h.2
      have hbody : (";".intercalate ((p :: q :: ss).map Prod.fst)).toList =
          p.1.toList ++ ';' :: (";".intercalate ((q :: ss).map Prod.fst)).toList := by
        rw [List.map_cons, List.map_cons, String.intercalate_cons_cons]
        simp
      rw [hbody, texts_append_separator hterminated, htexts]
      obtain ⟨after, hafter⟩ := Text.exists_trim_append htrim _
      exact ⟨.cons hcompile hmore, (isTerminated_append_separator hterminated).mpr hend,
        c, after, hafter, hhead⟩

/-- A body by itself, in braces, after an arrow, and in braces after an arrow. -/
def written (body : String) : List String :=
  [body, "\x7b " ++ body ++ " \x7d", "() => " ++ body, "() => \x7b " ++ body ++ "; \x7d"]

/-- The statements of plain texts are those of the texts between semicolons, in braces or not and after
an arrow or not, and the cuts at the semicolons outside quotes lose nothing. -/
theorem compile_sequence {ss : List (String × Statement)} (hne : ss ≠ [])
    (h : ∀ p ∈ ss, IsPlain p.1 p.2) :
    (∀ source ∈ written (";".intercalate (ss.map Prod.fst)),
      compile source = .ok ⟨source, ss.map Prod.snd⟩) ∧
    ∀ body : List Char, [';'].intercalate (split none false body) = body ∧
      ∀ piece ∈ split none false body, ';' ∉ unquoted .outside piece := by
  obtain ⟨hcompile, hterminated, c, more, htrim, hparen, hbrace⟩ := exists_texts_sequence hne h
  generalize ";".intercalate (ss.map Prod.fst) = body at hcompile hterminated htrim
  have hdone : ∀ source, statementTexts source = texts body.toList →
      compile source = .ok ⟨source, ss.map Prod.snd⟩ := by
    intro source htexts
    rw [compile_eq_ok_iff, htexts]
    exact ⟨by simpa using hne, hcompile.imp fun _ _ h => h source⟩
  refine ⟨?_, ?_⟩
  · have hplain := hdone _ (statementTexts_of_head htrim hparen hbrace)
    have hbraces := hdone _ (statementTexts_braces body)
    have harrow := hdone _ (statementTexts_arrow_of_head htrim hbrace)
    have hblock := hdone _ (statementTexts_arrow_braces hterminated)
    simp only [written, List.forall_mem_cons]
    exact ⟨hplain, hbraces, harrow, hblock, List.forall_mem_nil _⟩
  · intro body
    obtain ⟨first, rest, hsplit⟩ := exists_splitIn .outside body
    have hpieces := not_mem_unquoted_of_splitIn hsplit
    refine ⟨intercalate_splitIn .outside body, ?_⟩
    change ∀ piece ∈ splitIn .outside body, _
    rw [hsplit, List.forall_mem_cons]
    exact hpieces

/-- Separators, braces, an escaped quote and an arrow between quotes. -/
def doubleQuoted : List Char :=
  "\"x;\\\"y\x7d\"".toList

def singleQuoted : List Char :=
  "'() => \x7b ; '".toList

theorem lex_doubleQuoted : Expr.lex doubleQuoted = [.text "x;\"y\x7d"] := by
  have hbody : Expr.unescape? none "x;\\\"y\x7d".toList = some "x;\"y\x7d".toList := by
    change Expr.unescape? none ('x' :: ';' :: '\\' :: '"' :: ['y', '\x7d']) = _
    rw [Expr.unescape?_cons (by decide), Expr.unescape?_cons (by decide), Expr.unescape?_quote,
      Expr.unescape?_plain (by decide)]
    rfl
  have htoken : Expr.tokenAt? doubleQuoted = some (.text "x;\"y\x7d", 8) :=
    Expr.tokenAt?_text (Or.inl rfl) rfl hbody
  exact (Expr.lex_token (by decide) htoken).trans (congrArg _ Expr.lex_nil)

theorem lex_singleQuoted : Expr.lex singleQuoted = [.text "() => \x7b ; "] := by
  have hbody := Expr.unescape?_plain (s := "() => \x7b ; ".toList) (by decide)
  have htoken : Expr.tokenAt? singleQuoted = some (.text "() => \x7b ; ", 12) :=
    Expr.tokenAt?_text (Or.inr rfl) rfl hbody
  exact (Expr.lex_token (by decide) htoken).trans (congrArg _ Expr.lex_nil)

/-- An assignment, a sum, a step and a method. -/
def several : List (String × Statement) :=
  [(assignmentText ['a'] none doubleQuoted,
      .assign (String.ofList ['a']) (String.ofList doubleQuoted) (.constant (.ofString "x;\"y\x7d"))),
    (assignmentText ['b'] (some '+') singleQuoted,
      .assign (String.ofList ['b']) (String.ofList (assignedSource ['b'] (some '+') singleQuoted))
        (.binary .add (.member (.name "this") (String.ofList ['b']))
          (.constant (.ofString "() => \x7b ; ")))),
    (" this.c++", .assign (String.ofList ['c'])
      (String.ofList ("this.".toList ++ ['c'] ++ [' ', '+', ' ', '1']))
      (.binary .add (.member (.name "this") (String.ofList ['c'])) (.constant (.natural 1)))),
    ("reset( )", .call "reset")]

example : several.map Prod.fst = ["this.a = \"x;\\\"y\x7d\"", "this.b += '() => \x7b ; '", " this.c++",
    "reset( )"] := by
  decide

theorem several_isPlain : ∀ p ∈ several, IsPlain p.1 p.2 := by
  have hname : ∀ c ∈ ['a', 'b', 'c'], Expr.IsIdentifier [c] := by
    intro c hc
    simp only [List.mem_cons, List.not_mem_nil, or_false] at hc
    obtain rfl | rfl | rfl := hc <;> exact ⟨by decide, by decide⟩
  have hdouble : compile (assignmentText ['a'] none doubleQuoted) = .ok ⟨_, [_]⟩ :=
    (compile_plain_iff (isName_of_isIdentifier (hname 'a' (by decide)))
      ⟨by decide, by decide, by decide⟩).mpr
        ⟨by decide, _, (Expr.isEnclosable_text lex_doubleQuoted).read?, rfl⟩
  have hsingle := compile_update .add (hname 'b' (by decide))
    ⟨by decide, by decide, by decide⟩ (by decide)
    (Expr.isEnclosable_text lex_singleQuoted)
  have hstep : compile " this.c++" = .ok ⟨" this.c++", [.assign (String.ofList ['c'])
      (String.ofList ("this.".toList ++ ['c'] ++ [' ', '+', ' ', '1']))
      (.binary .add (.member (.name "this") (String.ofList ['c'])) (.constant (.natural 1)))]⟩ := by
    have htexts : statementTexts " this.c++" = ["this.c++".toList] := rfl
    have hassign : compileStatement " this.c++" "this.c++".toList =
        assign " this.c++" ['c'] ("this.".toList ++ ['c'] ++ [' ', '+', ' ', '1']) := rfl
    rw [compile_eq_ok_iff, htexts]
    refine ⟨List.cons_ne_nil _ _, .cons ?_ .nil⟩
    rw [hassign, assign, Expr.read?_step .add (hname 'c' (by decide))]
  simp only [several, List.forall_mem_cons]
  refine ⟨⟨hdouble, rfl, rfl, ?_⟩, ⟨hsingle, rfl, rfl, ?_⟩, ⟨hstep, rfl, rfl, ?_⟩, ⟨rfl, rfl, rfl, ?_⟩,
    List.forall_mem_nil _⟩
  · rintro field source value ⟨⟩
    rfl
  · rintro field source value ⟨⟩
    rfl
  · rintro field source value ⟨⟩
    rfl
  · rintro field source value ⟨⟩

theorem compile_sequence_several : several ≠ [] ∧ (∀ p ∈ several, IsPlain p.1 p.2) ∧
    (∀ source ∈ written (";".intercalate (several.map Prod.fst)),
      compile source = .ok ⟨source, several.map Prod.snd⟩) ∧
    ∀ body : List Char, [';'].intercalate (split none false body) = body ∧
      ∀ piece ∈ split none false body, ';' ∉ unquoted .outside piece := by
  have hne : several ≠ [] := List.cons_ne_nil _ _
  exact ⟨hne, several_isPlain, compile_sequence hne several_isPlain⟩

end Handler

end LiveMarkup
