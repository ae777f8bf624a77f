import LiveMarkup.Proofs.Expr.Tokens
import LiveMarkup.Proofs.Template.Separators

/-!
# Literals

The separators know a little of what the tokens are: which characters open a text, that the same one
closes it, and that a backslash keeps the next character inside. This is enough, since a source that is
tokens throughout closes its quotes and has no semicolon outside them (`isWhole_of_lex`).
-/

namespace LiveMarkup

namespace Expr

variable {c d : Char} {rest s : List Char} {token : Token} {length : Nat}

/-! ### Tokens without quotes -/

/-- Neither a quote nor a semicolon. -/
def IsNeutral (c : Char) : Prop :=
  c ≠ '\'' ∧ c ≠ '"' ∧ c ≠ ';'

instance : Decidable (IsNeutral c) :=
  inferInstanceAs (Decidable (_ ∧ _))

theorem isNeutral_of {p : Char → Bool} (h : p '\'' = false ∧ p '"' = false ∧ p ';' = false)
    (hc : p c = true) : IsNeutral c := by
  have hne : ∀ d, p d = false → c ≠ d := by
    rintro d hd rfl
    rw [hc] at hd
    cases hd
  exact ⟨hne _ h.1, hne _ h.2.1, hne _ h.2.2⟩

theorem isNeutral_of_mem_scanNumber {state : NumberState} (h : d ∈ (scanNumber state s).1) :
    IsNeutral d := by
  induction s generalizing state with
  | nil => cases h
  | cons c s ih =>
      rw [scanNumber] at h
      split at h
      · cases h
      · rename_i hnext
        obtain rfl | hmem := List.mem_cons.mp h
        · apply isNeutral_of (p := fun d => (state.next? d s).isSome) _ (by rw [hnext]; rfl)
          cases state <;> exact ⟨rfl, rfl, rfl⟩
        · exact ih hmem

theorem isNeutral_of_number? (h : number? s = some (token, length)) :
    ∀ d ∈ s.take length, IsNeutral d := by
  have hdecimal : ∀ {s : List Char}, number?.decimal s = some (token, length) →
      ∀ d ∈ s.take length, IsNeutral d := by
    intro s h d hd
    obtain ⟨found, -, heq⟩ := Option.map_eq_some_iff.mp h
    cases heq
    rw [← List.prefix_iff_eq_take.mp (prefix_of_scanNumber _ s)] at hd
    exact isNeutral_of_mem_scanNumber hd
  unfold number? at h
  split at h
  · rename_i mark rest
    split at h
    · rename_i base hbase
      obtain ⟨found, -, heq⟩ := Option.map_eq_some_iff.mp h
      cases heq
      have hmark : IsNeutral mark :=
        isNeutral_of (p := fun c => (baseOfMark? c).isSome) ⟨rfl, rfl, rfl⟩ (by rw [hbase]; rfl)
      have hdigits : ∀ d ∈ rest.takeWhile (isBaseDigit base), IsNeutral d := by
        have hno : ∀ d, d.isDigit = false → d ≠ '_' → Markup.digitOfBase? 16 d = none →
            isBaseDigit base d = false := by
          intro d hdigit hunderscore hbase
          simp [isBaseDigit, hdigit, hunderscore, hbase]
        intro d hd
        exact isNeutral_of ⟨hno _ (by decide) (by decide) (by decide),
          hno _ (by decide) (by decide) (by decide), hno _ (by decide) (by decide) (by decide)⟩
          (List.mem_takeWhile_imp hd)
      rw [List.take_succ_cons, List.take_succ_cons, List.forall_mem_cons, List.forall_mem_cons,
        ← List.prefix_iff_eq_take.mp (List.takeWhile_prefix _)]
      exact ⟨by decide, hmark, hdigits⟩
    · exact hdecimal h
  · exact hdecimal h

theorem isNeutral_of_take (hc : IsNeutral c) (h : ∀ d ∈ (c :: rest).take length, IsNeutral d) :
    ∀ d ∈ c :: rest.take (length - 1), IsNeutral d := by
  cases length with
  | zero => simpa using hc
  | succ n => exact h

/-- A token is a text between two quotes, or it has neither a quote nor a semicolon. -/
theorem tokenAt?_cases (h : tokenAt? (c :: rest) = some (token, length)) :
    (∃ body, (c = '"' ∨ c = '\'') ∧ scanText c false rest = some body ∧ length = body.length + 2) ∨
      ∀ d ∈ c :: rest.take (length - 1), IsNeutral d := by
  rw [tokenAt?] at h
  split at h
  · rename_i hpair
    have hpairs : ∀ p ∈ pairSymbols, p.toList.all (fun d => decide (IsNeutral d)) = true := by decide
    have hneutral := hpairs _ (List.contains_iff_mem.mp hpair)
    rw [String.toList_ofList, List.all_eq_true] at hneutral
    cases h
    exact .inr fun d hd => of_decide_eq_true (hneutral d hd)
  split at h
  · rename_i hsymbol
    have hsymbols : singleSymbols.all (fun d => decide (IsNeutral d)) = true := by decide
    have hneutral := List.all_eq_true.mp hsymbols c (List.contains_iff_mem.mp hsymbol)
    cases h
    exact .inr (by simpa using hneutral)
  split at h
  · rename_i hquote
    obtain ⟨body, hbody, htext⟩ := Option.bind_eq_some_iff.mp h
    obtain ⟨text, -, heq⟩ := Option.bind_eq_some_iff.mp htext
    cases heq
    exact .inl ⟨body, hquote, hbody, rfl⟩
  split at h
  · rename_i hdigit
    have hc : IsNeutral c := isNeutral_of ⟨rfl, rfl, rfl⟩ hdigit
    exact .inr (isNeutral_of_take hc (isNeutral_of_number? h))
  split at h
  · rename_i hname
    have hc : IsNeutral c := isNeutral_of ⟨rfl, rfl, rfl⟩ hname
    cases h
    refine .inr (isNeutral_of_take hc ?_)
    rw [← List.prefix_iff_eq_take.mp (List.takeWhile_prefix _)]
    exact fun d hd => isNeutral_of ⟨rfl, rfl, rfl⟩ (List.mem_takeWhile_imp hd)
  · cases h

end Expr

namespace Handler

variable {c : Char} {s t rest : List Char}

/-! ### Whole texts -/

/-- A text that closes its quotes and has no semicolon outside them. -/
structure IsWhole (s : List Char) : Prop where
  closed : Mode.outside.behind s = .outside
  bare : ';' ∉ unquoted .outside s

theorem IsWhole.isTerminated (h : IsWhole s) : IsTerminated s := by
  rw [IsTerminated, h.closed]
  rfl

theorem IsWhole.append (hs : IsWhole s) (ht : IsWhole t) : IsWhole (s ++ t) := by
  constructor
  · rw [Mode.behind, List.foldl_append]
    exact (congrArg (Mode.behind · t) hs.closed).trans ht.closed
  · rw [unquoted_append, hs.closed, List.mem_append, not_or]
    exact ⟨hs.bare, ht.bare⟩

theorem isWhole_of_isNeutral (h : ∀ d ∈ s, Expr.IsNeutral d) : IsWhole s := by
  have hbare : IsBare s := ⟨fun hmem => (h _ hmem).1 rfl, fun hmem => (h _ hmem).2.1 rfl⟩
  exact ⟨behind_bare hbare, fun hmem => (h _ (unquoted_subset hmem)).2.2 rfl⟩

/-- Up to its closing quote a text is read in quotes. -/
theorem exists_of_scanText {quote : Char} {escaped : Bool} {body : List Char}
    (h : Expr.scanText quote escaped s = some body) :
    ∃ after, s = body ++ quote :: after ∧
      Mode.behind (some quote, escaped) body = (some quote, false) ∧
      unquoted (some quote, escaped) body = [] := by
  induction s generalizing escaped body with
  | nil => cases h
  | cons c s ih =>
      rw [Expr.scanText] at h
      split at h
      · rename_i hclose
        cases h
        have hescaped : escaped = false := by simpa using hclose.1
        rw [hclose.2, hescaped]
        exact ⟨s, rfl, rfl, rfl⟩
      · rename_i hopen
        obtain ⟨more, hmore, rfl⟩ := Option.map_eq_some_iff.mp h
        obtain ⟨after, rfl, hbehind, hunquoted⟩ := ih hmore
        have hafter : Mode.after (some quote, escaped) c = (some quote, !escaped && c = '\\') := by
          cases escaped with
          | true => rfl
          | false =>
              have hc : c ≠ quote := by simpa using hopen
              by_cases hback : c = '\\' <;> simp [Mode.after, hc, hback]
        refine ⟨after, rfl, ?_, ?_⟩
        · rw [Mode.behind, List.foldl_cons, hafter]
          exact hbehind
        · rw [unquoted, if_neg (by simp), hafter]
          exact hunquoted

theorem isWhole_text {body : List Char} (hc : c = '"' ∨ c = '\'')
    (hbehind : Mode.behind (some c, false) body = (some c, false))
    (hunquoted : unquoted (some c, false) body = []) : IsWhole (c :: (body ++ [c])) := by
  have hopen : Mode.outside.after c = (some c, false) := by
    rcases hc with rfl | rfl <;> rfl
  have hclose : Mode.after (some c, false) c = .outside := by
    rcases hc with rfl | rfl <;> rfl
  constructor
  · rw [Mode.behind, List.foldl_cons, hopen, List.foldl_append]
    exact (congrArg (Mode.after · c) hbehind).trans hclose
  · have houtside : Mode.outside.1 = none := rfl
    rw [unquoted, if_pos houtside, hopen, unquoted_append, hbehind, hunquoted]
    rcases hc with rfl | rfl <;> decide

/-- A token closes the quote that it opens. -/
theorem isWhole_of_tokenAt? {token : Expr.Token} {length : Nat}
    (h : Expr.tokenAt? (c :: rest) = some (token, length)) :
    IsWhole (c :: rest.take (length - 1)) := by
  obtain ⟨body, hc, hscan, rfl⟩ | hneutral := Expr.tokenAt?_cases h
  · obtain ⟨after, rfl, hbehind, hunquoted⟩ := exists_of_scanText hscan
    have htake : (body ++ c :: after).take (body.length + 2 - 1) = body ++ [c] := by
      simp [List.take_append]
    rw [htake]
    exact isWhole_text hc hbehind hunquoted
  · exact isWhole_of_isNeutral hneutral

/-- What is tokens throughout closes its quotes and has no semicolon outside them. -/
theorem isWhole_of_lex (h : .broken ∉ Expr.lex s) : IsWhole s := by
  induction hlength : s.length using Nat.strong_induction_on generalizing s with
  | h n ih =>
      cases s with
      | nil => exact ⟨rfl, List.not_mem_nil⟩
      | cons c rest =>
          have hless : ∀ k, (rest.drop k).length < n := by
            intro k
            rw [List.length_drop, ← hlength, List.length_cons]
            omega
          by_cases hc : Expr.isAsciiBlank c = true
          · rw [Expr.lex_blank hc] at h
            have hneutral : Expr.IsNeutral c := Expr.isNeutral_of ⟨rfl, rfl, rfl⟩ hc
            exact (isWhole_of_isNeutral (List.forall_mem_singleton.mpr hneutral)).append
              (ih _ (hless 0) h rfl)
          rw [Bool.not_eq_true] at hc
          cases htoken : Expr.tokenAt? (c :: rest) with
          | none =>
              rw [Expr.lex_broken hc htoken] at h
              exact absurd List.mem_cons_self h
          | some found =>
              obtain ⟨token, length⟩ := found
              rw [Expr.lex_token hc htoken, List.mem_cons, not_or] at h
              have hrest := ih _ (hless (length - 1)) h.2 rfl
              have hwhole := (isWhole_of_tokenAt? htoken).append hrest
              rwa [List.cons_append, List.take_append_drop] at hwhole

end Handler

end LiveMarkup
