import LiveMarkup.Proofs.Template.Statements
import LiveMarkup.Template.Interpolation

/-!
# Substitution

A text with spans evaluates by putting the values of the spans in their places. The spans of a text
are described without the loop that cuts it (`Spans`): each begins at the next opening mark and ends
at the first closing mark behind it. The loop finds exactly these (`Spans.cut_eq`), and evaluating
the parts that it leaves fills them in (`substitutes_of_compile`).
-/

namespace LiveMarkup

namespace Text

variable {mark s before after : List Char}

/-- The first `mark` in `s` stands between `before` and `after`. -/
structure FirstAt (mark s before after : List Char) : Prop where
  eq : s = before ++ mark ++ after
  le : ∀ front back, s = front ++ mark ++ back → before.length ≤ front.length

theorem exists_cut (mark front back : List Char) :
    ∃ before after, cut mark (front ++ mark ++ back) = some (before, after) := by
  induction front with
  | nil =>
      rw [List.nil_append]
      cases hs : mark ++ back with
      | nil =>
          rw [(List.append_eq_nil_iff.mp hs).1]
          exact ⟨[], [], rfl⟩
      | cons c rest =>
          have hmark : mark.isPrefixOf (c :: rest) = true :=
            List.isPrefixOf_iff_prefix.mpr ⟨back, hs⟩
          exact ⟨_, _, by rw [cut, if_pos hmark]⟩
  | cons c front ih =>
      obtain ⟨before, after, hcut⟩ := ih
      rw [List.cons_append, List.cons_append, cut]
      split
      · exact ⟨_, _, rfl⟩
      · exact ⟨_, _, by rw [hcut, Option.map_some]⟩

theorem firstAt_of_cut (h : cut mark s = some (before, after)) : FirstAt mark s before after := by
  refine ⟨append_of_cut h, ?_⟩
  induction s generalizing before with
  | nil =>
      intro front back _
      have hnil : before = [] := by
        have hlength := congrArg List.length (append_of_cut h)
        simp only [List.length_nil, List.length_append] at hlength
        exact List.length_eq_zero_iff.mp (by omega)
      simp [hnil]
  | cons c rest ih =>
      intro front back hs
      rw [cut] at h
      split at h
      · cases h
        exact Nat.zero_le _
      · rename_i hmark
        obtain ⟨⟨inner, after⟩, hcut, hpair⟩ := Option.map_eq_some_iff.mp h
        cases hpair
        cases front with
        | nil => exact absurd (List.isPrefixOf_iff_prefix.mpr ⟨back, hs.symm⟩) hmark
        | cons d front =>
            have hrest := ih hcut front back (List.cons.inj hs).2
            simpa using hrest

theorem cut_eq_some_iff : cut mark s = some (before, after) ↔ FirstAt mark s before after := by
  constructor
  · exact firstAt_of_cut
  · intro h
    obtain ⟨front, back, hcut⟩ := exists_cut mark before after
    rw [← h.eq] at hcut
    have hfirst := firstAt_of_cut hcut
    have hlength : front.length = before.length :=
      Nat.le_antisymm (hfirst.le _ _ h.eq) (h.le _ _ hfirst.eq)
    have hsame := hfirst.eq.symm.trans h.eq
    obtain ⟨hfront, hback⟩ := List.append_inj hsame (by simp [hlength])
    rw [hcut, (List.append_inj hfront hlength).1, hback]

theorem ne_of_cut_eq_none (h : cut mark s = none) (front back : List Char) :
    s ≠ front ++ mark ++ back := by
  rintro rfl
  obtain ⟨before, after, hcut⟩ := exists_cut mark front back
  rw [hcut] at h
  cases h

end Text

namespace Interpolation

open Markup (spanOpen spanClose)
open Text (FirstAt)

variable {s before body inside after tail : List Char} {found : List (List Char × List Char)}
  {source location : String} {i : Interpolation} {scope : Scope} {parts : List Part}
  {p : List Char × List Char}

/-! ### The spans of a text -/

/-- The spans of a text from left to right, each behind the text before it, and the text after the
last one. An opening mark that is never closed begins no span. -/
inductive Spans : List Char → List (List Char × List Char) → List Char → Prop where
  | rest {s : List Char} :
      (∀ before body after, s ≠ before ++ spanOpen ++ body ++ spanClose ++ after) → Spans s [] s
  | span {s before inside body after tail : List Char} {found : List (List Char × List Char)} :
      FirstAt spanOpen s before inside → FirstAt spanClose inside body after →
        Spans after found tail → Spans s ((before, body) :: found) tail

/-- The text with other texts in the places of its spans. -/
def fill : List (List Char × List Char) → List (List Char) → List Char → List Char
  | (before, _) :: found, text :: texts, tail => before ++ text ++ fill found texts tail
  | _, _, tail => tail

/-- The text of a span. -/
def marked (p : List Char × List Char) : List Char :=
  spanOpen ++ p.2 ++ spanClose

/-- With its spans in their places a text is what it was. -/
theorem Spans.fill_eq (h : Spans s found tail) : fill found (found.map marked) tail = s := by
  induction h with
  | rest _ => rfl
  | @span s before inside body after tail found hopen hclose _ ih =>
      calc before ++ (spanOpen ++ body ++ spanClose) ++ fill found (found.map marked) tail
          = before ++ spanOpen ++ (body ++ spanClose ++ fill found (found.map marked) tail) := by
            simp only [List.append_assoc]
        _ = s := by rw [ih, ← hclose.eq, ← hopen.eq]

def pieces (found : List (List Char × List Char)) (tail : List Char) : List Piece :=
  found.flatMap (fun p => Piece.literals p.1 ++ [.span p.2]) ++ Piece.literals tail

theorem pieces_cons (before body : List Char) (found : List (List Char × List Char))
    (tail : List Char) : pieces ((before, body) :: found) tail =
      Piece.literals before ++ .span body :: pieces found tail := by
  simp [pieces]

theorem Spans.cut_eq (h : Spans s found tail) : Piece.cut s = pieces found tail := by
  induction h with
  | @rest s hnone =>
      rw [Piece.cut]
      split
      · rfl
      · rename_i before inside hopen
        split
        · rfl
        · rename_i body after hclose
          refine absurd ?_ (hnone before body after)
          rw [Text.append_of_cut hopen, Text.append_of_cut hclose]
          simp only [List.append_assoc]
  | @span s before inside body after tail found hopen hclose _ ih =>
      have hopen := Text.cut_eq_some_iff.mpr hopen
      have hclose := Text.cut_eq_some_iff.mpr hclose
      rw [Piece.cut, pieces_cons, ← ih]
      split
      · rename_i hnone
        rw [hopen] at hnone
        cases hnone
      · rename_i hsome
        rw [hopen] at hsome
        cases hsome
        split
        · rename_i hnone
          rw [hclose] at hnone
          cases hnone
        · rename_i hsome
          rw [hclose] at hsome
          cases hsome
          rfl

/-- Where the first opening mark is not closed, no other one is. -/
theorem ne_of_not_closed (hopen : FirstAt spanOpen s before inside)
    (hclose : Text.cut spanClose inside = none) (front body back : List Char) :
    s ≠ front ++ spanOpen ++ body ++ spanClose ++ back := by
  intro hs
  have hfirst : before.length ≤ front.length :=
    hopen.le front (body ++ spanClose ++ back) (by rw [hs]; simp only [List.append_assoc])
  have hshort : (before ++ spanOpen).length ≤ (front ++ spanOpen ++ body).length := by
    simp only [List.length_append]
    omega
  have hprefix : before ++ spanOpen <+: s := ⟨inside, hopen.eq.symm⟩
  have hlonger : front ++ spanOpen ++ body <+: s :=
    ⟨spanClose ++ back, by rw [hs]; simp only [List.append_assoc]⟩
  obtain ⟨mid, hmid⟩ := List.prefix_of_prefix_length_le hprefix hlonger hshort
  have hinside : before ++ spanOpen ++ inside =
      before ++ spanOpen ++ (mid ++ spanClose ++ back) := by
    calc before ++ spanOpen ++ inside
        = front ++ spanOpen ++ body ++ spanClose ++ back := hopen.eq.symm.trans hs
      _ = before ++ spanOpen ++ (mid ++ spanClose ++ back) := by
          rw [← hmid]
          simp only [List.append_assoc]
  exact Text.ne_of_cut_eq_none hclose mid back (List.append_cancel_left hinside)

theorem exists_spans (s : List Char) : ∃ found tail, Spans s found tail := by
  fun_induction Piece.cut s with
  | case1 s hopen =>
      refine ⟨[], s, .rest fun before body after hs => ?_⟩
      refine Text.ne_of_cut_eq_none hopen before (body ++ spanClose ++ after) ?_
      rw [hs]
      simp only [List.append_assoc]
  | case2 s before inside hopen hclose =>
      exact ⟨[], s, .rest (ne_of_not_closed (Text.firstAt_of_cut hopen) hclose)⟩
  | case3 s before inside hopen body after hclose _ _ ih =>
      obtain ⟨found, tail, hspans⟩ := ih
      exact ⟨_, tail, .span (Text.firstAt_of_cut hopen) (Text.firstAt_of_cut hclose) hspans⟩

/-! ### The parts of a text -/

def literalParts (s : List Char) : List Part :=
  if s.isEmpty then [] else [.literal (String.ofList s)]

/-- The expressions in their places between the literal texts. -/
def layParts : List (List Char × List Char) → List Expr.Term → List Char → List Part
  | (before, body) :: found, e :: es, tail =>
    literalParts before ++
      .expression (String.ofList (Text.trim body)) e :: layParts found es tail
  | _, _, tail => literalParts tail

/-- `e` is the expression in the span `p`, without the blanks around it. -/
def Holds (p : List Char × List Char) (e : Expr.Term) : Prop :=
  Expr.read? (String.ofList (Text.trim p.2)) = some e

theorem readPart_spec {part : Part} (h : readPart location p.2 = .ok part) :
    ∃ e, Holds p e ∧ part = .expression (String.ofList (Text.trim p.2)) e := by
  rw [readPart] at h
  split at h
  · rename_i e hread
    cases h
    exact ⟨e, hread, rfl⟩
  · cases h

theorem exists_of_literals {more : List Piece}
    (h : List.Forall₂ (fun piece part => ofPiece location piece = .ok part)
      (Piece.literals s ++ more) parts) :
    ∃ rest, parts = literalParts s ++ rest ∧
      List.Forall₂ (fun piece part => ofPiece location piece = .ok part) more rest := by
  rw [Piece.literals] at h
  rw [literalParts]
  split at h
  · rename_i hs
    exact ⟨parts, by rw [if_pos hs, List.nil_append], h⟩
  · rename_i hs
    obtain ⟨part, rest, hpart, hrest, rfl⟩ := List.forall₂_cons_left_iff.mp h
    cases hpart
    exact ⟨rest, by rw [if_neg hs, List.singleton_append], hrest⟩

theorem exists_layParts (h : (pieces found tail).mapM (ofPiece location) = .ok parts) :
    ∃ es, List.Forall₂ Holds found es ∧ parts = layParts found es tail := by
  rw [Handler.mapM_eq_ok_iff] at h
  induction found generalizing parts with
  | nil =>
      rw [pieces, List.flatMap_nil, List.nil_append, ← List.append_nil (Piece.literals tail)] at h
      obtain ⟨rest, rfl, hrest⟩ := exists_of_literals h
      cases hrest
      exact ⟨[], .nil, List.append_nil _⟩
  | cons p found ih =>
      rw [pieces_cons] at h
      obtain ⟨rest, rfl, hrest⟩ := exists_of_literals h
      obtain ⟨part, more, hpart, hmore, rfl⟩ := List.forall₂_cons_left_iff.mp hrest
      obtain ⟨e, he, rfl⟩ := readPart_spec hpart
      obtain ⟨es, hes, rfl⟩ := ih hmore
      exact ⟨e :: es, .cons he hes, rfl⟩

theorem literalParts_append_eq {more : List Part} {e : Expr.Term}
    (h : literalParts s ++ more = [.expression source e]) :
    s = [] ∧ more = [.expression source e] := by
  rw [literalParts] at h
  split at h
  · rename_i hs
    exact ⟨List.isEmpty_iff.mp hs, h⟩
  · cases h

theorem layParts_eq_nil {es : List Expr.Term} (hes : List.Forall₂ Holds found es)
    (h : layParts found es tail = []) : found = [] ∧ tail = [] := by
  cases hes with
  | nil =>
      have htail : literalParts tail = [] := h
      rw [literalParts] at htail
      split at htail
      · rename_i hempty
        exact ⟨rfl, List.isEmpty_iff.mp hempty⟩
      · cases htail
  | cons _ _ =>
      have hmem := (List.append_eq_nil_iff.mp h).2
      cases hmem

/-- Only a text that is one span leaves nothing but an expression. -/
theorem lone_of_layParts {es : List Expr.Term} {e : Expr.Term} (hes : List.Forall₂ Holds found es)
    (h : layParts found es tail = [.expression source e]) :
    ∃ body, (found, tail) = ([([], body)], []) := by
  cases hes with
  | nil =>
      have hs : literalParts tail ++ [] = [.expression source e] := (List.append_nil _).trans h
      have hnil := (literalParts_append_eq hs).2
      cases hnil
  | @cons p e' found es _ hes =>
      obtain ⟨before, body⟩ := p
      obtain ⟨rfl, hrest⟩ := literalParts_append_eq h
      obtain ⟨rfl, rfl⟩ := layParts_eq_nil hes (List.cons.inj hrest).2
      exact ⟨body, rfl⟩

/-! ### The values of spans -/

/-- The expression in the span `p` comes to a value or fails. -/
def Yields (scope : Scope) (p : List Char × List Char)
    (result : Except Expr.EvalError Expr.Value) : Prop :=
  ∃ e, Holds p e ∧ Expr.eval scope.lookup e = result

theorem yields_iff {e : Expr.Term} {result : Except Expr.EvalError Expr.Value} (he : Holds p e) :
    Yields scope p result ↔ Expr.eval scope.lookup e = result := by
  constructor
  · rintro ⟨e', he', hresult⟩
    have hsame : e' = e := Option.some.inj (he'.symm.trans he)
    rw [← hsame, hresult]
  · exact fun h => ⟨e, he, h⟩

theorem exists_yields {es : List Expr.Term} (hes : List.Forall₂ Holds found es) (hp : p ∈ found) :
    ∃ result, Yields scope p result := by
  induction hes with
  | nil => cases hp
  | @cons q e found es he _ ih =>
      obtain rfl | hp := List.mem_cons.mp hp
      · exact ⟨_, e, he, rfl⟩
      · exact ih hp

/-- What stands for a value among other text. -/
def replacement : Expr.Value → List Char
  | .undefined | .none | .bool _ => []
  | v => v.display.toList

theorem joined_eq (v : Expr.Value) : (joined v).1 = String.ofList (replacement v) ∧
    ((joined v).2 = true ↔ v = .bool true) := by
  cases v <;> simp [joined, replacement]

theorem evalParts_literalParts (s : List Char) (parts : List Part) :
    evalParts scope (literalParts s ++ parts) =
      (evalParts scope parts).map fun r => (String.ofList s ++ r.1, r.2) := by
  rw [literalParts]
  split
  · rename_i hs
    rw [List.isEmpty_iff.mp hs, List.nil_append]
    cases evalParts scope parts <;> simp [Except.map]
  · rw [List.singleton_append, evalParts]
    cases evalParts scope parts <;> rfl

/-- The values of all spans are put in their places. -/
theorem evalParts_layParts {es : List Expr.Term} {values : List Expr.Value}
    (hes : List.Forall₂ Holds found es)
    (hvalues : List.Forall₂ (fun p v => Yields scope p (.ok v)) found values) (tail : List Char) :
    ∃ sawTrue, evalParts scope (layParts found es tail) =
        .ok (String.ofList (fill found (values.map replacement) tail), sawTrue) ∧
      (sawTrue = true ↔ .bool true ∈ values) := by
  induction hes generalizing values with
  | nil =>
      cases hvalues
      refine ⟨false, ?_, by simp⟩
      calc evalParts scope (literalParts tail)
          = (evalParts scope []).map fun r => (String.ofList tail ++ r.1, r.2) := by
            rw [← evalParts_literalParts, List.append_nil]
        _ = .ok (String.ofList tail, false) := by
            rw [evalParts, Except.map, String.append_empty]
  | @cons p e found es he _ ih =>
      obtain ⟨before, body⟩ := p
      obtain ⟨v, values, hv, hrest, rfl⟩ := List.forall₂_cons_left_iff.mp hvalues
      obtain ⟨sawTrue, heval, hsaw⟩ := ih hrest
      obtain ⟨htext, htrue⟩ := joined_eq v
      refine ⟨(joined v).2 || sawTrue, ?_, ?_⟩
      · rw [layParts, evalParts_literalParts, evalParts, (yields_iff he).mp hv, heval,
          List.map_cons, fill, String.ofList_append, String.ofList_append, ← htext,
          String.append_assoc]
        rfl
      · rw [Bool.or_eq_true, htrue, hsaw, List.mem_cons, eq_comm]

theorem evalParts_of_error {es : List Expr.Term} {error : Expr.EvalError}
    (hes : List.Forall₂ Holds found es) (hp : p ∈ found) (herror : Yields scope p (.error error)) :
    ∃ error, evalParts scope (layParts found es tail) = .error error := by
  induction hes with
  | nil => cases hp
  | @cons q e found es he _ ih =>
      obtain ⟨before, body⟩ := q
      rw [layParts, evalParts_literalParts, evalParts]
      cases hfirst : Expr.eval scope.lookup e with
      | error error => exact ⟨error, rfl⟩
      | ok v =>
          obtain rfl | hp := List.mem_cons.mp hp
          · rw [yields_iff he, hfirst] at herror
            cases herror
          · obtain ⟨error, hrest⟩ := ih hp
            exact ⟨error, by rw [hrest]; rfl⟩

theorem exists_values {es : List Expr.Term} (hes : List.Forall₂ Holds found es)
    (h : ∀ p ∈ found, ∀ error, ¬ Yields scope p (.error error)) :
    ∃ values, List.Forall₂ (fun p v => Yields scope p (.ok v)) found values := by
  induction hes with
  | nil => exact ⟨[], .nil⟩
  | @cons p e found es he _ ih =>
      obtain ⟨values, hvalues⟩ := ih fun p hp => h p (List.mem_cons_of_mem _ hp)
      cases hv : Expr.eval scope.lookup e with
      | error error => exact absurd ⟨e, he, hv⟩ (h p List.mem_cons_self error)
      | ok v => exact ⟨v :: values, .cons ⟨e, he, hv⟩ hvalues⟩

theorem evalParts_fails_iff {es : List Expr.Term} (hes : List.Forall₂ Holds found es) :
    (∃ error, evalParts scope (layParts found es tail) = .error error) ↔
      ∃ p ∈ found, ∃ error, Yields scope p (.error error) := by
  constructor
  · rintro ⟨error, herror⟩
    by_contra hnone
    push Not at hnone
    obtain ⟨values, hvalues⟩ := exists_values hes hnone
    obtain ⟨_, hgives, _⟩ := evalParts_layParts hes hvalues tail
    rw [hgives] at herror
    cases herror
  · rintro ⟨p, hp, error, herror⟩
    exact evalParts_of_error hes hp herror

/-! ### Outcomes -/

/-- The outcome of a text that is one span. -/
inductive Lone (v : Expr.Value) : Outcome → Prop where
  | untrue : v.isTrue = false → Lone v .falsy
  | true : v = .bool .true → Lone v .true
  | text : v.isTrue = .true → v ≠ .bool .true → Lone v (.text v.display)

/-- The outcome of a text in which values were filled in. -/
inductive Joined (filled : List Char) (values : List Expr.Value) : Outcome → Prop where
  | text : filled ≠ [] → Joined filled values (.text (String.ofList filled))
  | true : filled = [] → .bool .true ∈ values → Joined filled values .true
  | falsy : filled = [] → .bool .true ∉ values → Joined filled values .falsy

theorem lone_ofValue (v : Expr.Value) : Lone v (ofValue v) := by
  unfold ofValue
  split
  · rename_i hv
    exact .untrue (by simpa using hv)
  · rename_i hv
    have htrue : v.isTrue = true := by simpa using hv
    split
    · rename_i b
      have hb : b = true := htrue
      exact .true (by rw [hb])
    · rename_i hne
      exact .text htrue (hne true)

theorem evaluate_of_lone {e : Expr.Term} (hparts : i.parts = [.expression source e]) :
    i.evaluate scope = (Expr.eval scope.lookup e).map ofValue := by
  rw [evaluate, hparts]

/-- The outcome of a text with values filled in and whether one of them is true. -/
def ofJoined (r : String × Bool) : Outcome :=
  if !r.1.isEmpty then .text r.1 else if r.2 then .true else .falsy

theorem evaluate_of_joined (hparts : ∀ source e, i.parts ≠ [.expression source e]) :
    i.evaluate scope = (evalParts scope i.parts).map ofJoined := by
  rw [evaluate]
  split
  · rename_i hlone
    exact absurd hlone (hparts _ _)
  · cases evalParts scope i.parts <;> rfl

theorem joined_ofJoined {filled : List Char} {values : List Expr.Value} {sawTrue : Bool}
    (hsaw : sawTrue = true ↔ .bool true ∈ values) :
    Joined filled values (ofJoined (String.ofList filled, sawTrue)) := by
  rw [ofJoined]
  split
  · rename_i hfilled
    exact .text fun hnil => by simp [hnil] at hfilled
  · rename_i hfilled
    have hnil : filled = [] := by simpa using hfilled
    split
    · rename_i htrue
      exact .true hnil (hsaw.mp htrue)
    · rename_i htrue
      exact .falsy hnil (mt hsaw.mpr htrue)

/-- Evaluating `i` puts the values of the spans of `s` in their places. -/
structure Substitutes (i : Interpolation) (s : List Char) : Prop where
  spans : ∃ found tail, Spans s found tail
  restored : ∀ found tail, Spans s found tail → fill found (found.map marked) tail = s
  readable : ∀ found tail, Spans s found tail → ∀ scope, ∀ p ∈ found,
    ∃ result, Yields scope p result
  lone_fails : ∀ body, Spans s [([], body)] [] → ∀ scope,
    (∃ error, i.evaluate scope = .error error) ↔ ∃ error, Yields scope ([], body) (.error error)
  lone : ∀ body, Spans s [([], body)] [] → ∀ scope v, Yields scope ([], body) (.ok v) →
    ∃ outcome, i.evaluate scope = .ok outcome ∧ Lone v outcome
  joined_fails : ∀ found tail, Spans s found tail → (∀ body, (found, tail) ≠ ([([], body)], [])) →
    ∀ scope, (∃ error, i.evaluate scope = .error error) ↔
      ∃ p ∈ found, ∃ error, Yields scope p (.error error)
  joined : ∀ found tail, Spans s found tail → (∀ body, (found, tail) ≠ ([([], body)], [])) →
    ∀ scope values, List.Forall₂ (fun p v => Yields scope p (.ok v)) found values →
      ∃ outcome, i.evaluate scope = .ok outcome ∧
        Joined (fill found (values.map replacement) tail) values outcome

theorem exists_error_map {α β ε : Type} {f : α → β} {r : Except ε α} :
    (∃ error, r.map f = .error error) ↔ ∃ error, r = .error error := by
  cases r <;> simp [Except.map]

/-- What the compiled text is made of. -/
theorem exists_parts_of_compile (h : compile source = .ok i)
    (hspans : Spans (Text.trim source.toList) found tail) :
    ∃ es, List.Forall₂ Holds found es ∧ i.parts = layParts found es tail := by
  rw [compile, hspans.cut_eq] at h
  cases hparts : (pieces found tail).mapM (ofPiece source) with
  | error error =>
      rw [hparts] at h
      cases h
  | ok parts =>
      rw [hparts] at h
      cases h
      exact exists_layParts hparts

theorem exists_lone_of_compile (h : compile source = .ok i)
    (hspans : Spans (Text.trim source.toList) [([], body)] []) :
    ∃ e, Holds ([], body) e ∧ ∃ source, i.parts = [.expression source e] := by
  obtain ⟨es, hes, hparts⟩ := exists_parts_of_compile h hspans
  obtain ⟨e, rest, he, hrest, rfl⟩ := List.forall₂_cons_left_iff.mp hes
  cases hrest
  exact ⟨e, he, _, hparts⟩

theorem joined_of_compile (h : compile source = .ok i)
    (hspans : Spans (Text.trim source.toList) found tail)
    (hjoined : ∀ body, (found, tail) ≠ ([([], body)], [])) :
    ∃ es, List.Forall₂ Holds found es ∧
      ∀ scope, i.evaluate scope = (evalParts scope (layParts found es tail)).map ofJoined := by
  obtain ⟨es, hes, hparts⟩ := exists_parts_of_compile h hspans
  refine ⟨es, hes, fun scope => ?_⟩
  rw [← hparts]
  apply evaluate_of_joined
  intro source e hlone
  obtain ⟨body, hbody⟩ := lone_of_layParts hes (hparts.symm.trans hlone)
  exact hjoined body hbody

theorem substitutes_of_compile (h : compile source = .ok i) :
    i.Substitutes (Text.trim source.toList) where
  spans := exists_spans _
  restored := fun _ _ hspans => hspans.fill_eq
  readable := by
    intro found tail hspans scope p hp
    obtain ⟨es, hes, _⟩ := exists_parts_of_compile h hspans
    exact exists_yields hes hp
  lone_fails := by
    intro body hspans scope
    obtain ⟨e, he, source, hparts⟩ := exists_lone_of_compile h hspans
    simp only [yields_iff he, evaluate_of_lone hparts]
    exact exists_error_map
  lone := by
    intro body hspans scope v hv
    obtain ⟨e, he, source, hparts⟩ := exists_lone_of_compile h hspans
    rw [yields_iff he] at hv
    exact ⟨ofValue v, by rw [evaluate_of_lone hparts, hv, Except.map], lone_ofValue v⟩
  joined_fails := by
    intro found tail hspans hjoined scope
    obtain ⟨es, hes, heval⟩ := joined_of_compile h hspans hjoined
    rw [heval, exists_error_map]
    exact evalParts_fails_iff hes
  joined := by
    intro found tail hspans hjoined scope values hvalues
    obtain ⟨es, hes, heval⟩ := joined_of_compile h hspans hjoined
    obtain ⟨sawTrue, hgives, hsaw⟩ := evalParts_layParts hes hvalues tail
    exact ⟨_, by rw [heval, hgives, Except.map], joined_ofJoined hsaw⟩

/-- Two spans that touch, and a mark that is never closed. -/
def touching : String :=
  " a\x7b\x7b 1 \x7d\x7d\x7b\x7b true \x7d\x7d \x7b\x7b b "

theorem touching_substitutes : ∃ i, compile touching = .ok i ∧
    i.Substitutes (Text.trim touching.toList) ∧
      (i.evaluate []).toOption = some (.text "a1 \x7b\x7b b") := by
  have houtcome : ((compile touching).toOption.bind fun i => (i.evaluate []).toOption) =
      some (.text "a1 \x7b\x7b b") := by decide +kernel
  cases hi : compile touching with
  | error error =>
      rw [hi] at houtcome
      cases houtcome
  | ok i =>
      rw [hi] at houtcome
      exact ⟨i, rfl, substitutes_of_compile hi, houtcome⟩

end Interpolation

end LiveMarkup
