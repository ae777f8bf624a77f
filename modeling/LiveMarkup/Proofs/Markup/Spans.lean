import LiveMarkup.Proofs.Markup.References
import LiveMarkup.Proofs.Markup.RoundTrip

/-!
Spans in texts. What a span between tags holds is read as it was written, be it tags, quotes,
references or the marks of comments, and so are the literals around the spans unless they hold a tag or
a reference.
-/

namespace LiveMarkup

namespace Markup

variable {body l raw s t rest : List Char} {c : Char}

/-! ### One span -/

/-- A mark of two equal characters begins in a text and ends behind it. -/
theorem pair_overlap {m : Char} (hs : [m, m].isPrefixOf (c :: l) = false)
    (hmark : [m, m].isPrefixOf (c :: (l ++ rest)) = true) :
    c = m ∧ l = [] ∧ rest.head? = some m := by
  rw [List.isPrefixOf_iff_prefix, List.cons_prefix_cons] at hmark
  obtain ⟨rfl, hmark⟩ := hmark
  cases l with
  | nil =>
      obtain ⟨more, rfl⟩ := hmark
      exact ⟨rfl, rfl, rfl⟩
  | cons d l =>
      rw [List.cons_append, List.cons_prefix_cons] at hmark
      simp [hmark.1] at hs

/-- The first mark behind a body may overlap it, by a brace at most. -/
theorem exists_cut_span (hbody : Text.occursIn spanClose body = false) (rest : List Char) :
    ∃ inner extra, body = inner ++ extra ∧ (extra = [] ∨ extra = ['\x7d']) ∧
      Text.cut spanClose (body ++ spanClose ++ rest) = some (inner, extra ++ rest) := by
  induction body with
  | nil => exact ⟨[], [], rfl, Or.inl rfl, by simp [Text.cut, spanClose]⟩
  | cons c body ih =>
      rw [Text.occursIn, Bool.or_eq_false_iff] at hbody
      by_cases hclose : spanClose.isPrefixOf (c :: (body ++ spanClose ++ rest)) = true
      · rw [List.append_assoc] at hclose
        obtain ⟨rfl, rfl, -⟩ := pair_overlap hbody.1 hclose
        exact ⟨[], ['\x7d'], rfl, Or.inr rfl, by simp [Text.cut, spanClose]⟩
      · obtain ⟨inner, extra, rfl, hextra, hcut⟩ := ih hbody.2
        refine ⟨c :: inner, extra, rfl, hextra, ?_⟩
        rw [List.cons_append, List.cons_append, Text.cut, if_neg hclose, hcut, Option.map_some]

theorem protect_span_of_cut {inner after : List Char}
    (hcut : Text.cut spanClose s = some (inner, after)) :
    protect (spanOpen ++ s) = spanOpen ++ inner.flatMap protectChar ++ spanClose ++ protect after := by
  have hcomment : commentOpen.isPrefixOf ('\x7b' :: '\x7b' :: s) = false :=
    isPrefixOf_of_ne (by decide) _ _
  have hopen : spanOpen.isPrefixOf ('\x7b' :: '\x7b' :: s) = true := by
    simp [spanOpen, List.isPrefixOf]
  change protect ('\x7b' :: '\x7b' :: s) = _
  rw [protect, hcomment, hopen, if_neg Bool.false_ne_true, if_neg (by decide), if_pos rfl]
  split
  · rename_i hnone
    rw [List.drop_succ_cons, List.drop_zero, hcut] at hnone
    cases hnone
  · rename_i found
    rw [List.drop_succ_cons, List.drop_zero, hcut] at found
    cases found
    rfl

/-- What a span holds is protected. -/
theorem protect_span (hbody : Text.occursIn spanClose body = false) (rest : List Char) :
    protect (spanOpen ++ body ++ spanClose ++ rest) =
      spanOpen ++ body.flatMap protectChar ++ spanClose ++ protect rest := by
  obtain ⟨inner, extra, rfl, hextra, hcut⟩ := exists_cut_span hbody rest
  rw [List.append_assoc, List.append_assoc, ← List.append_assoc (inner ++ extra),
    protect_span_of_cut hcut]
  rcases hextra with rfl | rfl
  · simp
  · have hplain : protect ('\x7d' :: rest) = '\x7d' :: protect rest :=
      protect_cons (by decide) (isPrefixOf_of_ne (by decide) _ _)
    simp [hplain, spanClose, protectChar]

/-- A literal without spans is copied up to the span behind it. A brace at its end belongs to that
span, which makes no difference. -/
theorem protect_literal_span (hl : '<' ∉ l) (hopen : Text.occursIn spanOpen l = false)
    (hbody : Text.occursIn spanClose body = false) (rest : List Char) :
    protect (l ++ (spanOpen ++ body ++ spanClose ++ rest)) =
      l ++ (spanOpen ++ body.flatMap protectChar ++ spanClose ++ protect rest) := by
  induction l with
  | nil => exact protect_span hbody rest
  | cons c l ih =>
      rw [List.mem_cons, not_or] at hl
      rw [Text.occursIn, Bool.or_eq_false_iff] at hopen
      cases hbrace : spanOpen.isPrefixOf (c :: (l ++ (spanOpen ++ body ++ spanClose ++ rest))) with
      | true =>
          obtain ⟨rfl, rfl, -⟩ := pair_overlap hopen.1 hbrace
          have hbody' : Text.occursIn spanClose ('\x7b' :: body) = false := by
            rw [Text.occursIn, hbody, Bool.or_false]
            exact isPrefixOf_of_ne (by decide) _ _
          exact protect_span hbody' rest
      | false =>
          rw [List.cons_append, List.cons_append, protect_cons (Ne.symm hl.1) hbrace,
            ih hl.2 hopen.2]

/-- A literal without spans is copied when what follows it begins with no brace. -/
theorem protect_literal (hl : '<' ∉ l) (hopen : Text.occursIn spanOpen l = false)
    (hrest : rest.head? ≠ some '\x7b') : protect (l ++ rest) = l ++ protect rest := by
  induction l with
  | nil => rfl
  | cons c l ih =>
      rw [List.mem_cons, not_or] at hl
      rw [Text.occursIn, Bool.or_eq_false_iff] at hopen
      have hbrace : spanOpen.isPrefixOf (c :: (l ++ rest)) = false :=
        Bool.eq_false_iff.mpr fun htrue => hrest (pair_overlap hopen.1 htrue).2.2
      rw [List.cons_append, List.cons_append, protect_cons (Ne.symm hl.1) hbrace, ih hl.2 hopen.2]

/-! ### References -/

theorem digitOfBase?_brace (base : Nat) : digitOfBase? base '\x7b' = none := rfl

theorem foldlM_digits_brace {base : Nat} {digits : List Char} (h : '\x7b' ∈ digits) (n : Nat) :
    digits.foldlM (fun n c => (digitOfBase? base c).map (base * n + ·)) n = none := by
  induction digits generalizing n with
  | nil => cases h
  | cons c digits ih =>
      rw [List.foldlM_cons]
      rcases List.mem_cons.mp h with rfl | h
      · rw [digitOfBase?_brace]
        rfl
      · cases digitOfBase? base c with
        | none => rfl
        | some digit => exact ih h _

theorem numberOfBase?_brace {base : Nat} {digits : List Char} (h : '\x7b' ∈ digits) :
    numberOfBase? base digits = none := by
  rw [numberOfBase?, foldlM_digits_brace h, ite_self]

/-- No reference goes on into a span. -/
theorem referenced?_brace {name : List Char} (h : '\x7b' ∈ name) : referenced? name = none := by
  unfold referenced?
  split
  · rename_i digits
    rw [numberOfBase?_brace (by simpa using h)]
    rfl
  · rename_i digits _
    rw [numberOfBase?_brace (by simpa using h)]
    rfl
  · rw [List.lookup_eq_none_iff]
    intro entry hentry
    rw [bne_iff_ne]
    rintro hname
    have hplain : ∀ entry ∈ predefined, '\x7b' ∉ entry.1.toList := by decide
    apply hplain entry hentry
    rwa [← hname, String.toList_ofList]

/-- An `&` that begins no reference begins none when a span or nothing follows its text. -/
theorem beginsReference_append (hnot : beginsReference l = false)
    (hraw : ∀ c ∈ raw.head?, c = '\x7b') : beginsReference (l ++ raw) = false := by
  by_cases hchars : ∀ c ∈ l, isNameChar c = true
  · rw [beginsReference, List.dropWhile_append_of_pos hchars, List.takeWhile_append_of_pos hchars]
    cases raw with
    | nil => rfl
    | cons c raw =>
        obtain rfl := hraw c rfl
        have htake : ('\x7b' :: raw).takeWhile isNameChar = '\x7b' :: raw.takeWhile isNameChar := rfl
        rw [htake, referenced?_brace (by simp)]
        split
        · rfl
        · rfl
  · have hne : l.dropWhile isNameChar ≠ [] := by simpa using hchars
    obtain ⟨d, after, hdrop⟩ := List.exists_cons_of_ne_nil hne
    have hlength := congrArg List.length (List.takeWhile_append_dropWhile (p := isNameChar) (l := l))
    rw [hdrop, List.length_append, List.length_cons] at hlength
    have htake : (l.takeWhile isNameChar).length ≠ l.length := by omega
    rw [beginsReference, hdrop] at hnot
    rw [beginsReference, List.dropWhile_append, List.takeWhile_append, if_neg htake, hdrop,
      List.isEmpty_cons, if_neg Bool.false_ne_true, List.cons_append]
    split
    · rename_i heq
      obtain ⟨rfl, -⟩ := List.cons.inj heq
      exact hnot
    · rfl

theorem stands_literal (hl : holdsReference l = false) (hraw : ∀ c ∈ raw.head?, c = '\x7b')
    (h : Stands raw s) : Stands (l ++ raw) (l ++ s) := by
  induction l with
  | nil => exact h
  | cons c l ih =>
      rw [holdsReference, Bool.or_eq_false_iff, Bool.and_eq_false_iff, decide_eq_false_iff_not] at hl
      by_cases hc : c = '&'
      · subst hc
        have hnot : beginsReference l = false := by simpa using hl.1
        exact .bare (beginsReference_append hnot hraw) (ih hl.2)
      · exact .plain hc (ih hl.2)

theorem stands_plain {word : List Char} (hword : '&' ∉ word) (h : Stands raw s) :
    Stands (word ++ raw) (word ++ s) := by
  induction word with
  | nil => exact h
  | cons c word ih =>
      rw [List.mem_cons, not_or] at hword
      exact .plain (Ne.symm hword.1) (ih hword.2)

/-- A protected body stands for the body. -/
theorem stands_protect (h : Stands raw s) (body : List Char) :
    Stands (body.flatMap protectChar ++ raw) (body ++ s) := by
  induction body with
  | nil => exact h
  | cons c body ih =>
      rw [List.flatMap_cons, List.append_assoc, List.cons_append]
      by_cases hlt : c = '<'
      · subst hlt
        exact .reference (show ("lt", '<') ∈ predefined by decide) ih
      by_cases hgt : c = '>'
      · subst hgt
        exact .reference (show ("gt", '>') ∈ predefined by decide) ih
      by_cases hamp : c = '&'
      · subst hamp
        exact .reference (show ("amp", '&') ∈ predefined by decide) ih
      · rw [protectChar, if_neg hlt, if_neg hgt, if_neg hamp]
        exact .plain hamp ih

theorem not_mem_protect (body : List Char) : '<' ∉ body.flatMap protectChar := by
  intro hmem
  obtain ⟨c, -, hc⟩ := List.mem_flatMap.mp hmem
  rw [protectChar] at hc
  split at hc
  · exact absurd hc (by decide)
  split at hc
  · exact absurd hc (by decide)
  split at hc
  · exact absurd hc (by decide)
  · rename_i hlt _ _
    exact hlt (List.mem_singleton.mp hc).symm

/-! ### Texts with spans -/

/-- Characters between spans that stand for themselves. -/
structure IsLiteral (l : List Char) : Prop where
  tag : '<' ∉ l
  span : Text.occursIn spanOpen l = false
  reference : holdsReference l = false

/-- A text in which literals and spans alternate. -/
inductive IsSpanned : List Char → Prop where
  | literal {l : List Char} (hl : IsLiteral l) : IsSpanned l
  | span {l body t : List Char} (hl : IsLiteral l) (hbody : Text.occursIn spanClose body = false)
    (ht : IsSpanned t) : IsSpanned (l ++ (spanOpen ++ body ++ spanClose ++ t))

/-- Protecting a text with spans leaves no tag in it, and it stands for what it was. -/
theorem IsSpanned.exists_protect (h : IsSpanned t) : ∃ raw, Stands raw t ∧ '<' ∉ raw ∧
    ∀ {rest : List Char}, rest.head? ≠ some '\x7b' → protect (t ++ rest) = raw ++ protect rest := by
  induction h with
  | @literal l hl =>
      have hstands := stands_literal hl.reference (by simp) Stands.nil
      rw [List.append_nil] at hstands
      exact ⟨l, hstands, hl.tag, protect_literal hl.tag hl.span⟩
  | @span l body t hl hbody ht ih =>
      obtain ⟨raw, hstands, htag, hprotect⟩ := ih
      refine ⟨l ++ (spanOpen ++ body.flatMap protectChar ++ spanClose ++ raw), ?_, ?_, ?_⟩
      · have hclosed := stands_plain (show '&' ∉ spanClose by decide) hstands
        have hopened := stands_plain (show '&' ∉ spanOpen by decide) (stands_protect hclosed body)
        rw [← List.append_assoc, ← List.append_assoc, ← List.append_assoc, ← List.append_assoc] at hopened
        exact stands_literal hl.reference (by simp [spanOpen]) hopened
      · have hopen : '<' ∉ spanOpen := by decide
        have hclose : '<' ∉ spanClose := by decide
        simp only [List.mem_append, not_or]
        exact ⟨hl.tag, ⟨⟨hopen, not_mem_protect body⟩, hclose⟩, htag⟩
      · intro rest hrest
        have hcopied := protect_literal_span hl.tag hl.span hbody (t ++ rest)
        rw [hprotect hrest] at hcopied
        simpa using hcopied

/-- A paragraph is read with the text that its characters stand for. -/
theorem read_paragraph_raw {m : String} (hs : s ≠ []) (hdecoded : decodeText raw = s) (hlt : '<' ∉ raw)
    (hprotect : protect m.toList =
      '<' :: ['p'] ++ '>' :: (raw ++ ('<' :: ['/', 'p'] ++ '>' :: []))) :
    read m = ⟨.node .fragment none
      [.node (.element "p" []) none [.leaf (.text (String.ofList s))]], none, none⟩ := by
  have htag : IsTag "p" := ⟨'p', [], rfl, rfl, rfl⟩
  have htext : ∀ o : Open, Reads (raw ++ ('<' :: ['/', 'p'] ++ '>' :: []))
      ('<' :: ['/', 'p'] ++ '>' :: []) o (addAll o [.leaf (.text (String.ofList s))]) :=
    fun o => reads_raw (o := o) hs hdecoded (fun c hc heq => hlt (heq ▸ hc)) (stops_lt ['/', 'p', '>'])
  have helement : Reads ('<' :: ['p'] ++ '>' :: (raw ++ ('<' :: ['/', 'p'] ++ '>' :: []))) []
      Open.start (addAll Open.start
        [.node (.element "p" []) none [.leaf (.text (String.ofList s))]]) :=
    reads_element htag (List.forall_mem_nil _) List.nodup_nil (by decide) (htext _)
  exact read_of_reads hprotect (by simp) helement

theorem read_paragraph {t : String} (hne : t ≠ "") (h : IsSpanned t.toList) :
    read ("<p>" ++ t ++ "</p>") =
      ⟨.node .fragment none [.node (.element "p" []) none [.leaf (.text t)]], none, none⟩ := by
  obtain ⟨raw, hstands, hlt, hprotected⟩ := h.exists_protect
  have hprotect : protect ("<p>" ++ t ++ "</p>").toList =
      '<' :: ['p'] ++ '>' :: (raw ++ ('<' :: ['/', 'p'] ++ '>' :: [])) := by
    have hshape : ("<p>" ++ t ++ "</p>").toList =
        '<' :: ['p'] ++ '>' :: (t.toList ++ ('<' :: ['/', 'p'] ++ '>' :: [])) := by
      simp
    have htag : IsTag "p" := ⟨'p', [], rfl, rfl, rfl⟩
    have hopen : Passes ['p'] := passes_tag htag
    have hclose : Passes ['/', 'p'] := passes_close htag
    rw [hshape, protect_tag hopen (by decide), hprotected (by decide), protect_tag hclose (by decide),
      protect]
  have hchars : t.toList ≠ [] := fun hnil => hne (String.toList_eq_nil_iff.mp hnil)
  have hread := read_paragraph_raw hchars hstands.decodeText_eq hlt hprotect
  rwa [String.ofList_toList] at hread

end Markup

/-- Every text with spans is the one text below the paragraph that it was written in, character for
character. -/
theorem Dom.parse_spans {d : Dom} {t : String} (hd : d.Valid) (hne : t ≠ "")
    (h : Markup.IsSpanned t.toList) :
    ∃ root, (d.parse ("<p>" ++ t ++ "</p>")).2 = .ok root ∧
      (d.parse ("<p>" ++ t ++ "</p>")).1.tree root =
        .node .fragment none [.node (.element "p" []) none [.leaf (.text t)]] :=
  parse_of_read hd (Markup.read_paragraph hne h)

/-- Braces before a span and at the end of one, an empty span, and references that are none. -/
def crowded : String :=
  "R&D: \x7b\x7b\x7b a < \"b\" && b > 'c' &lt; <!-- \x7b\x7b \x7d\x7d\x7d &amp \x7b\x7b\x7d\x7d"

theorem parse_spans_crowded : Dom.empty.Valid ∧ crowded ≠ "" ∧ Markup.IsSpanned crowded.toList ∧
    ∃ root, (Dom.empty.parse ("<p>" ++ crowded ++ "</p>")).2 = .ok root ∧
      (Dom.empty.parse ("<p>" ++ crowded ++ "</p>")).1.tree root =
        .node .fragment none [.node (.element "p" []) none [.leaf (.text crowded)]] := by
  have hne : crowded ≠ "" := by decide
  have hspanned : Markup.IsSpanned crowded.toList := by
    have hfirst : Markup.IsLiteral "R&D: \x7b".toList := ⟨by decide, by decide, by decide +kernel⟩
    have hsecond : Markup.IsLiteral " &amp ".toList := ⟨by decide, by decide, by decide +kernel⟩
    have hbody : Text.occursIn Markup.spanClose
        " a < \"b\" && b > 'c' &lt; <!-- \x7b\x7b \x7d".toList = false := by
      decide
    have hlast : Markup.IsLiteral [] := ⟨by decide, by decide, by decide⟩
    have hempty : Text.occursIn Markup.spanClose [] = false := by decide
    have hshape := Markup.IsSpanned.span hfirst hbody
      (Markup.IsSpanned.span hsecond hempty (Markup.IsSpanned.literal hlast))
    simpa [crowded, Markup.spanOpen, Markup.spanClose] using hshape
  exact ⟨Dom.empty_valid, hne, hspanned, Dom.parse_spans Dom.empty_valid hne hspanned⟩

end LiveMarkup
