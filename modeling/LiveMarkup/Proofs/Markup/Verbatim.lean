import LiveMarkup.Proofs.Markup.RoundTrip

/-!
Comments and verbatim texts. A comment is read as it was written. A verbatim text is one text, which
differs from what was written only in spans behind a `>` outside quotes: there the search for spans
takes the text for one between tags.
-/

namespace LiveMarkup

namespace Markup

variable {body s t w rest : List Char} {c : Char}

/-! ### Protected texts -/

/-- `t` is `s` with some of its spans protected. -/
inductive Guarded : List Char → List Char → Prop where
  | nil : Guarded [] []
  | plain (c : Char) {s t : List Char} (h : Guarded s t) : Guarded (c :: s) (c :: t)
  | span (body : List Char) {s t : List Char} (h : Guarded s t) :
    Guarded (spanOpen ++ body ++ spanClose ++ s)
      (spanOpen ++ body.flatMap protectChar ++ spanClose ++ t)

namespace Guarded

theorem append (p : List Char) (h : Guarded s t) : Guarded (p ++ s) (p ++ t) := by
  induction p with
  | nil => exact h
  | cons c p ih => exact .plain c ih

theorem refl (s : List Char) : Guarded s s := by
  have h := Guarded.nil.append s
  rwa [List.append_nil] at h

/-- Without spans there is nothing to protect. -/
theorem eq_of_not_span (h : Guarded s t) (hs : Text.occursIn spanOpen s = false) : t = s := by
  induction h with
  | nil => rfl
  | plain c _ ih =>
      rw [Text.occursIn, Bool.or_eq_false_iff] at hs
      rw [ih hs.2]
  | span body _ _ =>
      simp [Text.occursIn, spanOpen, List.isPrefixOf] at hs

end Guarded

/-- `t` is `s` with some of its characters written as references. -/
inductive Escapes : List Char → List Char → Prop where
  | nil : Escapes [] []
  | plain (c : Char) {s t : List Char} (h : Escapes s t) : Escapes (c :: s) (c :: t)
  | reference {name : List Char} (c : Char) {s t : List Char} (hname : ']' ∉ name)
    (h : Escapes s t) : Escapes (c :: s) ('&' :: name ++ t)

theorem Escapes.protect (h : Escapes s t) (body : List Char) :
    Escapes (body ++ s) (body.flatMap protectChar ++ t) := by
  induction body with
  | nil => exact h
  | cons c body ih =>
      rw [List.flatMap_cons, List.append_assoc, List.cons_append, protectChar]
      split
      · exact .reference c (show ']' ∉ "lt;".toList by decide) ih
      split
      · exact .reference c (show ']' ∉ "gt;".toList by decide) ih
      split
      · exact .reference c (show ']' ∉ "amp;".toList by decide) ih
      · exact .plain c ih

theorem Guarded.escapes (h : Guarded s t) : Escapes s t := by
  induction h with
  | nil => exact .nil
  | plain c _ ih => exact .plain c ih
  | span body _ ih =>
      have hclosed := (ih.plain '\x7d').plain '\x7d'
      simpa [spanOpen, spanClose] using ((hclosed.protect body).plain '\x7b').plain '\x7b'

theorem Escapes.begins (h : Escapes s t) (hw : '&' ∉ w) (hfront : w <+: t) : w <+: s := by
  induction w generalizing s t with
  | nil => exact List.nil_prefix
  | cons x w ih =>
      rw [List.mem_cons, not_or] at hw
      cases h with
      | nil => exact hfront
      | plain c h =>
          rw [List.cons_prefix_cons] at hfront ⊢
          exact ⟨hfront.1, ih h hw.2 hfront.2⟩
      | reference c hname h =>
          rw [List.cons_append, List.cons_prefix_cons] at hfront
          exact absurd hfront.1.symm hw.1

theorem occursIn_append_of_not_mem {m : Char} {mark p : List Char} (hp : m ∉ p) :
    Text.occursIn (m :: mark) (p ++ s) = Text.occursIn (m :: mark) s := by
  induction p with
  | nil => rfl
  | cons c p ih =>
      rw [List.mem_cons, not_or] at hp
      rw [List.cons_append, Text.occursIn, isPrefixOf_of_ne hp.1, Bool.false_or, ih hp.2]

/-- References make no end of a verbatim text. -/
theorem Escapes.occursIn_eq_false (h : Escapes s t) (hs : Text.occursIn verbatimClose s = false) :
    Text.occursIn verbatimClose t = false := by
  induction h with
  | nil => exact hs
  | @plain c s t h ih =>
      rw [Text.occursIn, Bool.or_eq_false_iff] at hs ⊢
      refine ⟨?_, ih hs.2⟩
      rw [Bool.eq_false_iff, Ne, List.isPrefixOf_iff_prefix] at hs ⊢
      exact fun hfront => hs.1 ((h.plain c).begins (by decide) hfront)
  | @reference name c s t hname h ih =>
      rw [Text.occursIn, Bool.or_eq_false_iff] at hs
      have hnot : ']' ∉ '&' :: name := by simpa using hname
      exact (occursIn_append_of_not_mem hnot).trans (ih hs.2)

/-! ### Protecting a verbatim text -/

/-- What is done at one place of a text: the rest is copied, a tag or a comment is, a span is
protected or a character is copied. -/
theorem protect_cases (c : Char) (rest : List Char) :
    protect (c :: rest) = c :: rest ∨
      (∃ p after, c :: rest = p ++ '>' :: after ∧ protect (c :: rest) = p ++ '>' :: protect after) ∨
      (∃ body after, c :: rest = spanOpen ++ body ++ spanClose ++ after ∧
        protect (c :: rest) =
          spanOpen ++ body.flatMap protectChar ++ spanClose ++ protect after) ∨
      protect (c :: rest) = c :: protect rest := by
  obtain ⟨out, hout⟩ : ∃ out, protect (c :: rest) = out := ⟨_, rfl⟩
  rw [hout]
  rw [protect] at hout
  split at hout
  · rename_i hcomment
    obtain ⟨r, hr⟩ := List.isPrefixOf_iff_prefix.mp hcomment
    have hshape : commentOpen ++ r = '<' :: '!' :: '-' :: '-' :: r := by simp [commentOpen]
    rw [hshape] at hr
    obtain ⟨rfl, rfl⟩ := List.cons.inj hr
    split at hout
    · exact Or.inl hout.symm
    · rename_i body after hcut
      have happend : r = body ++ commentClose ++ after := Text.append_of_cut hcut
      refine Or.inr (Or.inl ⟨commentOpen ++ body ++ ['-', '-'], after, ?_, ?_⟩)
      · rw [happend]
        simp [commentOpen, commentClose]
      · rw [← hout]
        simp [commentClose]
  split at hout
  · rename_i hlt
    subst hlt
    split at hout
    · exact Or.inl hout.symm
    · rename_i tag after hsplit
      refine Or.inr (Or.inl ⟨'<' :: tag, after, ?_, hout.symm⟩)
      rw [append_of_splitTag? hsplit, List.cons_append]
  split at hout
  · rename_i hspan
    obtain ⟨r, hr⟩ := List.isPrefixOf_iff_prefix.mp hspan
    obtain ⟨rfl, rfl⟩ := List.cons.inj hr
    split at hout
    · exact Or.inl hout.symm
    · rename_i body after hcut
      have happend : r = body ++ spanClose ++ after := Text.append_of_cut hcut
      refine Or.inr (Or.inr (Or.inl ⟨body, after, ?_, hout.symm⟩))
      rw [happend]
      simp [spanOpen]
  · exact Or.inr (Or.inr (Or.inr hout.symm))

/-- What begins in a verbatim text and does not end with a bracket ends before the end of that text or
with it. -/
theorem append_close_cases {p after : List Char} (hc : c ≠ ']')
    (h : s ++ verbatimClose = p ++ c :: after) :
    (∃ rest, s = p ++ c :: rest ∧ after = rest ++ verbatimClose) ∨
      (c = '>' ∧ after = [] ∧ p ++ [c] = s ++ verbatimClose) := by
  have hclose : verbatimClose = [']', ']', '>'] := by simp [verbatimClose]
  rcases List.append_eq_append_iff.mp h with ⟨extra, rfl, hextra⟩ | ⟨extra, rfl, hextra⟩
  · -- `p` reaches into the mark.
    rw [hclose] at hextra
    rcases extra with _ | ⟨a, _ | ⟨b, _ | ⟨e, extra⟩⟩⟩
    · exact absurd (List.cons.inj hextra).1.symm hc
    · exact absurd (List.cons.inj (List.cons.inj hextra).2).1.symm hc
    · simp only [List.cons_append, List.nil_append, List.cons.injEq] at hextra
      obtain ⟨rfl, rfl, rfl, rfl⟩ := hextra
      exact Or.inr ⟨rfl, rfl, by simp [hclose]⟩
    · simp at hextra
  · cases extra with
    | nil =>
        rw [hclose] at hextra
        exact absurd (List.cons.inj hextra).1 hc
    | cons a extra =>
        obtain ⟨rfl, rfl⟩ := List.cons.inj hextra
        exact Or.inl ⟨extra, rfl, rfl⟩

/-- The mark at the end of a verbatim text stays, and the text before it is protected. -/
theorem exists_guarded (s : List Char) :
    ∃ t, Guarded s t ∧ protect (s ++ verbatimClose) = t ++ verbatimClose := by
  induction hlength : s.length using Nat.strong_induction_on generalizing s with
  | h length ih =>
      cases s with
      | nil =>
          refine ⟨[], .nil, ?_⟩
          have hplain := protect_plain (p := verbatimClose) (by simp [verbatimClose]) []
          rwa [List.append_nil, protect, List.append_nil] at hplain
      | cons c rest =>
          have hcopied : protect (c :: rest ++ verbatimClose) = c :: rest ++ verbatimClose →
              ∃ t, Guarded (c :: rest) t ∧
                protect (c :: rest ++ verbatimClose) = t ++ verbatimClose :=
            fun heq => ⟨c :: rest, .refl _, heq⟩
          have hcases := protect_cases c (rest ++ verbatimClose)
          rw [← List.cons_append] at hcases
          rcases hcases with hall | ⟨p, after, hs, hprotect⟩ | ⟨body, after, hs, hprotect⟩ | hchar
          · exact hcopied hall
          · rcases append_close_cases (show '>' ≠ ']' by decide) hs with
              ⟨rest', hs', rfl⟩ | ⟨-, rfl, hs'⟩
            · have hshorter : rest'.length < length := by
                rw [← hlength, hs', List.length_append, List.length_cons]
                omega
              obtain ⟨t, ht, hrest⟩ := ih rest'.length hshorter rest' rfl
              refine ⟨p ++ ['>'] ++ t, ?_, ?_⟩
              · rw [hs', List.append_cons]
                exact ht.append _
              · rw [hprotect, hrest]
                simp
            · refine hcopied ?_
              rw [hprotect, protect, hs']
          · have hs' : c :: rest ++ verbatimClose =
                (spanOpen ++ body ++ ['\x7d']) ++ '\x7d' :: after := by
              rw [hs]
              simp [spanClose]
            rcases append_close_cases (show '\x7d' ≠ ']' by decide) hs' with
              ⟨rest', hrest', rfl⟩ | ⟨hne, -⟩
            · have hshorter : rest'.length < length := by
                rw [← hlength, hrest', List.length_append, List.length_cons]
                omega
              obtain ⟨t, ht, hrest⟩ := ih rest'.length hshorter rest' rfl
              refine ⟨spanOpen ++ body.flatMap protectChar ++ spanClose ++ t, ?_, ?_⟩
              · have hshape : c :: rest = spanOpen ++ body ++ spanClose ++ rest' := by
                  rw [hrest']
                  simp [spanClose]
                rw [hshape]
                exact ht.span body
              · rw [hprotect, hrest]
                simp
            · exact absurd hne (by decide)
          · have hshorter : rest.length < length := by
              rw [← hlength, List.length_cons]
              omega
            obtain ⟨t, ht, hrest⟩ := ih rest.length hshorter rest rfl
            refine ⟨c :: t, ht.plain c, ?_⟩
            rw [hchar, hrest, List.cons_append]

def verbatimOpen : List Char := ['<', '!', '[', 'C', 'D', 'A', 'T', 'A', '[']

/-- A verbatim text is copied up to the first `>` outside quotes, and protected behind it. -/
theorem protect_verbatim (s : List Char) : ∃ t, Guarded s t ∧ ('>' ∉ s → t = s) ∧
    protect (verbatimOpen ++ s ++ verbatimClose) = verbatimOpen ++ t ++ verbatimClose := by
  have hshape : ∀ t, verbatimOpen ++ t ++ verbatimClose =
      '<' :: (['!', '[', 'C', 'D', 'A', 'T', 'A', '['] ++ (t ++ verbatimClose)) :=
    fun t => List.append_assoc verbatimOpen t verbatimClose
  have hcomment : commentOpen.isPrefixOf
      ('<' :: (['!', '[', 'C', 'D', 'A', 'T', 'A', '['] ++ (s ++ verbatimClose))) = false := by
    simp [commentOpen, List.isPrefixOf]
  have hpasses : Passes ['!', '[', 'C', 'D', 'A', 'T', 'A', '['] := passes_plain (by simp)
  have htag := hpasses (s ++ verbatimClose)
  cases hsplit : splitTag? none (s ++ verbatimClose) with
  | none =>
      rw [hsplit, Option.map_none] at htag
      refine ⟨s, .refl s, fun _ => rfl, ?_⟩
      rw [hshape, protect_of_split_eq_none hcomment htag]
  | some parts =>
      obtain ⟨tag, after⟩ := parts
      rw [hsplit, Option.map_some] at htag
      have hprotect := protect_of_split hcomment htag
      rcases append_close_cases (show '>' ≠ ']' by decide) (append_of_splitTag? hsplit) with
        ⟨rest, rfl, rfl⟩ | ⟨-, rfl, hs⟩
      · obtain ⟨t, ht, hrest⟩ := exists_guarded rest
        refine ⟨tag ++ ['>'] ++ t, ?_, fun hgt => absurd (by simp) hgt, ?_⟩
        · rw [List.append_cons]
          exact ht.append _
        · rw [hshape, hshape, hprotect, hrest]
          simp
      · refine ⟨s, .refl s, fun _ => rfl, ?_⟩
        rw [hshape, hprotect, protect, ← hs]
        simp

/-! ### Reading -/

theorem declaration?_verbatim (h : Text.cut verbatimClose s = some (body, rest)) :
    declaration? (['[', 'C', 'D', 'A', 'T', 'A', '['] ++ s) = some (.verbatim body, rest) := by
  have hcomment : "--".toList.isPrefixOf (['[', 'C', 'D', 'A', 'T', 'A', '['] ++ s) = false := by
    simp [List.isPrefixOf]
  have hopen : "[CDATA[".toList.isPrefixOf (['[', 'C', 'D', 'A', 'T', 'A', '['] ++ s) = true := by
    simp [List.isPrefixOf]
  rw [declaration?, hcomment, if_neg Bool.false_ne_true, hopen, if_pos rfl]
  change (Text.cut verbatimClose s).map _ = _
  rw [h, Option.map_some]

theorem markup?_verbatim (hs : Text.occursIn verbatimClose s = false) (rest : List Char) :
    markup? (['!', '[', 'C', 'D', 'A', 'T', 'A', '['] ++ (s ++ verbatimClose ++ rest)) =
      some (.verbatim s, rest) := by
  have hclose : verbatimClose = [']', ']'] ++ ['>'] := by simp [verbatimClose]
  have hcut : Text.cut verbatimClose (s ++ verbatimClose ++ rest) = some (s, rest) := by
    rw [hclose] at hs ⊢
    exact cut_append (by decide) hs rest
  exact declaration?_verbatim hcut

theorem reads_verbatim {o : Open} (hs : Text.occursIn verbatimClose s = false) :
    Reads (verbatimOpen ++ s ++ verbatimClose ++ rest) rest o
      (o.add (.leaf (.text (String.ofList s)))) := by
  have hshape : verbatimOpen ++ s ++ verbatimClose ++ rest =
      '<' :: (['!', '[', 'C', 'D', 'A', 'T', 'A', '['] ++ (s ++ verbatimClose ++ rest)) := by
    simp [verbatimOpen]
  rw [hshape]
  refine reads_token (fun place => lex_markup (markup?_verbatim hs rest)) ?_
  intro broken place tokens
  rw [build]

/-- A verbatim text is read as one text. -/
theorem read_verbatim {s : String} (hs : Text.occursIn verbatimClose s.toList = false) :
    ∃ t : String, Guarded s.toList t.toList ∧ ('>' ∉ s.toList → t = s) ∧
      read ("<![CDATA[" ++ s ++ "]]>") = ⟨.node .fragment none [.leaf (.text t)], none, none⟩ := by
  obtain ⟨t, ht, hsame, hprotect⟩ := protect_verbatim s.toList
  refine ⟨String.ofList t, ?_, fun hgt => ?_, ?_⟩
  · rwa [String.toList_ofList]
  · rw [hsame hgt, String.ofList_toList]
  · have hshape : ("<![CDATA[" ++ s ++ "]]>").toList = verbatimOpen ++ s.toList ++ verbatimClose := by
      simp [verbatimOpen, verbatimClose]
    rw [← hshape] at hprotect
    have hreads : Reads (verbatimOpen ++ t ++ verbatimClose ++ []) [] Open.start _ :=
      reads_verbatim (ht.escapes.occursIn_eq_false hs)
    rw [List.append_nil] at hreads
    exact read_of_reads hprotect (by simp [verbatimOpen]) hreads

theorem read_comment {s : String} (hs : Text.occursIn commentClose s.toList = false) :
    read ("<!--" ++ s ++ "-->") = ⟨.node .fragment none [.leaf (.comment s)], none, none⟩ := by
  have hshape : ("<!--" ++ s ++ "-->").toList = commentOpen ++ s.toList ++ commentClose := by
    simp [commentOpen, commentClose]
  have hprotect := protect_comment hs []
  have hreads : Reads (commentOpen ++ s.toList ++ commentClose ++ []) [] Open.start _ :=
    reads_comment hs
  rw [List.append_nil, protect, List.append_nil, ← hshape] at hprotect
  rw [List.append_nil, ← hshape] at hreads
  exact read_of_reads hprotect (by simp) hreads

end Markup

/-- Every comment is parsed as it was written, whatever it holds. -/
theorem Dom.parse_comment {d : Dom} {s : String} (hd : d.Valid)
    (hs : Text.occursIn Markup.commentClose s.toList = false) :
    ∃ root, (d.parse ("<!--" ++ s ++ "-->")).2 = .ok root ∧
      (d.parse ("<!--" ++ s ++ "-->")).1.tree root = .node .fragment none [.leaf (.comment s)] :=
  parse_of_read hd (Markup.read_comment hs)

/-- Every verbatim text is parsed as one text, which is what was written up to spans that follow a
`>`. -/
theorem Dom.parse_verbatim {d : Dom} {s : String} (hd : d.Valid)
    (hs : Text.occursIn Markup.verbatimClose s.toList = false) :
    ∃ t : String, Markup.Guarded s.toList t.toList ∧
      (('>' ∉ s.toList ∨ Text.occursIn Markup.spanOpen s.toList = false) → t = s) ∧
        ∃ root, (d.parse ("<![CDATA[" ++ s ++ "]]>")).2 = .ok root ∧
          (d.parse ("<![CDATA[" ++ s ++ "]]>")).1.tree root =
            .node .fragment none [.leaf (.text t)] := by
  obtain ⟨t, ht, hsame, hread⟩ := Markup.read_verbatim hs
  refine ⟨t, ht, ?_, parse_of_read hd hread⟩
  rintro (hgt | hspan)
  · exact hsame hgt
  · exact String.toList_injective (ht.eq_of_not_span hspan)

example : Markup.protect "<![CDATA[>\x7b\x7b a < b \x7d\x7d]]>".toList =
    "<![CDATA[>\x7b\x7b a &lt; b \x7d\x7d]]>".toList := by
  decide +kernel

end LiveMarkup
