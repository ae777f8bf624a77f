import LiveMarkup.Proofs.Markup.Recovery
import LiveMarkup.Proofs.Markup.Spans

/-!
# Values and texts

An attribute value and a text are decoded alike as long as every `&` begins a reference. Where one
begins none, the value stays as it was written and a text still has the predefined names decoded. Main
result: the two agree exactly when the references can all be read or none of them is a predefined one
(`parse_value_text`).
-/

namespace LiveMarkup

namespace Markup

variable {names : List (String × Char)} {s v : List Char} {c : Char}

/-! ### Decoding leaves nothing to decode -/

theorem length_decodeNames_le (names : List (String × Char)) (s : List Char) :
    (decodeNames names s).length ≤ s.length := by
  induction s using decodeNames.induct names with
  | case1 => simp [decodeNames]
  | case2 c rest name d hfound ih =>
      rw [decodeNames, hfound]
      simp only [List.length_cons, List.length_drop] at ih ⊢
      omega
  | case3 c rest hnone ih =>
      rw [decodeNames, hnone]
      simpa using ih

/-- A text stays as it is exactly when it holds no reference to one of the names. -/
theorem decodeNames_eq_self_iff : decodeNames names s = s ↔
    ∀ entry ∈ names, Text.occursIn (reference entry.1) s = false := by
  induction s using decodeNames.induct names with
  | case1 => simp [decodeNames, Text.occursIn, reference]
  | case2 c rest name d hfound ih =>
      have hprefix := List.find?_some hfound
      obtain ⟨tail, htail⟩ := List.isPrefixOf_iff_prefix.mp hprefix
      constructor
      · intro heq
        -- A reference is longer than the character it stands for.
        rw [← htail] at hfound heq
        have hlength := congrArg List.length ((decodeNames_found hfound).symm.trans heq)
        have hle := length_decodeNames_le names tail
        simp only [reference, List.length_cons, List.length_append] at hlength
        omega
      · intro hnone
        have hnot := hnone _ (List.mem_of_find?_eq_some hfound)
        rw [Text.occursIn, hprefix] at hnot
        cases hnot
  | case3 c rest hnone ih =>
      have hnot : ∀ entry ∈ names, (reference entry.1).isPrefixOf (c :: rest) = false :=
        fun entry hentry => Bool.eq_false_iff.mpr (List.find?_eq_none.mp hnone entry hentry)
      rw [decodeNames_cons hnot, List.cons.injEq, ih]
      simp only [true_and, Text.occursIn, Bool.or_eq_false_iff]
      exact forall₂_congr fun entry hentry => by simp [hnot entry hentry]

theorem decodeValue_eq_decodeText_iff : decodeValue v = decodeText v ↔
    (decode? v).isSome = true ∨ ∀ entry ∈ predefined, Text.occursIn (reference entry.1) v = false := by
  rw [decodeValue, decodeText, decodeLenient_eq, ← decodeNames_eq_self_iff]
  cases decode? v with
  | none => simp [eq_comm]
  | some s => simp

/-! ### Reading -/

/-- Characters that stand for themselves between double quotes and between tags. -/
structure IsQuotable (v : List Char) : Prop where
  tag : '<' ∉ v
  close : '>' ∉ v
  quote : '"' ∉ v
  span : Text.occursIn spanOpen v = false

theorem IsQuotable.read_text (h : IsQuotable v) (hne : decodeText v ≠ []) :
    read ("<p>" ++ String.ofList v ++ "</p>") = ⟨.node .fragment none
      [.node (.element "p" []) none [.leaf (.text (String.ofList (decodeText v)))]], none, none⟩ := by
  have hshape : ("<p>" ++ String.ofList v ++ "</p>").toList =
      '<' :: ['p'] ++ '>' :: (v ++ ('<' :: ['/', 'p'] ++ '>' :: [])) := by
    simp
  apply read_paragraph_raw hne rfl h.tag
  rw [hshape]
  apply protect_of_no_span
  have hbehind := occursIn_span_append (c := '<') (by decide) h.span
    (occursIn_span_of_not_mem (s := ['/', 'p', '>']) (by decide))
  exact (occursIn_append_of_not_mem (p := ['<', 'p', '>']) (by decide)).trans hbehind

/-- What follows the name in the start tag of a paragraph with one attribute. -/
def valueBody (v : List Char) : List Char :=
  ' ' :: 't' :: '=' :: ('"' :: v ++ ['"'])

theorem readAttributes_nil (seen : List (List Char)) : readAttributes seen [] = ⟨[], true⟩ := by
  have hdone : attributeStep [] = .done := rfl
  rw [readAttributes]
  split <;> simp_all

theorem readAttributes_valueBody (h : '"' ∉ v) : readAttributes [] (valueBody v) =
    ⟨[⟨"t", String.ofList (decodeValue v)⟩], true⟩ := by
  have hstep : attributeStep (valueBody v) = .item ['t'] v [] := by
    have hvalue := valueStep_quoted (n := ['t']) h []
    simpa [attributeStep, valueBody, isTagBlank, endsName] using hvalue
  rw [readAttributes]
  split
  · simp_all
  · simp_all
  · rename_i name value rest heq
    rw [hstep] at heq
    cases heq
    rw [readAttributes_nil]
    simp

theorem startToken_valueBody (v : List Char) :
    startToken ('p' :: valueBody v) = .start ['p'] (valueBody v) false := by
  have hlast : ('p' :: valueBody v).getLast? = some '"' := by
    rw [valueBody, ← List.cons_append, ← List.cons_append, ← List.cons_append, ← List.cons_append,
      List.getLast?_concat]
  rw [startToken, hlast]
  simp [valueBody, isTagBlank]

theorem IsQuotable.read_value (h : IsQuotable v) :
    read ("<p t=\"" ++ String.ofList v ++ "\"></p>") = ⟨.node .fragment none
      [.leaf (.element "p" [⟨"t", String.ofList (decodeValue v)⟩])], none, none⟩ := by
  have htag : IsTag "p" := ⟨'p', [], rfl, rfl, rfl⟩
  have hshape : ("<p t=\"" ++ String.ofList v ++ "\"></p>").toList =
      '<' :: ('p' :: valueBody v) ++ '>' :: ('<' :: ('/' :: "p".toList) ++ '>' :: []) := by
    simp [valueBody]
  have hspan : Text.occursIn spanOpen ("<p t=\"" ++ String.ofList v ++ "\"></p>").toList = false := by
    have hsplit : ("<p t=\"" ++ String.ofList v ++ "\"></p>").toList =
        ['<', 'p', ' ', 't', '=', '"'] ++ (v ++ '"' :: ['>', '<', '/', 'p', '>']) := by
      simp
    rw [hsplit, spanOpen, occursIn_append_of_not_mem (by decide)]
    exact occursIn_span_append (by decide) h.span (occursIn_span_of_not_mem (by decide))
  have hpasses : Passes ('p' :: valueBody v) :=
    (passes_plain (p := ['p', ' ', 't', '=']) (by simp)).append
      (passes_quoted fun c hc heq => h.quote (heq ▸ hc))
  have hstart : Reads ('<' :: ('p' :: valueBody v) ++ '>' :: ('<' :: ('/' :: "p".toList) ++ '>' :: []))
      ('<' :: ('/' :: "p".toList) ++ '>' :: []) Open.start
      (Open.start.enter (.element "p" [⟨"t", String.ofList (decodeValue v)⟩])) := by
    have hmarkup := markup?_start (by decide) hpasses ('<' :: ('/' :: "p".toList) ++ '>' :: [])
    rw [startToken_valueBody] at hmarkup
    have hattributes := readAttributes_valueBody h.quote
    have hcomplete : Token.IsComplete (.start ['p'] (valueBody v) false) :=
      congrArg Attributes.complete hattributes
    have hname : tagName ['p'] = "p" := htag.tagName
    have hvoid : isVoidElement "p" = false := by decide
    refine reads_token (fun place => lex_markup hmarkup) fun broken place tokens => ?_
    rw [build_cons hcomplete, Open.take, hattributes, hname, hvoid]
    rfl
  have hclose : (Open.start.enter (.element "p" [⟨"t", String.ofList (decodeValue v)⟩])).close "p" =
      Open.start.add (.node (.element "p" [⟨"t", String.ofList (decodeValue v)⟩]) none []) :=
    close_addAll rfl []
  have hreads := hstart.trans (reads_close htag)
  rw [hclose] at hreads
  exact read_of_reads ((protect_of_no_span hspan).trans hshape) (by simp) hreads

theorem decodeText_ne_nil (hv : v ≠ []) : decodeText v ≠ [] := by
  obtain ⟨c, v, rfl⟩ := List.exists_cons_of_ne_nil hv
  rw [decodeText]
  cases hdecoded : decode? (c :: v) with
  | none =>
      rw [Option.getD_none, decodeLenient_eq, decodeNames]
      split <;> simp
  | some s =>
      rintro rfl
      rw [decode?] at hdecoded
      split at hdecoded
      · split at hdecoded
        · simp only [Option.bind_eq_some_iff, Option.map_eq_some_iff] at hdecoded
          obtain ⟨_, -, _, -, hnil⟩ := hdecoded
          cases hnil
        · cases hdecoded
      · simp at hdecoded

end Markup

/-- A value of an attribute and a text with the same characters are the same, unless the characters
hold a predefined reference beside an `&` that begins no reference. -/
theorem Dom.parse_value_text {d : Dom} {v : String} (hd : d.Valid) (hne : v ≠ "")
    (h : Markup.IsQuotable v.toList) : ∃ value text : String,
      (∃ root, (d.parse ("<p t=\"" ++ v ++ "\"></p>")).2 = .ok root ∧
        (d.parse ("<p t=\"" ++ v ++ "\"></p>")).1.tree root =
          .node .fragment none [.leaf (.element "p" [⟨"t", value⟩])]) ∧
      (∃ root, (d.parse ("<p>" ++ v ++ "</p>")).2 = .ok root ∧
        (d.parse ("<p>" ++ v ++ "</p>")).1.tree root =
          .node .fragment none [.node (.element "p" []) none [.leaf (.text text)]]) ∧
      (value = text ↔ (Markup.decode? v.toList).isSome = true ∨
        ∀ entry ∈ Markup.predefined,
          Text.occursIn (Markup.reference entry.1) v.toList = false) := by
  have hchars : v.toList ≠ [] := fun hnil => hne (String.toList_eq_nil_iff.mp hnil)
  have hvalue := h.read_value
  have htext := h.read_text (Markup.decodeText_ne_nil hchars)
  rw [String.ofList_toList] at hvalue htext
  refine ⟨_, _, parse_of_read hd hvalue, parse_of_read hd htext, ?_⟩
  rw [← Markup.decodeValue_eq_decodeText_iff]
  exact ⟨fun heq => String.ofList_injective heq, fun heq => congrArg String.ofList heq⟩

example : Markup.decodeValue "&amp; & b".toList = "&amp; & b".toList ∧
    Markup.decodeText "&amp; & b".toList = "& & b".toList := by
  decide +kernel

end LiveMarkup
