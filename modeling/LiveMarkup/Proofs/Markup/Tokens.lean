import LiveMarkup.Proofs.Markup.Tags

/-!
Markup as it is written, token by token: `protect` copies it, and `lex` finds in it what was written.
-/

namespace LiveMarkup.Markup

open Html

variable {s p body rest : List Char} {c : Char} {place : Nat} {tag : String} {token : Token}
  {attributes : List Attribute}

/-! ### Tags -/

theorem getLast?_append_ne {q : List Char} (hp : p.getLast? ≠ some c) (hq : q.getLast? ≠ some c) :
    (p ++ q).getLast? ≠ some c := by
  rw [List.getLast?_append]
  cases hlast : q.getLast? with
  | none => simpa using hp
  | some d => simpa [hlast] using hq

theorem getLast?_ne_of_not_mem (hc : c ∉ p) : p.getLast? ≠ some c :=
  fun hlast => hc (List.mem_of_getLast? hlast)

/-- No start tag that is written closes itself. -/
theorem getLast?_written (h : ∀ a ∈ attributes, IsAttributeName a.name) :
    (written attributes).getLast? ≠ some '/' := by
  induction attributes with
  | nil => simp [written]
  | cons a attributes ih =>
      rw [List.forall_mem_cons] at h
      have hname : '/' ∉ ' ' :: a.name.toList := by
        rw [List.mem_cons, not_or]
        refine ⟨by decide, fun hmem => ?_⟩
        exact absurd (h.1.isAttributeChar hmem) (by decide)
      rw [written_cons]
      refine getLast?_append_ne (getLast?_append_ne (getLast?_ne_of_not_mem hname) ?_) (ih h.2)
      split
      · simp
      · rw [List.getLast?_append]
        simp

theorem startToken_written (htag : IsTag tag) (h : ∀ a ∈ attributes, IsAttributeName a.name) :
    startToken (tag.toList ++ written attributes) = .start tag.toList (written attributes) false := by
  have hslash : (tag.toList ++ written attributes).getLast? ≠ some '/' := by
    refine getLast?_append_ne (getLast?_ne_of_not_mem fun hmem => ?_) (getLast?_written h)
    exact absurd (htag.isTagChar hmem) (by decide)
  have hnonblank : ∀ d ∈ tag.toList, (!isTagBlank d) = true := fun d hd => by
    rw [isTagBlank_of_isTagChar (htag.isTagChar hd)]
    rfl
  have hblank : (written attributes).takeWhile (fun c => !isTagBlank c) = [] ∧
      (written attributes).dropWhile (fun c => !isTagBlank c) = written attributes := by
    cases attributes with
    | nil => simp [written]
    | cons a attributes => simp [written_cons, isTagBlank.eq_def ' ']
  rw [startToken]
  simp only [decide_eq_false hslash, if_neg hslash]
  rw [List.takeWhile_append_of_pos hnonblank, List.dropWhile_append_of_pos hnonblank, hblank.1,
    hblank.2, List.append_nil]

theorem closingName_of_nonblank (h : ∀ d ∈ body, isTagBlank d = false) : closingName body = body := by
  have hreverse : body.reverse.dropWhile isTagBlank = body.reverse := by
    cases hlast : body.reverse with
    | nil => rfl
    | cons d rest =>
        apply List.dropWhile_cons_of_neg
        rw [h d (by rw [← List.mem_reverse, hlast]; exact List.mem_cons_self)]
        exact Bool.false_ne_true
  rw [closingName, hreverse, List.reverse_reverse, ite_self]

theorem closingName_tag (htag : IsTag tag) : closingName tag.toList = tag.toList :=
  closingName_of_nonblank fun _ hd => isTagBlank_of_isTagChar (htag.isTagChar hd)

theorem markup?_start (hc : c ≠ '!' ∧ c ≠ '?' ∧ c ≠ '/') (hpasses : Passes (c :: body))
    (rest : List Char) : markup? (c :: body ++ '>' :: rest) = some (startToken (c :: body), rest) := by
  have hsplit := hpasses.split rest
  rw [List.cons_append] at hsplit ⊢
  unfold markup?
  split
  · rename_i heq
    exact absurd (List.cons.inj heq).1 hc.1
  · rename_i heq
    exact absurd (List.cons.inj heq).1 hc.2.1
  · rename_i heq
    exact absurd (List.cons.inj heq).1 hc.2.2
  · rw [hsplit, Option.map_some]

theorem markup?_close (hpasses : Passes body) (rest : List Char) :
    markup? ('/' :: body ++ '>' :: rest) = some (.close (closingName body), rest) := by
  rw [List.cons_append, markup?, hpasses.split, Option.map_some]

theorem passes_tag (htag : IsTag tag) : Passes tag.toList :=
  passes_plain fun c hc =>
    have hchar := htag.isTagChar hc
    ⟨ne_of_isTagChar hchar (by decide), ne_of_isTagChar hchar (by decide),
      ne_of_isTagChar hchar (by decide)⟩

theorem protect_of_split {t after : List Char}
    (hcomment : commentOpen.isPrefixOf ('<' :: s) = false)
    (hsplit : splitTag? none s = some (t, after)) :
    protect ('<' :: s) = '<' :: t ++ '>' :: protect after := by
  rw [protect, hcomment, if_neg Bool.false_ne_true, if_pos rfl]
  split
  · rename_i hnone
    rw [hsplit] at hnone
    cases hnone
  · rename_i heq
    rw [hsplit] at heq
    cases heq
    rfl

/-- What begins a tag that does not end is copied with everything behind it. -/
theorem protect_of_split_eq_none (hcomment : commentOpen.isPrefixOf ('<' :: s) = false)
    (hsplit : splitTag? none s = none) : protect ('<' :: s) = '<' :: s := by
  rw [protect, hcomment, if_neg Bool.false_ne_true, if_pos rfl]
  split
  · rfl
  · rename_i heq
    rw [hsplit] at heq
    cases heq

theorem protect_tag (h : Passes body) (hbody : body.head? ≠ some '!') (rest : List Char) :
    protect ('<' :: body ++ '>' :: rest) = '<' :: body ++ '>' :: protect rest := by
  have hcomment : commentOpen.isPrefixOf ('<' :: (body ++ '>' :: rest)) = false := by
    cases body with
    | nil => rfl
    | cons c body =>
        have hc : c ≠ '!' := by simpa using hbody
        simp [commentOpen, List.isPrefixOf, Ne.symm hc]
  exact protect_of_split hcomment (h.split rest)

/-! ### Comments -/

/-- A mark whose last character is no other one of it begins nowhere before itself. -/
theorem not_prefix_of_overlap {mark : List Char} {d : Char} (hc : c ∉ mark)
    (hs : (mark ++ [c]).isPrefixOf (d :: s) = false) (rest : List Char) :
    ¬ mark ++ [c] <+: d :: (s ++ (mark ++ [c]) ++ rest) := by
  intro hfront
  have hbefore : d :: s <+: d :: (s ++ (mark ++ [c]) ++ rest) := ⟨mark ++ [c] ++ rest, by simp⟩
  rcases List.prefix_or_prefix_of_prefix hfront hbefore with hinside | ⟨extra, hextra⟩
  · rw [← List.isPrefixOf_iff_prefix, hs] at hinside
    cases hinside
  · -- The last character would stand where the mark behind has one of its others.
    rcases List.eq_nil_or_concat extra with rfl | ⟨head, last, rfl⟩
    · rw [List.append_nil] at hextra
      rw [← hextra, Bool.eq_false_iff, Ne, List.isPrefixOf_iff_prefix] at hs
      exact hs (List.prefix_refl _)
    · rw [List.concat_eq_append, ← List.append_assoc] at hextra
      obtain ⟨hmark, hlast⟩ := List.append_inj' hextra rfl
      have hlonger : head.length + 1 ≤ mark.length := by
        rw [← hmark, List.length_append, List.length_cons]
        omega
      have hhead : head ++ [c] <+: mark ++ (c :: rest) := by
        rw [← hmark] at hfront ⊢
        simpa using hfront
      have hin : head ++ [c] <+: mark :=
        List.prefix_of_prefix_length_le hhead (List.prefix_append mark _) (by simpa using hlonger)
      exact hc (hin.subset (by simp))

/-- A text ends with the first mark behind it, when the last character of the mark is no other one of
it. -/
theorem cut_append {mark : List Char} (hc : c ∉ mark) (hs : Text.occursIn (mark ++ [c]) s = false)
    (rest : List Char) :
    Text.cut (mark ++ [c]) (s ++ (mark ++ [c]) ++ rest) = some (s, rest) := by
  induction s with
  | nil =>
      cases mark with
      | nil => simp [Text.cut]
      | cons m mark => simp [Text.cut, List.isPrefixOf_iff_prefix]
  | cons d s ih =>
      rw [Text.occursIn, Bool.or_eq_false_iff] at hs
      have hnot : (mark ++ [c]).isPrefixOf (d :: (s ++ (mark ++ [c]) ++ rest)) = false := by
        rw [Bool.eq_false_iff, Ne, List.isPrefixOf_iff_prefix]
        exact not_prefix_of_overlap hc hs.1 rest
      rw [List.cons_append, List.cons_append, Text.cut, hnot, if_neg Bool.false_ne_true, ih hs.2]
      rfl

/-- A comment ends with the mark that was written behind it. -/
theorem cut_comment (hs : Text.occursIn commentClose s = false) (rest : List Char) :
    Text.cut commentClose (s ++ commentClose ++ rest) = some (s, rest) :=
  cut_append (show '>' ∉ ['-', '-'] by decide) hs rest

theorem protect_comment (hs : Text.occursIn commentClose s = false) (rest : List Char) :
    protect (commentOpen ++ s ++ commentClose ++ rest) =
      commentOpen ++ s ++ commentClose ++ protect rest := by
  have hcut := cut_comment hs rest
  have hshape : commentOpen ++ s ++ commentClose ++ rest =
      '<' :: ('!' :: '-' :: '-' :: (s ++ commentClose ++ rest)) := by
    simp [commentOpen]
  have hopen : commentOpen.isPrefixOf ('<' :: ('!' :: '-' :: '-' :: (s ++ commentClose ++ rest))) =
      true := by
    simp [commentOpen, List.isPrefixOf]
  rw [hshape, protect, hopen, if_pos rfl]
  split
  · rename_i hnone
    rw [List.drop_succ_cons, List.drop_succ_cons, List.drop_succ_cons, List.drop_zero, hcut] at hnone
    cases hnone
  · rename_i body after heq
    rw [List.drop_succ_cons, List.drop_succ_cons, List.drop_succ_cons, List.drop_zero, hcut] at heq
    cases heq
    rfl

theorem declaration?_comment (h : Text.cut commentClose s = some (body, rest)) :
    declaration? ('-' :: '-' :: s) = some (.comment body, rest) := by
  have hopen : "--".toList.isPrefixOf ('-' :: '-' :: s) = true := by
    simp [List.isPrefixOf]
  rw [declaration?, hopen, if_pos rfl, List.drop_succ_cons, List.drop_succ_cons, List.drop_zero, h,
    Option.map_some]

theorem markup?_comment (hs : Text.occursIn commentClose s = false) (rest : List Char) :
    markup? ('!' :: '-' :: '-' :: (s ++ commentClose ++ rest)) = some (.comment s, rest) :=
  declaration?_comment (cut_comment hs rest)

/-! ### Tokens -/

/-- Whether a text before `rest` ends where `rest` begins. -/
def Stops (rest : List Char) : Prop :=
  ∀ c ∈ rest.head?, c = '<'

theorem stops_lt (rest : List Char) : Stops ('<' :: rest) := by
  rintro c ⟨⟩
  rfl

theorem lex_markup (h : markup? s = some (token, rest)) :
    ∃ next, lex place ('<' :: s) = (lex next rest).push place token := by
  rw [lex, if_pos rfl]
  split
  · rename_i hnone
    rw [h] at hnone
    cases hnone
  · rename_i token' after heq
    rw [h] at heq
    cases heq
    exact ⟨_, rfl⟩

theorem lex_text (hp : p ≠ []) (hlt : ∀ c ∈ p, c ≠ '<') (hstops : Stops rest) :
    ∃ next, lex place (p ++ rest) = (lex next rest).push place (.text p) := by
  cases p with
  | nil => exact absurd rfl hp
  | cons c p =>
      rw [List.forall_mem_cons] at hlt
      have hall : ∀ d ∈ p, (d != '<') = true := fun d hd => bne_iff_ne.mpr (hlt.2 d hd)
      have hrest : rest.takeWhile (· != '<') = [] ∧ rest.dropWhile (· != '<') = rest := by
        cases rest with
        | nil => exact ⟨rfl, rfl⟩
        | cons d rest =>
            obtain rfl := hstops d rfl
            exact ⟨rfl, rfl⟩
      rw [List.cons_append, lex, if_neg hlt.1]
      dsimp only
      rw [List.takeWhile_append_of_pos hall, List.dropWhile_append_of_pos hall, hrest.1, hrest.2,
        List.append_nil]
      exact ⟨_, rfl⟩

end LiveMarkup.Markup
