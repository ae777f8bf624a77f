import LiveMarkup.Proofs.Markup.Verbatim

/-!
# Seams of markup

What a token is depends on its own characters alone; only a text goes on until a tag begins. So markup
that is cut where a token begins is read piece by piece, and what is put between the pieces is read by
itself.
-/

namespace LiveMarkup.Markup

variable {s t p a b rest after body tag : List Char} {token : Token} {tokens more : List Token}
  {place : Nat}

/-! ### What ends a token -/

theorem splitTag?_rest {quote : Option Char}
    (h : splitTag? quote (tag ++ '>' :: after) = some (tag, after)) (rest : List Char) : splitTag? quote (tag ++ '>' :: rest) = some (tag, rest) := by
  induction tag generalizing quote with
  | nil =>
      cases quote with
      | none => simp [splitTag?]
      | some q => simp [splitTag?] at h
  | cons c tag ih =>
      rw [List.cons_append] at h ⊢
      cases quote with
      | some q =>
          simp only [splitTag?, Option.map_eq_some_iff, Prod.mk.injEq, List.cons.injEq, true_and]
            at h ⊢
          obtain ⟨_, hsplit, rfl, rfl⟩ := h
          exact ⟨_, ih hsplit, rfl, rfl⟩
      | none =>
          rw [splitTag?] at h ⊢
          by_cases hc : c = '>'
          · simp [hc] at h
          · simp only [if_neg hc, Option.map_eq_some_iff, Prod.mk.injEq, List.cons.injEq, true_and]
              at h ⊢
            obtain ⟨_, hsplit, rfl, rfl⟩ := h
            exact ⟨_, ih hsplit, rfl, rfl⟩

theorem splitBalanced?_rest {depth : Nat}
    (h : splitBalanced? depth (body ++ '>' :: after) = some (body, after)) (rest : List Char) :
    splitBalanced? depth (body ++ '>' :: rest) = some (body, rest) := by
  induction body generalizing depth with
  | nil =>
      by_cases hdepth : depth = 0
      · simp [splitBalanced?, hdepth]
      · simp [splitBalanced?, hdepth] at h
  | cons c body ih =>
      rw [List.cons_append, splitBalanced?] at h ⊢
      by_cases hc : c = '>' ∧ depth = 0
      · simp [hc] at h
      · simp only [if_neg hc, Option.map_eq_some_iff, Prod.mk.injEq, List.cons.injEq, true_and] at h ⊢
        obtain ⟨_, hsplit, rfl, rfl⟩ := h
        exact ⟨_, ih hsplit, rfl, rfl⟩

theorem cut_rest {mark : List Char} (h : Text.cut mark (body ++ mark ++ after) = some (body, after))
    (rest : List Char) : Text.cut mark (body ++ mark ++ rest) = some (body, rest) := by
  induction body with
  | nil =>
      cases hshape : mark ++ rest with
      | nil => simp_all [Text.cut]
      | cons c more =>
          have hfront : mark.isPrefixOf (c :: more) = true := by
            simp [← hshape, List.isPrefixOf_iff_prefix]
          rw [List.nil_append, hshape, Text.cut, if_pos hfront, ← hshape, List.drop_left]
  | cons c body ih =>
      rw [List.cons_append, List.cons_append, Text.cut] at h ⊢
      by_cases hfront : mark.isPrefixOf (c :: (body ++ mark ++ after)) = true
      · rw [if_pos hfront] at h
        simp at h
      · -- A mark at the front would end within the characters that the two texts share.
        have hfront' : ¬ mark.isPrefixOf (c :: (body ++ mark ++ rest)) = true := by
          intro hrest
          apply hfront
          rw [List.isPrefixOf_iff_prefix] at hrest ⊢
          have hshared : mark <+: c :: (body ++ mark) := by
            have hfits : mark.length ≤ (c :: (body ++ mark)).length := by
              simp
              omega
            exact List.prefix_of_prefix_length_le hrest
              (List.prefix_append (c :: (body ++ mark)) rest) hfits
          exact hshared.trans (List.prefix_append (c :: (body ++ mark)) after)
        rw [if_neg hfront] at h
        simp only [Option.map_eq_some_iff, Prod.mk.injEq, List.cons.injEq, true_and] at h
        obtain ⟨_, hcut, rfl, rfl⟩ := h
        rw [if_neg hfront', ih hcut, Option.map_some]

theorem declaration?_documentType (hbody : isDocumentType body = true)
    (h : splitBalanced? 0 (body ++ '>' :: after) = some (body, after)) (rest : List Char) :
    declaration? (body ++ '>' :: rest) = some (.aside, rest) := by
  -- The first letter of the name begins neither a comment nor a verbatim text.
  obtain ⟨c, more, rfl, hc⟩ : ∃ c more, body = c :: more ∧ c.toUpper = 'D' := by
    cases body with
    | nil => simp [isDocumentType] at hbody
    | cons c more =>
        refine ⟨c, more, rfl, ?_⟩
        simp [isDocumentType] at hbody
        exact hbody.1.1
  have hdash : '-' ≠ c := by
    rintro rfl
    exact absurd hc (by decide)
  have hbracket : '[' ≠ c := by
    rintro rfl
    exact absurd hc (by decide)
  have hcomment : ¬ "--".toList.isPrefixOf (c :: more ++ '>' :: rest) = true := by
    simp [List.isPrefixOf, hdash]
  have hverbatim : ¬ "[CDATA[".toList.isPrefixOf (c :: more ++ '>' :: rest) = true := by
    simp [List.isPrefixOf, hbracket]
  rw [declaration?, if_neg hcomment, if_neg hverbatim, splitBalanced?_rest h rest]
  exact if_pos hbody

theorem exists_of_declaration? (h : declaration? s = some (token, after)) :
    ∃ p, s = p ++ after ∧ ∀ rest, declaration? (p ++ rest) = some (token, rest) := by
  unfold declaration? at h
  split at h
  · rename_i hcomment
    obtain ⟨t, rfl⟩ := List.isPrefixOf_iff_prefix.mp hcomment
    simp only [Option.map_eq_some_iff, Prod.mk.injEq] at h
    obtain ⟨⟨body, _⟩, hcut, rfl, rfl⟩ := h
    change Text.cut commentClose t = _ at hcut
    obtain rfl := Text.append_of_cut hcut
    refine ⟨"--".toList ++ (body ++ commentClose), by simp, fun rest => ?_⟩
    have hopen : "--".toList = ['-', '-'] := by simp
    rw [hopen, List.append_assoc]
    exact declaration?_comment (cut_rest hcut rest)
  split at h
  · rename_i hverbatim
    obtain ⟨t, rfl⟩ := List.isPrefixOf_iff_prefix.mp hverbatim
    simp only [Option.map_eq_some_iff, Prod.mk.injEq] at h
    obtain ⟨⟨body, _⟩, hcut, rfl, rfl⟩ := h
    change Text.cut verbatimClose t = _ at hcut
    obtain rfl := Text.append_of_cut hcut
    refine ⟨"[CDATA[".toList ++ (body ++ verbatimClose), by simp, fun rest => ?_⟩
    have hopen : "[CDATA[".toList = ['[', 'C', 'D', 'A', 'T', 'A', '['] := by simp
    rw [hopen, List.append_assoc]
    exact declaration?_verbatim (cut_rest hcut rest)
  · simp only [Option.bind_eq_some_iff] at h
    obtain ⟨⟨body, _⟩, hsplit, h⟩ := h
    split at h
    · rename_i hbody
      simp only [Option.some.injEq, Prod.mk.injEq] at h
      obtain ⟨rfl, rfl⟩ := h
      obtain rfl := append_of_splitBalanced? hsplit
      refine ⟨body ++ ['>'], by simp, fun rest => ?_⟩
      rw [List.append_assoc]
      exact declaration?_documentType hbody hsplit rest
    · cases h

theorem markup?_of_ne {c : Char} (hc : c ≠ '!' ∧ c ≠ '?' ∧ c ≠ '/') (s : List Char) :
    markup? (c :: s) =
      (splitTag? none (c :: s)).map fun (body, after) => (startToken body, after) := by
  unfold markup?
  split <;> simp_all

theorem exists_of_markup? (h : markup? s = some (token, after)) :
    ∃ p, s = p ++ after ∧ ∀ rest, markup? (p ++ rest) = some (token, rest) := by
  unfold markup? at h
  split at h
  · obtain ⟨p, rfl, hp⟩ := exists_of_declaration? h
    exact ⟨'!' :: p, rfl, hp⟩
  · simp only [Option.bind_eq_some_iff] at h
    obtain ⟨⟨body, _⟩, hcut, h⟩ := h
    split at h
    · cases h
    · rename_i hbody
      simp only [Option.some.injEq, Prod.mk.injEq] at h
      obtain ⟨rfl, rfl⟩ := h
      have hs := Text.append_of_cut hcut
      rw [hs] at hcut ⊢
      refine ⟨body ++ instructionClose, rfl, fun rest => ?_⟩
      obtain ⟨c, more, rfl⟩ := List.exists_cons_of_ne_nil (by simpa using hbody)
      obtain rfl : '?' = c := (List.cons.inj hs).1
      change (Text.cut instructionClose ('?' :: more ++ instructionClose ++ rest)).bind _ = _
      rw [cut_rest hcut rest]
      rfl
  · simp only [Option.map_eq_some_iff, Prod.mk.injEq] at h
    obtain ⟨⟨body, _⟩, hsplit, rfl, rfl⟩ := h
    have hs := append_of_splitTag? hsplit
    rw [hs] at hsplit ⊢
    refine ⟨'/' :: body ++ ['>'], by simp, fun rest => ?_⟩
    have hsplit' := splitTag?_rest hsplit rest
    simp [markup?, hsplit']
  · rename_i hdeclaration hinstruction hclose
    simp only [Option.map_eq_some_iff, Prod.mk.injEq] at h
    obtain ⟨⟨body, _⟩, hsplit, rfl, rfl⟩ := h
    have hs := append_of_splitTag? hsplit
    refine ⟨body ++ ['>'], by simpa using hs, fun rest => ?_⟩
    rw [hs] at hsplit
    have hsplit' := splitTag?_rest hsplit rest
    rw [List.append_assoc, List.singleton_append]
    cases body with
    | nil => rfl
    | cons c body =>
        have hc : c ≠ '!' ∧ c ≠ '?' ∧ c ≠ '/' :=
          ⟨fun heq => hdeclaration _ (by rw [hs, heq]; rfl),
            fun heq => hinstruction _ (by rw [hs, heq]; rfl),
            fun heq => hclose _ (by rw [hs, heq]; rfl)⟩
        rw [List.cons_append] at hsplit' ⊢
        rw [markup?_of_ne hc, hsplit', Option.map_some]

/-! ### Lexemes -/

theorem byteLength_append (s t : List Char) : byteLength (s ++ t) = byteLength s + byteLength t := by
  induction s with
  | nil => simp [byteLength]
  | cons c s ih =>
      simp only [byteLength, List.cons_append, List.foldr_cons] at ih ⊢
      omega

theorem byteLength_pos (hs : s ≠ []) : 0 < byteLength s := by
  obtain ⟨c, s, rfl⟩ := List.exists_cons_of_ne_nil hs
  have hc := c.utf8Size_pos
  simp only [byteLength, List.foldr_cons]
  omega

def Token.isText : Token → Bool
  | .text _ => true
  | _ => false

theorem isText_of_declaration? (h : declaration? s = some (token, after)) : token.isText = false := by
  unfold declaration? at h
  split at h
  · simp only [Option.map_eq_some_iff, Prod.mk.injEq] at h
    obtain ⟨_, -, rfl, -⟩ := h
    rfl
  split at h
  · simp only [Option.map_eq_some_iff, Prod.mk.injEq] at h
    obtain ⟨_, -, rfl, -⟩ := h
    rfl
  · simp only [Option.bind_eq_some_iff] at h
    obtain ⟨_, -, h⟩ := h
    split at h
    · cases h
      rfl
    · cases h

theorem isText_of_markup? (h : markup? s = some (token, after)) : token.isText = false := by
  unfold markup? at h
  split at h
  · exact isText_of_declaration? h
  · simp only [Option.bind_eq_some_iff] at h
    obtain ⟨_, -, h⟩ := h
    split at h
    · cases h
    · cases h
      rfl
  all_goals
    simp only [Option.map_eq_some_iff, Prod.mk.injEq] at h
    obtain ⟨_, -, rfl, -⟩ := h
    rfl

/-- The characters are one token, whatever stands behind them; behind a text that is no text. -/
structure IsLexeme (p : List Char) (token : Token) : Prop where
  ne_nil : p ≠ []
  lex : ∀ {rest}, (token.isText = true → Stops rest) → ∀ place,
    lex place (p ++ rest) = (lex (place + byteLength p) rest).push place token

theorem Stops.append (hs : Stops s) (ht : Stops t) : Stops (s ++ t) := by
  cases s with
  | nil => exact ht
  | cons c s => exact hs

theorem Stops.of_append (h : Stops (s ++ t)) : Stops s := by
  cases s with
  | nil => exact fun c hc => by cases hc
  | cons c s => exact h

theorem isLexeme_markup (h : ∀ rest, markup? (p ++ rest) = some (token, rest)) :
    IsLexeme ('<' :: p) token := by
  refine ⟨List.cons_ne_nil _ _, fun {rest} _ place => ?_⟩
  rw [List.cons_append, lex, if_pos rfl]
  split
  · rename_i hnone
    rw [h] at hnone
    cases hnone
  · rename_i token' after heq
    rw [h] at heq
    cases heq
    rw [← List.cons_append, byteLength_append, Nat.add_sub_cancel_right]

theorem isLexeme_text (hp : p ≠ []) (hlt : '<' ∉ p) : IsLexeme p (.text p) := by
  refine ⟨hp, fun {rest} hrest place => ?_⟩
  obtain ⟨c, p, rfl⟩ := List.exists_cons_of_ne_nil hp
  rw [List.mem_cons, not_or] at hlt
  have hall : ∀ d ∈ p, (d != '<') = true := by
    intro d hd
    rw [bne_iff_ne]
    rintro rfl
    exact hlt.2 hd
  have hstop : rest.takeWhile (· != '<') = [] ∧ rest.dropWhile (· != '<') = rest := by
    cases rest with
    | nil => exact ⟨rfl, rfl⟩
    | cons d rest =>
        obtain rfl := hrest rfl d rfl
        exact ⟨rfl, rfl⟩
  rw [List.cons_append, lex, if_neg (Ne.symm hlt.1)]
  dsimp only
  rw [List.takeWhile_append_of_pos hall, List.dropWhile_append_of_pos hall, hstop.1, hstop.2,
    List.append_nil]

/-- The first token of a text is one of its own first characters. -/
theorem exists_lexeme {placed : List (Nat × Token)} {q : Nat}
    (h : (lex place s).tokens = (q, token) :: placed) :
    q = place ∧ ∃ p rest, s = p ++ rest ∧ IsLexeme p token ∧ (token.isText = true → Stops rest) := by
  cases s with
  | nil => simp [lex] at h
  | cons c s =>
      rw [lex] at h
      split at h
      · rename_i hc
        subst hc
        split at h
        · simp at h
        · rename_i token' after hmarkup
          simp only [Lexed.push, List.cons.injEq, Prod.mk.injEq] at h
          obtain ⟨⟨rfl, rfl⟩, -⟩ := h
          obtain ⟨p, rfl, hp⟩ := exists_of_markup? hmarkup
          refine ⟨rfl, '<' :: p, after, rfl, isLexeme_markup hp, fun htext => ?_⟩
          rw [isText_of_markup? hmarkup] at htext
          cases htext
      · rename_i hc
        simp only [Lexed.push, List.cons.injEq, Prod.mk.injEq] at h
        obtain ⟨⟨rfl, rfl⟩, -⟩ := h
        refine ⟨rfl, c :: s.takeWhile (· != '<'), s.dropWhile (· != '<'), ?_, ?_, fun _ d hd => ?_⟩
        · rw [List.cons_append, List.takeWhile_append_dropWhile]
        · apply isLexeme_text (List.cons_ne_nil _ _)
          rw [List.mem_cons, not_or]
          refine ⟨Ne.symm hc, fun hmem => ?_⟩
          simpa using List.mem_takeWhile_imp hmem
        · have hhead := List.head?_dropWhile_not (· != '<') s
          rw [hd] at hhead
          simpa using hhead

theorem eq_nil_of_lex (h : lex place s = ⟨[], none⟩) : s = [] := by
  cases s with
  | nil => rfl
  | cons c s =>
      rw [lex] at h
      split at h
      · split at h <;> simp [Lexed.push] at h
      · simp [Lexed.push] at h

/-! ### Texts of tokens -/

/-- A text that is made of tokens to its end. -/
inductive Lexes : List Char → List Token → Prop where
  | nil : Lexes [] []
  | cons {p rest : List Char} {token : Token} {tokens : List Token} (hp : IsLexeme p token)
    (hrest : token.isText = true → Stops rest) (h : Lexes rest tokens) :
    Lexes (p ++ rest) (token :: tokens)

/-- Texts of tokens follow each other where the second one begins with a tag. -/
theorem Lexes.append (hs : Lexes s tokens) (ht : Lexes t more) (hstops : Stops t) :
    Lexes (s ++ t) (tokens ++ more) := by
  induction hs with
  | nil => exact ht
  | cons hp hrest _ ih =>
      rw [List.append_assoc]
      exact .cons hp (fun htext => (hrest htext).append hstops) ih

theorem Lexes.lex (h : Lexes s tokens) (place : Nat) :
    (lex place s).broken = none ∧ (lex place s).tokens.map Prod.snd = tokens := by
  induction h generalizing place with
  | nil => simp [Markup.lex]
  | cons hp hrest _ ih =>
      rw [hp.lex hrest]
      obtain ⟨hbroken, htokens⟩ := ih (place + byteLength _)
      exact ⟨hbroken, congrArg (_ :: ·) htokens⟩

theorem lexes_of_lex {placed : List (Nat × Token)} (h : lex place s = ⟨placed, none⟩) :
    Lexes s (placed.map Prod.snd) := by
  induction placed generalizing place s with
  | nil =>
      rw [eq_nil_of_lex h]
      exact .nil
  | cons entry placed ih =>
      obtain ⟨-, p, rest, rfl, hp, hrest⟩ := exists_lexeme (congrArg Lexed.tokens h)
      rw [hp.lex hrest, Lexed.push, Lexed.mk.injEq, List.cons.injEq] at h
      obtain ⟨⟨-, htokens⟩, hbroken⟩ := h
      have hmore : lex (place + byteLength p) rest = ⟨placed, none⟩ := by rw [← htokens, ← hbroken]
      exact .cons hp hrest (ih hmore)

/-- Every token begins at the place of the text or behind it. -/
theorem le_of_mem_lex {placed : List (Nat × Token)} {broken : Option Nat}
    (h : lex place s = ⟨placed, broken⟩) {entry : Nat × Token} (hentry : entry ∈ placed) :
    place ≤ entry.1 := by
  induction placed generalizing place s with
  | nil => cases hentry
  | cons first placed ih =>
      obtain ⟨hplace, p, rest, rfl, hp, hrest⟩ := exists_lexeme (congrArg Lexed.tokens h)
      rw [hp.lex hrest, Lexed.push, Lexed.mk.injEq, List.cons.injEq] at h
      obtain ⟨⟨-, htokens⟩, hbroken⟩ := h
      obtain rfl | hmem := List.mem_cons.mp hentry
      · exact hplace.ge
      · have hmore : lex (place + byteLength p) rest = ⟨placed, broken⟩ := by
          rw [← htokens, ← hbroken]
        have hle := ih hmore hmem
        omega

/-- Cut where a token begins, a text of tokens is two texts of tokens. -/
theorem lexes_of_seam {front back : List (Nat × Token)}
    (h : lex place (a ++ b) = ⟨front ++ (place + byteLength a, token) :: back, none⟩) :
    Lexes a (front.map Prod.snd) ∧ Lexes b (token :: back.map Prod.snd) := by
  induction front generalizing place a with
  | nil =>
      obtain ⟨hplace, -⟩ := exists_lexeme (congrArg Lexed.tokens h)
      have ha : a = [] := by
        by_contra hne
        have := byteLength_pos hne
        omega
      subst ha
      exact ⟨.nil, lexes_of_lex h⟩
  | cons entry front ih =>
      obtain ⟨-, p, rest, hab, hp, hrest⟩ := exists_lexeme (congrArg Lexed.tokens h)
      rw [hab, hp.lex hrest, Lexed.push, List.cons_append, Lexed.mk.injEq, List.cons.injEq] at h
      obtain ⟨⟨-, htokens⟩, hbroken⟩ := h
      -- The first token ends before the cut, since the token behind the cut begins behind it.
      have hmem : (place + byteLength a, token) ∈ (lex (place + byteLength p) rest).tokens := by
        rw [htokens]
        simp
      have hle : place + byteLength p ≤ place + byteLength a := le_of_mem_lex rfl hmem
      obtain ⟨a', rfl⟩ : ∃ a', a = p ++ a' := by
        obtain ⟨more, rfl, -⟩ | ⟨a', rfl, -⟩ := List.append_eq_append_iff.mp hab
        · have hmore : more = [] := by
            by_contra hne
            have hpos := byteLength_pos hne
            rw [byteLength_append] at hle
            omega
          exact ⟨[], by simp [hmore]⟩
        · exact ⟨a', rfl⟩
      rw [List.append_assoc] at hab
      obtain rfl := List.append_cancel_left hab
      rw [byteLength_append, ← Nat.add_assoc] at htokens
      have hmore : lex (place + byteLength p) (a' ++ b) =
          ⟨front ++ (place + byteLength p + byteLength a', token) :: back, none⟩ := by
        rw [← htokens, ← hbroken]
      obtain ⟨hfront, hback⟩ := ih hmore
      exact ⟨.cons hp (fun htext => (hrest htext).of_append) hfront, hback⟩

end LiveMarkup.Markup
