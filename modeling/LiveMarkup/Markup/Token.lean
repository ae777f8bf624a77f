import LiveMarkup.Markup.Span

/-!
Markup as a sequence of tokens. A token ends where the next one begins; `lex` stops at the first `<`
that begins none and keeps its place.
-/

namespace LiveMarkup.Markup

inductive Token where
  /-- A start tag: its name, what follows the name, and whether it closes itself. -/
  | start (name : List Char) (rest : List Char) (empty : Bool)
  | close (name : List Char)
  | text (raw : List Char)
  | verbatim (s : List Char)
  | comment (s : List Char)
  /-- A declaration, a processing instruction or a document type. -/
  | aside
  deriving DecidableEq

/-- The blanks between the parts of a tag. -/
def isTagBlank (c : Char) : Bool :=
  c = ' ' || c = '\t' || c = '\r' || c = '\n'

/-- Splits at the `>` that balances the `<` and `>` before it, `depth` of which are open. -/
def splitBalanced? (depth : Nat) : List Char → Option (List Char × List Char)
  | [] => none
  | c :: rest =>
    if c = '>' ∧ depth = 0 then some ([], rest)
    else
      let inner := if c = '<' then depth + 1 else if c = '>' then depth - 1 else depth
      (splitBalanced? inner rest).map fun (body, after) => (c :: body, after)

theorem append_of_splitBalanced? {depth : Nat} {s body after : List Char}
    (h : splitBalanced? depth s = some (body, after)) : s = body ++ '>' :: after := by
  induction s generalizing depth body with
  | nil => simp [splitBalanced?] at h
  | cons c rest ih =>
    unfold splitBalanced? at h
    split at h
    · simp_all
    · simp only [Option.map_eq_some_iff, Prod.mk.injEq] at h
      obtain ⟨⟨b, a⟩, hsplit, rfl, rfl⟩ := h
      simp [ih hsplit]

def verbatimClose : List Char := "]]>".toList

/-- Whether the body of a document type names one. -/
def isDocumentType (body : List Char) : Bool :=
  (body.take 7).map Char.toUpper == "DOCTYPE".toList && (body.drop 7).any fun c => !isTagBlank c

/-- What follows `<!`. -/
def declaration? (s : List Char) : Option (Token × List Char) :=
  if "--".toList.isPrefixOf s then
    (Text.cut commentClose (s.drop 2)).map fun (body, after) => (.comment body, after)
  else if "[CDATA[".toList.isPrefixOf s then
    (Text.cut verbatimClose (s.drop 7)).map fun (body, after) => (.verbatim body, after)
  else
    (splitBalanced? 0 s).bind fun (body, after) =>
      if isDocumentType body then some (.aside, after) else none

/-- The name of an end tag, without the blanks after it. -/
def closingName (body : List Char) : List Char :=
  if body.all isTagBlank then body else (body.reverse.dropWhile isTagBlank).reverse

/-- A start tag from what stands between `<` and `>`. -/
def startToken (body : List Char) : Token :=
  let empty := body.getLast? = some '/'
  let body := if empty then body.dropLast else body
  .start (body.takeWhile fun c => !isTagBlank c) (body.dropWhile fun c => !isTagBlank c) empty

def instructionClose : List Char := "?>".toList

/-- The token that a `<` before `s` begins, and the text after it. The question mark that opens an
instruction does not close it. -/
def markup? (s : List Char) : Option (Token × List Char) :=
  match s with
  | '!' :: rest => declaration? rest
  | '?' :: _ =>
    (Text.cut instructionClose s).bind fun (body, after) =>
      if body.isEmpty then none else some (.aside, after)
  | '/' :: rest => (splitTag? none rest).map fun (body, after) => (.close (closingName body), after)
  | s => (splitTag? none s).map fun (body, after) => (startToken body, after)

theorem length_le_of_declaration? {s after : List Char} {token : Token}
    (h : declaration? s = some (token, after)) : after.length ≤ s.length := by
  unfold declaration? at h
  split at h
  · simp only [Option.map_eq_some_iff, Prod.mk.injEq] at h
    obtain ⟨⟨b, a⟩, hcut, -, rfl⟩ := h
    have := Text.length_lt_of_cut (by decide) hcut
    simp only [List.length_drop] at this ⊢
    omega
  · split at h
    · simp only [Option.map_eq_some_iff, Prod.mk.injEq] at h
      obtain ⟨⟨b, a⟩, hcut, -, rfl⟩ := h
      have := Text.length_lt_of_cut (by decide) hcut
      simp only [List.length_drop] at this ⊢
      omega
    · simp only [Option.bind_eq_some_iff] at h
      obtain ⟨⟨b, a⟩, hsplit, h⟩ := h
      split at h
      · simp only [Option.some.injEq, Prod.mk.injEq] at h
        obtain ⟨-, rfl⟩ := h
        rw [append_of_splitBalanced? hsplit]
        simp
        omega
      · simp at h

theorem length_le_of_markup? {s after : List Char} {token : Token}
    (h : markup? s = some (token, after)) : after.length ≤ s.length := by
  unfold markup? at h
  split at h
  · have := length_le_of_declaration? h
    simp
    omega
  · simp only [Option.bind_eq_some_iff] at h
    obtain ⟨⟨b, a⟩, hcut, h⟩ := h
    split at h
    · simp at h
    · simp only [Option.some.injEq, Prod.mk.injEq] at h
      obtain ⟨-, rfl⟩ := h
      exact Nat.le_of_lt (Text.length_lt_of_cut (by decide) hcut)
  all_goals
    simp only [Option.map_eq_some_iff, Prod.mk.injEq] at h
    obtain ⟨⟨b, a⟩, hsplit, -, rfl⟩ := h
    rw [append_of_splitTag? hsplit]
    simp
    omega

def byteLength (s : List Char) : Nat :=
  s.foldr (fun c total => c.utf8Size + total) 0

structure Lexed where
  /-- Each token after the place of its first byte. -/
  tokens : List (Nat × Token)
  /-- The place of a `<` that begins no token. -/
  broken : Option Nat

def Lexed.push (lexed : Lexed) (place : Nat) (token : Token) : Lexed :=
  { lexed with tokens := (place, token) :: lexed.tokens }

/-- The tokens of a text that begins at the byte `place`. -/
def lex (place : Nat) (s : List Char) : Lexed :=
  match s with
  | [] => ⟨[], none⟩
  | c :: rest =>
    if c = '<' then
      match h : markup? rest with
      | none => ⟨[], some place⟩
      | some (token, after) =>
        have := length_le_of_markup? h
        (lex (place + (byteLength (c :: rest) - byteLength after)) after).push place token
    else
      let raw := c :: rest.takeWhile (· != '<')
      have := (List.dropWhile_sublist (l := rest) (· != '<')).length_le
      (lex (place + byteLength raw) (rest.dropWhile (· != '<'))).push place (.text raw)
termination_by s.length

end LiveMarkup.Markup
