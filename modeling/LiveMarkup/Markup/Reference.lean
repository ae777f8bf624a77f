import LiveMarkup.Text.Find

/-!
Character references in markup. `decode?` reads a text in which every `&` begins a reference; other
texts are read by `decodeLenient`, which knows the five predefined names alone.
-/

namespace LiveMarkup.Markup

/-- The names that markup defines for characters. -/
def predefined : List (String × Char) :=
  [("lt", '<'), ("gt", '>'), ("quot", '"'), ("apos", '\''), ("amp", '&')]

def digitOfBase? (base : Nat) (c : Char) : Option Nat :=
  let value :=
    if c.isDigit then some (c.toNat - '0'.toNat)
    else if 'a' ≤ c ∧ c ≤ 'f' then some (c.toNat - 'a'.toNat + 10)
    else if 'A' ≤ c ∧ c ≤ 'F' then some (c.toNat - 'A'.toNat + 10)
    else none
  value.filter (· < base)

/-- A whole text as a number; it has no sign and is not empty. -/
def numberOfBase? (base : Nat) (digits : List Char) : Option Nat :=
  if digits.isEmpty then none
  else digits.foldlM (fun n c => (digitOfBase? base c).map (base * n + ·)) 0

/-- The character of a code, which is neither zero nor outside the characters. -/
def charOfCode? (code : Nat) : Option Char :=
  if code ≠ 0 ∧ code.isValidChar then some (Char.ofNat code) else none

/-- The character that stands for `&name;`. -/
def referenced? : List Char → Option Char
  | '#' :: 'x' :: digits => numberOfBase? 16 digits >>= charOfCode?
  | '#' :: digits => numberOfBase? 10 digits >>= charOfCode?
  | name => predefined.lookup (String.ofList name)

def isNameChar (c : Char) : Bool :=
  c ≠ '&' && c ≠ ';'

theorem length_le_of_dropWhile {p : Char → Bool} {s after : List Char} {c : Char}
    (h : s.dropWhile p = c :: after) : after.length ≤ s.length := by
  have := (List.dropWhile_sublist p (l := s)).length_le
  rw [h, List.length_cons] at this
  omega

/-- The text with its references read, unless an `&` begins none. -/
def decode? (s : List Char) : Option (List Char) :=
  match s with
  | [] => some []
  | c :: rest =>
    if c = '&' then
      match h : rest.dropWhile isNameChar with
      | ';' :: after =>
        have := length_le_of_dropWhile h
        (referenced? (rest.takeWhile isNameChar)).bind fun first => (decode? after).map (first :: ·)
      | _ => none
    else (decode? rest).map (c :: ·)
termination_by s.length

/-- Writes each predefined character for its reference, one name after the other. -/
def decodeLenient (s : List Char) : List Char :=
  predefined.foldl
    (fun s (name, c) => Text.replaceAll ('&' :: name.toList ++ [';']) [c] (by simp) s) s

/-- The text of a run of characters between tags. -/
def decodeText (s : List Char) : List Char :=
  (decode? s).getD (decodeLenient s)

/-- The value of an attribute; it stays as written when it holds an `&` that begins no reference. -/
def decodeValue (s : List Char) : List Char :=
  (decode? s).getD s

end LiveMarkup.Markup
