import LiveMarkup.Text.Chars
import LiveMarkup.Text.Find

/-!
Taking a text apart: at marks, at blanks and at line ends. Each split has a limit on its pieces, the
last of which holds all that is left; a text has fewer pieces than its length and two.
-/

namespace LiveMarkup.Text

/-- At most `limit` pieces of a text, cut at each `mark`. -/
def splitUpTo (mark : List Char) (limit : Nat) (s : List Char) : List (List Char) :=
  match limit with
  | 0 => []
  | 1 => [s]
  | limit + 2 =>
    match cut mark s with
    | none => [s]
    | some (before, after) => before :: splitUpTo mark (limit + 1) after

/-- At most `limit` pieces of a text, cut after each character. -/
def charactersUpTo (limit : Nat) (s : List Char) : List (List Char) :=
  match limit, s with
  | 0, _ => []
  | 1, s => [s]
  | _ + 2, [] => [[]]
  | limit + 2, c :: rest => [c] :: charactersUpTo (limit + 1) rest

/-- At most `limit` pieces of a text, cut at a mark; an empty mark stands before each character and
at the end. -/
def pieces (mark : List Char) (limit : Nat) (s : List Char) : List (List Char) :=
  if mark.isEmpty then
    match limit with
    | 0 => []
    | 1 => [s]
    | limit + 2 => [] :: charactersUpTo (limit + 1) s
  else splitUpTo mark limit s

/-- A limit that no split of a text reaches. -/
def noLimit (s : List Char) : Nat :=
  s.length + 3

/-- At most `limit` pieces of a text between blanks. -/
def words (limit : Nat) (s : List Char) : List (List Char) :=
  match limit with
  | 0 => []
  | limit + 1 =>
    let s := s.dropWhile isBlank
    if s.isEmpty then []
    else if limit = 0 then [s]
    else s.takeWhile (!isBlank ·) :: words limit (s.dropWhile (!isBlank ·))

/-- A line without the carriage return before its end. -/
def withoutReturn (line : List Char) : List Char :=
  if line.getLast? = some '\r' then line.dropLast else line

/-- The lines of a text; no empty line stands after the last line end. -/
def lines (s : List Char) : List (List Char) :=
  let parts := splitUpTo ['\n'] (noLimit s) s
  let ended := parts.dropLast.map withoutReturn
  match parts.getLast? with
  | none | some [] => ended
  | some line => ended ++ [line]

/-- Drops the given characters at both ends. -/
def trimOf (characters s : List Char) : List Char :=
  ((s.dropWhile characters.contains).reverse.dropWhile characters.contains).reverse

/-- Writes `new` for every `mark`; an empty mark stands before each character and at the end. -/
def replace (s mark new : List Char) : List Char :=
  if h : mark = [] then new ++ s.flatMap fun c => c :: new else replaceAll mark new h s

end LiveMarkup.Text
