import LiveMarkup.Text.Chars

/-!
Diagnostic texts. Text stands between double quotes, as lists, maps and log fields show it: a quote,
a backslash and a control character are escaped, and a character without a form of its own is written
by its code. Structured values are shown on one line.
-/

namespace LiveMarkup.Text

/-! ### Quoted text -/

def hexDigits (n : Nat) : List Char :=
  Nat.toDigits 16 n

def escapeChar (c : Char) : List Char :=
  if c = '"' then ['\\', '"']
  else if c = '\\' then ['\\', '\\']
  else if c = '\n' then ['\\', 'n']
  else if c = '\r' then ['\\', 'r']
  else if c = '\t' then ['\\', 't']
  else if c = Char.ofNat 0 then ['\\', '0']
  else if isPrintable c then [c]
  else ['\\', 'u', '\x7b'] ++ hexDigits c.toNat ++ ['\x7d']

def quoted (s : String) : String :=
  String.ofList ('"' :: s.toList.flatMap escapeChar ++ ['"'])

/-! ### Structured values -/

def braced (name inside : String) : String :=
  name ++ " \x7b " ++ inside ++ " \x7d"

def shownField : String × String → String
  | (name, text) => name ++ ": " ++ text

/-- A value with named fields, given by their texts. -/
def shownRecord (name : String) (fields : List (String × String)) : String :=
  braced name (", ".intercalate (fields.map shownField))

/-- A value of which only some fields are shown. -/
def shownPartly (name : String) (fields : List (String × String)) : String :=
  braced name (", ".intercalate (fields.map shownField ++ [".."]))

def shownList (items : List String) : String :=
  "[" ++ ", ".intercalate items ++ "]"

def shownSet (items : List String) : String :=
  "\x7b" ++ ", ".intercalate items ++ "\x7d"

def shownMap (entries : List (String × String)) : String :=
  shownSet (entries.map fun (name, text) => quoted name ++ ": " ++ text)

def shownOption : Option String → String
  | some text => "Some(" ++ text ++ ")"
  | none => "None"

def shownBool (b : Bool) : String :=
  if b then "true" else "false"

end LiveMarkup.Text
