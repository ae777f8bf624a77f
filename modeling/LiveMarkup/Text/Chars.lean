import LiveMarkup.Text.WordTable
import LiveMarkup.Text.PrintTable

/-!
Classes of characters. Each class is spelled out for ASCII and read from a table of inclusive ranges
beyond it.
-/

namespace LiveMarkup.Text

def inRanges (ranges : List (Nat × Nat)) (c : Char) : Bool :=
  ranges.any fun (low, high) => low ≤ c.toNat && c.toNat ≤ high

def isAscii (c : Char) : Bool :=
  c.toNat < 0x80

/-- White space: the blanks of ASCII from tab to carriage return and the space, and the Unicode
spaces and line separators. -/
def isBlank (c : Char) : Bool :=
  inRanges [(0x09, 0x0D), (0x20, 0x20), (0x85, 0x85), (0xA0, 0xA0), (0x1680, 0x1680),
    (0x2000, 0x200A), (0x2028, 0x2029), (0x202F, 0x202F), (0x205F, 0x205F), (0x3000, 0x3000)] c

/-- Letters, marks, decimal digits, connector punctuation and the two zero-width joiners. -/
def isWord (c : Char) : Bool :=
  if isAscii c then c.isAlphanum || c = '_' else inRanges wordRanges c

/-- Letters and numbers of every script. -/
def isAlphanumeric (c : Char) : Bool :=
  if isAscii c then c.isAlphanum
  else (inRanges wordRanges c && !inRanges wordOnlyRanges c) || inRanges alphanumericOnlyRanges c

/-- A character that has a form of its own when it is written out. -/
def isPrintable (c : Char) : Bool :=
  if isAscii c then 0x20 ≤ c.toNat && c.toNat < 0x7F
  else !inRanges unprintableRanges c && !inRanges graphemeExtendRanges c

/-- Drops the blanks at both ends. -/
def trim (s : List Char) : List Char :=
  ((s.dropWhile isBlank).reverse.dropWhile isBlank).reverse

/-- Lowercases the ASCII letters and keeps every other character. -/
def asciiLower (s : String) : String :=
  s.map Char.toLower

def sameIgnoringAsciiCase (a b : String) : Bool :=
  asciiLower a == asciiLower b

end LiveMarkup.Text
