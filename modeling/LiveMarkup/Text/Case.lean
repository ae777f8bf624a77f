import LiveMarkup.Text.CaseTable
import LiveMarkup.Text.Chars

/-!
Upper and lower case of a text in every script. A character may map to several (`ß` to `SS`), and a
capital sigma at the end of a word has a lowercase form of its own.
-/

namespace LiveMarkup.Text

def CaseRun.mapped? (run : CaseRun) (c : Char) : Option Char :=
  if run.first ≤ c.toNat ∧ c.toNat ≤ run.last ∧ (c.toNat - run.first) % run.step = 0 then
    some (Char.ofNat (Int.ofNat c.toNat + run.offset).toNat)
  else
    none

def mapCase (runs : List CaseRun) (expansions : List (Nat × List Nat)) (c : Char) : List Char :=
  match expansions.lookup c.toNat with
  | some codes => codes.map Char.ofNat
  | none => [(runs.findSome? (·.mapped? c)).getD c]

def upperChar (c : Char) : List Char :=
  if isAscii c then [c.toUpper] else mapCase upperRuns upperExpansions c

def lowerChar (c : Char) : List Char :=
  if isAscii c then [c.toLower] else mapCase lowerRuns lowerExpansions c

def hasUpper (c : Char) : Bool :=
  upperChar c != [c]

def hasLower (c : Char) : Bool :=
  lowerChar c != [c]

/-- A lowercase character; a titlecase one, which has both other forms, is none. -/
def isLower (c : Char) : Bool :=
  hasUpper c && !hasLower c || inRanges lowerOnlyRanges c

/-- An uppercase character; a titlecase one is none. -/
def isUpper (c : Char) : Bool :=
  hasLower c && !hasUpper c || inRanges upperOnlyRanges c

/-- A character that is lowercase, uppercase or titlecase. -/
def isCased (c : Char) : Bool :=
  hasUpper c || hasLower c || inRanges lowerOnlyRanges c || inRanges upperOnlyRanges c

/-- A mark or a punctuation sign that does not end a word. -/
def isCaseIgnorable (c : Char) : Bool :=
  if isAscii c then "'.:^`".toList.contains c
  else
    inRanges caseIgnorableRanges c ||
      inRanges graphemeExtendRanges c && !inRanges spacingExtendRanges c

/-- A sigma is final when a cased character stands before it and none after it. -/
def isFinalSigma (before after : List Char) : Bool :=
  (before.dropWhile isCaseIgnorable).head?.any isCased &&
    !(after.dropWhile isCaseIgnorable).head?.any isCased

def upper (s : List Char) : List Char :=
  s.flatMap upperChar

/-- Lowercases `rest`, whose characters follow the reversed text `before`. -/
def lowerAfter (before : List Char) : List Char → List Char
  | [] => []
  | c :: rest =>
    (if c = 'Σ' then [if isFinalSigma before rest then 'ς' else 'σ'] else lowerChar c) ++
      lowerAfter (c :: before) rest

def lower (s : List Char) : List Char :=
  lowerAfter [] s

/-- The first character in upper case and the others in lower case. -/
def capitalize : List Char → List Char
  | [] => []
  | c :: rest => upperChar c ++ lower rest

end LiveMarkup.Text
