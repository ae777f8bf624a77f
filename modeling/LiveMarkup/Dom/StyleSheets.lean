import LiveMarkup.Dom.Tree
import LiveMarkup.Text.Chars

/-!
Style sheets of a component in its rendered tree.
-/

namespace LiveMarkup

/-- How style sheets are put into a root. -/
inductive StyleAttacher where
  /-- A style element per sheet before everything else. -/
  | elements
  /-- A comment that counts the sheets, after everything else. -/
  | count
  deriving DecidableEq, Repr

/-- A sheet that holds more than blanks. -/
def hasRules (sheet : String) : Bool :=
  !(Text.trim sheet.toList).isEmpty

/-- Puts a style element for `sheet` after the element `previous`, or first without one. -/
def attachSheet (d : Dom) (root : NodeId) (previous : Option NodeId) (sheet : String) :
    Dom × NodeId :=
  let (d, style) := d.createElement "style"
  let (d, text) := d.create (.text sheet)
  let d := d.appendChild style text
  let (d, placed) := match previous, (d.children root).head? with
    | some previous, _ => d.insertAfter previous style
    | none, some first => d.insertBefore first style
    | none, none => (d, false)
  (if placed then d else d.appendChild root style, style)

def attachSheets (d : Dom) (root : NodeId) (previous : Option NodeId) : List String → Dom
  | [] => d
  | sheet :: rest =>
    let (d, style) := attachSheet d root previous sheet
    attachSheets d root (some style) rest

def StyleAttacher.attach (attacher : StyleAttacher) (d : Dom) (root : NodeId)
    (sheets : List String) : Dom :=
  match attacher with
  | .elements => attachSheets d root none (sheets.filter hasRules)
  | .count =>
    let (d, comment) := d.create (.comment ("styles:" ++ toString sheets.length))
    d.appendChild root comment

end LiveMarkup
