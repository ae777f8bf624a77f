import LiveMarkup.Dom.Basic
import LiveMarkup.Text.Shown

/-!
Diagnostic texts of nodes and stores.
-/

namespace LiveMarkup

open Text

def NodeId.shown (id : NodeId) : String :=
  "NodeId(" ++ toString id.slot ++ ")"

def Attribute.shown (a : Attribute) : String :=
  shownRecord "Attribute" [("name", quoted a.name), ("value", quoted a.value)]

def Content.shown : Content → String
  | fragment => "Fragment"
  | element tag attributes =>
    shownRecord "Element"
      [("tag", quoted tag), ("attributes", shownList (attributes.map Attribute.shown))]
  | text s => "Text(" ++ quoted s ++ ")"
  | comment s => "Comment(" ++ quoted s ++ ")"

def Node.shown (n : Node) : String :=
  shownRecord "Node"
    [("data", n.content.shown), ("parent", shownOption (n.parent.map NodeId.shown)),
      ("children", shownList (n.children.map NodeId.shown)),
      ("marker", shownOption (n.marker.map toString)), ("freed", shownBool n.freed)]

/-- The nodes by slot, and the empty slots, the one freed last at the end. -/
def Dom.shown (d : Dom) : String :=
  shownRecord "Dom"
    [("nodes", shownList (d.nodes.toList.map Node.shown)),
      ("free", shownList (d.free.reverse.map NodeId.shown))]

end LiveMarkup
