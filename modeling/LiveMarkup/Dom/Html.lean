import LiveMarkup.Dom.Tree

/-!
Trees as markup. Attributes keep their order, an empty value is left out, and a void element has
neither children nor an end tag.
-/

namespace LiveMarkup

/-- The elements that never have children. -/
def voidElements : List String :=
  ["area", "base", "br", "col", "embed", "hr", "img", "input", "link", "meta", "source", "track",
    "wbr"]

def isVoidElement (tag : String) : Bool :=
  voidElements.contains tag

namespace Html

def escapeChar (inAttribute : Bool) (c : Char) : List Char :=
  if c = '&' then "&amp;".toList
  else if c = '<' then "&lt;".toList
  else if c = '>' then "&gt;".toList
  else if inAttribute && c = '"' then "&quot;".toList
  else [c]

def escapeText (s : String) : String :=
  String.ofList (s.toList.flatMap (escapeChar false))

def escapeValue (s : String) : String :=
  String.ofList (s.toList.flatMap (escapeChar true))

def attributeText (a : Attribute) : String :=
  if a.value.isEmpty then " " ++ a.name else " " ++ a.name ++ "=\"" ++ escapeValue a.value ++ "\""

def startTag (tag : String) (attributes : List Attribute) : String :=
  "<" ++ tag ++ String.join (attributes.map attributeText) ++ ">"

end Html

namespace Tree

mutual

def html : Tree → String
  | node content _ children =>
    match content with
    | .fragment => htmlAll children
    | .element tag attributes =>
      if isVoidElement tag then Html.startTag tag attributes
      else Html.startTag tag attributes ++ htmlAll children ++ "</" ++ tag ++ ">"
    | .text s => Html.escapeText s
    | .comment s => "<!--" ++ s ++ "-->"

def htmlAll : List Tree → String
  | [] => ""
  | tree :: rest => html tree ++ htmlAll rest

end

end Tree

/-- The markup of a node with its own tag. -/
def Dom.html (d : Dom) (id : NodeId) : String :=
  (d.tree id).html

/-- The markup of a node's children. -/
def Dom.innerHtml (d : Dom) (id : NodeId) : String :=
  Tree.htmlAll (d.tree id).children

end LiveMarkup
