import DoxygenRest.Tree.Fragment
import DoxygenRest.Xml.Escape

/-!
# Writing XML

The written form of a subtree.  Namespace declarations and attributes stand in the order of their
names, and an element that holds neither text nor children is written as one tag, so the form
depends on the content alone.  The tail of the topmost element lies outside of it and is left out.
-/

namespace DoxygenRest

namespace Xml

/-- A blank, a name and a quoted value. -/
def writeAttribute (name value : String) : String :=
  " " ++ name ++ "=\"" ++ escapeValue value ++ "\""

/-- The declaration of a namespace; the default namespace has the empty name. -/
def writeDeclaration (name uri : String) : String :=
  writeAttribute (if name = "" then "xmlns" else "xmlns:" ++ name) uri

/-- The part of a tag from its name to its last attribute. -/
def writeTag (tag : String) (attributes namespaces : Bindings) : String :=
  tag ++ String.join (namespaces.entries.map fun entry => writeDeclaration entry.1 entry.2) ++
    String.join (attributes.entries.map fun entry => writeAttribute entry.1 entry.2)

end Xml

namespace Fragment

mutual

/-- The written form of an element, without its tail. -/
def toXml : Fragment → String
  | element tag attributes namespaces text _ children =>
    let opening := "<" ++ Xml.writeTag tag attributes namespaces
    if text.getD "" = "" ∧ children.isEmpty then opening ++ "/>"
    else
      opening ++ ">" ++ Xml.escapeText (text.getD "") ++ toXmlList children ++ "</" ++ tag ++ ">"

/-- The written form of a row of siblings, each with its tail. -/
def toXmlList : List Fragment → String
  | [] => ""
  | child :: rest => child.toXml ++ Xml.escapeText child.tail ++ toXmlList rest

end

end Fragment

/-- The written form of the subtree at `n`. -/
def Tree.toXml (t : Tree) (n : NodeId) : String :=
  (t.fragment n).toXml

end DoxygenRest
