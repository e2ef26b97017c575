import DoxygenRest.Text.White
import DoxygenRest.Tree.Navigation

/-!
# The vocabulary of documentation

The elements of Doxygen's documentation markup, by the part they play: inline markup runs along in a
line of text, structural markup stands in blocks of its own, and all other elements only hold
markup.  `classify` decides it by the tag, except for formulas, which are inline if they are written
between dollar signs.
-/

namespace DoxygenRest.Schema

/-- The elements that hold the documentation of something. -/
def descriptionTags : List String :=
  ["briefdescription", "detaileddescription", "inbodydescription", "parameterdescription"]

/-- The elements that can run along in a line of text. -/
def inlineTags : List String :=
  ["ulink", "bold", "s", "strike", "underline", "emphasis", "computeroutput", "subscript",
   "superscript", "center", "small", "del", "ins", "htmlonly", "manonly", "xmlonly", "rtfonly",
   "latexonly", "docbookonly", "image", "dot", "msc", "plantuml", "anchor", "formula", "ref",
   "emoji", "linebreak"]

/-- The elements that stand in blocks of their own. -/
def structuralTags : List String :=
  ["hruler", "preformatted", "programlisting", "verbatim", "indexentry", "orderedlist",
   "itemizedlist", "simplesect", "title", "variablelist", "table", "heading", "dotfile", "mscfile",
   "diafile", "toclist", "language", "parameterlist", "xrefsect", "copydoc", "blockquote",
   "parblock"]

/-- The elements whose content is meant for one other output format alone. -/
def presentationTags : List String :=
  ["htmlonly", "manonly", "rtfonly", "latexonly", "docbookonly"]

/-- The part an element plays in documentation. -/
inductive MarkupClass where
  | inline
  | structural
  | other
  deriving DecidableEq

/-- The part that an element of a given tag plays, whatever it holds. -/
def classOfTag (tag : String) : MarkupClass :=
  if inlineTags.contains tag then .inline
  else if structuralTags.contains tag then .structural
  else .other

/-- Whether a formula is written between dollar signs, white space in front aside. -/
def isDollarFormula (t : Tree) (n : NodeId) : Bool :=
  (t.text n).toList.dropWhile Text.isWhite |>.head? |> (· == some '$')

/-- The part an element plays in documentation. -/
def classify (t : Tree) (n : NodeId) : MarkupClass :=
  if t.tag n = "formula" then if isDollarFormula t n then .inline else .structural
  else classOfTag (t.tag n)

/-- Whether an element runs along in a line of text. -/
def isInline (t : Tree) (n : NodeId) : Bool :=
  classify t n == .inline

/-- Whether an element stands in a block of its own. -/
def isStructural (t : Tree) (n : NodeId) : Bool :=
  classify t n == .structural

/-- Whether an element holds neither text nor children. -/
def isEmpty (t : Tree) (n : NodeId) : Bool :=
  !t.hasText n && (t.children n).isEmpty

end DoxygenRest.Schema
