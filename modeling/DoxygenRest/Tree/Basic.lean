import DoxygenRest.Bindings

/-!
# Element trees

A tree is a store of elements, addressed by their numbers.  Element 0 is the root of the document;
elements created later take the next free number.  Taking an element out of its parent frees
nothing: the element keeps its number and its own subtree.

An element owns the text before its first child (`text`) and the text that follows its own end tag
(`tail`), which belongs to the flow of its parent:

    <para>TEXT<bold>inner</bold>TAIL</para>

Absent text and empty text are told apart, although they mean the same document.

This module holds the data, the reading of single fields, and the edits that keep every parent and
child link as it is.
-/

namespace DoxygenRest

/-- The number of an element in its tree. -/
abbrev NodeId := Nat

/-- How an element's number is shown. -/
def NodeId.label (n : NodeId) : String :=
  "#" ++ toString n

/-- One element: its own data and its links to parent and children. -/
structure Element where
  /-- The element's name. -/
  tag : String
  /-- The attributes, namespace declarations excluded. -/
  attributes : Bindings := .empty
  /-- The namespaces declared on the element itself; the default one has the empty name. -/
  namespaces : Bindings := .empty
  /-- The text before the first child. -/
  text : Option String := none
  /-- The text between the element's end tag and whatever follows it in the parent. -/
  tail : Option String := none
  /-- The element that holds this one, if any. -/
  parent : Option NodeId := none
  /-- The elements held by this one, in document order. -/
  children : List NodeId := []
  deriving DecidableEq, Inhabited

/-- A store of elements. -/
structure Tree where
  /-- The elements by number. -/
  elements : Array Element
  deriving DecidableEq, Inhabited

namespace Tree

/-- The number of the document's root. -/
def root : NodeId := 0

/-- A tree that holds one root element without content. -/
def ofRoot (tag : String) (attributes namespaces : Bindings) : Tree :=
  ⟨#[{ tag, attributes, namespaces }]⟩

/-- The number of elements, those outside the document included. -/
def size (t : Tree) : Nat :=
  t.elements.size

/-- The element numbered `n`. -/
def element (t : Tree) (n : NodeId) : Element :=
  t.elements.getD n default

/-- Change the element numbered `n` alone. -/
def update (t : Tree) (n : NodeId) (f : Element → Element) : Tree :=
  ⟨t.elements.modify n f⟩

/-! ### Reading an element -/

/-- The element's name. -/
def tag (t : Tree) (n : NodeId) : String :=
  (t.element n).tag

/-- The element's attributes. -/
def attributes (t : Tree) (n : NodeId) : Bindings :=
  (t.element n).attributes

/-- The value of an attribute, if the element has it. -/
def attribute? (t : Tree) (n : NodeId) (name : String) : Option String :=
  (t.attributes n).get? name

/-- The namespaces declared on the element itself. -/
def declaredNamespaces (t : Tree) (n : NodeId) : Bindings :=
  (t.element n).namespaces

/-- The text before the element's first child. -/
def text? (t : Tree) (n : NodeId) : Option String :=
  (t.element n).text

/-- The text after the element. -/
def tail? (t : Tree) (n : NodeId) : Option String :=
  (t.element n).tail

/-- The element's text, empty if absent. -/
def text (t : Tree) (n : NodeId) : String :=
  (t.text? n).getD ""

/-- The element's tail, empty if absent. -/
def tail (t : Tree) (n : NodeId) : String :=
  (t.tail? n).getD ""

/-- Whether the element has text that is not empty. -/
def hasText (t : Tree) (n : NodeId) : Bool :=
  t.text n != ""

/-- Whether the element has a tail that is not empty. -/
def hasTail (t : Tree) (n : NodeId) : Bool :=
  t.tail n != ""

/-- The element that holds `n`. -/
def parent? (t : Tree) (n : NodeId) : Option NodeId :=
  (t.element n).parent

/-- The elements that `n` holds, in document order. -/
def children (t : Tree) (n : NodeId) : List NodeId :=
  (t.element n).children

/-! ### Creating elements -/

/-- Add an element without content and without a parent.  Its number is the tree's old size. -/
def create (t : Tree) (tag : String) (attributes namespaces : Bindings) : NodeId × Tree :=
  (t.size, ⟨t.elements.push { tag, attributes, namespaces }⟩)

/-- Add an element with the tag, attributes and namespace declarations of `n`, but no content. -/
def duplicate (t : Tree) (n : NodeId) : NodeId × Tree :=
  t.create (t.tag n) (t.attributes n) (t.declaredNamespaces n)

/-! ### Editing an element's own data -/

/-- Bind an attribute, replacing its former value. -/
def setAttribute (t : Tree) (n : NodeId) (name value : String) : Tree :=
  t.update n fun e => { e with attributes := e.attributes.insert name value }

/-- Declare namespaces on the element, replacing former declarations of the same names. -/
def declareNamespaces (t : Tree) (n : NodeId) (namespaces : Bindings) : Tree :=
  t.update n fun e => { e with namespaces := e.namespaces.union namespaces }

/-- Replace the element's text. -/
def setText (t : Tree) (n : NodeId) (text : Option String) : Tree :=
  t.update n fun e => { e with text }

/-- Replace the element's tail. -/
def setTail (t : Tree) (n : NodeId) (tail : Option String) : Tree :=
  t.update n fun e => { e with tail }

/-- Append to a text that may be absent.  Appending nothing leaves an absent text absent. -/
def appendTo (text : Option String) (more : String) : Option String :=
  if more = "" then text else some (text.getD "" ++ more)

/-- Put text in front of a text that may be absent. -/
def prependTo (text : Option String) (more : String) : Option String :=
  if more = "" then text else some (more ++ text.getD "")

/-- Append to the element's text. -/
def extendText (t : Tree) (n : NodeId) (more : String) : Tree :=
  t.update n fun e => { e with text := appendTo e.text more }

/-- Append to the element's tail. -/
def extendTail (t : Tree) (n : NodeId) (more : String) : Tree :=
  t.update n fun e => { e with tail := appendTo e.tail more }

/-- Take the element's text away; the answer holds what it was. -/
def takeText (t : Tree) (n : NodeId) : Option String × Tree :=
  (t.text? n, t.setText n none)

/-- Take the element's tail away; the answer holds what it was. -/
def takeTail (t : Tree) (n : NodeId) : Option String × Tree :=
  (t.tail? n, t.setTail n none)

/-- Put text in front of the element's tail. -/
def prependTail (t : Tree) (n : NodeId) (more : String) : Tree :=
  t.update n fun e => { e with tail := prependTo e.tail more }

end Tree

end DoxygenRest
