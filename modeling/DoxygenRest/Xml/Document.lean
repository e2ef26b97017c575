import DoxygenRest.Tree.Navigation
import DoxygenRest.Xml.Reader

/-!
# Documents as element trees

The events of a document are folded into a tree, one at a time.  Elements are numbered in the order
of their start tags.  Text belongs to the element opened last, either as its text or, once a child
of it has been closed, as the tail of that child; text outside of all elements is dropped, and so
is all markup without content.

A document has exactly one element at the top, and that element is closed before the document ends.
-/

namespace DoxygenRest

namespace Xml

/-- Why a document is no element tree. -/
inductive DocumentError where
  /-- The text cannot be read from this byte on. -/
  | unreadable (position : Nat) (cause : Error)
  /-- An end tag for another element than the one open, or for none at all. -/
  | unbalancedEndTag (position : Nat) (expected found : String)
  | missingRoot
  /-- A second element at the top. -/
  | multipleRoots (position : Nat) (tag : String)
  /-- The document ends inside this element. -/
  | unclosed (tag : String)
  deriving DecidableEq

namespace DocumentError

/-- The wording of a document error. -/
def message : DocumentError → String
  | unreadable position cause => "Malformed XML at " ++ toString position ++ ": " ++ cause.message
  | unbalancedEndTag position expected found =>
    "Unexpected end tag </" ++ found ++ "> at " ++ toString position ++ ", expected </" ++ expected ++
      ">"
  | missingRoot => "Document has no root element"
  | multipleRoots position tag =>
    "Document has more than one root element (found <" ++ tag ++ "> at " ++ toString position ++ ")"
  | unclosed tag => "Unclosed element <" ++ tag ++ "> at end of document"

/-- The wordings from the error to its innermost cause. -/
def causes (e : DocumentError) : List String :=
  e.message :: match e with
    | unreadable _ cause => cause.causes
    | _ => []

end DocumentError

/-- Whether blank text is kept. -/
inductive Blanks where
  | keep
  /-- Drop each run of blank text, unless the element it stands in has text already. -/
  | strip
  deriving DecidableEq

/-- What has been built from the events so far. -/
structure Builder where
  /-- The tree, once its root has been opened. -/
  tree? : Option Tree := none
  /-- The open elements, innermost first. -/
  opened : List NodeId := []
  /-- The element closed last, unless another has been opened since. -/
  lastClosed? : Option NodeId := none
  deriving DecidableEq

/-- Whether an attribute declares a namespace, and then the name it declares. -/
def declaredName? (name : String) : Option String :=
  if name = "xmlns" then some ""
  else if "xmlns:".toList.isPrefixOf name.toList then some (String.ofList (name.toList.drop 6))
  else none

/-- The attributes of a tag that declare no namespace. -/
def plainAttributes (attributes : List (String × String)) : Bindings :=
  .ofList (attributes.filter fun item => (declaredName? item.1).isNone)

/-- The namespaces that the attributes of a tag declare. -/
def declaredNamespaces (attributes : List (String × String)) : Bindings :=
  .ofList (attributes.filterMap fun item => (declaredName? item.1).map fun name => (name, item.2))

/-- Add an element that belongs behind the last child of `parent`. -/
def addChild (t : Tree) (parent : NodeId) (tag : String) (attributes : List (String × String)) :
    Tree :=
  let (n, t) := t.create tag (plainAttributes attributes) (declaredNamespaces attributes)
  (t.update parent fun e => { e with children := e.children ++ [n] }).update n
    fun e => { e with parent := some parent }

namespace Builder

/-- Open an element.  The answer holds its number. -/
def openElement (b : Builder) (position : Nat) (tag : String)
    (attributes : List (String × String)) : Except DocumentError (NodeId × Builder) :=
  match b.tree?, b.opened with
  | none, _ =>
    let t := Tree.ofRoot tag (plainAttributes attributes) (declaredNamespaces attributes)
    .ok (Tree.root, { b with tree? := some t, lastClosed? := none })
  | some _, [] => .error (.multipleRoots position tag)
  | some t, parent :: _ =>
    .ok (t.size, { b with tree? := some (addChild t parent tag attributes), lastClosed? := none })

/-- Close the element opened last, whose tag has to be `tag`. -/
def closeElement (b : Builder) (position : Nat) (tag : String) : Except DocumentError Builder :=
  match b.tree?, b.opened with
  | some t, n :: outer =>
    if t.tag n = tag then .ok { b with opened := outer, lastClosed? := some n }
    else .error (.unbalancedEndTag position (t.tag n) tag)
  | _, _ => .error (.unbalancedEndTag position "" tag)

/-- Add text where the document stands. -/
def addText (blanks : Blanks) (b : Builder) (content : String) : Builder :=
  match b.tree?, b.opened with
  | some t, n :: _ =>
    if blanks = .strip ∧ Text.isBlank content ∧ !t.hasText n then b
    else
      match b.lastClosed? with
      | some previous =>
        if t.parent? previous = some n then
          { b with tree? := some (t.extendTail previous content) }
        else { b with tree? := some (t.extendText n content) }
      | none => { b with tree? := some (t.extendText n content) }
  | _, _ => b

/-- Take in one event, which starts at byte `position`. -/
def step (blanks : Blanks) (b : Builder) (position : Nat) :
    Event → Except DocumentError Builder
  | .start tag attributes => do
    let (n, b) ← b.openElement position tag attributes
    pure { b with opened := n :: b.opened }
  | .empty tag attributes => do
    let (n, b) ← b.openElement position tag attributes
    pure { b with lastClosed? := some n }
  | .stop tag => b.closeElement position tag
  | .text content => .ok (b.addText blanks content)
  | .cdata content => .ok (b.addText blanks content)
  | .comment => .ok b
  | .instruction => .ok b
  | .doctype => .ok b

/-- Take in events in turn. -/
def feed (blanks : Blanks) (b : Builder) (events : List (Nat × Event)) :
    Except DocumentError Builder :=
  events.foldlM (fun b item => b.step blanks item.1 item.2) b

/-- The tree, if the document may end here. -/
def finish (b : Builder) : Except DocumentError Tree :=
  match b.tree?, b.opened with
  | none, _ => .error .missingRoot
  | some t, [] => .ok t
  | some t, n :: _ => .error (.unclosed (t.tag n))

end Builder

/-- Build the tree of a document from what was read of it.  Of two faults the one that comes first
in the document is reported. -/
def Reading.tree (blanks : Blanks) (r : Reading) : Except DocumentError Tree := do
  let b ← Builder.feed blanks {} r.events
  match r.failure? with
  | some (position, cause) => .error (.unreadable position cause)
  | none => b.finish

end Xml

/-- Read a document as an element tree. -/
def Tree.parse (blanks : Xml.Blanks) (document : String) : Except Xml.DocumentError Tree :=
  (Xml.read document).tree blanks

end DoxygenRest
