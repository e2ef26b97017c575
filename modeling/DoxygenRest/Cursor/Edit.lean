import DoxygenRest.Cursor.Basic

/-!
# Editing under a cursor

The edits of a cursor join, divide, lift and remove elements below the cursor's root.  They take an
element, or else the one the cursor stands on, and they only ever concatenate text, so that no
text is lost but that of a removed element.

Dividing `<parent>` in front of `<target>`:

    <parent>a<target>b</target>c</parent>
    <parent>a</parent><parent><target>b</target>c</parent>

Lifting `<target>` out of `<parent>`:

    <parent>a<target>b</target>c</parent>
    <parent>a</parent><target>b</target><parent>c</parent>
-/

namespace DoxygenRest.Cursor

/-! ### What an edit works on -/

/-- The element an operation works on: the one given, or else the current one.  It has to lie in
the cursor's subtree. -/
def target (operation : String) (n? : Option NodeId) : Edit NodeId := do
  let c ← get
  match n?.or c.current with
  | none => throw (.misuse operation "" "the cursor is exhausted")
  | some n =>
    if c.contains n then pure n
    else throw (c.violation operation n "outside the cursor's subtree")

/-- The target of an operation that is impossible on the cursor's root. -/
def targetBelowRoot (operation : String) (n? : Option NodeId) : Edit NodeId := do
  let n ← target operation n?
  let c ← get
  if n = c.root then throw (c.violation operation n "it is the cursor's root")
  pure n

/-- The target of an operation that divides its parent, and the parent.  A copy of the parent is to
stand beside it, so the parent itself has to lie below the cursor's root. -/
def targetInDivisible (operation : String) (n? : Option NodeId) : Edit (NodeId × NodeId) := do
  let n ← targetBelowRoot operation n?
  let c ← get
  let refusal := c.violation operation n "it is a direct child of the cursor's root"
  match c.tree.parent? n with
  | none => throw refusal
  | some parent => if parent = c.root then throw refusal else pure (n, parent)

/-! ### Pieces of edits -/

/-- Append text at the end of the content of `n`. -/
def appendContent (n : NodeId) (text : String) : Edit Unit :=
  updateTree fun t =>
    match t.lastChild? n with
    | some last => t.extendTail last text
    | none => t.extendText n text

/-- Append text to whatever stands right before `n`: the tail of the sibling before it, or else the
text of its parent. -/
def extendBefore (n : NodeId) (text : String) : Edit Unit :=
  updateTree fun t =>
    match t.previousSibling? n, t.parent? n with
    | some previous, _ => t.extendTail previous text
    | none, some parent => t.extendText parent text
    | none, none => t

/-- Place elements in a row right after `anchor`; the answer is the last element of the row. -/
def placeRow (anchor : NodeId) : List NodeId → Edit NodeId
  | [] => pure anchor
  | n :: rest => do
    onTree (Tree.insertAfter anchor n)
    placeRow n rest

/-- Place elements in a row right after `parent` and hand the tail of `parent` to the last of
them. -/
def placeAfter (parent : NodeId) (row : List NodeId) : Edit Unit := do
  let last ← placeRow parent row
  let tail ← stepTree (·.takeTail parent)
  updateTree (·.prependTail last (tail.getD ""))

/-! ### The edits -/

/-- Join an element into its previous sibling.

The sibling's tail becomes part of its content, followed by the element's text and children; the
element's tail becomes the sibling's, and the element is left without a parent.  A cursor on the
element moves to its first child, or behind the element if it had none. -/
def mergeIntoPrevious (n? : Option NodeId) : Edit Unit := do
  let n ← targetBelowRoot "merge" n?
  let c ← get
  match c.tree.previousSibling? n with
  | none => throw (c.violation "merge" n "it has no previous sibling")
  | some previous =>
    let landing := (c.tree.firstChild? n).or (c.nextOutside n)
    let gap ← stepTree (·.takeTail previous)
    appendContent previous (gap.getD "")
    let text ← stepTree (·.takeText n)
    appendContent previous (text.getD "")
    onTree (Tree.appendChildren previous (c.tree.children n))
    let tail ← stepTree (·.takeTail n)
    updateTree (·.setTail previous tail)
    onTree (Tree.detach n)
    if c.current = some n then modify fun c => { c with current := landing }

/-- Divide the parent of an element: the element and the siblings after it move into a copy of the
parent, placed right after it.  The cursor stays where it is. -/
def splitBefore (n? : Option NodeId) : Edit Unit := do
  let (n, parent) ← targetInDivisible "split" n?
  let following := (← get).tree.followingSiblings n
  let continuation ← stepTree (·.duplicate parent)
  onTree (Tree.appendChildren continuation (n :: following))
  placeAfter parent [continuation]

/-- Divide the parent of an element behind the element: its tail and the siblings after it move
into a copy of the parent, placed right after it.  The cursor stays where it is. -/
def splitAfterTail (n? : Option NodeId) : Edit Unit := do
  let (n, parent) ← targetInDivisible "split" n?
  let following := (← get).tree.followingSiblings n
  let continuation ← stepTree (·.duplicate parent)
  let tail ← stepTree (·.takeTail n)
  updateTree (·.setText continuation tail)
  onTree (Tree.appendChildren continuation following)
  placeAfter parent [continuation]

/-- Lift an element out of its parent, right behind it.  If the element has a tail or siblings after
it, they follow in a copy of the parent.  The cursor stays where it is. -/
def lift (n? : Option NodeId) : Edit Unit := do
  let (n, parent) ← targetInDivisible "lift" n?
  let following := (← get).tree.followingSiblings n
  let tail := ((← stepTree (·.takeTail n)).filter (· != ""))
  if tail.isNone && following.isEmpty then placeAfter parent [n]
  else
    let continuation ← stepTree (·.duplicate parent)
    updateTree (·.setText continuation tail)
    onTree (Tree.appendChildren continuation following)
    placeAfter parent [n, continuation]

/-- Remove an element with all it holds.  Its tail joins the text before it.  A cursor on the element
or inside of it first moves behind it. -/
def remove (n? : Option NodeId) : Edit Unit := do
  let n ← targetBelowRoot "remove" n?
  modify fun c =>
    match c.current with
    | none => c
    | some m =>
      if m = n ∨ c.tree.isAncestorOf n m then { c with current := c.nextOutside n } else c
  let tail ← stepTree (·.takeTail n)
  extendBefore n (tail.getD "")
  onTree (Tree.detach n)

end DoxygenRest.Cursor
