import DoxygenRest.PassError

/-!
# Cursors

A cursor is a position in a subtree that it never leaves.  It holds the tree it walks over, the
root of the subtree, and the element it stands on, unless it is exhausted.

`advanceInto` and `advancePast` walk the subtree in document order, the one entering the current
element and the other skipping it; `retreat` goes back.  These never fail.  `moveTo` fails outside
of the subtree.
-/

namespace DoxygenRest

/-- A position in a subtree. -/
structure Cursor where
  /-- The tree walked over. -/
  tree : Tree
  /-- The root of the subtree that the cursor may not leave. -/
  root : NodeId
  /-- The current element; absent once the cursor is exhausted. -/
  current : Option NodeId
  deriving DecidableEq

namespace Cursor

/-- A program that moves a cursor and edits its tree, and may fail; a failure keeps what was done
before it. -/
abbrev Edit (α : Type) := EStateM PassError Cursor α

/-- The cursor that stands on the root of its subtree. -/
def start (tree : Tree) (root : NodeId) : Cursor :=
  ⟨tree, root, some root⟩

/-- Whether `n` is the root of the cursor's subtree or lies below it. -/
def contains (c : Cursor) (n : NodeId) : Bool :=
  n == c.root || c.tree.isAncestorOf c.root n

/-- Whether the cursor has left its subtree. -/
def isExhausted (c : Cursor) : Bool :=
  c.current.isNone

/-- The element that follows the subtree of `n` in document order, within the cursor's subtree: the
next sibling of the nearest of `n` and its ancestors, up to the root, that has one. -/
def nextOutside (c : Cursor) (n : NodeId) : Option NodeId :=
  ((n :: c.tree.ancestors n).takeWhile (· != c.root)).findSome? c.tree.nextSibling?

/-! ### Movements -/

/-- Move behind the current element's subtree. -/
def advancePast (c : Cursor) : Cursor :=
  match c.current with
  | none => c
  | some n => { c with current := c.nextOutside n }

/-- Move to the first child, or behind the current element if it has none. -/
def advanceInto (c : Cursor) : Cursor :=
  match c.current with
  | none => c
  | some n =>
    match c.tree.firstChild? n with
    | some child => { c with current := some child }
    | none => c.advancePast

/-- Move to the previous sibling, or else to the parent.  On the root nothing moves. -/
def retreat (c : Cursor) : Cursor :=
  match c.current with
  | none => c
  | some n =>
    if n = c.root then c
    else { c with current := (c.tree.previousSibling? n).or (c.tree.parent? n) }

/-- Leave the subtree. -/
def stop (c : Cursor) : Cursor :=
  { c with current := none }

/-! ### Failing and editing -/

/-- The failure of an operation on `n`. -/
def violation (c : Cursor) (operation : String) (n : NodeId) (reason : String) : PassError :=
  .misuse operation (c.tree.tag n) reason

/-- Run an edit of the tree under the cursor. -/
def onTree {α : Type} (edit : Tree.Edit α) : Edit α := fun c =>
  match edit c.tree with
  | .ok a tree => .ok a { c with tree }
  | .error cause tree => .error (.edit cause) { c with tree }

/-- Change the tree under the cursor in a way that cannot fail. -/
def updateTree (f : Tree → Tree) : Edit Unit :=
  modify fun c => { c with tree := f c.tree }

/-- Change the tree under the cursor in a way that cannot fail and has an answer. -/
def stepTree {α : Type} (f : Tree → α × Tree) : Edit α :=
  modifyGet fun c => ((f c.tree).1, { c with tree := (f c.tree).2 })

/-- Move to `n`, which has to lie in the subtree. -/
def moveTo (n : NodeId) : Edit Unit := do
  let c ← get
  if c.contains n then set { c with current := some n }
  else throw (c.violation "move to" n "outside the cursor's subtree")

end Cursor

end DoxygenRest
