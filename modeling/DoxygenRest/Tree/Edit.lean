import DoxygenRest.Tree.Navigation

/-!
# Moving elements

Edits of the links between parents and children.  `unlink` takes an element out of its parent and
`link` puts a parentless element under a new one; both are total.  The public edits `insertChild`,
`appendChild`, `insertAfter` and `detach` check first that no element comes to lie in its own
subtree and that the root stays the root.

An edit is a program over a tree that may fail.  A failed edit also says what tree it leaves
behind.
-/

namespace DoxygenRest

/-- Why elements cannot be moved as asked. -/
inductive EditError where
  /-- The element with this tag would come to lie inside itself. -/
  | intoOwnSubtree (tag : String)
  /-- The root of the document can have no parent. -/
  | reparentRoot
  /-- The element with this tag, after which another is to stand, has no parent. -/
  | noParent (tag : String)
  /-- The element after which another is to stand is not listed by its parent. -/
  | notAmongSiblings
  /-- The root of the document cannot be taken out of it. -/
  | detachRoot
  deriving DecidableEq

/-- The wording of a refused edit. -/
def EditError.message : EditError → String
  | .intoOwnSubtree tag => "Invalid tree edit: cannot insert <" ++ tag ++ "> into its own subtree"
  | .reparentRoot => "Invalid tree edit: cannot reparent the root element"
  | .noParent tag => "Invalid tree edit: <" ++ tag ++ "> has no parent to insert into"
  | .notAmongSiblings => "Invalid tree edit: anchor is not a child of its parent"
  | .detachRoot => "Invalid tree edit: cannot detach the root element"

namespace Tree

/-- A program that edits a tree and may be refused; a refusal keeps what was done before it. -/
abbrev Edit (α : Type) := EStateM EditError Tree α

/-- Take `n` out of its parent, if it has one. -/
def unlink (t : Tree) (n : NodeId) : Tree :=
  match t.parent? n with
  | none => t
  | some parent =>
    (t.update n fun e => { e with parent := none }).update parent
      fun e => { e with children := e.children.filter (· != n) }

/-- Put the parentless `n` under `parent`, in front of its child at place `index`, or last. -/
def link (t : Tree) (parent : NodeId) (index : Nat) (n : NodeId) : Tree :=
  (t.update parent fun e =>
      { e with children := e.children.take index ++ n :: e.children.drop index }).update n
    fun e => { e with parent := some parent }

/-- Why `child` cannot come to lie under `parent`, if so. -/
def refusal? (t : Tree) (parent child : NodeId) : Option EditError :=
  if child == parent || t.isAncestorOf child parent then some (.intoOwnSubtree (t.tag child))
  else if child == root then some .reparentRoot
  else none

/-- Fail unless `child` may come to lie under `parent`. -/
def checkInsertable (parent child : NodeId) : Edit Unit := fun t =>
  match t.refusal? parent child with
  | some error => .error error t
  | none => .ok () t

/-- Move `child`, tail and all, to place `index` among the children of `parent`, counted without
`child` itself; beyond the last place it comes last. -/
def insertChild (parent : NodeId) (index : Nat) (child : NodeId) : Edit Unit := do
  checkInsertable parent child
  modify fun t => (t.unlink child).link parent index child

/-- Move `child`, tail and all, behind the last child of `parent`. -/
def appendChild (parent child : NodeId) : Edit Unit := do
  insertChild parent ((← get).children parent).length child

/-- Move each listed element in turn behind the last child of `parent`. -/
def appendChildren (parent : NodeId) (nodes : List NodeId) : Edit Unit :=
  nodes.forM (appendChild parent)

/-- Move `n`, tail and all, to the place right after `anchor`.  An element cannot stand after
itself: it is then left without a parent. -/
def insertAfter (anchor n : NodeId) : Edit Unit := do
  match (← get).parent? anchor with
  | none => throw (.noParent ((← get).tag anchor))
  | some parent =>
    checkInsertable parent n
    modify (·.unlink n)
    match (← get).indexInParent? anchor with
    | none => throw .notAmongSiblings
    | some index => modify (·.link parent (index + 1) n)

/-- Take `n` out of its parent.  It keeps its content and its tail. -/
def detach (n : NodeId) : Edit Unit := do
  if n == root then throw .detachRoot
  modify (·.unlink n)

end Tree

end DoxygenRest
