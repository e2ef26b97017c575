import DoxygenRest.Tree.Basic

/-!
# Walking an element tree

Relatives of an element: siblings, ancestors, descendants, and the namespaces in scope.

Parent links are climbed, and subtrees are listed, for at most as many steps as the tree has
elements.  In a tree whose links are consistent this bound is never felt: a chain of ancestors
repeats no element, and neither does a list of descendants.
-/

namespace DoxygenRest.Tree

/-- The first child of `n`. -/
def firstChild? (t : Tree) (n : NodeId) : Option NodeId :=
  (t.children n).head?

/-- The last child of `n`. -/
def lastChild? (t : Tree) (n : NodeId) : Option NodeId :=
  (t.children n).getLast?

/-- The place of `n` among the children of its parent, counted from 0. -/
def indexInParent? (t : Tree) (n : NodeId) : Option Nat :=
  (t.parent? n).bind fun parent => (t.children parent).idxOf? n

/-- The siblings before `n`, nearest first. -/
def precedingSiblings (t : Tree) (n : NodeId) : List NodeId :=
  match t.parent? n, t.indexInParent? n with
  | some parent, some index => ((t.children parent).take index).reverse
  | _, _ => []

/-- The siblings after `n`, in document order. -/
def followingSiblings (t : Tree) (n : NodeId) : List NodeId :=
  match t.parent? n, t.indexInParent? n with
  | some parent, some index => (t.children parent).drop (index + 1)
  | _, _ => []

/-- The sibling right before `n`. -/
def previousSibling? (t : Tree) (n : NodeId) : Option NodeId :=
  (t.precedingSiblings n).head?

/-- The sibling right after `n`. -/
def nextSibling? (t : Tree) (n : NodeId) : Option NodeId :=
  (t.followingSiblings n).head?

/-- Climb from `n` by at most `steps` parent links; the nearest ancestor comes first. -/
def climb (t : Tree) : (steps : Nat) → NodeId → List NodeId
  | 0, _ => []
  | steps + 1, n =>
    match t.parent? n with
    | none => []
    | some parent => parent :: t.climb steps parent

/-- The ancestors of `n`, nearest first. -/
def ancestors (t : Tree) (n : NodeId) : List NodeId :=
  t.climb t.size n

/-- Whether `n` lies below `ancestor`. -/
def isAncestorOf (t : Tree) (ancestor n : NodeId) : Bool :=
  (t.ancestors n).contains ancestor

/-- Whether `n` belongs to the document: it is the root or lies below it. -/
def isAttached (t : Tree) (n : NodeId) : Bool :=
  n == root || t.isAncestorOf root n

/-- List the waiting elements, each followed by its subtree, for at most `steps` elements. -/
def walk (t : Tree) : (steps : Nat) → (waiting : List NodeId) → List NodeId
  | 0, _ => []
  | _ + 1, [] => []
  | steps + 1, n :: waiting => n :: t.walk steps (t.children n ++ waiting)

/-- All elements below `n`, in document order. -/
def descendants (t : Tree) (n : NodeId) : List NodeId :=
  t.walk t.size (t.children n)

/-- The namespaces in scope at `n`; the nearest declaration of a name wins. -/
def namespaces (t : Tree) (n : NodeId) : Bindings :=
  (n :: t.ancestors n).reverse.foldl (fun scope m => scope.union (t.declaredNamespaces m)) .empty

end DoxygenRest.Tree
