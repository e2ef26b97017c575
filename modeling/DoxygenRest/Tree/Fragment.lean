import DoxygenRest.Tree.Navigation

/-!
# Subtrees as values

A fragment is a subtree by value: the data of an element and the fragments of its children,
without numbers and parent links.  Whatever depends on nothing but a subtree is a function of its
fragment: the string value, the sameness of two subtrees, the written form.
-/

namespace DoxygenRest

/-- An element by value, with its tail and all it holds. -/
inductive Fragment where
  | element (tag : String) (attributes namespaces : Bindings) (text tail : Option String)
      (children : List Fragment)
  deriving Inhabited

namespace Fragment

/-- The text after the element, empty if absent. -/
def tail : Fragment → String
  | element _ _ _ _ tail _ => tail.getD ""

mutual

/-- All text inside the element, in document order; its own tail lies outside. -/
def stringValue : Fragment → String
  | element _ _ _ text _ children => text.getD "" ++ stringValues children

/-- All text of a row of siblings, tails included. -/
def stringValues : List Fragment → String
  | [] => ""
  | child :: rest => child.stringValue ++ child.tail ++ stringValues rest

end

mutual

/-- Whether two elements have the same tag, attributes and content.  Absent and empty text are the
same, and the elements' own tails and all namespace declarations are left aside. -/
def same : Fragment → Fragment → Bool
  | element tag attributes _ text _ children, element tag' attributes' _ text' _ children' =>
    tag == tag' && attributes == attributes' && text.getD "" == text'.getD "" &&
      sameList children children'

/-- Whether two rows of siblings are as long and agree in each element and tail. -/
def sameList : List Fragment → List Fragment → Bool
  | [], [] => true
  | x :: xs, y :: ys => x.tail == y.tail && x.same y && sameList xs ys
  | _, _ => false

end

end Fragment

namespace Tree

/-- The fragment at `n`, cut off below depth `depth`. -/
def fragmentWithin (t : Tree) : (depth : Nat) → NodeId → Fragment
  | 0, n => .element (t.tag n) (t.attributes n) (t.declaredNamespaces n) (t.text? n) (t.tail? n) []
  | depth + 1, n =>
    .element (t.tag n) (t.attributes n) (t.declaredNamespaces n) (t.text? n) (t.tail? n)
      ((t.children n).map (t.fragmentWithin depth))

/-- The subtree at `n` by value.  No branch is longer than the tree has elements. -/
def fragment (t : Tree) (n : NodeId) : Fragment :=
  t.fragmentWithin t.size n

/-- All text inside `n`, in document order; its own tail lies outside. -/
def stringValue (t : Tree) (n : NodeId) : String :=
  (t.fragment n).stringValue

/-- Whether the subtrees at `n` in `t` and at `m` in `u` mean the same element. -/
def semanticallyEqual (t : Tree) (n : NodeId) (u : Tree) (m : NodeId) : Bool :=
  (t.fragment n).same (u.fragment m)

end Tree

end DoxygenRest
