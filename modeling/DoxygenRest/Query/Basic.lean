import DoxygenRest.Tree.Navigation

/-!
# Path queries

A small language to ask for elements near a given one, used by the guards of rules:

    ./*                                  the children
    ./title                              the children named title
    preceding-sibling::*[1][self::para]  the sibling right before, if it is named para
    ancestor::highlight                  the elements named highlight around
    @kind='param'                        the element itself, if it has that attribute

A path is a row of steps, each of which goes from an element along an axis, keeps the elements
that pass a name test, and thins them out by predicates from left to right.  `Expr.select` gives
the meaning of a query as a list of elements; a query holds of an element if it selects any.
-/

namespace DoxygenRest.Query

/-- The direction of a step. -/
inductive Axis where
  | child
  | self
  | parent
  /-- Nearest first. -/
  | ancestor
  /-- In document order. -/
  | descendant
  /-- Nearest first. -/
  | precedingSibling
  /-- In document order. -/
  | followingSibling
  deriving DecidableEq

/-- The written form of an axis, in front of a name test. -/
def Axis.write : Axis → String
  | .child => "child::"
  | .self => "self::"
  | .parent => "parent::"
  | .ancestor => "ancestor::"
  | .descendant => "descendant::"
  | .precedingSibling => "preceding-sibling::"
  | .followingSibling => "following-sibling::"

/-- A test on an element's tag. -/
inductive NameTest where
  | any
  | tag (name : String)
  deriving DecidableEq

/-- A test on an element or on its place among those selected so far. -/
inductive Predicate where
  /-- The element at this place, counted from 1. -/
  | position (place : Nat)
  /-- Elements with this tag. -/
  | selfTag (name : String)
  /-- Elements with a child of this tag. -/
  | hasChild (name : String)
  /-- Elements with this attribute, and with this value if one is given. -/
  | attribute (name : String) (value : Option String)
  deriving DecidableEq

/-- One step of a path. -/
structure Step where
  axis : Axis
  test : NameTest
  predicates : List Predicate
  deriving DecidableEq

/-- What a query asks for. -/
inductive Expr where
  | path (steps : List Step)
  /-- The element itself, if it has this attribute, and with this value if one is given. -/
  | attribute (name : String) (value : Option String)
  deriving DecidableEq

/-! ### Meaning -/

/-- The elements along an axis, nearest first towards the root and backwards, else in document
order. -/
def Axis.select (t : Tree) (n : NodeId) : Axis → List NodeId
  | .child => t.children n
  | .self => [n]
  | .parent => (t.parent? n).toList
  | .ancestor => t.ancestors n
  | .descendant => t.descendants n
  | .precedingSibling => t.precedingSiblings n
  | .followingSibling => t.followingSiblings n

/-- Whether an element passes a name test. -/
def NameTest.accepts (t : Tree) (n : NodeId) : NameTest → Bool
  | .any => true
  | .tag name => t.tag n == name

/-- Whether an element has an attribute, and with the given value if there is one. -/
def hasAttribute (t : Tree) (n : NodeId) (name : String) (value : Option String) : Bool :=
  match t.attribute? n name, value with
  | some actual, some expected => actual == expected
  | some _, none => true
  | none, _ => false

/-- The elements of a list that pass a predicate. -/
def Predicate.filter (t : Tree) (selected : List NodeId) : Predicate → List NodeId
  | .position place => (selected[place - 1]?).toList
  | .selfTag name => selected.filter fun n => t.tag n == name
  | .hasChild name => selected.filter fun n => (t.children n).any fun child => t.tag child == name
  | .attribute name value => selected.filter fun n => hasAttribute t n name value

/-- The elements that a step leads to from `n`. -/
def Step.select (t : Tree) (n : NodeId) (s : Step) : List NodeId :=
  s.predicates.foldl (Predicate.filter t) ((s.axis.select t n).filter (s.test.accepts t))

/-- Add elements to a list, each at the place where it occurs first. -/
def addNew (selected : List NodeId) (more : List NodeId) : List NodeId :=
  more.foldl (fun selected n => if selected.contains n then selected else selected ++ [n]) selected

/-- The elements that a step leads to from any of `contexts`, each at the place where it occurs
first. -/
def Step.selectAll (t : Tree) (contexts : List NodeId) (s : Step) : List NodeId :=
  contexts.foldl (fun selected n => addNew selected (s.select t n)) []

/-- The elements that a query selects from `n`, without repetition. -/
def Expr.select (t : Tree) (n : NodeId) : Expr → List NodeId
  | .path steps => steps.foldl (Step.selectAll t) [n]
  | .attribute name value => if hasAttribute t n name value then [n] else []

end DoxygenRest.Query
