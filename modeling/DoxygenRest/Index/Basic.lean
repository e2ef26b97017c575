import Std.Data.HashMap
import DoxygenRest.Reference
import DoxygenRest.Text.Quoted
import DoxygenRest.Tree.Fragment

/-!
# Indexes

An index document lists what is documented: compounds (files, groups, structures) and, below them,
their members.  Both are elements with a `refid`, a `kind` and a child that holds the name.  The
same identifier may be listed more than once, when a member belongs to several compounds; its first
listing in document order stands for it.

`Index.get?` finds that listing.  The look-up table behind it is determined by the document, which
the type of indexes records; `Index.get?_eq_find?` states what it holds without the table.
-/

namespace DoxygenRest

namespace Tree

/-- Whether an element of an index document lists a compound or a member. -/
def isListing (t : Tree) (n : NodeId) : Bool :=
  t.tag n == "compound" || t.tag n == "member"

/-- The compounds and members of an index document, in document order. -/
def listings (t : Tree) : List NodeId :=
  (t.descendants root).filter t.isListing

/-- The first listing of each identifier. -/
def firstListings (t : Tree) : Std.HashMap String NodeId :=
  t.listings.foldl (fun found n =>
    match t.attribute? n "refid" with
    | some id => found.insertIfNew id n
    | none => found) ∅

end Tree

/-- The index of a directory of documentation. -/
structure Index where
  /-- The directory that holds the documents. -/
  directory : String
  /-- The index document. -/
  document : Tree
  /-- The first listing of each identifier in the document. -/
  first : Std.HashMap String NodeId := document.firstListings
  first_eq : first = document.firstListings := by rfl

namespace Index

/-! ### Listings -/

/-- The identifier of a listing, empty if it has none. -/
def refid (index : Index) (n : NodeId) : String :=
  (index.document.attribute? n "refid").getD ""

/-- The kind of a listing, empty if it has none. -/
def kind (index : Index) (n : NodeId) : String :=
  (index.document.attribute? n "kind").getD ""

/-- The name of a listing: the content of its first child for a name, empty if it has none. -/
def name (index : Index) (n : NodeId) : String :=
  match (index.document.children n).find? fun child => index.document.tag child == "name" with
  | some child => index.document.stringValue child
  | none => ""

/-- Whether a listing is that of a member. -/
def isMember (index : Index) (n : NodeId) : Bool :=
  index.document.tag n == "member"

/-- The element a member is listed under. -/
def compound? (index : Index) (n : NodeId) : Option NodeId :=
  if index.isMember n then index.document.parent? n else none

/-- The members listed under a compound. -/
def members (index : Index) (n : NodeId) : List NodeId :=
  (index.document.children n).filter index.isMember

/-- How a listing is shown. -/
def display (index : Index) (n : NodeId) : String :=
  "Aeration \x7b id: " ++ Text.quoted (index.refid n) ++ ", kind: " ++ Text.quoted (index.kind n) ++
    ", name: " ++ Text.quoted (index.name n) ++ " \x7d"

/-! ### Looking up -/

/-- The first listing with this identifier. -/
def get? (index : Index) (id : String) : Option NodeId :=
  index.first[id]?

/-- Every compound, in document order. -/
def compounds (index : Index) : List NodeId :=
  (index.document.descendants Tree.root).filter fun n => index.document.tag n == "compound"

/-- Every member, in document order, each as often as it is listed. -/
def allMembers (index : Index) : List NodeId :=
  (index.document.descendants Tree.root).filter index.isMember

/-- The members of a kind, in document order and each by its first listing. -/
def membersOfKind (index : Index) (kind : String) : List NodeId :=
  index.allMembers.filter fun n => index.kind n == kind && index.get? (index.refid n) == some n

/-- The members of the given kinds, kind by kind. -/
def membersOfKinds (index : Index) (kinds : List String) : List NodeId :=
  kinds.flatMap index.membersOfKind

/-- The first member with this name. -/
def memberNamed? (index : Index) (name : String) : Option NodeId :=
  index.allMembers.find? fun n => index.name n == name

/-- The compound or member that is meant by a text: the one with this identifier, or else the
first member with this name. -/
def lookup? (index : Index) (target : String) : Option NodeId :=
  index.get? target <|> index.memberNamed? target

/-- The resolver that looks references up in an index. -/
def resolver (index : Index) : Resolver := fun id =>
  (index.get? id).map fun n => ⟨.ofIndexKind (index.kind n), index.name n⟩

/-! ### What the look-up table holds -/

/-- A table that is filled from a list keeps what it had, and otherwise holds the first match. -/
theorem getElem?_foldl_insertIfNew (id? : NodeId → Option String) (id : String) (ns : List NodeId)
    (found : Std.HashMap String NodeId) :
    (ns.foldl (fun found n =>
      match id? n with
      | some id => found.insertIfNew id n
      | none => found) found)[id]? = (found[id]? <|> ns.find? fun n => id? n == some id) := by
  induction ns generalizing found with
  | nil => simp
  | cons n ns ih =>
    rw [List.foldl_cons, ih]
    cases h : id? n with
    | none => simp [h]
    | some other =>
      rw [Std.HashMap.getElem?_insertIfNew]
      by_cases same : other = id
      · by_cases known : id ∈ found
        · simp [same, known]
        · simp [same, known, h]
      · simp [same, h]

/-- Looking an identifier up finds its first listing in document order. -/
theorem get?_eq_find? (index : Index) (id : String) :
    index.get? id =
      index.document.listings.find? fun n => index.document.attribute? n "refid" == some id := by
  rw [get?, index.first_eq, Tree.firstListings, getElem?_foldl_insertIfNew]
  simp

end Index

end DoxygenRest
