import DoxygenRest.Xml.Document
import DoxygenRest.Proofs.Bindings
import DoxygenRest.Proofs.Branch.Text

/-!
# What a document says

A document as it is meant: one element, which holds a row of pieces, texts and further elements
among them, with other markup and text around it.  `Content.events` writes a piece down as the row
of its events, and `Content.branches` reads it as a branch of an element tree: the text and the
CDATA sections up to the first element in an element are its text, those from the end of an element
up to the next one, or up to the end tag of the element around it, are its tail, and the elements
are numbered in the order in which they begin.

Elements get consecutive numbers (`numbersAll_branchesAll`), and no text inside of an element is
lost (`stringValues_branchesAll`).
-/

namespace DoxygenRest.Xml

open Branch

/-! ### The attributes of a tag -/

/-- An element has the attributes that its tag gives it, but for those that declare namespaces.  Of
two attributes of one name the last one counts. -/
theorem get?_plainAttributes (attributes : List (String × String)) (name : String) :
    (plainAttributes attributes).get? name =
      if declaredName? name = none then attributes.reverse.lookup name else none := by
  rw [plainAttributes, Bindings.get?_ofList, ← List.filter_reverse]
  generalize attributes.reverse = items
  induction items with
  | nil => simp
  | cons item items ih =>
    rw [List.filter_cons, Bindings.lookup_cons_ite]
    by_cases hname : name = item.1
    · subst hname
      by_cases hdeclared : declaredName? item.1 = none
      · simp [hdeclared, Bindings.lookup_cons_ite]
      · simpa [hdeclared] using ih
    · rw [if_neg hname, ← ih]
      split
      · rw [Bindings.lookup_cons_ite, if_neg hname]
      · rfl

/-- An element declares the namespaces that the attributes of its tag declare.  Of two declarations of
one name the last one counts. -/
theorem get?_declaredNamespaces (attributes : List (String × String)) (name : String) :
    (declaredNamespaces attributes).get? name =
      attributes.reverse.findSome? fun item =>
        if declaredName? item.1 = some name then some item.2 else none := by
  rw [declaredNamespaces, Bindings.get?_ofList, ← List.filterMap_reverse]
  generalize attributes.reverse = items
  induction items with
  | nil => simp
  | cons item items ih =>
    rw [List.filterMap_cons, List.findSome?_cons, ← ih]
    cases hdeclared : declaredName? item.1 with
    | none => simp
    | some declared =>
      rw [Option.map_some, Bindings.lookup_cons_ite]
      by_cases hname : declared = name
      · simp [hname]
      · simp [hname, Ne.symm hname]

/-- None of these attributes declares a namespace. -/
lemma declaredName?_of_mem_plainAttributes {attributes : List (String × String)}
    {entry : String × String} (h : entry ∈ (plainAttributes attributes).entries) :
    declaredName? entry.1 = none := by
  by_contra hdeclared
  have hnone := get?_plainAttributes attributes entry.1
  rw [if_neg hdeclared, Bindings.get?, List.lookup_eq_none_iff] at hnone
  exact absurd (hnone entry h) (by simp)

/-! ### Pieces of documents -/

/-- A piece of what an element holds. -/
inductive Content where
  | text (content : String)
  | cdata (content : String)
  | comment
  | instruction
  /-- An element with a start tag and an end tag. -/
  | element (tag : String) (attributes : List (String × String)) (contents : List Content)
  /-- An element written as one tag. -/
  | empty (tag : String) (attributes : List (String × String))

namespace Content

/-- Whether a piece is an element. -/
def isElement : Content → Bool
  | text _ => false
  | cdata _ => false
  | comment => false
  | instruction => false
  | element _ _ _ => true
  | empty _ _ => true

/-- What holds of rows of pieces as soon as it holds of the rows behind and inside of their first
piece, holds of all rows. -/
theorem induction {motive : List Content → Prop} (nil : motive [])
    (other : ∀ c rest, c.isElement = false → motive rest → motive (c :: rest))
    (element : ∀ tag attributes contents rest, motive contents → motive rest →
      motive (.element tag attributes contents :: rest))
    (empty : ∀ tag attributes rest, motive rest → motive (.empty tag attributes :: rest)) :
    ∀ contents, motive contents := by
  intro contents
  induction contents using @Content.rec_1 fun c => ∀ rest, motive rest → motive (c :: rest) with
  | text s rest ih => exact other (.text s) rest rfl ih
  | cdata s rest ih => exact other (.cdata s) rest rfl ih
  | comment rest ih => exact other .comment rest rfl ih
  | instruction rest ih => exact other .instruction rest rfl ih
  | element tag attributes contents ih rest ihRest =>
    exact element tag attributes contents rest ih ihRest
  | empty tag attributes rest ih => exact empty tag attributes rest ih
  | nil => exact nil
  | cons c cs ih ihRest => exact ih cs ihRest

mutual

/-- The events of a piece. -/
def events : Content → List Event
  | text s => [.text s]
  | cdata s => [.cdata s]
  | comment => [.comment]
  | instruction => [.instruction]
  | element tag attributes contents => .start tag attributes :: (eventsAll contents ++ [.stop tag])
  | empty tag attributes => [.empty tag attributes]

/-- The events of a row of pieces. -/
def eventsAll : List Content → List Event
  | [] => []
  | c :: cs => c.events ++ eventsAll cs

end

/-- The text and the CDATA sections of a row of pieces up to the first element. -/
def leadingText : List Content → String
  | [] => ""
  | .text s :: cs => s ++ leadingText cs
  | .cdata s :: cs => s ++ leadingText cs
  | .comment :: cs => leadingText cs
  | .instruction :: cs => leadingText cs
  | .element _ _ _ :: _ => ""
  | .empty _ _ :: _ => ""

mutual

/-- The number of elements in a piece, itself included. -/
def size : Content → Nat
  | text _ => 0
  | cdata _ => 0
  | comment => 0
  | instruction => 0
  | element _ _ contents => sizeAll contents + 1
  | empty _ _ => 1

/-- The number of elements in a row of pieces. -/
def sizeAll : List Content → Nat
  | [] => 0
  | c :: cs => c.size + sizeAll cs

end

mutual

/-- The branch of a piece that is an element, given the text behind it, where the elements are
numbered from `first` on; other pieces have none. -/
def branches (first : NodeId) (tail : String) : Content → List Branch
  | text _ => []
  | cdata _ => []
  | comment => []
  | instruction => []
  | element tag attributes contents =>
    [node first
      ⟨tag, plainAttributes attributes, declaredNamespaces attributes,
        Tree.appendTo none (leadingText contents), Tree.appendTo none tail⟩
      (branchesAll (first + 1) contents)]
  | empty tag attributes =>
    [node first
      ⟨tag, plainAttributes attributes, declaredNamespaces attributes, none,
        Tree.appendTo none tail⟩ []]

/-- The branches of the elements in a row of pieces, where the elements are numbered from `first`
on. -/
def branchesAll (first : NodeId) : List Content → List Branch
  | [] => []
  | c :: cs => c.branches first (leadingText cs) ++ branchesAll (first + c.size) cs

end

mutual

/-- All text and CDATA sections inside of a piece. -/
def fullText : Content → String
  | text s => s
  | cdata s => s
  | comment => ""
  | instruction => ""
  | element _ _ contents => fullTextAll contents
  | empty _ _ => ""

/-- All text and CDATA sections inside of a row of pieces. -/
def fullTextAll : List Content → String
  | [] => ""
  | c :: cs => c.fullText ++ fullTextAll cs

end

/-- The events of contents behind each other come one after the other. -/
lemma eventsAll_append (cs ds : List Content) :
    eventsAll (cs ++ ds) = eventsAll cs ++ eventsAll ds := by
  induction cs with
  | nil => rw [List.nil_append, eventsAll, List.nil_append]
  | cons c cs ih => rw [List.cons_append, eventsAll, eventsAll, ih, List.append_assoc]

/-! ### Facts about the branches -/

/-- A piece that is no element is one event. -/
lemma exists_event_of_not_isElement {c : Content} (hc : c.isElement = false) :
    ∃ event, c.events = [event] := by
  cases c with
  | text s => exact ⟨.text s, rfl⟩
  | cdata s => exact ⟨.cdata s, rfl⟩
  | comment => exact ⟨.comment, rfl⟩
  | instruction => exact ⟨.instruction, rfl⟩
  | element => cases hc
  | empty => cases hc

/-- A piece that is no element has no branch; its text goes to what stands before it. -/
lemma of_not_isElement {c : Content} (hc : c.isElement = false) :
    (∀ first tail, c.branches first tail = []) ∧ c.size = 0 ∧
      ∀ rest, leadingText (c :: rest) = c.fullText ++ leadingText rest := by
  cases c with
  | text s => simp [branches, size, leadingText, fullText]
  | cdata s => simp [branches, size, leadingText, fullText]
  | comment => simp [branches, size, leadingText, fullText]
  | instruction => simp [branches, size, leadingText, fullText]
  | element => cases hc
  | empty => cases hc

/-- The elements are numbered one after the other in the order in which they begin. -/
theorem numbersAll_branchesAll (first : NodeId) (contents : List Content) :
    numbersAll (branchesAll first contents) = List.range' first (sizeAll contents) := by
  induction contents using Content.induction generalizing first with
  | nil => rw [branchesAll, numbersAll_nil, sizeAll, List.range'_zero]
  | other c rest hc ih =>
    obtain ⟨hbranches, hsize, -⟩ := of_not_isElement hc
    rw [branchesAll, hbranches, sizeAll, hsize, Nat.zero_add]
    exact ih first
  | element tag attributes contents rest ih ihRest =>
    rw [sizeAll, size, ← List.range'_append_1, List.range'_succ]
    simp [branchesAll, branches, size, ih, ihRest]
  | empty tag attributes rest ih =>
    rw [sizeAll, size, ← List.range'_append_1, List.range'_one]
    simp [branchesAll, branches, size, ih]

/-- What stands in front of the first element of a row, and what the branches of the row hold, is
all text of the row. -/
theorem stringValues_branchesAll (first : NodeId) (contents : List Content) :
    leadingText contents ++ stringValues (branchesAll first contents) = fullTextAll contents := by
  induction contents using Content.induction generalizing first with
  | nil => simp [leadingText, branchesAll, fullTextAll]
  | other c rest hc ih =>
    obtain ⟨hbranches, hsize, hleading⟩ := of_not_isElement hc
    rw [branchesAll, hbranches, hsize, hleading, fullTextAll, String.append_assoc, ← ih first]
    rfl
  | element tag attributes contents rest ih ihRest =>
    simp [leadingText, branchesAll, branches, fullTextAll, fullText, size, Branch.tail, ih, ihRest]
  | empty tag attributes rest ih =>
    simp [leadingText, branchesAll, branches, fullTextAll, fullText, size, Branch.tail, ih]

/-- The branch of an element holds all text inside of the element, and nothing of the text behind
it but its tail. -/
lemma stringValue_of_branches_eq {first : NodeId} {tail : String} {c : Content} {b : Branch}
    (h : c.branches first tail = [b]) : b.stringValue = c.fullText ∧ b.tail = tail := by
  cases c with
  | element tag attributes contents =>
    obtain rfl := List.singleton_inj.1 h
    constructor
    · rw [stringValue_node, getD_appendTo, Option.getD_none, String.empty_append, fullText]
      exact stringValues_branchesAll (first + 1) contents
    · rw [Branch.tail, own_node, getD_appendTo, Option.getD_none, String.empty_append]
  | empty tag attributes =>
    obtain rfl := List.singleton_inj.1 h
    constructor
    · simp [fullText]
    · rw [Branch.tail, own_node, getD_appendTo, Option.getD_none, String.empty_append]
  | text s => cases h
  | cdata s => cases h
  | comment => cases h
  | instruction => cases h

end Content

/-! ### Documents -/

/-- Whether an event is a tag. -/
def Event.isTag : Event → Bool
  | start _ _ => true
  | empty _ _ => true
  | stop _ => true
  | _ => false

/-- Where there are no events, there is no tag. -/
lemma isTag_nil : ∀ event ∈ ([] : List Event), event.isTag = false :=
  List.forall_mem_nil _

/-- A document: one element, and around it any text and markup but tags. -/
structure Document where
  prolog : List Event
  root : Content
  epilog : List Event
  isElement_root : root.isElement = true
  isTag_prolog : ∀ event ∈ prolog, event.isTag = false
  isTag_epilog : ∀ event ∈ epilog, event.isTag = false

/-- The events of a document. -/
def Document.events (d : Document) : List Event :=
  d.prolog ++ d.root.events ++ d.epilog

end DoxygenRest.Xml
