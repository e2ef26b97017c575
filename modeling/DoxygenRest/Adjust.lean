import DoxygenRest.Editor
import DoxygenRest.Schema
import DoxygenRest.Tree.Fragment

/-!
# Adjusting documentation

An editing pass that brings documentation into the shape that rendering relies on: inline markup is
flat and trimmed, sections of a kind are merged, and each paragraph holds either a line of inline
markup or a row of blocks, but not both.

`rules` lists the rules in order of precedence and `adjust` runs them over a subtree.
-/

namespace DoxygenRest.Adjust

open Cursor (Edit)

/-! ### Guards -/

/-- The query for any child. -/
def anyChild : Query :=
  ⟨"./*", .path [⟨.child, .any, []⟩]⟩

/-- The query for a section right before. -/
def sectionBefore : Query :=
  ⟨"preceding-sibling::*[1][self::simplesect]",
   .path [⟨.precedingSibling, .any, [.position 1, .selfTag "simplesect"]⟩]⟩

/-- Whether an element is inline markup without content. -/
def isEmptyInline (t : Tree) (n : NodeId) : Bool :=
  Schema.isInline t n && Schema.isEmpty t n

/-- Whether an element is inline markup whose text starts or ends with white space. -/
def isUntrimmedInline (t : Tree) (n : NodeId) : Bool :=
  Schema.isInline t n && Text.hasOuterBlanks (t.text n)

/-- Whether two elements could be one: they agree in tag, attributes and namespaces in scope. -/
def areCompatible (t : Tree) (n m : NodeId) : Bool :=
  t.tag n == t.tag m && t.attributes n == t.attributes m && t.namespaces n == t.namespaces m

/-! ### Actions -/

/-- The element to work on. -/
def current : Edit NodeId := do
  match (← get).current with
  | some n => pure n
  | none => throw (.misuse "adjust" "" "the cursor is exhausted")

/-- Remove the current element.  If that leaves its parent empty, go back to the parent, so that it
can be removed in turn. -/
def removeCurrent : Edit Unit := do
  let n ← current
  let parent := (← get).tree.parent? n
  Cursor.remove none
  match parent with
  | none => pure ()
  | some parent =>
    let c ← get
    if parent ≠ c.root ∧ c.contains parent ∧ Schema.isEmpty c.tree parent then
      Cursor.moveTo parent

/-- Put text in the place of an element. -/
def textualize (n : NodeId) (text : String) : Edit Unit := do
  Cursor.extendBefore n text
  Cursor.remove (some n)

/-- Put text in the place of the current element. -/
def textualizeCurrent (text : Tree → NodeId → String) : Edit Unit := do
  let n ← current
  textualize n (text (← get).tree n)

/-- Lift the first child of the current element, which has to be inline markup, out of it. -/
def liftNested : Edit Unit := do
  let n ← current
  let t := (← get).tree
  match t.firstChild? n with
  | none => modify Cursor.advanceInto
  | some child =>
    if Schema.isInline t child then Cursor.lift (some child)
    else throw (.unexpected (t.tag child) (t.tag n))

/-- Replace the markup inside of a link, which has to be inline, by its text, so that the link stays
in one piece. -/
def flattenLink : Edit Unit := do
  let n ← current
  let t := (← get).tree
  match (t.children n).find? fun child => !Schema.isInline t child with
  | some block => throw (.unexpected (t.tag block) (t.tag n))
  | none =>
    Cursor.onTree ((t.children n).forM Tree.detach)
    Cursor.updateTree (·.setText n (some (t.stringValue n)))

/-- Move the white space around the text of the current element out of it, into the text before and
behind it. -/
def trimCurrent : Edit Unit := do
  let n ← current
  match ← Cursor.stepTree (·.takeText n) with
  | none => pure ()
  | some text =>
    let (head, body, tail) := Text.splitBlanks text
    Cursor.extendBefore n head
    Cursor.updateTree (·.prependTail n tail)
    if body ≠ "" then Cursor.updateTree (·.setText n (some body))

/-- Merge the current element into its previous sibling if the two are compatible. -/
def absorb : Edit Unit := do
  let n ← current
  let t := (← get).tree
  if (t.previousSibling? n).any fun previous => areCompatible t previous n then
    Cursor.mergeIntoPrevious none
  else modify Cursor.advanceInto

/-- Where a paragraph is to be divided. -/
inductive Division where
  | before (child : NodeId)
  /-- Behind this child, in front of its tail. -/
  | behind (child : NodeId)
  deriving DecidableEq

/-- Whether a paragraph begins as a line of inline markup rather than as a row of blocks. -/
def beginsInline (t : Tree) (n : NodeId) : Bool :=
  t.hasText n || (t.firstChild? n).all fun child => !Schema.isStructural t child

/-- The first of the listed children at which a paragraph is to be divided: where the kind of content
changes.  A child of neither kind has no place in a paragraph. -/
def division? (t : Tree) (n : NodeId) (isLine : Bool) :
    List NodeId → Except PassError (Option Division)
  | [] => .ok none
  | child :: rest =>
    match Schema.classify t child, isLine with
    | .other, _ => .error (.unexpected (t.tag child) (t.tag n))
    | .structural, true => .ok (some (.before child))
    | .inline, false => .ok (some (.before child))
    | .structural, false =>
      if t.hasTail child then .ok (some (.behind child)) else division? t n isLine rest
    | .inline, true => division? t n isLine rest

/-- Divide the current paragraph at the first change of content.  After a division the cursor stays,
so that what is left of the paragraph is examined again. -/
def dividePara : Edit Unit := do
  let n ← current
  let t := (← get).tree
  match division? t n (beginsInline t n) (t.children n) with
  | .error failure => throw failure
  | .ok none => modify Cursor.advanceInto
  | .ok (some (.before child)) => Cursor.splitBefore (some child)
  | .ok (some (.behind child)) => Cursor.splitAfterTail (some child)

/-! ### The pass -/

/-- The rules, in order of precedence. -/
def rules : List (Rule (Edit Unit → Edit Unit)) :=
  [{ name := "textualize_highlight_ref", action := fun _ => textualizeCurrent Tree.stringValue
     tags := some ["ref"], within := some [["highlight"]] },
   { name := "textualize_highlight_sp", action := fun _ => textualizeCurrent fun _ _ => " "
     tags := some ["sp"], within := some [["highlight"]] },
   { name := "textualize_linebreak", action := fun _ => textualizeCurrent fun _ _ => "\n"
     tags := some ["linebreak"] },
   { name := "remove_presentation_inline", action := fun _ => removeCurrent
     tags := some Schema.presentationTags },
   { name := "remove_empty_inline", action := fun _ => removeCurrent
     tags := some Schema.inlineTags, requires := some (.predicate isEmptyInline) },
   { name := "flatten_link", action := fun _ => flattenLink
     tags := some ["ulink"], requires := some (.query anyChild) },
   { name := "lift_nested_inline", action := fun _ => liftNested
     tags := some Schema.inlineTags, requires := some (.query anyChild) },
   { name := "trim_inline", action := fun _ => trimCurrent
     tags := some Schema.inlineTags, requires := some (.predicate isUntrimmedInline) },
   { name := "remove_empty_simplesect", action := fun _ => removeCurrent
     tags := some ["simplesect"], requires := some (.predicate Schema.isEmpty) },
   { name := "absorb_compatible_simplesect", action := fun _ => absorb
     tags := some ["simplesect"], requires := some (.query sectionBefore) },
   { name := "remove_empty_para", action := fun _ => removeCurrent
     tags := some ["para"], requires := some (.predicate Schema.isEmpty) },
   { name := "divide_para", action := fun _ => dividePara, tags := some ["para"] }]

/-- The pass. -/
def editor : Editor Edit where
  rules := rules

/-- Run a pass over the subtree at `root`. -/
def runOn (r : Editor Edit) (root : NodeId) : EStateM PassError Tree Unit := fun t =>
  match r.run (Cursor.start t root) with
  | .ok _ c => .ok () c.tree
  | .error failure c => .error failure c.tree

/-- Adjust the subtree at `root`.  A failure leaves the subtree partly adjusted. -/
def adjust (root : NodeId) : EStateM PassError Tree Unit :=
  runOn editor root

end DoxygenRest.Adjust
