import DoxygenRest.Proofs.Branch.Descent
import DoxygenRest.Proofs.Xml.WellFormed

/-!
# Parents and children always agree

A tree is made by operations (`Tree.Operation`) on elements that it has, beginning with one element
or with a parsed document (`Tree.Built`).  Every operation keeps a tree well-formed, whether it
succeeds or fails (`WellFormed.perform`), so every tree that is made is well-formed
(`Built.wellFormed`).

Texts, attributes and namespaces are own data and touch no link, and a new element has none, so the
argument is about the four operations that move elements.  Each of them takes an element out of its
parent and may put it elsewhere, where it cannot come to lie below itself (`CanMove`).
-/

namespace DoxygenRest.Tree

variable {t : Tree}

/-- The operations on a tree.  All but the first are given elements by their numbers. -/
inductive Operation where
  | create (tag : String) (attributes namespaces : Bindings)
  | duplicate (n : NodeId)
  | insertChild (parent : NodeId) (index : Nat) (child : NodeId)
  | appendChild (parent child : NodeId)
  | insertAfter (anchor n : NodeId)
  | detach (n : NodeId)
  | setText (n : NodeId) (text : Option String)
  | setTail (n : NodeId) (tail : Option String)
  | extendText (n : NodeId) (more : String)
  | extendTail (n : NodeId) (more : String)
  | prependTail (n : NodeId) (more : String)
  | takeText (n : NodeId)
  | takeTail (n : NodeId)
  | setAttribute (n : NodeId) (name value : String)
  | declareNamespaces (n : NodeId) (namespaces : Bindings)
  deriving DecidableEq

namespace Operation

/-- What an operation does; what it answers is left aside. -/
def run : Operation → Edit Unit
  | create tag attributes namespaces => modify fun t => (t.create tag attributes namespaces).2
  | duplicate n => modify fun t => (t.duplicate n).2
  | insertChild parent index child => Tree.insertChild parent index child
  | appendChild parent child => Tree.appendChild parent child
  | insertAfter anchor n => Tree.insertAfter anchor n
  | detach n => Tree.detach n
  | setText n text => modify fun t => t.setText n text
  | setTail n tail => modify fun t => t.setTail n tail
  | extendText n more => modify fun t => t.extendText n more
  | extendTail n more => modify fun t => t.extendTail n more
  | prependTail n more => modify fun t => t.prependTail n more
  | takeText n => modify fun t => (t.takeText n).2
  | takeTail n => modify fun t => (t.takeTail n).2
  | setAttribute n name value => modify fun t => t.setAttribute n name value
  | declareNamespaces n namespaces => modify fun t => t.declareNamespaces n namespaces

/-- The elements that an operation is given. -/
def arguments : Operation → List NodeId
  | create .. => []
  | insertChild parent _ n | appendChild parent n | insertAfter parent n => [parent, n]
  | duplicate n | detach n | setText n _ | setTail n _ | extendText n _ | extendTail n _
  | prependTail n _ | takeText n | takeTail n | setAttribute n .. | declareNamespaces n _ => [n]

/-- The operation is given elements of the tree alone. -/
def IsOn (o : Operation) (t : Tree) : Prop :=
  ∀ n ∈ o.arguments, n < t.size

instance (o : Operation) (t : Tree) : Decidable (o.IsOn t) :=
  inferInstanceAs (Decidable (∀ n ∈ o.arguments, n < t.size))

end Operation

/-- The tree that a program leaves behind, whether it succeeds or fails. -/
def after {α : Type} (edit : Edit α) (t : Tree) : Tree :=
  match edit t with
  | .ok _ u => u
  | .error _ u => u

/-- The tree after an operation, whether it succeeds or fails. -/
def perform (t : Tree) (o : Operation) : Tree :=
  t.after o.run

/-- A tree that was made by operations on elements it had, out of a single element or of a parsed
document. -/
inductive Built : Tree → Prop where
  | ofRoot (tag : String) (attributes namespaces : Bindings) :
      Built (ofRoot tag attributes namespaces)
  | parse {blanks : Xml.Blanks} {document : String} {t : Tree}
      (h : Tree.parse blanks document = .ok t) : Built t
  | perform {t : Tree} (h : Built t) (o : Operation) (ho : o.IsOn t) : Built (t.perform o)

/-! ### One operation -/

/-- An element goes under another, or the move is refused and nothing changes. -/
lemma WellFormed.insertChild (h : t.WellFormed) {parent child : NodeId} (index : Nat)
    (hparent : parent < t.size) (hchild : child < t.size) :
    (t.after (insertChild parent index child)).WellFormed := by
  cases hrefusal : t.refusal? parent child with
  | some failure =>
    rw [after, insertChild_error hrefusal]
    exact h
  | none =>
    rw [after, insertChild_ok hrefusal]
    exact (canMove_of_refusal? hchild hparent hrefusal).wellFormed_link h index

/-- Whether or not it is refused, to append a child leaves a tree well-formed. -/
lemma WellFormed.appendChild (h : t.WellFormed) {parent child : NodeId} (hparent : parent < t.size)
    (hchild : child < t.size) : (t.after (appendChild parent child)).WellFormed := by
  rw [after, appendChild_eq, ← after]
  exact h.insertChild _ hparent hchild

/-- An element goes after another.  It cannot go after itself: it is then left without a parent. -/
lemma WellFormed.insertAfter (h : t.WellFormed) {anchor n : NodeId} (hn : n < t.size) :
    (t.after (insertAfter anchor n)).WellFormed := by
  cases hp : t.parent? anchor with
  | none =>
    rw [after, Tree.insertAfter, Program.get_bind_apply, hp]
    exact h
  | some parent =>
    rw [after, insertAfter_eq hp]
    cases hrefusal : t.refusal? parent n with
    | some failure => exact h
    | none =>
      cases hindex : (t.unlink n).indexInParent? anchor with
      | none => exact h.unlink n
      | some index =>
        have hmove := canMove_of_refusal? hn (h.parent_lt_size hp) hrefusal
        exact hmove.wellFormed_link h (index + 1)

/-- An element is taken out of its parent, unless it is the root. -/
lemma WellFormed.detach (h : t.WellFormed) (n : NodeId) : (t.after (detach n)).WellFormed := by
  by_cases hroot : n = root
  · simpa [after, Tree.detach, hroot, Program.bind_apply] using h
  · simpa [after, Tree.detach, hroot] using h.unlink n

/-- An operation on elements of a tree keeps it well-formed, whether it succeeds or fails. -/
theorem WellFormed.perform (h : t.WellFormed) {o : Operation} (ho : o.IsOn t) :
    (t.perform o).WellFormed := by
  cases o with
  | create tag attributes namespaces => exact h.create tag attributes namespaces
  | duplicate n => exact h.create (t.tag n) (t.attributes n) (t.declaredNamespaces n)
  | insertChild parent index child =>
    exact h.insertChild index (ho parent (by simp [Operation.arguments]))
      (ho child (by simp [Operation.arguments]))
  | appendChild parent child =>
    exact h.appendChild (ho parent (by simp [Operation.arguments]))
      (ho child (by simp [Operation.arguments]))
  | insertAfter anchor n => exact h.insertAfter (ho n (by simp [Operation.arguments]))
  | detach n => exact h.detach n
  | setText n text => exact h.revise n fun e => { e with text }
  | setTail n tail => exact h.revise n fun e => { e with tail }
  | extendText n more => exact h.revise n fun e => { e with text := appendTo e.text more }
  | extendTail n more => exact h.revise n fun e => { e with tail := appendTo e.tail more }
  | prependTail n more => exact h.revise n fun e => { e with tail := prependTo e.tail more }
  | takeText n => exact h.revise n fun e => { e with text := none }
  | takeTail n => exact h.revise n fun e => { e with tail := none }
  | setAttribute n name value =>
    exact h.revise n fun e => { e with attributes := e.attributes.insert name value }
  | declareNamespaces n namespaces =>
    exact h.revise n fun e => { e with namespaces := e.namespaces.union namespaces }

/-! ### Any operations -/

/-- Every tree that is made is well-formed. -/
theorem Built.wellFormed (h : t.Built) : t.WellFormed := by
  induction h with
  | ofRoot tag attributes namespaces => exact wellFormed_ofRoot tag attributes namespaces
  | parse h => exact wellFormed_of_parse h
  | perform _ o ho ih => exact ih.perform ho

/-- In every tree that is made, an element is among the children of another exactly if that one is
its parent, no element is listed twice, the root has no parent, and no element lies below itself.

So the ways to walk a tree end by themselves, with bounds that are never felt: climbing to the
ancestors of an element, listing its descendants, and reading its text.  An element has a place among
siblings exactly if it has a parent, and it is reached from one parentless element and no other. -/
theorem links_agree (h : t.Built) :
    (∀ c p, c ∈ t.children p ↔ t.parent? c = some p) ∧
    (∀ n, (t.children n).Nodup) ∧
    t.parent? root = none ∧
    (∀ n, n ∉ t.ancestors n) ∧
    (∀ n k, t.size ≤ k → t.climb k n = t.ancestors n ∧
      t.walk k (t.children n) = t.descendants n ∧ t.fragmentWithin k n = t.fragment n) ∧
    (∀ n, (t.indexInParent? n).isSome ↔ (t.parent? n).isSome) ∧
    (∀ n, ∃! r, t.parent? r = none ∧ (n = r ∨ n ∈ t.descendants r)) := by
  have hwf := h.wellFormed
  refine ⟨fun _ _ => hwf.mem_children_iff, hwf.nodup_children, hwf.parent?_root,
    hwf.notMem_ancestors, ?_, ?_, existsUnique_outermost hwf⟩
  · intro n k hk
    exact ⟨climb_of_size_le hwf hk n, walk_of_size_le hwf hk n, fragmentWithin_of_size_le hwf hk n⟩
  · intro n
    rw [isSome_indexInParent? hwf]

/-- A parsed note with a mark in it, which is then put after itself and so left without a parent, and
into which the note cannot go. -/
theorem links_agree_note :
    ∃ t u, Tree.parse .keep "<note>a<mark/>b</note>" = .ok t ∧
      u = (t.perform (.insertAfter 1 1)).perform (.appendChild 1 0) ∧ u.Built ∧
      u.parent? 1 = none ∧ (∀ c p, c ∈ u.children p ↔ u.parent? c = some p) ∧
      ∃! r, u.parent? r = none ∧ (1 = r ∨ 1 ∈ u.descendants r) := by
  let note : Tree :=
    ⟨#[{ tag := "note", text := some "a", children := [1] },
      { tag := "mark", tail := some "b", parent := some 0 }]⟩
  have hparse : Tree.parse .keep "<note>a<mark/>b</note>" = .ok note := by decide +kernel
  have hfirst : Operation.IsOn (.insertAfter 1 1) note := by decide
  have hsecond : Operation.IsOn (.appendChild 1 0) (note.perform (.insertAfter 1 1)) := by decide
  have hbuilt := ((Built.parse hparse).perform _ hfirst).perform _ hsecond
  obtain ⟨hlinks, -, -, -, -, -, hreached⟩ := links_agree hbuilt
  exact ⟨note, _, hparse, rfl, hbuilt, by decide, hlinks, hreached 1⟩

end DoxygenRest.Tree
