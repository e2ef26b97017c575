import DoxygenRest.Tree.Edit
import DoxygenRest.Tree.WellFormed
import Mathlib.Tactic.Common
import Mathlib.Tactic.Tauto

/-!
# An element's own data and its links

Everything an element holds falls into two parts: its own data (`Entry`), and its links to its
parent and its children.  Every edit of a tree is put together from three primitives, and each of
them touches one part alone:

* `revise` changes the own data of one element; all edits of texts and attributes are of this kind;
* `unlink` and `link` change links alone;
* `create` adds an element that has no links.

The lemmas of this file say what the own data, the parent and the children of any element are after
a primitive.
-/

namespace DoxygenRest

/-- What an element has of its own: all of it but its links to other elements. -/
structure Entry where
  tag : String
  attributes : Bindings
  namespaces : Bindings
  text : Option String
  tail : Option String
  deriving DecidableEq, Inhabited

/-- Own data but for text and tail. -/
def Entry.bare (e : Entry) : Entry :=
  { e with text := none, tail := none }

namespace Tree

/-- The own data of the element numbered `n`. -/
def entry (t : Tree) (n : NodeId) : Entry :=
  ⟨t.tag n, t.attributes n, t.declaredNamespaces n, t.text? n, t.tail? n⟩

/-- An element is its own data and its links. -/
lemma element_ext {t u : Tree} {n m : NodeId} (hentry : t.entry n = u.entry m)
    (hparent : t.parent? n = u.parent? m) (hchildren : t.children n = u.children m) :
    t.element n = u.element m := by
  simp only [entry, tag, attributes, declaredNamespaces, text?, tail?, parent?, children,
    Entry.mk.injEq] at hentry hparent hchildren
  cases h : t.element n
  cases h' : u.element m
  simp_all

section Congr

variable {t u : Tree} {n m : NodeId} (h : t.element n = u.element m)

include h

/-- Elements with the same record have the same own data. -/
lemma entry_congr : t.entry n = u.entry m := by
  simp [entry, tag, attributes, declaredNamespaces, text?, tail?, h]

/-- Elements with the same record have the same parent. -/
lemma parent?_congr : t.parent? n = u.parent? m :=
  congrArg Element.parent h

/-- Elements with the same record have the same children. -/
lemma children_congr : t.children n = u.children m :=
  congrArg Element.children h

end Congr

/-- Two trees with the same elements are the same. -/
lemma ext_of_element {t u : Tree} (hsize : t.size = u.size)
    (h : ∀ n, t.element n = u.element n) : t = u := by
  cases t with
  | mk elements =>
    cases u with
    | mk elements' =>
      congr 1
      refine Array.ext hsize fun i hi hi' => ?_
      have hn := h i
      simpa [element, Array.getD, hi, hi'] using hn

/-! ### Elements beyond the end of the store -/

/-- A number that is not in use has the empty record. -/
lemma element_of_size_le {t : Tree} {n : NodeId} (h : t.size ≤ n) : t.element n = default := by
  simp only [element, Array.getD_eq_getD_getElem?]
  rw [Array.getElem?_eq_none h]
  rfl

/-- Only elements of the tree have parents. -/
lemma lt_size_of_parent?_eq_some {t : Tree} {n parent : NodeId} (h : t.parent? n = some parent) :
    n < t.size := by
  refine Nat.lt_of_not_le fun hn => ?_
  rw [parent?, element_of_size_le hn] at h
  cases h

/-- Only elements of the tree have children. -/
lemma lt_size_of_mem_children {t : Tree} {n child : NodeId} (h : child ∈ t.children n) :
    n < t.size := by
  refine Nat.lt_of_not_le fun hn => ?_
  rw [children, element_of_size_le hn] at h
  cases h

/-- A number that is not in use has no parent. -/
lemma parent?_of_size_le {t : Tree} {n : NodeId} (h : t.size ≤ n) : t.parent? n = none := by
  rw [parent?, element_of_size_le h]
  rfl

/-- A number that is not in use has no children. -/
lemma children_of_size_le {t : Tree} {n : NodeId} (h : t.size ≤ n) : t.children n = [] := by
  rw [children, element_of_size_le h]
  rfl

/-- A number that is not in use has no text. -/
lemma text?_of_size_le {t : Tree} {n : NodeId} (h : t.size ≤ n) : t.text? n = none := by
  rw [text?, element_of_size_le h]
  rfl

/-- A number that is not in use has no tail. -/
lemma tail?_of_size_le {t : Tree} {n : NodeId} (h : t.size ≤ n) : t.tail? n = none := by
  rw [tail?, element_of_size_le h]
  rfl

/-! ### Updating one element -/

/-- An update takes no number into use. -/
@[simp] lemma size_update (t : Tree) (n : NodeId) (f : Element → Element) :
    (t.update n f).size = t.size := by
  simp [update, size]

/-- An update changes the record of one element, if that is an element of the tree. -/
lemma element_update (t : Tree) (n m : NodeId) (f : Element → Element) :
    (t.update n f).element m = if m = n ∧ n < t.size then f (t.element m) else t.element m := by
  simp only [element, update, size, Array.getD_eq_getD_getElem?, Array.getElem?_modify]
  by_cases h : n = m
  · subst h
    by_cases hn : n < t.elements.size <;> simp [hn]
  · simp [h, Ne.symm h]

/-- Two updates that do the same to the element are the same. -/
lemma update_congr {t : Tree} {n : NodeId} {f g : Element → Element}
    (h : f (t.element n) = g (t.element n)) : t.update n f = t.update n g := by
  refine ext_of_element (by simp) fun m => ?_
  rw [element_update, element_update]
  split
  · next hm => rw [hm.1, h]
  · rfl

/-- An update that leaves the children of an element alone leaves all children alone. -/
lemma children_update (t : Tree) (n m : NodeId) {f : Element → Element}
    (hf : ∀ e, (f e).children = e.children) : (t.update n f).children m = t.children m := by
  simp only [children, element_update]
  split
  · exact hf _
  · rfl

/-- An update that leaves the parent of an element alone leaves all parents alone. -/
lemma parent?_update (t : Tree) (n m : NodeId) {f : Element → Element}
    (hf : ∀ e, (f e).parent = e.parent) : (t.update n f).parent? m = t.parent? m := by
  simp only [parent?, element_update]
  split
  · exact hf _
  · rfl

/-- Change the own data of the element numbered `n` alone. -/
def revise (t : Tree) (n : NodeId) (f : Entry → Entry) : Tree :=
  t.update n fun e =>
    let own := f ⟨e.tag, e.attributes, e.namespaces, e.text, e.tail⟩
    { e with
      tag := own.tag, attributes := own.attributes, namespaces := own.namespaces,
      text := own.text, tail := own.tail }

section Revise

variable (t : Tree) (n m : NodeId) (f : Entry → Entry)

/-- A revision takes no number into use. -/
@[simp] lemma size_revise : (t.revise n f).size = t.size := by
  simp [revise]

@[simp] lemma parent?_revise : (t.revise n f).parent? m = t.parent? m :=
  parent?_update t n m fun _ => rfl

@[simp] lemma children_revise : (t.revise n f).children m = t.children m :=
  children_update t n m fun _ => rfl

/-- A revision changes the own data of one element, if that is an element of the tree. -/
lemma entry_revise :
    (t.revise n f).entry m = if m = n ∧ n < t.size then f (t.entry m) else t.entry m := by
  simp only [entry, tag, attributes, declaredNamespaces, text?, tail?, revise, element_update]
  split <;> rfl

variable {t n m}

/-- An element of the tree gets the own data of its revision. -/
lemma entry_revise_self (h : n < t.size) : (t.revise n f).entry n = f (t.entry n) := by
  simp [entry_revise, h]

/-- The other elements keep their own data. -/
lemma entry_revise_of_ne (h : m ≠ n) : (t.revise n f).entry m = t.entry m := by
  simp [entry_revise, h]

end Revise

/-! ### The edits of own data are revisions -/

section OwnData

variable (t : Tree) (n : NodeId)

/-- To set a text is a revision. -/
lemma setText_eq_revise (text : Option String) :
    t.setText n text = t.revise n fun e => { e with text } := rfl

/-- To set a tail is a revision. -/
lemma setTail_eq_revise (tail : Option String) :
    t.setTail n tail = t.revise n fun e => { e with tail } := rfl

/-- To put text in front of a tail is a revision. -/
lemma prependTail_eq_revise (more : String) :
    t.prependTail n more = t.revise n fun e => { e with tail := prependTo e.tail more } := rfl

end OwnData

/-! ### Creating an element -/

section Create

variable (t : Tree) (tag : String) (attributes namespaces : Bindings)

/-- A creation takes one number into use. -/
@[simp] lemma size_create : (t.create tag attributes namespaces).2.size = t.size + 1 := by
  simp [create, size]

/-- The new element has a record of its own, and the others keep theirs. -/
lemma element_create (m : NodeId) :
    (t.create tag attributes namespaces).2.element m =
      if m = t.size then { tag, attributes, namespaces } else t.element m := by
  simp only [create, element, size, Array.getD_eq_getD_getElem?, Array.getElem?_push]
  split <;> simp

/-- A new element has no parent, and it becomes no one's parent. -/
@[simp] lemma parent?_create (m : NodeId) :
    (t.create tag attributes namespaces).2.parent? m = t.parent? m := by
  simp only [parent?, element_create]
  split
  · next h => rw [h, element_of_size_le (Nat.le_refl _)]; rfl
  · rfl

/-- A creation changes no children. -/
@[simp] lemma children_create (m : NodeId) :
    (t.create tag attributes namespaces).2.children m = t.children m := by
  simp only [children, element_create]
  split
  · next h => rw [h, element_of_size_le (Nat.le_refl _)]; rfl
  · rfl

/-- The new element has the own data that it is created with, and the others keep theirs. -/
lemma entry_create (m : NodeId) :
    (t.create tag attributes namespaces).2.entry m =
      if m = t.size then ⟨tag, attributes, namespaces, none, none⟩ else t.entry m := by
  simp only [entry, Tree.tag, Tree.attributes, declaredNamespaces, text?, tail?, element_create]
  split <;> rfl

end Create

/-! ### Links -/

/-- To unlink an element takes no number out of use. -/
@[simp] lemma size_unlink (t : Tree) (n : NodeId) : (t.unlink n).size = t.size := by
  unfold unlink
  split <;> simp

/-- To unlink an element changes no own data. -/
@[simp] lemma entry_unlink (t : Tree) (n m : NodeId) : (t.unlink n).entry m = t.entry m := by
  unfold unlink
  split
  · rfl
  · simp only [entry, tag, attributes, declaredNamespaces, text?, tail?, element_update]
    split <;> split <;> rfl

/-- To link an element takes no number into use. -/
@[simp] lemma size_link (t : Tree) (parent : NodeId) (index : Nat) (n : NodeId) :
    (t.link parent index n).size = t.size := by
  simp [link]

/-- To link an element changes no own data. -/
@[simp] lemma entry_link (t : Tree) (parent : NodeId) (index : Nat) (n m : NodeId) :
    (t.link parent index n).entry m = t.entry m := by
  simp only [link, entry, tag, attributes, declaredNamespaces, text?, tail?, element_update]
  split <;> split <;> rfl

/-- Taking an element out of its parent leaves it without one. -/
lemma parent?_unlink (t : Tree) (n m : NodeId) :
    (t.unlink n).parent? m = if m = n then none else t.parent? m := by
  unfold unlink
  split
  · next h => split <;> simp_all
  · next parent h =>
    rw [parent?_update _ parent m (by intro e; rfl)]
    simp only [parent?, element_update, lt_size_of_parent?_eq_some h, and_true]
    split <;> rfl

/-- Taking an element out of its parent takes it out of all lists of children. -/
lemma children_unlink {t : Tree} (h : t.WellFormed) (n m : NodeId) :
    (t.unlink n).children m = (t.children m).filter (· ≠ n) := by
  have hfilter (hn : t.parent? n ≠ some m) : (t.children m).filter (· ≠ n) = t.children m := by
    refine List.filter_eq_self.2 fun c hc => ?_
    rw [h.mem_children_iff] at hc
    simpa using fun hcn : c = n => hn (hcn ▸ hc)
  unfold unlink
  split
  · next hp => exact (hfilter (by simp [hp])).symm
  · next parent hp =>
    have hchildren := children_update t n m (f := fun e => { e with parent := none }) fun _ => rfl
    have hparent := h.parent_lt_size hp
    by_cases hm : m = parent
    · subst hm
      rw [← hchildren]
      simp only [children, element_update _ m, size_update, hparent, and_self, if_true]
      refine congrArg (List.filter · _) (funext fun c => ?_)
      by_cases hc : c = n <;> simp [hc]
    · rw [hfilter (by simpa [hp] using Ne.symm hm), ← hchildren]
      simp only [children, element_update _ parent, hm, false_and, if_false]

section Link

variable {t : Tree} {parent n : NodeId} (index : Nat)

/-- The linked element gets the parent, and the others keep theirs. -/
lemma parent?_link (h : n < t.size) (m : NodeId) :
    (t.link parent index n).parent? m = if m = n then some parent else t.parent? m := by
  simp only [link, parent?, element_update, size_update, h, and_true]
  split
  · rfl
  · split <;> rfl

/-- The parent gets the linked element among its children, and the others keep theirs. -/
lemma children_link (h : parent < t.size) (m : NodeId) :
    (t.link parent index n).children m =
      if m = parent then (t.children m).take index ++ n :: (t.children m).drop index
      else t.children m := by
  simp only [link, children, element_update, size_update, h, and_true]
  split <;> split <;> rfl

end Link

end Tree

end DoxygenRest
