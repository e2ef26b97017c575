import DoxygenRest.Tree.Navigation

/-!
# Well-formed trees

Parents and children are two records of one relation.  In a well-formed tree the two agree, the
relation has no circles, and the root of the document lies below nothing; elements outside of the
document form trees of their own.

A tree of one element is well-formed (`wellFormed_ofRoot`).
-/

namespace DoxygenRest.Tree

/-- The links of a tree agree and form a tree. -/
structure WellFormed (t : Tree) : Prop where
  /-- There is a root. -/
  size_pos : 0 < t.size
  /-- A parent is an element of the tree. -/
  parent_lt_size : ∀ {n parent : NodeId}, t.parent? n = some parent → parent < t.size
  /-- An element is held by its parent and by no other. -/
  mem_children_iff : ∀ {n parent : NodeId}, n ∈ t.children parent ↔ t.parent? n = some parent
  /-- An element is held once. -/
  nodup_children : ∀ n : NodeId, (t.children n).Nodup
  /-- The root of the document is held by none. -/
  parent?_root : t.parent? root = none
  /-- No element lies below itself. -/
  notMem_ancestors : ∀ n : NodeId, n ∉ t.ancestors n

/-- An element without a parent has no ancestors. -/
theorem ancestors_eq_nil {t : Tree} {n : NodeId} (h : t.parent? n = none) : t.ancestors n = [] := by
  rw [ancestors]
  cases t.size with
  | zero => rfl
  | succ steps => rw [climb, h]

/-- An element of a tree that holds one alone has neither parent nor children. -/
theorem element_ofRoot (tag : String) (attributes namespaces : Bindings) (n : NodeId) :
    ((ofRoot tag attributes namespaces).element n).parent = none ∧
      ((ofRoot tag attributes namespaces).element n).children = [] := by
  rcases n with _ | n
  · exact ⟨rfl, rfl⟩
  · exact ⟨rfl, rfl⟩

/-- A tree that holds one element alone is well-formed. -/
theorem wellFormed_ofRoot (tag : String) (attributes namespaces : Bindings) :
    (ofRoot tag attributes namespaces).WellFormed := by
  have noParent (n : NodeId) : (ofRoot tag attributes namespaces).parent? n = none :=
    (element_ofRoot tag attributes namespaces n).1
  have noChildren (n : NodeId) : (ofRoot tag attributes namespaces).children n = [] :=
    (element_ofRoot tag attributes namespaces n).2
  refine ⟨Nat.one_pos, ?_, ?_, ?_, noParent root, ?_⟩
  · intro n parent h
    simp [noParent] at h
  · intro n parent
    simp [noParent, noChildren]
  · intro n
    simp [noChildren]
  · intro n
    simp [ancestors_eq_nil (noParent n)]

end DoxygenRest.Tree
