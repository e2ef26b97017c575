import DoxygenRest.Proofs.Cursor.DocumentOrder
import DoxygenRest.Query.Basic
import Mathlib.Data.List.Flatten
import Mathlib.Logic.Relation

/-!
# The axes of a path

An axis is told by two relations on the elements of a tree: which elements it leads to
(`Axis.Leads`), and which of two of them it lists first (`Axis.Nearer`).  Both speak of parent links
and of the order of children alone: an element lies below another if parent links lead there
(`Tree.LiesBelow`), and it comes before another in document order if it lies around it or if the two
belong to siblings that stand in this order (`Tree.ComesBefore`).

In a well-formed tree the row that a step computes for an axis is the only one of this kind
(`Axis.isRow_iff`), whatever way it is computed.  Document order needs a proof that it never runs both
ways; it does not, because the elements of a subtree are listed in this order without repetition
(`Tree.comesBefore_iff_sublist`).
-/

namespace DoxygenRest

namespace Tree

variable {t : Tree} {a k m n parent : NodeId}

/-! ### Above and below -/

/-- `n` lies below `a`: parent links lead from `n` up to `a`. -/
def LiesBelow (t : Tree) (n a : NodeId) : Prop :=
  Relation.TransGen (fun child parent => t.parent? child = some parent) n a

/-- `n` belongs to the subtree at `a`. -/
def LiesWithin (t : Tree) (n a : NodeId) : Prop :=
  n = a ∨ t.LiesBelow n a

/-- The ancestors of an element are all elements that it lies below. -/
theorem mem_ancestors_iff_liesBelow (h : t.WellFormed) :
    a ∈ t.ancestors n ↔ t.LiesBelow n a := by
  constructor
  · intro ha
    induction n using h.parent_induction with
    | step n ih =>
      obtain ⟨parent, hp, rfl | ha⟩ := (mem_ancestors_iff h).1 ha
      · exact .single hp
      · exact .head hp (ih parent hp ha)
  · intro hbelow
    induction hbelow using Relation.TransGen.head_induction_on with
    | single hp => exact (mem_ancestors_iff h).2 ⟨a, hp, Or.inl rfl⟩
    | head hp _ ih => exact (mem_ancestors_iff h).2 ⟨_, hp, Or.inr ih⟩

/-- An element comes first in its subtree. -/
lemma preorder_eq_cons_descendants (h : t.WellFormed) (n : NodeId) :
    t.preorder n = n :: t.descendants n :=
  numbers_branch h n

/-- The subtree of an element is what lies within it. -/
lemma mem_preorder_iff (h : t.WellFormed) : m ∈ t.preorder n ↔ t.LiesWithin m n := by
  rw [LiesWithin, ← mem_ancestors_iff_liesBelow h]
  exact mem_numbers_branch h

/-- No two elements lie below each other. -/
lemma LiesBelow.asymm (h : t.WellFormed) (hbelow : t.LiesBelow n a) : ¬ t.LiesBelow a n := by
  intro habove
  exact h.notMem_ancestors n ((mem_ancestors_iff_liesBelow h).2 (hbelow.trans habove))

/-! ### Siblings -/

/-- `m` and `n` are children of one parent, `m` before `n`. -/
def StandsBefore (t : Tree) (m n : NodeId) : Prop :=
  ∃ parent, [m, n].Sublist (t.children parent)

/-- Among siblings, one stands before another exactly if it does so in the row of all of them. -/
lemma StandsBefore.exists_children_eq (hbefore : t.StandsBefore m n) :
    ∃ parent before between after,
      t.children parent = before ++ m :: (between ++ n :: after) := by
  obtain ⟨parent, hsub⟩ := hbefore
  obtain ⟨front, back, hchildren, hm, hn⟩ := List.cons_sublist_iff.1 hsub
  obtain ⟨before, front, rfl⟩ := List.append_of_mem hm
  obtain ⟨back, after, rfl⟩ := List.append_of_mem (List.singleton_sublist.1 hn)
  refine ⟨parent, before, front ++ back, after, ?_⟩
  rw [hchildren, List.append_assoc, List.cons_append, List.append_assoc]

section Siblings

variable {before after : List NodeId} (hchildren : t.children parent = before ++ n :: after)

include hchildren

/-- What is listed before a child stands before it. -/
lemma standsBefore_of_mem_before (hm : m ∈ before) : t.StandsBefore m n := by
  refine ⟨parent, ?_⟩
  rw [hchildren]
  exact List.Sublist.append (List.singleton_sublist.2 hm) (List.singleton_sublist.2 (by simp))

/-- What is listed behind a child stands behind it. -/
lemma standsBefore_of_mem_after (hm : m ∈ after) : t.StandsBefore n m := by
  refine ⟨parent, ?_⟩
  rw [hchildren]
  exact (List.Sublist.cons_cons n (List.singleton_sublist.2 hm)).trans
    (List.sublist_append_right ..)

end Siblings

/-- The preceding siblings in document order, the element and its following siblings are the children
of the parent. -/
theorem reverse_precedingSiblings_append (h : t.WellFormed) (hp : t.parent? n = some parent) :
    (t.precedingSiblings n).reverse ++ n :: t.followingSiblings n = t.children parent := by
  obtain ⟨before, after, hchildren⟩ := exists_children_eq h hp
  rw [precedingSiblings_of_children_eq h hchildren, followingSiblings_of_children_eq h hchildren,
    List.reverse_reverse, hchildren]

/-- The preceding siblings of an element are all that stand before it. -/
theorem mem_precedingSiblings_iff (h : t.WellFormed) :
    m ∈ t.precedingSiblings n ↔ t.StandsBefore m n := by
  constructor
  · intro hm
    cases hp : t.parent? n with
    | none => simp [precedingSiblings, hp] at hm
    | some parent =>
      have hchildren := (reverse_precedingSiblings_append h hp).symm
      exact standsBefore_of_mem_before hchildren (List.mem_reverse.2 hm)
  · intro hbefore
    obtain ⟨parent, before, between, after, hchildren⟩ := hbefore.exists_children_eq
    rw [← List.cons_append, ← List.append_assoc] at hchildren
    rw [precedingSiblings_of_children_eq h hchildren, List.mem_reverse]
    simp

/-- The following siblings of an element are all that it stands before. -/
theorem mem_followingSiblings_iff (h : t.WellFormed) :
    m ∈ t.followingSiblings n ↔ t.StandsBefore n m := by
  constructor
  · intro hm
    cases hp : t.parent? n with
    | none => simp [followingSiblings, hp] at hm
    | some parent =>
      have hchildren := (reverse_precedingSiblings_append h hp).symm
      exact standsBefore_of_mem_after hchildren hm
  · intro hbefore
    obtain ⟨parent, before, between, after, hchildren⟩ := hbefore.exists_children_eq
    rw [followingSiblings_of_children_eq h hchildren]
    simp

/-- The children of an element stand one before the other. -/
lemma pairwise_children (t : Tree) (parent : NodeId) :
    (t.children parent).Pairwise t.StandsBefore :=
  List.pairwise_iff_forall_sublist.2 fun hsub => ⟨parent, hsub⟩

/-! ### Document order -/

/-- `m` comes before `n` in document order: it lies around `n`, or it belongs to the subtree at a
sibling that stands before one to whose subtree `n` belongs. -/
def ComesBefore (t : Tree) (m n : NodeId) : Prop :=
  t.LiesBelow n m ∨ ∃ x y, t.StandsBefore x y ∧ t.LiesWithin m x ∧ t.LiesWithin n y

/-- What stands before an element comes before it in document order. -/
lemma StandsBefore.comesBefore (hbefore : t.StandsBefore m n) : t.ComesBefore m n :=
  Or.inr ⟨m, n, hbefore, Or.inl rfl, Or.inl rfl⟩

/-- The elements of a subtree are listed in document order. -/
theorem pairwise_preorder (h : t.WellFormed) (n : NodeId) :
    (t.preorder n).Pairwise t.ComesBefore := by
  induction n using h.child_induction with
  | step n ih =>
    rw [preorder_eq h, List.pairwise_cons, List.pairwise_flatMap]
    refine ⟨?_, ih, ?_⟩
    -- The root lies around all others, and others from different children belong to siblings.
    · intro m hm
      obtain ⟨child, hchild, hm⟩ := List.mem_flatMap.1 hm
      refine Or.inl ((mem_ancestors_iff_liesBelow h).1 ?_)
      exact (mem_ancestors_iff_child h).2 ⟨child, hchild, (mem_numbers_branch h).1 hm⟩
    · refine (pairwise_children t n).imp ?_
      intro x y hbefore m hm k hk
      exact Or.inr ⟨x, y, hbefore, (mem_preorder_iff h).1 hm, (mem_preorder_iff h).1 hk⟩

/-- An element comes before another exactly if the two are listed in this order in some subtree. -/
theorem comesBefore_iff_sublist (h : t.WellFormed) :
    t.ComesBefore m n ↔ ∃ r, [m, n].Sublist (t.preorder r) := by
  constructor
  · rintro (hbelow | ⟨x, y, ⟨parent, hsub⟩, hm, hn⟩)
    · refine ⟨m, ?_⟩
      have hn : n ∈ t.descendants m :=
        (mem_descendants_iff h).2 ((mem_ancestors_iff_liesBelow h).2 hbelow)
      rw [preorder_eq_cons_descendants h]
      exact List.Sublist.cons_cons m (List.singleton_sublist.2 hn)
    · refine ⟨parent, ?_⟩
      rw [preorder_eq h]
      have hm := List.singleton_sublist.2 ((mem_preorder_iff h).2 hm)
      have hn := List.singleton_sublist.2 ((mem_preorder_iff h).2 hn)
      have hpair : [m, n].Sublist ([x, y].flatMap t.preorder) := by
        simpa using hm.append hn
      exact (hpair.trans (hsub.flatMap t.preorder)).trans (List.sublist_cons_self ..)
  · rintro ⟨r, hsub⟩
    exact List.pairwise_iff_forall_sublist.1 (pairwise_preorder h r) hsub

/-- Each element is listed in one outermost subtree. -/
lemma existsUnique_mem_preorder (h : t.WellFormed) (n : NodeId) :
    ∃! r, t.parent? r = none ∧ n ∈ t.preorder r := by
  simp only [preorder_eq_cons_descendants h, List.mem_cons]
  exact existsUnique_outermost h n

/-- Elements in document order are listed in this order in the outermost subtree around them. -/
lemma ComesBefore.sublist_preorder (h : t.WellFormed) (hbefore : t.ComesBefore m n) {r : NodeId}
    (hr : t.parent? r = none) (hm : m ∈ t.preorder r) : [m, n].Sublist (t.preorder r) := by
  obtain ⟨inner, hsub⟩ := (comesBefore_iff_sublist h).1 hbefore
  obtain ⟨s, ⟨hs, hinner⟩, -⟩ := existsUnique_mem_preorder h inner
  -- The subtree that lists both stands as a whole in the list of the one around it.
  obtain ⟨fs, x, -, -, horder⟩ := exists_preorder_eq h hinner
  have hsub : [m, n].Sublist (t.preorder s) := by
    rw [horder]
    exact (hsub.trans (List.sublist_append_left ..)).trans (List.sublist_append_right ..)
  have hms : m ∈ t.preorder s := hsub.subset (List.mem_cons_self ..)
  obtain rfl : r = s := (existsUnique_mem_preorder h m).unique ⟨hr, hm⟩ ⟨hs, hms⟩
  exact hsub

/-- A row without repetitions lists two of its members in one order only. -/
lemma not_sublist_of_sublist {α : Type} {l : List α} {x y : α} (hnodup : l.Nodup)
    (hxy : [x, y].Sublist l) : ¬ [y, x].Sublist l := by
  intro hyx
  induction l with
  | nil => simp at hxy
  | cons z l ih =>
    obtain ⟨hz, hnodup⟩ := List.nodup_cons.1 hnodup
    cases hxy with
    | cons _ hxy =>
      cases hyx with
      | cons _ hyx => exact ih hnodup hxy hyx
      | cons_cons => exact hz (hxy.subset (by simp))
    | cons_cons =>
      cases hyx with
      | cons _ hyx => exact hz (hyx.subset (by simp))
      | cons_cons _ hyx => exact hz (List.singleton_sublist.1 hyx)

/-- Document order does not run both ways. -/
theorem ComesBefore.asymm (h : t.WellFormed) (hbefore : t.ComesBefore m n) :
    ¬ t.ComesBefore n m := by
  intro hafter
  obtain ⟨r, ⟨hr, hm⟩, -⟩ := existsUnique_mem_preorder h m
  have hsub := hbefore.sublist_preorder h hr hm
  have hsub' := hafter.sublist_preorder h hr (hsub.subset (by simp))
  exact not_sublist_of_sublist (nodup_numbers_branch h r) hsub hsub'

/-- No two elements stand before each other. -/
lemma StandsBefore.asymm (h : t.WellFormed) (hbefore : t.StandsBefore m n) :
    ¬ t.StandsBefore n m :=
  fun hafter => hbefore.comesBefore.asymm h hafter.comesBefore

end Tree

namespace Query

variable {t : Tree} {a b m k n : NodeId}

/-! ### What an axis leads to -/

/-- An axis leads from `a` to `b`. -/
def Axis.Leads (t : Tree) (a b : NodeId) : Axis → Prop
  | .child => t.parent? b = some a
  | .self => b = a
  | .parent => t.parent? a = some b
  | .ancestor => t.LiesBelow a b
  | .descendant => t.LiesBelow b a
  | .precedingSibling => t.StandsBefore b a
  | .followingSibling => t.StandsBefore a b

/-- An axis lists `m` in front of `k`.  Towards the root and backwards the nearer one comes first,
elsewhere the first in document order. -/
def Axis.Nearer (t : Tree) (m k : NodeId) : Axis → Prop
  | .ancestor => t.LiesBelow m k
  | .precedingSibling => t.StandsBefore k m
  | _ => t.ComesBefore m k

/-- A row lists all that an axis leads to from `n`, in the order of the axis. -/
structure Axis.IsRow (t : Tree) (n : NodeId) (axis : Axis) (row : List NodeId) : Prop where
  mem_iff : ∀ m, m ∈ row ↔ axis.Leads t n m
  pairwise : row.Pairwise fun m k => axis.Nearer t m k

/-- No two elements are nearer than each other. -/
lemma Axis.Nearer.asymm (h : t.WellFormed) {axis : Axis} (hnearer : axis.Nearer t m k) :
    ¬ axis.Nearer t k m := by
  cases axis with
  | ancestor => exact Tree.LiesBelow.asymm h hnearer
  | precedingSibling => exact Tree.StandsBefore.asymm h hnearer
  | _ => exact Tree.ComesBefore.asymm h hnearer

/-- What is selected along an axis is all that the axis leads to. -/
theorem Axis.mem_select_iff (h : t.WellFormed) (axis : Axis) :
    b ∈ axis.select t a ↔ axis.Leads t a b := by
  cases axis with
  | child => exact h.mem_children_iff
  | self => exact List.mem_singleton
  | parent => exact Option.mem_toList
  | ancestor => exact Tree.mem_ancestors_iff_liesBelow h
  | descendant => exact (Tree.mem_descendants_iff h).trans (Tree.mem_ancestors_iff_liesBelow h)
  | precedingSibling => exact Tree.mem_precedingSiblings_iff h
  | followingSibling => exact Tree.mem_followingSiblings_iff h

/-- What is selected along an axis is in the order of the axis. -/
theorem Axis.pairwise_select (h : t.WellFormed) (axis : Axis) (n : NodeId) :
    (axis.select t n).Pairwise fun m k => axis.Nearer t m k := by
  -- The siblings before and behind an element are parts of the row of children.
  have hsiblings {parent : NodeId} (hp : t.parent? n = some parent) :
      (t.precedingSiblings n).reverse.Pairwise t.StandsBefore ∧
        (t.followingSiblings n).Pairwise t.StandsBefore := by
    have hpairwise := t.pairwise_children parent
    rw [← Tree.reverse_precedingSiblings_append h hp, List.pairwise_append, List.pairwise_cons]
      at hpairwise
    exact ⟨hpairwise.1, hpairwise.2.1.2⟩
  cases axis with
  | child => exact (t.pairwise_children n).imp Tree.StandsBefore.comesBefore
  | self => exact List.pairwise_singleton ..
  | parent =>
    rw [select]
    cases t.parent? n with
    | none => exact List.Pairwise.nil
    | some parent => exact List.pairwise_singleton ..
  | ancestor =>
    refine (List.pairwise_cons.1 (Tree.pairwise_climb (Nat.le_refl t.size) n)).2.imp ?_
    exact (Tree.mem_ancestors_iff_liesBelow h).1
  | descendant =>
    have hpairwise := Tree.pairwise_preorder h n
    rw [Tree.preorder_eq_cons_descendants h] at hpairwise
    exact (List.pairwise_cons.1 hpairwise).2
  | precedingSibling =>
    rw [select]
    cases hp : t.parent? n with
    | none => simp [Tree.precedingSiblings, hp]
    | some parent => exact List.pairwise_reverse.1 (hsiblings hp).1
  | followingSibling =>
    rw [select]
    cases hp : t.parent? n with
    | none => simp [Tree.followingSiblings, hp]
    | some parent => exact (hsiblings hp).2.imp Tree.StandsBefore.comesBefore

/-- The row of an axis lists nothing twice. -/
lemma Axis.IsRow.nodup (h : t.WellFormed) {axis : Axis} {row : List NodeId}
    (hrow : axis.IsRow t n row) : row.Nodup := by
  refine hrow.pairwise.imp ?_
  rintro m _ hnearer rfl
  exact hnearer.asymm h hnearer

/-- What is selected along an axis is the one row of all that the axis leads to, in its order. -/
theorem Axis.isRow_iff (h : t.WellFormed) {axis : Axis} {row : List NodeId} :
    axis.IsRow t n row ↔ row = axis.select t n := by
  have hselect : axis.IsRow t n (axis.select t n) :=
    ⟨fun _ => axis.mem_select_iff h, axis.pairwise_select h n⟩
  constructor
  · intro hrow
    have hperm : row.Perm (axis.select t n) := by
      refine (List.perm_ext_iff_of_nodup (hrow.nodup h) (hselect.nodup h)).2 fun m => ?_
      rw [hrow.mem_iff, hselect.mem_iff]
    refine hperm.eq_of_pairwise ?_ hrow.pairwise hselect.pairwise
    intro m k _ _ hnearer hfarther
    exact absurd hfarther (hnearer.asymm h)
  · rintro rfl
    exact hselect

/-- Nothing is selected twice along an axis. -/
lemma Axis.nodup_select (h : t.WellFormed) (axis : Axis) (n : NodeId) :
    (axis.select t n).Nodup :=
  ((Axis.isRow_iff h).2 rfl).nodup h

/-! ### Opposite axes -/

/-- The axis that leads back. -/
def Axis.opposite : Axis → Axis
  | .child => .parent
  | .self => .self
  | .parent => .child
  | .ancestor => .descendant
  | .descendant => .ancestor
  | .precedingSibling => .followingSibling
  | .followingSibling => .precedingSibling

/-- An axis selects an element from another exactly if the opposite axis selects that one from this.
-/
theorem Axis.mem_select_opposite (h : t.WellFormed) (axis : Axis) :
    a ∈ axis.opposite.select t b ↔ b ∈ axis.select t a := by
  rw [mem_select_iff h, mem_select_iff h]
  cases axis with
  | self => exact eq_comm
  | _ => exact Iff.rfl

end Query

end DoxygenRest
