import DoxygenRest.Proofs.Branch.Basic

/-!
# Bounds that are never felt

Parent links are climbed, subtrees are listed and fragments are read for at most as many steps as the
tree has elements.  In a well-formed tree each of these ends by itself before that, so a larger bound
gives nothing new (`climb_of_size_le`, `walk_of_size_le`, `fragmentWithin_of_size_le`).

For lists of descendants this comes from what the walk lists: the elements of the branches of all
that waits, in document order (`walk_eq_take`).  So the descendants of an element are the elements of
its branch without itself (`numbers_branch`): those that it lies around, each of them once.
-/

namespace DoxygenRest.Tree

open Branch

variable {t : Tree}

/-! ### Climbing -/

/-- An element has no more ancestors than the tree has elements. -/
lemma length_ancestors_le (t : Tree) (n : NodeId) : (t.ancestors n).length ≤ t.size := by
  rw [ancestors, climb_eq_take t (Nat.le_refl t.size)]
  exact List.length_take_le ..

/-- A climb that may take as many steps as there are ancestors takes no more. -/
lemma climb_of_length_le (h : t.WellFormed) {k : Nat} {n : NodeId}
    (hk : (t.ancestors n).length ≤ k) : t.climb k n = t.ancestors n := by
  induction n using h.parent_induction generalizing k with
  | step n ih =>
    cases hp : t.parent? n with
    | none =>
      rw [ancestors_eq_nil hp]
      cases k with
      | zero => rfl
      | succ k => rw [climb, hp]
    | some parent =>
      rw [ancestors_eq_cons h hp, List.length_cons] at hk
      obtain ⟨k, rfl⟩ : ∃ j, k = j + 1 := ⟨k - 1, by omega⟩
      rw [ancestors_eq_cons h hp, climb, hp, ← ih parent hp (Nat.le_of_succ_le_succ hk)]

/-- A climb ends by itself. -/
theorem climb_of_size_le (h : t.WellFormed) {k : Nat} (hk : t.size ≤ k) (n : NodeId) :
    t.climb k n = t.ancestors n :=
  climb_of_length_le h (Nat.le_trans (length_ancestors_le t n) hk)

/-! ### Listing descendants -/

/-- A walk lists the branches of all that waits, in document order, as far as it goes. -/
theorem walk_eq_take (h : t.WellFormed) (k : Nat) (waiting : List NodeId) :
    t.walk k waiting = (numbersAll (waiting.map t.branch)).take k := by
  induction k generalizing waiting with
  | zero => simp [walk]
  | succ k ih =>
    cases waiting with
    | nil => simp [walk]
    | cons n waiting =>
      rw [walk, ih, List.map_append, numbersAll_append, List.map_cons, numbersAll_cons,
        branch_eq h n, numbers_node, List.cons_append, List.take_succ_cons]

/-- No more elements lie below one than the tree has. -/
lemma length_numbersAll_children_le (h : t.WellFormed) (n : NodeId) :
    (numbersAll (t.branch n).children).length ≤ t.size := by
  have hnodup := nodup_numbers_branch h n
  rw [branch_eq h, numbers_node, List.nodup_cons] at hnodup
  rw [branch_eq h, children_node]
  -- They are different numbers, all smaller than the size.
  have hsub : numbersAll ((t.children n).map t.branch) ⊆ List.range t.size := by
    intro m hm
    have hin : m ∈ (t.branch n).numbers := by
      rw [branch_eq h, numbers_node]
      exact List.mem_cons_of_mem _ hm
    rcases (mem_numbers_branch h).1 hin with rfl | hbelow
    · exact absurd hm hnodup.1
    · exact List.mem_range.2 (lt_size_of_below h hbelow)
  have hle := hnodup.2.length_le_of_subset hsub
  rwa [List.length_range] at hle

/-- A walk through the descendants of an element ends by itself, and then it has listed the branches
of the children. -/
lemma walk_children (h : t.WellFormed) {k : Nat} (hk : t.size ≤ k) (n : NodeId) :
    t.walk k (t.children n) = numbersAll (t.branch n).children := by
  rw [walk_eq_take h, ← children_branch h]
  exact List.take_of_length_le (Nat.le_trans (length_numbersAll_children_le h n) hk)

/-- The descendants of an element are the elements of the branches of its children. -/
theorem descendants_eq (h : t.WellFormed) (n : NodeId) :
    t.descendants n = numbersAll (t.branch n).children :=
  walk_children h (Nat.le_refl _) n

/-- A walk through the descendants of an element ends by itself. -/
theorem walk_of_size_le (h : t.WellFormed) {k : Nat} (hk : t.size ≤ k) (n : NodeId) :
    t.walk k (t.children n) = t.descendants n := by
  rw [walk_children h hk, descendants_eq h]

/-- A branch lists its root and then the descendants of the root. -/
theorem numbers_branch (h : t.WellFormed) (n : NodeId) :
    (t.branch n).numbers = n :: t.descendants n := by
  rw [descendants_eq h, branch_eq h, numbers_node, children_node]

/-- An element and its descendants are distinct. -/
lemma nodup_cons_descendants (h : t.WellFormed) (n : NodeId) : (n :: t.descendants n).Nodup := by
  rw [← numbers_branch h]
  exact nodup_numbers_branch h n

/-- The descendants of an element are the elements that it lies around. -/
theorem mem_descendants_iff (h : t.WellFormed) {n m : NodeId} :
    m ∈ t.descendants n ↔ n ∈ t.ancestors m := by
  have hself := (List.nodup_cons.1 (nodup_cons_descendants h n)).1
  have hiff : m = n ∨ m ∈ t.descendants n ↔ m = n ∨ n ∈ t.ancestors m := by
    rw [← mem_numbers_branch h, numbers_branch h, List.mem_cons]
  constructor
  · intro hm
    rcases hiff.1 (Or.inr hm) with rfl | hbelow
    · exact absurd hm hself
    · exact hbelow
  · intro hbelow
    rcases hiff.2 (Or.inr hbelow) with rfl | hm
    · exact absurd hbelow (h.notMem_ancestors m)
    · exact hm

/-- An element has no more descendants than the tree has elements. -/
lemma length_descendants_le (h : t.WellFormed) (n : NodeId) :
    (t.descendants n).length ≤ t.size := by
  rw [descendants_eq h]
  exact length_numbersAll_children_le h n

/-- There are fewer elements below an element than below one that lies around it. -/
lemma length_descendants_lt (h : t.WellFormed) {n m : NodeId} (hbelow : n ∈ t.ancestors m) :
    (t.descendants m).length < (t.descendants n).length := by
  have hsub : m :: t.descendants m ⊆ t.descendants n := by
    intro k hk
    rw [mem_descendants_iff h]
    rcases List.mem_cons.1 hk with rfl | hk
    · exact hbelow
    · exact ancestors_subset h ((mem_descendants_iff h).1 hk) hbelow
  exact (nodup_cons_descendants h m).length_le_of_subset hsub

/-! ### Reading fragments -/

/-- The reading of a fragment ends by itself. -/
theorem fragmentWithin_of_size_le (h : t.WellFormed) {k : Nat} (hk : t.size ≤ k) (n : NodeId) :
    t.fragmentWithin k n = t.fragment n := by
  rw [← fragment_branchWithin, ← fragment_branch, branch]
  refine congrArg Branch.fragment ?_
  induction hk with
  | refl => rfl
  | @step k hk ih =>
    have hdepth : t.size ≤ k + (t.ancestors n).length + 1 := by
      simp only [Nat.le_eq] at hk
      omega
    rw [branchWithin_succ h k n hdepth, ih]

/-! ### Where an element belongs -/

/-- Each element has an element without a parent around it, or has no parent itself, and only one. -/
theorem existsUnique_outermost (h : t.WellFormed) (n : NodeId) :
    ∃! r, t.parent? r = none ∧ (n = r ∨ n ∈ t.descendants r) := by
  simp only [mem_descendants_iff h]
  induction n using h.parent_induction with
  | step n ih =>
    cases hp : t.parent? n with
    | none =>
      refine ⟨n, ⟨hp, Or.inl rfl⟩, ?_⟩
      rintro r ⟨-, rfl | hr⟩
      · rfl
      · simp [ancestors_eq_nil hp] at hr
    | some parent =>
      have hiff {r : NodeId} (hr : t.parent? r = none) :
          n = r ∨ r ∈ t.ancestors n ↔ parent = r ∨ r ∈ t.ancestors parent := by
        have hne : n ≠ r := by
          rintro rfl
          rw [hp] at hr
          cases hr
        rw [ancestors_eq_cons h hp, List.mem_cons, eq_comm (a := r)]
        tauto
      obtain ⟨r, ⟨hr, hbelow⟩, hunique⟩ := ih parent hp
      refine ⟨r, ⟨hr, (hiff hr).2 hbelow⟩, ?_⟩
      rintro s ⟨hs, hbelow'⟩
      exact hunique s ⟨hs, (hiff hs).1 hbelow'⟩

/-- An element has a place among the children of its parent exactly if it has a parent. -/
theorem isSome_indexInParent? (h : t.WellFormed) (n : NodeId) :
    (t.indexInParent? n).isSome = (t.parent? n).isSome := by
  cases hp : t.parent? n with
  | none => rw [indexInParent?, hp, Option.bind_none]
  | some parent =>
    obtain ⟨before, after, hchildren⟩ := exists_children_eq h hp
    rw [indexInParent?_of_children_eq h hchildren, Option.isSome_some, Option.isSome_some]

end DoxygenRest.Tree
