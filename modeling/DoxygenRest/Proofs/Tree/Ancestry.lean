import DoxygenRest.Proofs.Tree.Entry

/-!
# Ancestors in well-formed trees

Parent links are climbed for at most as many steps as the tree has elements.  In a well-formed tree
no chain of parents repeats an element, so the bound is never felt (`ancestors_eq_cons`), and two
inductions are sound: from parents to their children (`WellFormed.parent_induction`) and from
children to their parents (`WellFormed.child_induction`).

That a tree has no circles is shown by a rank that grows from each parent to its children
(`wellFormed_of_rank`); the primitives that change links keep trees well-formed because they keep
such a rank.
-/

namespace DoxygenRest.Tree

variable {t u : Tree}

/-! ### Climbing -/

/-- Fewer steps lead along the first part of the same way. -/
lemma climb_eq_take (t : Tree) {k m : Nat} (h : k ≤ m) (n : NodeId) :
    t.climb k n = (t.climb m n).take k := by
  induction k generalizing m n with
  | zero => simp [climb]
  | succ k ih =>
    obtain ⟨m, rfl⟩ : ∃ j, m = j + 1 := ⟨m - 1, by omega⟩
    unfold climb
    split
    · rfl
    · rw [List.take_succ_cons, ih (Nat.le_of_succ_le_succ h)]

/-- Everything met on a climb is an ancestor of all that was met before. -/
lemma pairwise_climb {k : Nat} (hk : k ≤ t.size) (n : NodeId) :
    (n :: t.climb k n).Pairwise fun m a => a ∈ t.ancestors m := by
  induction k generalizing n with
  | zero => simp [climb]
  | succ k ih =>
    refine List.pairwise_cons.2 ⟨fun a ha => ?_, ?_⟩
    · rw [climb_eq_take t hk] at ha
      exact List.mem_of_mem_take ha
    · unfold climb
      split
      · exact List.Pairwise.nil
      · exact ih (Nat.le_of_succ_le hk) _

/-- A climb meets elements of the tree only. -/
lemma climb_lt_size (h : t.WellFormed) (k : Nat) (n : NodeId) : ∀ a ∈ t.climb k n, a < t.size := by
  induction k generalizing n with
  | zero => simp [climb]
  | succ k ih =>
    unfold climb
    split
    · simp
    · next parent hparent =>
      intro a ha
      rcases List.mem_cons.1 ha with rfl | ha
      · exact h.parent_lt_size hparent
      · exact ih _ a ha

/-- An element and its ancestors are distinct. -/
lemma nodup_cons_ancestors (h : t.WellFormed) (n : NodeId) : (n :: t.ancestors n).Nodup :=
  (pairwise_climb (Nat.le_refl t.size) n).imp
    fun {m a} (ha : a ∈ t.ancestors m) (hm : m = a) => h.notMem_ancestors m (hm ▸ ha)

/-- An element of the tree has fewer ancestors than there are elements. -/
lemma length_ancestors_lt (h : t.WellFormed) {n : NodeId} (hn : n < t.size) :
    (t.ancestors n).length < t.size := by
  have hsub : (n :: t.ancestors n) ⊆ List.range t.size := by
    intro a ha
    rcases List.mem_cons.1 ha with rfl | ha
    · exact List.mem_range.2 hn
    · exact List.mem_range.2 (climb_lt_size h t.size n a ha)
  have hle := (nodup_cons_ancestors h n).length_le_of_subset hsub
  rw [List.length_range] at hle
  exact hle

/-- The bound on climbs is never felt. -/
theorem ancestors_eq_cons (h : t.WellFormed) {n parent : NodeId} (hp : t.parent? n = some parent) :
    t.ancestors n = parent :: t.ancestors parent := by
  obtain ⟨k, hk⟩ : ∃ k, t.size = k + 1 := ⟨t.size - 1, (Nat.sub_add_cancel h.size_pos).symm⟩
  have hlength : (t.climb (k + 1) parent).length ≤ k := by
    have := length_ancestors_lt h (h.parent_lt_size hp)
    rw [ancestors, hk] at this
    omega
  calc t.ancestors n = t.climb (k + 1) n := by rw [ancestors, hk]
    _ = parent :: t.climb k parent := by rw [climb, hp]
    _ = parent :: t.climb (k + 1) parent := by
      rw [climb_eq_take t (Nat.le_succ k), List.take_of_length_le hlength]
    _ = parent :: t.ancestors parent := by rw [ancestors, hk]

/-- An ancestor is the parent or an ancestor of the parent. -/
theorem mem_ancestors_iff (h : t.WellFormed) {a n : NodeId} :
    a ∈ t.ancestors n ↔ ∃ parent, t.parent? n = some parent ∧ (a = parent ∨ a ∈ t.ancestors parent) := by
  cases hp : t.parent? n with
  | none => simp [ancestors_eq_nil hp]
  | some parent => simp [ancestors_eq_cons h hp]

/-- No element is its own parent. -/
lemma ne_of_parent?_eq_some (h : t.WellFormed) {n parent : NodeId}
    (hp : t.parent? n = some parent) : n ≠ parent := by
  rintro rfl
  exact h.notMem_ancestors n ((mem_ancestors_iff h).2 ⟨n, hp, Or.inl rfl⟩)

/-- The test for ancestors looks through the list of them. -/
lemma isAncestorOf_iff {a n : NodeId} : t.isAncestorOf a n = true ↔ a ∈ t.ancestors n := by
  simp [isAncestorOf]

/-- Ancestors are elements of the tree. -/
lemma lt_size_of_mem_ancestors {a n : NodeId} (h : t.WellFormed) (ha : a ∈ t.ancestors n) :
    a < t.size :=
  climb_lt_size h t.size n a ha

/-- Only elements of the tree have ancestors. -/
lemma lt_size_of_below (h : t.WellFormed) {a n : NodeId} (ha : a ∈ t.ancestors n) : n < t.size := by
  obtain ⟨parent, hp, -⟩ := (mem_ancestors_iff h).1 ha
  exact lt_size_of_parent?_eq_some hp

/-- Ancestors of ancestors are ancestors. -/
lemma ancestors_subset (h : t.WellFormed) {a n : NodeId} (ha : a ∈ t.ancestors n) :
    t.ancestors a ⊆ t.ancestors n := by
  have hinduction (ns : List NodeId) : ∀ n, t.ancestors n = ns → a ∈ ns → t.ancestors a ⊆ ns := by
    induction ns with
    | nil => simp
    | cons m ns ih =>
      intro n hn ha
      obtain ⟨parent, hp⟩ : ∃ parent, t.parent? n = some parent := by
        cases hp : t.parent? n with
        | none => simp [ancestors_eq_nil hp] at hn
        | some parent => exact ⟨parent, rfl⟩
      rw [ancestors_eq_cons h hp] at hn
      obtain ⟨rfl, rfl⟩ := List.cons.inj hn
      rcases List.mem_cons.1 ha with rfl | ha
      · exact List.subset_cons_self ..
      · exact List.Subset.trans (ih _ rfl ha) (List.subset_cons_self ..)
  exact hinduction _ n rfl ha

/-! ### Inductions -/

/-- What passes from parents to their children holds of all elements. -/
theorem WellFormed.parent_induction (h : t.WellFormed) {motive : NodeId → Prop}
    (step : ∀ n, (∀ parent, t.parent? n = some parent → motive parent) → motive n) (n : NodeId) :
    motive n := by
  induction hk : (t.ancestors n).length generalizing n with
  | zero =>
    refine step n fun parent hp => ?_
    simp [ancestors_eq_cons h hp] at hk
  | succ k ih =>
    refine step n fun parent hp => ih parent ?_
    simpa [ancestors_eq_cons h hp] using hk

/-- What passes from children to their parents holds of all elements. -/
theorem WellFormed.child_induction (h : t.WellFormed) {motive : NodeId → Prop}
    (step : ∀ n, (∀ child ∈ t.children n, motive child) → motive n) (n : NodeId) : motive n := by
  induction hk : t.size - (t.ancestors n).length generalizing n with
  | zero =>
    refine step n fun child hchild => ?_
    have hp := h.mem_children_iff.1 hchild
    have := length_ancestors_lt h (h.parent_lt_size hp)
    omega
  | succ k ih =>
    refine step n fun child hchild => ih child ?_
    rw [ancestors_eq_cons h (h.mem_children_iff.1 hchild), List.length_cons]
    omega

/-- An element lies below another exactly if it is, or lies below, one of its children. -/
lemma mem_ancestors_iff_child (h : t.WellFormed) {a n : NodeId} :
    a ∈ t.ancestors n ↔ ∃ c ∈ t.children a, n = c ∨ c ∈ t.ancestors n := by
  constructor
  · intro ha
    induction n using h.parent_induction with
    | step n ih =>
      obtain ⟨parent, hp, rfl | ha⟩ := (mem_ancestors_iff h).1 ha
      · exact ⟨n, h.mem_children_iff.2 hp, Or.inl rfl⟩
      · obtain ⟨c, hc, hcp⟩ := ih parent hp ha
        exact ⟨c, hc, Or.inr ((mem_ancestors_iff h).2 ⟨parent, hp, hcp.imp_left Eq.symm⟩)⟩
  · rintro ⟨c, hc, rfl | hcn⟩
    · exact (mem_ancestors_iff h).2 ⟨a, h.mem_children_iff.1 hc, Or.inl rfl⟩
    · refine ancestors_subset h hcn ?_
      exact (mem_ancestors_iff h).2 ⟨a, h.mem_children_iff.1 hc, Or.inl rfl⟩

/-- What lies below an element that is `a` or below `a` lies below `a`. -/
lemma mem_ancestors_of_mem_children (h : t.WellFormed) {a n c : NodeId}
    (hn : n = a ∨ a ∈ t.ancestors n) (hc : c ∈ t.children n) : a ∈ t.ancestors c := by
  rw [ancestors_eq_cons h (h.mem_children_iff.1 hc), List.mem_cons]
  exact hn.imp_left Eq.symm

/-- An element without children lies around nothing. -/
lemma notMem_ancestors_of_children_eq_nil (h : t.WellFormed) {a : NodeId} (ha : t.children a = [])
    (n : NodeId) : a ∉ t.ancestors n := by
  rw [mem_ancestors_iff_child h, ha]
  simp

/-- An element does not lie around itself or its ancestors. -/
lemma notMem_cons_ancestors (h : t.WellFormed) {parent n : NodeId}
    (hbelow : parent ∈ t.ancestors n) : n ∉ parent :: t.ancestors parent := by
  intro hn
  rcases List.mem_cons.1 hn with rfl | hn
  · exact h.notMem_ancestors n hbelow
  · exact h.notMem_ancestors n (ancestors_subset h hbelow hn)

/-! ### Circles and ranks -/

/-- Whatever grows from parents to children is smaller at each ancestor. -/
lemma rank_lt_of_mem_climb {rank : NodeId → Nat}
    (hrank : ∀ {n parent}, t.parent? n = some parent → rank parent < rank n) {k : Nat}
    {n a : NodeId} (ha : a ∈ t.climb k n) : rank a < rank n := by
  induction k generalizing n with
  | zero => simp [climb] at ha
  | succ k ih =>
    unfold climb at ha
    split at ha
    · simp at ha
    · next parent hp =>
      rcases List.mem_cons.1 ha with rfl | ha
      · exact hrank hp
      · exact Nat.lt_trans (ih ha) (hrank hp)

/-- A tree has no circles if some rank grows from each parent to its children. -/
theorem wellFormed_of_rank (rank : NodeId → Nat)
    (size_pos : 0 < t.size)
    (parent_lt_size : ∀ {n parent : NodeId}, t.parent? n = some parent → parent < t.size)
    (mem_children_iff : ∀ {n parent : NodeId}, n ∈ t.children parent ↔ t.parent? n = some parent)
    (nodup_children : ∀ n : NodeId, (t.children n).Nodup)
    (parent?_root : t.parent? root = none)
    (hrank : ∀ {n parent}, t.parent? n = some parent → rank parent < rank n) : t.WellFormed where
  size_pos := size_pos
  parent_lt_size := parent_lt_size
  mem_children_iff := mem_children_iff
  nodup_children := nodup_children
  parent?_root := parent?_root
  notMem_ancestors _ hn := Nat.lt_irrefl _ (rank_lt_of_mem_climb hrank hn)

/-- The number of ancestors is a rank. -/
lemma length_ancestors_parent_lt (h : t.WellFormed) {n parent : NodeId}
    (hp : t.parent? n = some parent) : (t.ancestors parent).length < (t.ancestors n).length := by
  rw [ancestors_eq_cons h hp]
  exact Nat.lt_succ_self _

/-! ### What keeps a tree well-formed -/

/-- Whatever keeps all links, and drops no element, keeps a tree well-formed. -/
theorem WellFormed.of_links (h : t.WellFormed) (hsize : t.size ≤ u.size)
    (hparent : ∀ n, u.parent? n = t.parent? n) (hchildren : ∀ n, u.children n = t.children n) :
    u.WellFormed := by
  refine wellFormed_of_rank (fun n => (t.ancestors n).length) (Nat.lt_of_lt_of_le h.size_pos hsize)
    ?_ ?_ ?_ ?_ ?_
  · intro n parent hp
    rw [hparent] at hp
    exact Nat.lt_of_lt_of_le (h.parent_lt_size hp) hsize
  · intro n parent
    rw [hparent, hchildren, h.mem_children_iff]
  · intro n
    rw [hchildren]
    exact h.nodup_children n
  · rw [hparent, h.parent?_root]
  · intro n parent hp
    rw [hparent] at hp
    exact length_ancestors_parent_lt h hp

/-- Other own data leave a tree well-formed. -/
lemma WellFormed.revise (h : t.WellFormed) (n : NodeId) (f : Entry → Entry) :
    (t.revise n f).WellFormed :=
  h.of_links (by simp) (by simp) (by simp)

/-- A creation leaves a tree well-formed. -/
lemma WellFormed.create (h : t.WellFormed) (tag : String) (attributes namespaces : Bindings) :
    (t.create tag attributes namespaces).2.WellFormed :=
  h.of_links (by simp) (by simp) (by simp)

/-- To unlink an element leaves a tree well-formed. -/
lemma WellFormed.unlink (h : t.WellFormed) (n : NodeId) : (t.unlink n).WellFormed := by
  have hparent {m parent : NodeId} (hp : (t.unlink n).parent? m = some parent) :
      t.parent? m = some parent := by
    rw [parent?_unlink] at hp
    split at hp
    · cases hp
    · exact hp
  -- Fewer links close no circle: the number of ancestors that elements had before still grows from
  -- parents to children.
  refine wellFormed_of_rank (fun m => (t.ancestors m).length) ?_ ?_ ?_ ?_ ?_ ?_
  · rw [size_unlink]
    exact h.size_pos
  · intro m parent hp
    rw [size_unlink]
    exact h.parent_lt_size (hparent hp)
  · intro m parent
    rw [children_unlink h, parent?_unlink, List.mem_filter, h.mem_children_iff]
    by_cases hm : m = n <;> simp [hm]
  · intro m
    rw [children_unlink h]
    exact (h.nodup_children m).filter _
  · rw [parent?_unlink]
    split
    · rfl
    · exact h.parent?_root
  · exact fun hp => length_ancestors_parent_lt h (hparent hp)

/-- A parentless element may be put under any element that does not lie below it. -/
theorem WellFormed.link (h : t.WellFormed) {parent n : NodeId} (index : Nat)
    (hn : t.parent? n = none) (hroot : n ≠ root) (hsize : n < t.size) (hparent : parent < t.size)
    (hbelow : parent ≠ n ∧ n ∉ t.ancestors parent) : (t.link parent index n).WellFormed := by
  have hchild : n ∉ t.children parent := by simp [h.mem_children_iff, hn]
  -- The ranks of `n` and of all below it are raised above that of the new parent.
  refine wellFormed_of_rank
    (fun m => (t.ancestors m).length +
      if m = n ∨ n ∈ t.ancestors m then (t.ancestors parent).length + 1 else 0) ?_ ?_ ?_ ?_ ?_ ?_
  · rw [size_link]
    exact h.size_pos
  · intro m q hp
    rw [parent?_link index hsize] at hp
    rw [size_link]
    split at hp
    · obtain rfl := Option.some.inj hp
      exact hparent
    · exact h.parent_lt_size hp
  · intro m q
    rw [children_link index hparent, parent?_link index hsize]
    have hmem : m ∈ (t.children q).take index ++ n :: (t.children q).drop index ↔
        m = n ∨ m ∈ t.children q := by
      conv_rhs => rw [← List.take_append_drop index (t.children q)]
      simp only [List.mem_append, List.mem_cons]
      tauto
    by_cases hm : m = n
    · subst hm
      by_cases hq : q = parent
      · simp [hq]
      · simp [hq, Ne.symm hq, h.mem_children_iff, hn]
    · by_cases hq : q = parent
      · subst hq
        simp [hmem, hm, h.mem_children_iff]
      · simp [hm, hq, h.mem_children_iff]
  · intro m
    rw [children_link index hparent]
    split
    · next hm =>
      subst hm
      rw [List.perm_middle.nodup_iff, List.take_append_drop]
      exact List.nodup_cons.2 ⟨hchild, h.nodup_children m⟩
    · exact h.nodup_children m
  · rw [parent?_link index hsize, if_neg hroot.symm, h.parent?_root]
  · intro m q hp
    rw [parent?_link index hsize] at hp
    split at hp
    · next hm =>
      obtain rfl := Option.some.inj hp
      simp only [hbelow, hm, true_or, or_self, if_true, if_false]
      omega
    · next hm =>
      have hlt := length_ancestors_parent_lt h hp
      have hiff : n ∈ t.ancestors m ↔ q = n ∨ n ∈ t.ancestors q := by
        rw [ancestors_eq_cons h hp, List.mem_cons, eq_comm]
      simp only [hm, false_or, hiff]
      omega

end DoxygenRest.Tree
