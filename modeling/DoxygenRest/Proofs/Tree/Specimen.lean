import DoxygenRest.Proofs.Tree.Ancestry

/-!
# Trees given element by element

A tree written down element by element is well-formed if each link is recorded on both sides and
leads from a smaller to a larger number (`wellFormed_of_ordered`); for a given tree this can be
decided.  `specimen` is such a tree.
-/

namespace DoxygenRest.Tree

/-- The links of a tree are recorded on both sides and lead from smaller to larger numbers. -/
structure Ordered (t : Tree) : Prop where
  size_pos : 0 < t.size
  parent : ∀ n < t.size, ∀ parent ∈ t.parent? n, parent < n ∧ n ∈ t.children parent
  children : ∀ n < t.size, (t.children n).Nodup ∧ ∀ child ∈ t.children n, t.parent? child = some n

instance (t : Tree) : Decidable t.Ordered :=
  decidable_of_iff
    (0 < t.size ∧ (∀ n < t.size, ∀ parent ∈ t.parent? n, parent < n ∧ n ∈ t.children parent) ∧
      ∀ n < t.size, (t.children n).Nodup ∧ ∀ child ∈ t.children n, t.parent? child = some n)
    ⟨fun ⟨h, h', h''⟩ => ⟨h, h', h''⟩, fun h => ⟨h.size_pos, h.parent, h.children⟩⟩

/-- Numbers that grow from parents to children rule out circles. -/
theorem wellFormed_of_ordered {t : Tree} (h : t.Ordered) : t.WellFormed := by
  have hparent {n parent : NodeId} (hp : t.parent? n = some parent) :
      parent < n ∧ n ∈ t.children parent :=
    h.parent n (lt_size_of_parent?_eq_some hp) parent hp
  refine wellFormed_of_rank id h.size_pos ?_ ?_ ?_ ?_ fun hp => (hparent hp).1
  · exact fun hp => Nat.lt_trans (hparent hp).1 (lt_size_of_parent?_eq_some hp)
  · intro n parent
    refine ⟨fun hn => (h.children parent (lt_size_of_mem_children hn)).2 n hn, fun hp => ?_⟩
    exact (hparent hp).2
  · intro n
    by_cases hn : n < t.size
    · exact (h.children n hn).1
    · rw [children_of_size_le (Nat.le_of_not_lt hn)]
      exact List.nodup_nil
  · refine Option.eq_none_iff_forall_ne_some.2 fun parent hp => ?_
    exact Nat.not_lt_zero _ (hparent hp).1

/-- A description with a paragraph of nested inline markup:

    <detaileddescription><para>a<bold>b<emphasis>c</emphasis>d</bold>e<bold>f</bold>g</para>
    </detaileddescription>
-/
def specimen : Tree :=
  ⟨#[{ tag := "detaileddescription", children := [1] },
    { tag := "para", text := some "a", parent := some 0, children := [2, 4] },
    { tag := "bold", text := some "b", tail := some "e", parent := some 1, children := [3] },
    { tag := "emphasis", text := some "c", tail := some "d", parent := some 2 },
    { tag := "bold", text := some "f", tail := some "g", parent := some 1 }]⟩

theorem wellFormed_specimen : specimen.WellFormed :=
  wellFormed_of_ordered (by decide)

end DoxygenRest.Tree
