import DoxygenRest.Proofs.Tree.Representation
import DoxygenRest.Proofs.Tree.Specimen

/-!
# What failed edits leave behind

Only the operations that move elements can fail.  They check a move before they begin it, so that a
refused move leaves the tree as it was, with one exception: an element that has a parent is put
after itself.  Then nothing speaks against the move (`refusal?_self`), the element is taken out of
its parent, and only after that it turns out that the place next to it is gone.

In a well-formed tree this is the only way in which a failed operation changes anything
(`unchanged_of_error`): an anchor other than the moved element keeps its place among the children of
its parent.
-/

namespace DoxygenRest.Tree

variable {t u : Tree} {parent anchor n : NodeId} {failure : EditError}

/-! ### Refused moves -/

/-- An insertion that fails changes nothing. -/
lemma eq_of_insertChild_error {index : Nat}
    (hrun : insertChild parent index n t = .error failure u) : u = t := by
  cases hrefusal : t.refusal? parent n with
  | some refused =>
    rw [insertChild_error hrefusal] at hrun
    cases hrun
    rfl
  | none =>
    rw [insertChild_ok hrefusal] at hrun
    cases hrun

/-- A removal that fails changes nothing. -/
lemma eq_of_detach_error (hrun : detach n t = .error failure u) : u = t := by
  by_cases hroot : n = root
  · have hrefused : detach n t = .error .detachRoot t := by
      simp [detach, hroot, Program.bind_apply]
    rw [hrefused] at hrun
    cases hrun
    rfl
  · have hdone : detach n t = .ok () (t.unlink n) := by
      simp [detach, hroot]
    rw [hdone] at hrun
    cases hrun

/-! ### Putting an element after another -/

/-- Next to its own place, an element may be put. -/
lemma refusal?_self (h : t.WellFormed) (hp : t.parent? n = some parent) :
    t.refusal? parent n = none := by
  have hbelow : parent ∈ t.ancestors n := (mem_ancestors_iff h).2 ⟨parent, hp, Or.inl rfl⟩
  have hnot := notMem_cons_ancestors h hbelow
  rw [List.mem_cons, not_or] at hnot
  refine refusal?_eq_none_iff.2 ⟨hnot.1, hnot.2, ?_⟩
  rintro rfl
  rw [h.parent?_root] at hp
  cases hp

/-- An element that has a parent and is put after itself is left without a parent. -/
lemma insertAfter_self (h : t.WellFormed) (hp : t.parent? n = some parent) :
    insertAfter n n t = .error .notAmongSiblings (t.unlink n) := by
  have hgone : (t.unlink n).indexInParent? n = none := by
    rw [indexInParent?, parent?_unlink, if_pos rfl, Option.bind_none]
  rw [insertAfter_eq hp, refusal?_self h hp, hgone]

/-- The place after another element is found, whatever was taken out before. -/
lemma isSome_indexInParent?_unlink (h : t.WellFormed) (hp : t.parent? anchor = some parent)
    (hne : anchor ≠ n) : ((t.unlink n).indexInParent? anchor).isSome = true := by
  rw [isSome_indexInParent? (h.unlink n), parent?_unlink, if_neg hne, hp, Option.isSome_some]

/-- If an element cannot be put after another one, nothing changes. -/
lemma eq_of_insertAfter_error (h : t.WellFormed) (hne : anchor ≠ n)
    (hrun : insertAfter anchor n t = .error failure u) : u = t := by
  cases hp : t.parent? anchor with
  | none =>
    rw [insertAfter, Program.get_bind_apply, hp] at hrun
    cases hrun
    rfl
  | some parent =>
    rw [insertAfter_eq hp] at hrun
    cases hrefusal : t.refusal? parent n with
    | some refused =>
      rw [hrefusal] at hrun
      cases hrun
      rfl
    | none =>
      obtain ⟨index, hindex⟩ :=
        Option.isSome_iff_exists.1 (isSome_indexInParent?_unlink h hp hne)
      rw [hrefusal, hindex] at hrun
      cases hrun

/-- A parentless element cannot be put after itself, and nothing changes. -/
lemma insertAfter_self_of_parentless (hp : t.parent? n = none) :
    insertAfter n n t = .error (.noParent (t.tag n)) t := by
  rw [insertAfter, Program.get_bind_apply, hp]
  rfl

/-! ### Any operation -/

/-- An operation that fails changes nothing, unless it is to put an element after itself. -/
lemma eq_of_error (h : t.WellFormed) {o : Operation} (ho : ∀ n, o ≠ .insertAfter n n)
    (hrun : o.run t = .error failure u) : u = t := by
  cases o with
  | insertChild parent index child => exact eq_of_insertChild_error hrun
  | appendChild parent child =>
    rw [Operation.run, appendChild_eq] at hrun
    exact eq_of_insertChild_error hrun
  | insertAfter anchor n =>
    have hne : anchor ≠ n := by
      rintro rfl
      exact ho anchor rfl
    exact eq_of_insertAfter_error h hne hrun
  | detach n => exact eq_of_detach_error hrun
  -- All others succeed.
  | create tag attributes namespaces => cases hrun
  | duplicate n => cases hrun
  | setText n text => cases hrun
  | setTail n tail => cases hrun
  | extendText n more => cases hrun
  | extendTail n more => cases hrun
  | prependTail n more => cases hrun
  | takeText n => cases hrun
  | takeTail n => cases hrun
  | setAttribute n name value => cases hrun
  | declareNamespaces n namespaces => cases hrun

/-- An operation that fails on a well-formed tree leaves all of the tree as it was, exactly if it was
not to put an element that has a parent after itself.  That one fails in one way, and leaves the
element without a parent. -/
theorem unchanged_of_error (h : t.WellFormed) {o : Operation}
    (hrun : o.run t = .error failure u) :
    (u = t ↔ ∀ n, o = .insertAfter n n → t.parent? n = none) ∧
      ∀ n, o = .insertAfter n n → t.parent? n ≠ none →
        failure = .notAmongSiblings ∧ u = t.unlink n := by
  -- An element behind itself is the only case in which something is changed before the failure.
  by_cases hself : ∃ n, o = .insertAfter n n
  · obtain ⟨n, rfl⟩ := hself
    rw [Operation.run] at hrun
    cases hp : t.parent? n with
    | none =>
      rw [insertAfter_self_of_parentless hp] at hrun
      cases hrun
      refine ⟨iff_of_true rfl ?_, ?_⟩
      · rintro m ⟨⟩
        exact hp
      · rintro m ⟨⟩ hm
        exact absurd hp hm
    | some parent =>
      rw [insertAfter_self h hp] at hrun
      cases hrun
      refine ⟨iff_of_false ?_ ?_, ?_⟩
      · intro heq
        -- The element had a parent and has none now.
        have hnone : (t.unlink n).parent? n = none := by
          rw [parent?_unlink, if_pos rfl]
        rw [heq, hp] at hnone
        cases hnone
      · intro hnone
        rw [hnone n rfl] at hp
        cases hp
      · rintro m ⟨⟩ -
        exact ⟨rfl, rfl⟩
  · rw [not_exists] at hself
    refine ⟨iff_of_true (eq_of_error h hself hrun) ?_, ?_⟩
    · intro n hn
      exact absurd hn (hself n)
    · intro n hn
      exact absurd hn (hself n)

/-- A paragraph cannot be put after what lies in it, and the attempt leaves all as it is. -/
theorem unchanged_of_error_specimen :
    specimen.WellFormed ∧
      (Operation.insertAfter 3 1).run specimen = .error (.intoOwnSubtree "para") specimen ∧
      ∀ failure u, (Operation.insertAfter 3 1).run specimen = .error failure u → u = specimen := by
  refine ⟨wellFormed_specimen, by decide, ?_⟩
  intro failure u hrun
  refine (unchanged_of_error wellFormed_specimen hrun).1.2 ?_
  rintro n ⟨⟩

/-- The first bold element of a paragraph is put after itself: that fails, but the element is no
longer in the paragraph. -/
theorem not_unchanged_of_error :
    specimen.WellFormed ∧ Operation.IsOn (.insertAfter 2 2) specimen ∧
      ∃ failure u, (Operation.insertAfter 2 2).run specimen = .error failure u ∧
        u.parent? 2 ≠ specimen.parent? 2 ∧ u.children 1 ≠ specimen.children 1 :=
  ⟨wellFormed_specimen, by decide, .notAmongSiblings, specimen.unlink 2, by decide, by decide,
    by decide⟩

end DoxygenRest.Tree
