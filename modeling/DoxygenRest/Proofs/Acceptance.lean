import DoxygenRest.Proofs.Query.Axes
import DoxygenRest.Proofs.Rule

/-!
# Which elements a rule accepts

A rule accepts the elements that meet all of its criteria (`Rule.accepts_iff_criteria`).  For
surroundings the criterion is that elements with the tags of a pattern lie around, each outside of the
one before.  Such elements may lie anywhere, while the search for them takes the nearest element with
the right tag each time and never goes back; it still finds them (`isFoundIn_of_chain`), since all rows
of this kind are parts of the row of all ancestors.
-/

namespace DoxygenRest

namespace Tree

variable {t : Tree} {n : NodeId}

/-- Elements of which each lies around the one before, the first around `n`, are ancestors of `n` in
their order. -/
lemma sublist_ancestors_of_pairwise (h : t.WellFormed) {chain : List NodeId}
    (hchain : (n :: chain).Pairwise t.LiesBelow) : chain.Sublist (t.ancestors n) := by
  induction n using h.parent_induction generalizing chain with
  | step n ih =>
    cases chain with
    | nil => exact List.nil_sublist _
    | cons a chain =>
      obtain ⟨hbelow, hrest⟩ := List.pairwise_cons.1 hchain
      have ha := (mem_ancestors_iff_liesBelow h).2 (hbelow a (List.mem_cons_self ..))
      obtain ⟨parent, hp, heq | ha⟩ := (mem_ancestors_iff h).1 ha
      · rw [ancestors_eq_cons h hp, heq, List.cons_sublist_cons]
        exact ih parent hp (heq ▸ hrest)
      · -- The parent is left out, so all of the chain lies around it.
        have hparent := (mem_ancestors_iff_liesBelow h).1 ha
        rw [ancestors_eq_cons h hp]
        refine (ih parent hp (List.pairwise_cons.2 ⟨?_, hrest⟩)).cons parent
        intro m hm
        rcases List.mem_cons.1 hm with rfl | hm
        · exact hparent
        · exact hparent.trans ((List.pairwise_cons.1 hrest).1 m hm)

/-- The tags of a pattern occur in their order among the tags of the elements that `n` lies below,
nearest first. -/
def Surrounds (t : Tree) (n : NodeId) (pattern : List String) : Prop :=
  ∃ row, Query.Axis.ancestor.IsRow t n row ∧ pattern.Sublist (row.map t.tag)

/-- The search through the tags of the ancestors tells what surrounds an element. -/
lemma isFoundIn_iff_surrounds (h : t.WellFormed) {pattern : List String} :
    isFoundIn pattern ((t.ancestors n).map t.tag) = true ↔ t.Surrounds n pattern := by
  rw [isFoundIn_iff_sublist]
  constructor
  · intro hsub
    exact ⟨t.ancestors n, (Query.Axis.isRow_iff h).2 rfl, hsub⟩
  · rintro ⟨row, hrow, hsub⟩
    obtain rfl := (Query.Axis.isRow_iff h).1 hrow
    exact hsub

/-- The search finds the tags of all elements that lie one around the other. -/
lemma isFoundIn_of_chain (h : t.WellFormed) {chain : List NodeId}
    (hchain : (n :: chain).Pairwise t.LiesBelow) :
    isFoundIn (chain.map t.tag) ((t.ancestors n).map t.tag) = true :=
  isFoundIn_iff_sublist.2 ((sublist_ancestors_of_pairwise h hchain).map t.tag)

end Tree

namespace Rule

/-- A rule accepts exactly the elements that meet all criteria it has: their tag is one of its tags, the
tags of one of its patterns occur in their order among the tags of the ancestors, nearest first, the
test that has to succeed does so, and the test that has to fail does not succeed.  The search for a
pattern misses no row of elements around each other, wherever they lie; and the tags of a pattern are
what stands between its slashes. -/
theorem accepts_iff_criteria {α : Type} (r : Rule α) (t : Tree) (h : t.WellFormed) (n : NodeId) :
    (r.accepts t n = true ↔
      (∀ tags, r.tags = some tags → t.tag n ∈ tags) ∧
        (∀ patterns, r.within = some patterns → ∃ pattern ∈ patterns, t.Surrounds n pattern) ∧
        (∀ guard, r.requires = some guard → guard.holds t n = true) ∧
        ∀ guard, r.excludes = some guard → ¬ guard.holds t n = true) ∧
      (∀ chain : List NodeId, (n :: chain).Pairwise t.LiesBelow →
        isFoundIn (chain.map t.tag) ((t.ancestors n).map t.tag) = true) ∧
      ∀ pattern tags, surrounding pattern = tags ↔
        tags ≠ [] ∧ (∀ tag ∈ tags, '/' ∉ tag.toList) ∧ "/".intercalate tags = pattern := by
  refine ⟨?_, fun chain => Tree.isFoundIn_of_chain h, fun pattern tags => surrounding_eq_iff⟩
  simp only [accepts, Bool.and_eq_true, Option.all_eq_true, List.contains_iff_mem, List.any_eq_true,
    Tree.isFoundIn_iff_surrounds h, Bool.not_eq_true', Bool.not_eq_true, and_assoc]

/-- A rule for an emphasis that is the first child of a bold, if it lies in nested paragraphs or in a
bold in a description. -/
def emphasisRule : Rule Unit where
  name := "emphasis"
  action := ()
  tags := some ["emphasis"]
  within := some [surrounding "para/para", surrounding "bold/detaileddescription"]
  requires := some (.predicate fun t n => (t.parent? n).any fun parent => t.tag parent == "bold")
  excludes := some (.query ⟨"preceding-sibling::*",
    .path [⟨.precedingSibling, .any, []⟩]⟩)

/-- In `specimen`, the emphasis is accepted for the bold and the description around it, although the
paragraph lies between these. -/
theorem accepts_iff_criteria_emphasisRule :
    Tree.specimen.WellFormed ∧ emphasisRule.accepts Tree.specimen 3 = true ∧
      ¬ emphasisRule.accepts Tree.specimen 2 = true ∧
      Tree.specimen.Surrounds 3 ["bold", "detaileddescription"] ∧
      [3, 2, 0].Pairwise Tree.specimen.LiesBelow ∧
      isFoundIn ["bold", "detaileddescription"]
        ((Tree.specimen.ancestors 3).map Tree.specimen.tag) = true := by
  have h := Tree.wellFormed_specimen
  have hbelow {a n : NodeId} (ha : a ∈ Tree.specimen.ancestors n) : Tree.specimen.LiesBelow n a :=
    (Tree.mem_ancestors_iff_liesBelow h).1 ha
  have hchain : [3, 2, 0].Pairwise Tree.specimen.LiesBelow :=
    .cons (by simpa using ⟨hbelow (by decide), hbelow (by decide)⟩)
      (.cons (by simpa using hbelow (by decide)) (.cons (by simp) .nil))
  obtain ⟨haccepts, hfound, htags⟩ := accepts_iff_criteria emphasisRule Tree.specimen h 3
  have hpattern : surrounding "bold/detaileddescription" = ["bold", "detaileddescription"] :=
    (htags _ _).2 ⟨by simp, by decide, by decide⟩
  have hsurrounds := (Tree.isFoundIn_iff_surrounds h).1 (hfound [2, 0] hchain)
  refine ⟨h, haccepts.2 ⟨?_, ?_, ?_, ?_⟩, ?_, hsurrounds, hchain, hfound [2, 0] hchain⟩
  · rintro tags ⟨⟩
    exact List.mem_singleton_self _
  · rintro patterns ⟨⟩
    refine ⟨surrounding "bold/detaileddescription", by simp, ?_⟩
    rw [hpattern]
    exact hsurrounds
  · rintro guard ⟨⟩
    decide
  · rintro guard ⟨⟩
    decide
  · intro hbold
    have htag := (accepts_iff_criteria emphasisRule Tree.specimen h 2).1.1 hbold
    exact absurd (htag.1 _ rfl) (by decide)

end Rule

end DoxygenRest
