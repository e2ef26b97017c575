import DoxygenRest.Proofs.Cursor.Effect

/-!
# Nothing outside of a cursor's subtree changes

An edit replaces a branch inside of the cursor's subtree, so all elements outside keep all they have
(`Tree.Replaced.outside`).  The root of the subtree lies on the boundary: an edit may add to its text
and change its children, but the root keeps its place and the rest of its own data, because every
edit leaves the element around its place as it was, but for the text (`Edited.exists_exchange`).
-/

namespace DoxygenRest

open Branch

/-- Own data but for the text. -/
def Entry.withoutText (e : Entry) : Entry :=
  { e with text := none }

/-- What stands at a place below the root of a branch does not matter to the root's own data. -/
lemma withoutText_plug (fs : List Frame) {x y : Branch}
    (h : y.own.withoutText = x.own.withoutText) :
    (plug fs y).own.withoutText = (plug fs x).own.withoutText := by
  induction fs generalizing x y with
  | nil => exact h
  | cons f fs ih =>
    apply ih
    rw [Frame.own_fill, Frame.own_fill]

/-- Text that is put before a place goes into the element around it or into a child of that. -/
lemma Frame.withoutText_extendBefore (f : Frame) (more : String) :
    (f.extendBefore more).own.withoutText = f.own.withoutText := by
  unfold Frame.extendBefore
  split <;> rfl

namespace Cursor

variable {c c' : Cursor} {o : Operation}

/-- An edit exchanges an element of the cursor's subtree for one that has the same own data, but for
the text. -/
lemma Edited.exists_exchange (hc : c.Edited o c') :
    ∃ fs x y, c.branch = plug fs x ∧ Tree.Replaced c.tree c'.tree c.root (plug fs y) ∧
      y.own.withoutText = x.own.withoutText := by
  cases hc with
  | @merged _ f fs x _ _ _ _ htarget hbefore hu =>
    exact ⟨fs, f.fill x, _, htarget.place, hu, rfl⟩
  | @dividedBefore _ p g fs x _ htarget hu =>
    exact ⟨fs, g.fill (p.fill x), _, htarget.place, hu, rfl⟩
  | @dividedBehind _ p g fs x _ htarget hu =>
    exact ⟨fs, g.fill (p.fill x), _, htarget.place, hu, rfl⟩
  | @lifted _ p g fs x _ htarget hu =>
    exact ⟨fs, g.fill (p.fill x), _, htarget.place, hu, rfl⟩
  | @removed _ f fs x _ _ htarget hu =>
    exact ⟨fs, f.fill x, _, htarget.place, hu, f.withoutText_extendBefore x.tail⟩

/-- Movements leave the tree alone. -/
lemma tree_perform_of_not_isEdit (ho : o.isEdit = false) : (c.perform o).tree = c.tree := by
  cases o with
  | advancePast => exact tree_advancePast c
  | advanceInto => exact tree_advanceInto c
  | retreat =>
    show c.retreat.tree = c.tree
    unfold retreat
    split
    · rfl
    · split <;> rfl
  | stop => rfl
  | moveTo n =>
    rw [perform, Operation.run, Cursor.moveTo, Program.get_bind_apply]
    by_cases hin : c.contains n
    · rw [if_pos hin]
      rfl
    · rw [if_neg hin]
      rfl
  | _ => cases ho

/-- An operation leaves the root's own data as they were, but for the text. -/
lemma withoutText_perform (h : c.tree.WellFormed) (hc : (c.perform o).tree.WellFormed) :
    ((c.perform o).tree.entry c.root).withoutText = (c.tree.entry c.root).withoutText := by
  cases ho : o.isEdit with
  | false => rw [tree_perform_of_not_isEdit ho]
  | true =>
    rcases effect_of_edit h ho with ⟨-, c', hrun, hedited⟩ | ⟨-, hrefused⟩
    · obtain ⟨fs, x, y, hplace, hu, hown⟩ := hedited.exists_exchange
      rw [perform_of_ok hrun] at hc ⊢
      rw [← Tree.own_branch hc, hu.branch, ← Tree.own_branch h, ← branch, hplace]
      exact withoutText_plug fs hown
    · rw [perform_of_refused hrefused]

/-- Any operations leave the root's own data as they were, but for the text. -/
lemma withoutText_foldl_perform (h : c.tree.WellFormed)
    (hc : ∀ n, c.current = some n → n ∈ c.branch.numbers) (os : List Operation) :
    ((os.foldl perform c).tree.entry c.root).withoutText =
      (c.tree.entry c.root).withoutText := by
  induction os generalizing c with
  | nil => rfl
  | cons o os ih =>
    have hfirst := confined_perform h hc o
    obtain ⟨b, hb⟩ := hfirst.replaced
    have hrest := ih hb.wellFormed hfirst.contained
    rw [hfirst.root] at hrest
    exact hrest.trans (withoutText_perform h hb.wellFormed)

/-- Whatever a cursor does, the elements outside of its subtree keep all they have: their tags,
attributes, namespaces, texts, tails, parents and children.  The root of the subtree keeps its tag,
its attributes, its namespaces, its tail and its parent. -/
theorem outside_untouched {t : Tree} (h : t.WellFormed) (root : NodeId) (os : List Operation) :
    let u := (os.foldl perform (start t root)).tree
    (∀ n < t.size, n ≠ root → root ∉ t.ancestors n → u.element n = t.element n) ∧
      u.tag root = t.tag root ∧ u.attributes root = t.attributes root ∧
      u.declaredNamespaces root = t.declaredNamespaces root ∧ u.tail? root = t.tail? root ∧
      u.parent? root = t.parent? root := by
  intro u
  have hstart : ∀ n, (start t root).current = some n → n ∈ (start t root).branch.numbers := by
    intro n hn
    obtain rfl := Option.some.inj hn
    exact (Tree.mem_numbers_branch h).2 (Or.inl rfl)
  obtain ⟨b, hb⟩ := (confined_foldl_perform h hstart os).replaced
  have hown := withoutText_foldl_perform h hstart os
  refine ⟨?_, congrArg Entry.tag hown, congrArg Entry.attributes hown,
    congrArg Entry.namespaces hown, congrArg Entry.tail hown, hb.parent⟩
  intro n hn hne hbelow
  apply hb.outside n hn
  show n ∉ (t.branch root).numbers
  rw [Tree.mem_numbers_branch h, not_or]
  exact ⟨hne, hbelow⟩

/-- A cursor in a paragraph lifts and merges what is inside, and is given what is outside. -/
theorem outside_untouched_specimen :
    let u := ([.lift (some 3), .mergeIntoPrevious (some 4), .moveTo 0, .remove (some 2)].foldl
      perform (start Tree.specimen 1)).tree
    Tree.specimen.WellFormed ∧ 0 < Tree.specimen.size ∧ 1 ∉ Tree.specimen.ancestors 0 ∧
      u.children 1 ≠ Tree.specimen.children 1 ∧ u.element 0 = Tree.specimen.element 0 ∧
      u.tag 1 = Tree.specimen.tag 1 ∧ u.parent? 1 = Tree.specimen.parent? 1 := by
  obtain ⟨houtside, htag, -, -, -, hparent⟩ := outside_untouched Tree.wellFormed_specimen 1
    [.lift (some 3), .mergeIntoPrevious (some 4), .moveTo 0, .remove (some 2)]
  exact ⟨Tree.wellFormed_specimen, by decide, by decide, by decide,
    houtside 0 (by decide) (by decide) (by decide), htag, hparent⟩

end Cursor

end DoxygenRest
