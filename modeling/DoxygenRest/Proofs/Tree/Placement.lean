import DoxygenRest.Proofs.Branch.Descent
import DoxygenRest.Proofs.Tree.Specimen

/-!
# Where a moved element comes to lie

A move takes an element out of the children of its parent, if it has one, and puts it among the children
of another element or of the same one; the place is counted when the element is already out.  All moves
of the library are made of these two steps, so what they leave as it was is proved once, for whatever
only moves an element (`MovedUnder`): from the parents and the children follow the descendants of all
elements and all branches the moved element is not part of (`MovedUnder.onlyMoved`).
-/

namespace DoxygenRest.Tree

open Branch

variable {t u : Tree} {parent n : NodeId}

/-! ### Children but for one -/

/-- An element that is unlinked leaves every list of children. -/
lemma children_unlink_eq_erase (h : t.WellFormed) (n m : NodeId) :
    (t.unlink n).children m = (t.children m).erase n := by
  rw [children_unlink h, (h.nodup_children m).erase_eq_filter]
  exact List.filter_congr fun a _ => by by_cases ha : a = n <;> simp [ha]

/-- Once erased, an element is not among the children. -/
lemma notMem_erase_children (h : t.WellFormed) (n m : NodeId) : n ∉ (t.children m).erase n :=
  (h.nodup_children m).not_mem_erase

/-- To erase an element from children of another parent changes nothing. -/
lemma erase_children_of_parent?_ne (h : t.WellFormed) {m : NodeId} (hm : t.parent? n ≠ some m) :
    (t.children m).erase n = t.children m :=
  List.erase_of_not_mem fun hn => hm (h.mem_children_iff.1 hn)

/-- What is empty for one item does not miss it. -/
lemma flatMap_erase {α β : Type} [DecidableEq α] {f : α → List β} {a : α} (ha : f a = [])
    (l : List α) : (l.erase a).flatMap f = l.flatMap f := by
  induction l with
  | nil => rfl
  | cons b l ih =>
    by_cases hb : b = a
    · rw [hb, List.erase_cons_head, List.flatMap_cons, ha, List.nil_append]
    · rw [List.erase_cons_tail (by simpa using hb), List.flatMap_cons, List.flatMap_cons, ih]

/-- Beyond the last place means at the last place. -/
lemma take_append_cons_drop {α : Type} (l : List α) (index : Nat) (a : α) :
    l.take index ++ a :: l.drop index = l.insertIdx (min index l.length) a := by
  induction l generalizing index with
  | nil => simp
  | cons b l ih =>
    cases index with
    | zero => simp
    | succ index => simp [ih, Nat.succ_min_succ]

/-! ### What is only moved -/

/-- `u` is `t` with `n` moved under `parent`: nothing else has another parent, and but for `n` all
elements have the same children in the same order. -/
structure MovedUnder (t u : Tree) (parent n : NodeId) : Prop where
  wellFormed : u.WellFormed
  size : u.size = t.size
  entry : ∀ m, u.entry m = t.entry m
  parent? : ∀ m, u.parent? m = if m = n then some parent else t.parent? m
  erase_children : ∀ m, (u.children m).erase n = (t.children m).erase n

/-- Whether an element is neither `n` nor below `n`. -/
def isApart (t : Tree) (n m : NodeId) : Bool :=
  m != n && !t.isAncestorOf n m

/-- What a move of `n` under `parent` leaves as it was, besides all own data and all other parents.  The
former parent of `n`, if it is another one, has lost `n` and nothing else, and the children of all others
are the same.  Whatever does not have `n` below it, before or after, as `n` itself, holds the same in
every respect.  The elements below any element stand in the same order, but for `n` and what is below
`n`. -/
structure OnlyMoved (t u : Tree) (parent n : NodeId) : Prop extends MovedUnder t u parent n where
  children_former : ∀ m, t.parent? n = some m → m ≠ parent → u.children m = (t.children m).erase n
  children_other : ∀ m, t.parent? n ≠ some m → m ≠ parent → u.children m = t.children m
  branch : ∀ m, n ∉ t.descendants m → n ∉ u.descendants m → u.branch m = t.branch m
  descendants : ∀ m,
    (u.descendants m).filter (t.isApart n) = (t.descendants m).filter (t.isApart n)

namespace MovedUnder

variable (h : t.WellFormed) (hmoved : MovedUnder t u parent n)

include hmoved

/-- All elements but the new parent keep their children, without the moved one. -/
lemma children_of_ne {m : NodeId} (hm : m ≠ parent) : u.children m = (t.children m).erase n := by
  have hparent : u.parent? n ≠ some m := by
    rw [hmoved.parent?, if_pos rfl]
    exact fun heq => hm (Option.some.inj heq).symm
  rw [← hmoved.erase_children, erase_children_of_parent?_ne hmoved.wellFormed hparent]

include h

/-- All elements but the new and the former parent keep their children. -/
lemma children_other {m : NodeId} (hn : t.parent? n ≠ some m) (hm : m ≠ parent) :
    u.children m = t.children m := by
  rw [hmoved.children_of_ne hm, erase_children_of_parent?_ne h hn]

/-- Whatever does not have the moved element below it holds the same. -/
lemma branch_eq {m : NodeId} (hbefore : n ∉ t.descendants m) (hafter : n ∉ u.descendants m) :
    u.branch m = t.branch m := by
  induction m using h.child_induction with
  | step m ih =>
    rw [mem_descendants_iff h] at hbefore
    rw [mem_descendants_iff hmoved.wellFormed] at hafter
    have hformer : t.parent? n ≠ some m := fun hp =>
      hbefore ((mem_ancestors_iff h).2 ⟨m, hp, Or.inl rfl⟩)
    have hparent : m ≠ parent := by
      rintro rfl
      exact hafter ((mem_ancestors_iff hmoved.wellFormed).2
        ⟨m, by rw [hmoved.parent?, if_pos rfl], Or.inl rfl⟩)
    have hchildren := hmoved.children_other h hformer hparent
    rw [Tree.branch_eq h, Tree.branch_eq hmoved.wellFormed, hmoved.entry, hchildren]
    refine congrArg _ (List.map_congr_left fun c hc => ih c hc ?_ ?_)
    · rw [mem_descendants_iff h]
      exact fun hn => hbefore ((mem_ancestors_iff_child h).2 ⟨c, hc, Or.inr hn⟩)
    · rw [mem_descendants_iff hmoved.wellFormed]
      exact fun hn => hafter ((mem_ancestors_iff_child hmoved.wellFormed).2
        ⟨c, hchildren ▸ hc, Or.inr hn⟩)

/-- What lies below the moved element moves along. -/
lemma branch_self : u.branch n = t.branch n := by
  apply hmoved.branch_eq h
  · rw [mem_descendants_iff h]
    exact h.notMem_ancestors n
  · rw [mem_descendants_iff hmoved.wellFormed]
    exact hmoved.wellFormed.notMem_ancestors n

/-- But for what was moved, all elements stand in the same order. -/
lemma filter_numbers (m : NodeId) :
    (u.branch m).numbers.filter (t.isApart n) = (t.branch m).numbers.filter (t.isApart n) := by
  have hself : (t.branch n).numbers.filter (t.isApart n) = [] := by
    rw [List.filter_eq_nil_iff]
    intro k hk
    rcases (mem_numbers_branch h).1 hk with rfl | hk <;> simp [isApart, isAncestorOf_iff, *]
  induction m using h.child_induction with
  | step m ih =>
    -- On both sides the moved element, with all below it, may be left out of the children.
    have hrow : ((u.children m).erase n).flatMap (fun c => (u.branch c).numbers.filter (t.isApart n)) =
        ((t.children m).erase n).flatMap fun c => (t.branch c).numbers.filter (t.isApart n) := by
      rw [hmoved.erase_children]
      exact List.flatMap_congr fun c hc => ih c (List.mem_of_mem_erase hc)
    have hself' : (u.branch n).numbers.filter (t.isApart n) = [] := by
      rw [hmoved.branch_self h, hself]
    rw [flatMap_erase (f := fun c => (u.branch c).numbers.filter (t.isApart n)) hself',
      flatMap_erase (f := fun c => (t.branch c).numbers.filter (t.isApart n)) hself] at hrow
    rw [Tree.branch_eq h, Tree.branch_eq hmoved.wellFormed, numbers_node, numbers_node,
      numbersAll_eq_flatMap, numbersAll_eq_flatMap, List.flatMap_map, List.flatMap_map,
      List.filter_cons, List.filter_cons, List.filter_flatMap, List.filter_flatMap, hrow]

/-- Apart from the moved subtree, the descendants of each element stay the same. -/
lemma filter_descendants (m : NodeId) :
    (u.descendants m).filter (t.isApart n) = (t.descendants m).filter (t.isApart n) := by
  have hnumbers := hmoved.filter_numbers h m
  rw [numbers_branch h, numbers_branch hmoved.wellFormed, List.filter_cons, List.filter_cons] at hnumbers
  split at hnumbers
  · exact (List.cons.inj hnumbers).2
  · exact hnumbers

/-- What only moves an element leaves all else as it was. -/
theorem onlyMoved : OnlyMoved t u parent n where
  toMovedUnder := hmoved
  children_former _ _ hm := hmoved.children_of_ne hm
  children_other _ hn hm := hmoved.children_other h hn hm
  branch _ hbefore hafter := hmoved.branch_eq h hbefore hafter
  descendants := hmoved.filter_descendants h

end MovedUnder

/-! ### The moves -/

/-- Taking an element out and putting it elsewhere only moves it. -/
theorem CanMove.movedUnder_link (h : t.WellFormed) (hmove : t.CanMove parent n) (index : Nat) :
    MovedUnder t ((t.unlink n).link parent index n) parent n where
  wellFormed := hmove.wellFormed_link h index
  size := by simp
  entry := by simp
  parent? := hmove.parent?_link index
  erase_children m := by
    have hnot := notMem_erase_children h n m
    rw [children_link _ (by simpa using hmove.parent_lt_size), children_unlink_eq_erase h]
    split
    · next hm =>
      subst hm
      rw [List.erase_append_right _ (fun hn => hnot (List.mem_of_mem_take hn)),
        List.erase_cons_head, List.take_append_drop]
    · exact List.erase_of_not_mem hnot

/-- An insertion that succeeds was not refused, and unlinks the element and links it in its new
place. -/
lemma of_insertChild_ok {index : Nat} (hrun : insertChild parent index n t = .ok () u) :
    t.refusal? parent n = none ∧ u = (t.unlink n).link parent index n := by
  cases hrefusal : t.refusal? parent n with
  | some refused =>
    rw [insertChild_error hrefusal] at hrun
    cases hrun
  | none =>
    rw [insertChild_ok hrefusal] at hrun
    cases hrun
    exact ⟨rfl, rfl⟩

/-- An insertion behind another element that succeeds found that element among the children of its
parent. -/
lemma of_insertAfter_ok {anchor : NodeId} (hrun : insertAfter anchor n t = .ok () u) :
    ∃ parent index, t.parent? anchor = some parent ∧ t.refusal? parent n = none ∧
      (t.unlink n).indexInParent? anchor = some index ∧
      u = (t.unlink n).link parent (index + 1) n := by
  cases hp : t.parent? anchor with
  | none =>
    rw [insertAfter, Program.get_bind_apply, hp] at hrun
    cases hrun
  | some parent =>
    rw [insertAfter_eq hp] at hrun
    cases hrefusal : t.refusal? parent n with
    | some refused =>
      rw [hrefusal] at hrun
      cases hrun
    | none =>
      cases hindex : (t.unlink n).indexInParent? anchor with
      | none =>
        rw [hrefusal, hindex] at hrun
        cases hrun
      | some index =>
        rw [hrefusal, hindex] at hrun
        cases hrun
        exact ⟨parent, index, rfl, hrefusal, rfl, rfl⟩

section Placed

variable (h : t.WellFormed) (hn : n < t.size)

include h hn

/-- An element comes to stand at the given place, counted without the element itself. -/
theorem placed_of_insertChild (hparent : parent < t.size) {index : Nat}
    (hrun : insertChild parent index n t = .ok () u) :
    u.children parent = ((t.children parent).erase n).insertIdx
        (min index ((t.children parent).erase n).length) n ∧
      OnlyMoved t u parent n := by
  obtain ⟨hrefusal, rfl⟩ := of_insertChild_ok hrun
  have hmove := canMove_of_refusal? hn hparent hrefusal
  refine ⟨?_, (hmove.movedUnder_link h index).onlyMoved h⟩
  rw [children_link _ (by simpa using hparent), if_pos rfl, children_unlink_eq_erase h,
    take_append_cons_drop]

/-- An element comes to stand last. -/
theorem placed_of_appendChild (hparent : parent < t.size)
    (hrun : appendChild parent n t = .ok () u) :
    u.children parent = (t.children parent).erase n ++ [n] ∧ OnlyMoved t u parent n := by
  rw [appendChild_eq] at hrun
  obtain ⟨hchildren, hmoved⟩ := placed_of_insertChild h hn hparent hrun
  have hlength := (List.erase_sublist (a := n) (l := t.children parent)).length_le
  rw [Nat.min_eq_right hlength, List.insertIdx_length_self] at hchildren
  exact ⟨hchildren, hmoved⟩

/-- An element comes to stand right after another one. -/
theorem placed_of_insertAfter {anchor : NodeId} (hrun : insertAfter anchor n t = .ok () u) :
    ∃ parent before after, t.parent? anchor = some parent ∧
      (t.children parent).erase n = before ++ anchor :: after ∧
      u.children parent = before ++ anchor :: n :: after ∧ OnlyMoved t u parent n := by
  obtain ⟨parent, index, hp, hrefusal, hindex, rfl⟩ := of_insertAfter_ok hrun
  have hparent := h.parent_lt_size hp
  have hmove := canMove_of_refusal? hn hparent hrefusal
  have hne : anchor ≠ n := by
    rintro rfl
    rw [indexInParent?, parent?_unlink, if_pos rfl] at hindex
    cases hindex
  have hp' : (t.unlink n).parent? anchor = some parent := by
    rw [parent?_unlink, if_neg hne, hp]
  obtain ⟨before, after, hchildren⟩ := exists_children_eq (h.unlink n) hp'
  obtain rfl : before.length = index :=
    Option.some.inj ((indexInParent?_of_children_eq (h.unlink n) hchildren).symm.trans hindex)
  refine ⟨parent, before, after, hp, ?_, ?_, (hmove.movedUnder_link h _).onlyMoved h⟩
  · rw [← children_unlink_eq_erase h, hchildren]
  · rw [children_link _ (by simpa using hparent), if_pos rfl, hchildren]
    simp [List.take_append, List.drop_append, List.take_of_length_le, List.drop_of_length_le]

end Placed

/-- What each move does, if it is not refused: `n` comes to stand at the given place of those among which
it is put, or last, or right after another, and nothing else changes. -/
theorem placed_of_move (t u : Tree) (n : NodeId) (h : t.WellFormed) (hn : n < t.size) :
    (∀ parent < t.size, ∀ index, insertChild parent index n t = .ok () u →
        u.children parent = ((t.children parent).erase n).insertIdx
            (min index ((t.children parent).erase n).length) n ∧
          OnlyMoved t u parent n) ∧
      (∀ parent < t.size, appendChild parent n t = .ok () u →
        u.children parent = (t.children parent).erase n ++ [n] ∧ OnlyMoved t u parent n) ∧
      ∀ anchor, insertAfter anchor n t = .ok () u →
        ∃ parent before after, t.parent? anchor = some parent ∧
          (t.children parent).erase n = before ++ anchor :: after ∧
          u.children parent = before ++ anchor :: n :: after ∧ OnlyMoved t u parent n :=
  ⟨fun _ hparent _ hrun => placed_of_insertChild h hn hparent hrun,
    fun _ hparent hrun => placed_of_appendChild h hn hparent hrun,
    fun _ hrun => placed_of_insertAfter h hn hrun⟩

/-- In the paragraph of `specimen` the first child is put behind its siblings, and the last one is put
after an element below the first. -/
theorem placed_of_move_specimen :
    specimen.WellFormed ∧ 2 < specimen.size ∧ 4 < specimen.size ∧
      (∃ u, insertChild 1 7 2 specimen = .ok () u ∧ u.children 1 = [4, 2] ∧
        OnlyMoved specimen u 1 2) ∧
      ∃ u, insertAfter 3 4 specimen = .ok () u ∧ u.children 1 = [2] ∧ u.children 2 = [3, 4] ∧
        OnlyMoved specimen u 2 4 := by
  have hwellFormed := wellFormed_specimen
  have hinsert : insertChild 1 7 2 specimen = .ok () ((specimen.unlink 2).link 1 7 2) := rfl
  have hafter : insertAfter 3 4 specimen = .ok () ((specimen.unlink 4).link 2 1 4) := rfl
  obtain ⟨-, hmoved⟩ := (placed_of_move specimen _ 2 hwellFormed (by decide)).1 1 (by decide) 7 hinsert
  obtain ⟨parent, -, -, hparent, -, -, hmoved'⟩ :=
    (placed_of_move specimen _ 4 hwellFormed (by decide)).2.2 3 hafter
  obtain rfl : 2 = parent := Option.some.inj hparent
  exact ⟨hwellFormed, by decide, by decide, ⟨_, hinsert, by decide, hmoved⟩,
    ⟨_, hafter, by decide, by decide, hmoved'⟩⟩

end DoxygenRest.Tree
