import DoxygenRest.Proofs.Cursor.Target

/-!
# Dividing an element under a cursor

`splitBefore`, `splitAfterTail` and `lift` divide the parent of their target.  Said of branches, the
parent's branch gives way to a row of branches: its front, in the case of a lift the lifted element,
and, if anything is left for it, its back.
-/

namespace DoxygenRest.Cursor

open Branch

variable {c : Cursor} {n? : Option NodeId} {x : Branch} {p g : Frame} {fs : List Frame}

/-! ### Placing elements after a divided one -/

/-- One element is placed right behind the anchor. -/
lemma placeRow_singleton {anchor n : NodeId} {u : Tree}
    (hrun : Tree.insertAfter anchor n c.tree = .ok () u) :
    placeRow anchor [n] c = .ok n { c with tree := u } := by
  rw [placeRow, Program.bind_ok (onTree_ok hrun)]
  rfl

/-- Of two elements, the second is placed behind the first. -/
lemma placeRow_pair {anchor n m : NodeId} {u v : Tree}
    (hfirst : Tree.insertAfter anchor n c.tree = .ok () u)
    (hsecond : Tree.insertAfter n m u = .ok () v) :
    placeRow anchor [n, m] c = .ok m { c with tree := v } := by
  rw [placeRow, Program.bind_ok (onTree_ok hfirst), placeRow_singleton hsecond]

/-- Take the tail of one element and put it in front of that of another. -/
def handTail (t : Tree) (source dest : NodeId) : Tree :=
  (t.setTail source none).prependTail dest ((t.tail? source).getD "")

/-- Behind a row that is placed, its last element gets the tail of the element before the row. -/
lemma placeAfter_ok {parent last : NodeId} {row : List NodeId} {c' : Cursor}
    (hrow : placeRow parent row c = .ok last c') :
    placeAfter parent row c = .ok () { c' with tree := handTail c'.tree parent last } := by
  rw [placeAfter, Program.bind_ok hrow]
  rfl

section HandTail

variable {t : Tree} {source dest : NodeId}

@[simp] lemma size_handTail : (handTail t source dest).size = t.size := by
  simp [handTail, Tree.setTail_eq_revise, Tree.prependTail_eq_revise]

@[simp] lemma parent?_handTail (m : NodeId) : (handTail t source dest).parent? m = t.parent? m := by
  simp [handTail, Tree.setTail_eq_revise, Tree.prependTail_eq_revise]

@[simp] lemma children_handTail (m : NodeId) :
    (handTail t source dest).children m = t.children m := by
  simp [handTail, Tree.setTail_eq_revise, Tree.prependTail_eq_revise]

/-- When a tail is handed on, one element loses it and another gets it in front of its own. -/
lemma entry_handTail (hsource : source < t.size) (hdest : dest < t.size) (hne : source ≠ dest)
    (m : NodeId) :
    (handTail t source dest).entry m =
      if m = source then { t.entry source with tail := none }
      else if m = dest then
        { t.entry dest with
          tail := Tree.prependTo (t.entry dest).tail ((t.entry source).tail.getD "") }
      else t.entry m := by
  have htail : t.tail? source = (t.entry source).tail := rfl
  simp only [handTail, htail, Tree.setTail_eq_revise, Tree.prependTail_eq_revise,
    Tree.entry_revise, Tree.size_revise, hsource, hdest, and_true]
  by_cases hs : m = source
  · subst hs
    simp [hne]
  · by_cases hd : m = dest
    · subst hd
      simp [hs]
    · simp [hs, hd]

/-- To hand on a tail leaves a tree well-formed. -/
lemma wellFormed_handTail (h : t.WellFormed) : (handTail t source dest).WellFormed :=
  h.of_links (by simp) (by simp) (by simp)

end HandTail

/-! ### The divided element and the one around it -/

/-- A tree has an element in it, with the elements `p` and `g` around it. -/
structure Nested (t : Tree) (x : Branch) (p g : Frame) : Prop where
  wellFormed : t.WellFormed
  holds : (g.fill (p.fill x)).Holds t

namespace Nested

variable {t u : Tree} (h : Nested t x p g)

include h

/-- The tree has what stands at the place, and the frame around it. -/
lemma inner : x.Holds t ∧ p.Holds t x.number :=
  holds_fill.1 (holds_fill.1 h.holds).1

/-- The tree has the frame around the parent. -/
lemma outer : g.Holds t p.number :=
  (holds_fill.1 h.holds).2

/-- The parent of what stands at the place. -/
lemma parent?_inner : t.parent? x.number = some p.number :=
  p.parent?_eq h.wellFormed h.inner.2

/-- The parent of the parent. -/
lemma parent?_outer : t.parent? p.number = some g.number :=
  g.parent?_eq h.wellFormed h.outer

/-- All three are elements of the tree. -/
lemma lt_size : x.number < t.size ∧ p.number < t.size ∧ g.number < t.size :=
  ⟨Tree.lt_size_of_parent?_eq_some h.parent?_inner, h.wellFormed.parent_lt_size h.parent?_inner,
    h.wellFormed.parent_lt_size h.parent?_outer⟩

/-- The three are different. -/
lemma ne : x.number ≠ p.number ∧ x.number ≠ g.number ∧ p.number ≠ g.number := by
  refine ⟨Tree.ne_of_parent?_eq_some h.wellFormed h.parent?_inner, fun hxg => ?_,
    Tree.ne_of_parent?_eq_some h.wellFormed h.parent?_outer⟩
  refine h.wellFormed.notMem_ancestors x.number ?_
  rw [Tree.ancestors_eq_cons h.wellFormed h.parent?_inner,
    Tree.ancestors_eq_cons h.wellFormed h.parent?_outer, hxg]
  simp

/-- None of the three has the number of the new element. -/
lemma ne_size : t.size ≠ x.number ∧ t.size ≠ p.number ∧ t.size ≠ g.number :=
  ⟨(Nat.ne_of_lt h.lt_size.1).symm, (Nat.ne_of_lt h.lt_size.2.1).symm,
    (Nat.ne_of_lt h.lt_size.2.2).symm⟩

/-- The branch at the outer parent, read off the tree. -/
lemma branch_outer : t.branch g.number = g.fill (p.fill x) :=
  h.holds.branch_eq h.wellFormed

/-- How to show that the inner of two elements was replaced by a row. -/
theorem replaced {row : List Branch} (hu : u.WellFormed) (hsize : t.size ≤ u.size)
    (hown : u.entry g.number = t.entry g.number)
    (hchildren : u.children g.number =
      g.before.reverse.map number ++ (row.map number ++ g.after.map number))
    (hrow : HoldsAll u x.children → HoldsAll u p.before → HoldsAll u p.after → HoldsAll u row)
    (hnumbers : ∀ m ∈ numbersAll row, m ∈ (p.fill x).numbers ∨ t.size ≤ m)
    (hsame : ∀ m < t.size, m ≠ x.number → m ≠ p.number → m ≠ g.number →
      u.entry m = t.entry m ∧ u.children m = t.children m)
    (hparent : ∀ m < t.size, m ∉ x.number :: p.after.map number → u.parent? m = t.parent? m) :
    Tree.Replaced t u g.number (g.fillRow row) := by
  have hholds : (plug [p, g] x).Holds t := h.holds
  have hbeside := holds_beside h.wellFormed (u := u) h.lt_size.1 hholds fun m hm hx hf =>
    hsame m hm hx (hf p (by simp)) (hf g (by simp))
  obtain ⟨hpbefore, hpafter⟩ := hbeside.2 p (by simp)
  obtain ⟨hgbefore, hgafter⟩ := hbeside.2 g (by simp)
  have hperm := g.numbers_fill_perm (p.fill x)
  refine Tree.replaced_of_fields hu hsize rfl ?_ ?_ ?_ ?_
  · rw [Frame.fillRow, holds_node, holdsAll_append, holdsAll_append, holdsAll_reverse]
    refine ⟨hown.trans h.outer.1, by simpa using hchildren, hgbefore, ?_, hgafter⟩
    exact hrow hbeside.1 hpbefore hpafter
  · refine hparent _ h.lt_size.2.2 fun hg => ?_
    -- The outer element would stand beside or inside of the inner one.
    have hp : t.parent? g.number = some p.number := by
      rcases List.mem_cons.1 hg with hg | hg
      · rw [hg, h.parent?_inner]
      · exact h.wellFormed.mem_children_iff.1 (by rw [h.inner.2.2.1]; simp [hg])
    refine h.wellFormed.notMem_ancestors g.number ?_
    rw [Tree.ancestors_eq_cons h.wellFormed hp, Tree.ancestors_eq_cons h.wellFormed h.parent?_outer]
    simp
  · intro m hm
    rw [h.branch_outer, hperm.mem_iff, List.mem_append]
    simp only [Frame.fillRow, numbers_node, numbersAll_append, List.mem_cons, List.mem_append,
      mem_numbersAll_reverse] at hm
    have hrow := hnumbers m
    simp only [Frame.numbers, List.mem_cons, List.mem_append]
    tauto
  · intro m hm hout
    rw [h.branch_outer, hperm.mem_iff, List.mem_append, not_or] at hout
    have hpin : p.number ∈ (p.fill x).numbers := number_mem_numbers _
    have hxin : x.number ∈ (p.fill x).numbers := by simp [Frame.fill, number_mem_numbers]
    have hin : m ∉ x.number :: p.after.map number := by
      rintro hm'
      rcases List.mem_cons.1 hm' with rfl | hm'
      · exact hout.1 hxin
      · obtain ⟨b, hb, rfl⟩ := List.mem_map.1 hm'
        exact hout.1 (by simp [Frame.fill, number_mem_numbersAll hb])
    obtain ⟨hentry, hchildren⟩ := hsame m hm (fun hx => hout.1 (hx ▸ hxin))
      (fun hp => hout.1 (hp ▸ hpin)) (fun hg => hout.2 (hg ▸ List.mem_cons_self ..))
    exact ⟨hentry, hparent m hm hin, hchildren⟩

end Nested

/-! ### What the divisions have in common -/

/-- A tree before its elements are regrouped: a copy of the element `p` was added, with a text of its
own and no tail, and the element inside got another tail. -/
structure Prepared (t s : Tree) (x : Branch) (p : Frame) (text tail : Option String) : Prop where
  extended : Tree.Extended t s
  fresh : s.entry t.size = { p.own with text, tail := none }
  entry : ∀ m, m ≠ t.size → s.entry m = if m = x.number then { x.own with tail } else t.entry m

namespace Nested

variable {t s v : Tree} {text tail : Option String} {parent? : NodeId → Option NodeId}
  {children : NodeId → List NodeId}

/-- The own data of all elements after a division. -/
lemma entry_divided (h : Nested t x p g) (hs : Prepared t s x p text tail)
    (hv : Tree.Relinked s v parent? children) (m : NodeId) :
    (handTail v p.number t.size).entry m =
      if m = p.number then { p.own with tail := none }
      else if m = t.size then { p.own with text, tail := handedTail p.own.tail }
      else if m = x.number then { x.own with tail } else t.entry m := by
  obtain ⟨hxp, -, -⟩ := h.ne
  obtain ⟨-, hkp, -⟩ := h.ne_size
  have hsize : t.size < v.size := by
    rw [hv.size, hs.extended.size]
    exact Nat.lt_succ_self _
  have hp : v.entry p.number = p.own := by
    rw [hv.entry, hs.entry _ hkp.symm, if_neg hxp.symm, h.inner.2.1]
  have hk : v.entry t.size = { p.own with text, tail := none } := by
    rw [hv.entry, hs.fresh]
  rw [entry_handTail (Nat.lt_trans h.lt_size.2.1 hsize) hsize hkp.symm, hp, hk]
  refine ite_congr rfl (fun _ => rfl) fun _ => ite_congr rfl (fun _ => ?_) fun hm => ?_
  · rw [← prependTo_none_getD]
  · rw [hv.entry, hs.entry m hm]

/-- The row that stands in the place of a divided element: its front, what was lifted, its back. -/
theorem replaced_divided (h : Nested t x p g) (hs : Prepared t s x p text tail)
    (more lifted back : List Branch) (hsplit : x.withTail tail :: p.after = more ++ (lifted ++ back))
    (hv : Tree.Relinked s v
      (fun m => if m = t.size then some g.number
        else if m ∈ lifted.map number then some g.number
        else if m ∈ back.map number then some t.size else t.parent? m)
      (fun m => if m = g.number then
          g.before.reverse.map number ++
            p.number :: (lifted.map number ++ t.size :: g.after.map number)
        else if m = t.size then back.map number
        else if m = p.number then (p.before.reverse ++ more).map number
        else t.children m)) :
    Tree.Replaced t (handTail v p.number t.size) g.number
      (g.fillRow (p.front more :: (lifted ++ [p.back t.size text back]))) := by
  obtain ⟨hxp, hxg, hpg⟩ := h.ne
  obtain ⟨hkx, hkp, hkg⟩ := h.ne_size
  have hentry := h.entry_divided hs hv
  -- Seven things are to be shown: the size, the own data and the children of the outer parent, what
  -- is in the tree below it, which elements these are, and that the others keep their data and
  -- their parents.
  refine h.replaced (wellFormed_handTail hv.wellFormed) ?_ ?_ ?_ ?_ ?_ ?_ ?_
  · rw [size_handTail, hv.size, hs.extended.size]
    exact Nat.le_succ _
  · rw [hentry, if_neg hpg.symm, if_neg hkg.symm, if_neg hxg.symm]
  · rw [children_handTail, hv.children, if_pos rfl]
    simp [Frame.front, Frame.back]
  · intro hx hbefore hafter
    have hrow : HoldsAll (handTail v p.number t.size) (more ++ (lifted ++ back)) := by
      rw [← hsplit, holdsAll_cons]
      refine ⟨?_, hafter⟩
      rw [withTail, revise, holds_node, hentry, if_neg hxp, if_neg hkx.symm, if_pos rfl,
        children_handTail, hv.children, if_neg hxg, if_neg hkx.symm, if_neg hxp]
      exact ⟨rfl, h.inner.1.children_eq, hx⟩
    rw [holdsAll_append, holdsAll_append] at hrow
    obtain ⟨hmore, hlifted, hback⟩ := hrow
    rw [holdsAll_cons, holdsAll_append, holdsAll_cons, holdsAll_nil, Frame.front, Frame.back,
      holds_node, holds_node, holdsAll_append, holdsAll_reverse, hentry, if_pos rfl, hentry,
      if_neg hkp, if_pos rfl, children_handTail, hv.children, if_neg hpg, if_neg hkp.symm,
      if_pos rfl, children_handTail, hv.children, if_neg hkg, if_pos rfl]
    exact ⟨⟨rfl, rfl, hbefore, hmore⟩, hlifted, ⟨rfl, rfl, hback⟩, trivial⟩
  · intro m hm
    -- The elements behind the place are those that go to the front, are lifted, or go to the back.
    have hrow : numbersAll more ++ (numbersAll lifted ++ numbersAll back) =
        x.numbers ++ numbersAll p.after := by
      rw [← numbersAll_append, ← numbersAll_append, ← hsplit, numbersAll_cons, numbers_withTail]
    have hfill : m ∈ (p.fill x).numbers ↔ m = p.number ∨ m ∈ numbersAll p.before ∨
        m ∈ numbersAll more ++ (numbersAll lifted ++ numbersAll back) := by
      rw [hrow]
      simp [Frame.fill]
    rw [hfill]
    simp only [List.mem_append]
    simp only [numbersAll_cons, numbersAll_nil, Frame.front, Frame.back, numbers_node,
      numbersAll_append, List.mem_append, List.mem_cons, mem_numbersAll_reverse, List.not_mem_nil,
      or_false] at hm
    rcases hm with (hm | hm | hm) | hm | hm | hm
    · exact Or.inl (Or.inl hm)
    · exact Or.inl (Or.inr (Or.inl hm))
    · exact Or.inl (Or.inr (Or.inr (Or.inl hm)))
    · exact Or.inl (Or.inr (Or.inr (Or.inr (Or.inl hm))))
    · exact Or.inr (Nat.le_of_eq hm.symm)
    · exact Or.inl (Or.inr (Or.inr (Or.inr (Or.inr hm))))
  · intro m hm hx hp hg
    rw [hentry, if_neg hp, if_neg (Nat.ne_of_lt hm), if_neg hx, children_handTail, hv.children,
      if_neg hg, if_neg (Nat.ne_of_lt hm), if_neg hp]
    exact ⟨rfl, rfl⟩
  · intro m hm hout
    have hrow : m ∉ (more ++ (lifted ++ back)).map number := by
      rwa [← hsplit, List.map_cons, number_withTail]
    simp only [List.map_append, List.mem_append, not_or] at hrow
    rw [parent?_handTail, hv.parent?, if_neg (Nat.ne_of_lt hm), if_neg hrow.2.1, if_neg hrow.2.2]

/-- The element `p` is divided: its last children go into its copy. -/
theorem divided (h : Nested t x p g) (hs : Prepared t s x p text tail) (more back : List Branch)
    (hsplit : x.withTail tail :: p.after = more ++ back) :
    ∃ u v, Tree.appendChildren t.size (back.map number) s = .ok () u ∧
      Tree.insertAfter p.number t.size u = .ok () v ∧
      Tree.Replaced t (handTail v p.number t.size) g.number
        (g.fillRow [p.front more, p.back t.size text back]) := by
  have hsource : t.children p.number =
      (p.before.reverse ++ more).map number ++ back.map number := by
    rw [h.inner.2.2.1, ← List.map_append, List.append_assoc, ← hsplit]
    simp
  obtain ⟨u, v, hrun, hrun', hv⟩ :=
    Tree.divide_links h.wellFormed hs.extended h.outer.2.1 hsource
  refine ⟨u, v, hrun, hrun', h.replaced_divided hs more [] back hsplit ?_⟩
  exact ⟨hv.wellFormed, hv.size, hv.entry, fun m => by simpa using hv.parent? m, hv.children⟩

/-- The element `p` is divided behind the element inside, which is lifted out of it. -/
theorem divided_lift (h : Nested t x p g) (hs : Prepared t s x p text tail) :
    ∃ u v w, Tree.appendChildren t.size (p.after.map number) s = .ok () u ∧
      Tree.insertAfter p.number x.number u = .ok () v ∧
      Tree.insertAfter x.number t.size v = .ok () w ∧
      Tree.Replaced t (handTail w p.number t.size) g.number
        (g.fillRow [p.front [], x.withTail tail, p.back t.size text p.after]) := by
  have hsource : t.children p.number =
      (p.before.reverse.map number ++ [x.number]) ++ p.after.map number := by
    rw [h.inner.2.2.1, List.append_assoc, List.singleton_append]
  obtain ⟨u, v, w, hrun, hrun', hrun'', hw⟩ :=
    Tree.divide_links_lift h.wellFormed hs.extended h.outer.2.1 hsource
  refine ⟨u, v, w, hrun, hrun', hrun'', ?_⟩
  refine h.replaced_divided hs [] [x.withTail tail] p.after rfl ?_
  refine ⟨hw.wellFormed, hw.size, hw.entry, fun m => by simpa using hw.parent? m, fun m => ?_⟩
  simpa using hw.children m

/-- The last child of `p` is lifted out of it, and nothing is left to follow it. -/
theorem lifted (h : Nested t x p g) (hafter : p.after = []) :
    ∃ v, Tree.insertAfter p.number x.number (t.setTail x.number none) = .ok () v ∧
      Tree.Replaced t (handTail v p.number x.number) g.number
        (g.fillRow [p.front [], x.withTail (handedTail p.own.tail)]) := by
  obtain ⟨hxp, hxg, hpg⟩ := h.ne
  obtain ⟨hxlt, hplt, -⟩ := h.lt_size
  have hwf : (t.setTail x.number none).WellFormed := by
    rw [Tree.setTail_eq_revise]
    exact h.wellFormed.revise ..
  have hsource : (t.setTail x.number none).children p.number =
      p.before.reverse.map number ++ [x.number] := by
    rw [Tree.setTail_eq_revise, Tree.children_revise, h.inner.2.2.1, hafter, List.map_nil]
  have houter : (t.setTail x.number none).children g.number =
      g.before.reverse.map number ++ p.number :: g.after.map number := by
    rw [Tree.setTail_eq_revise, Tree.children_revise, h.outer.2.1]
  obtain ⟨v, hrun, hv⟩ := Tree.insertAfter_last hwf hsource houter
  have hsize : v.size = t.size := hv.size.trans (by simp [Tree.setTail_eq_revise])
  -- The tail that the child had is gone, and it gets that of its former parent next.
  have hown (m : NodeId) :
      v.entry m = if m = x.number then { x.own with tail := none } else t.entry m := by
    rw [hv.entry, Tree.setTail_eq_revise, Tree.entry_revise]
    refine ite_congr (by simp [hxlt]) (fun hm => ?_) fun _ => rfl
    rw [hm, h.inner.1.entry_eq]
  have hentry (m : NodeId) : (handTail v p.number x.number).entry m =
      if m = p.number then { p.own with tail := none }
      else if m = x.number then { x.own with tail := handedTail p.own.tail } else t.entry m := by
    rw [entry_handTail (by rwa [hsize]) (by rwa [hsize]) hxp.symm, hown p.number, if_neg hxp.symm,
      hown x.number, if_pos rfl, h.inner.2.1]
    refine ite_congr rfl (fun _ => rfl) fun _ => ite_congr rfl (fun _ => ?_) fun hm => ?_
    · rw [← prependTo_none_getD]
    · rw [hown, if_neg hm]
  refine ⟨v, hrun, h.replaced (wellFormed_handTail hv.wellFormed) ?_ ?_ ?_ ?_ ?_ ?_ ?_⟩
  · exact Nat.le_of_eq (size_handTail.trans hsize).symm
  · rw [hentry, if_neg hpg.symm, if_neg hxg.symm]
  · rw [children_handTail, hv.children, if_pos rfl]
    rfl
  · intro hx hbefore _
    rw [holdsAll_cons, holdsAll_cons, holdsAll_nil, Frame.front, withTail, revise, holds_node,
      holds_node, List.append_nil, holdsAll_reverse, hentry, if_pos rfl, hentry, if_neg hxp,
      if_pos rfl, children_handTail, hv.children, if_neg hpg, if_pos rfl, children_handTail,
      hv.children, if_neg hxg, if_neg hxp]
    refine ⟨⟨rfl, rfl, hbefore⟩, ⟨rfl, ?_, hx⟩, trivial⟩
    rw [Tree.setTail_eq_revise, Tree.children_revise, h.inner.1.children_eq]
  · intro m hm
    simp only [numbersAll_cons, numbersAll_nil, Frame.front, numbers_node, numbers_withTail,
      List.append_nil, List.mem_append, List.mem_cons, mem_numbersAll_reverse] at hm
    simp only [Frame.fill, numbers_node, numbersAll_append, numbersAll_cons, List.mem_append,
      List.mem_cons, mem_numbersAll_reverse]
    rcases hm with (hm | hm) | hm
    · exact Or.inl (Or.inl hm)
    · exact Or.inl (Or.inr (Or.inl hm))
    · exact Or.inl (Or.inr (Or.inr (Or.inl hm)))
  · intro m _ hx hp hg
    rw [hentry, if_neg hp, if_neg hx, children_handTail, hv.children, if_neg hg, if_neg hp,
      Tree.setTail_eq_revise, Tree.children_revise]
    exact ⟨rfl, rfl⟩
  · intro m _ hout
    rw [parent?_handTail, hv.parent?, if_neg fun hm => hout (by simp [hm]),
      Tree.setTail_eq_revise, Tree.parent?_revise]

end Nested

/-! ### Copying the divided element -/

section Prepare

variable {t : Tree} (h : Nested t x p g)

include h

/-- A tree with one new element is prepared if its links and its own data are as they should be. -/
lemma prepared_of_entries {s : Tree} {text tail : Option String} (hsize : s.size = t.size + 1)
    (hparent : ∀ m, s.parent? m = t.parent? m) (hchildren : ∀ m, s.children m = t.children m)
    (hentry : ∀ m, s.entry m = if m = t.size then { t.entry p.number with text, tail := none }
      else if m = x.number then { t.entry x.number with tail } else t.entry m) :
    Prepared t s x p text tail := by
  refine ⟨⟨h.wellFormed.of_links (by omega) hparent hchildren, hsize, hparent, hchildren⟩, ?_, ?_⟩
  · rw [hentry, if_pos rfl, h.inner.2.1]
  · intro m hm
    rw [hentry, if_neg hm, h.inner.1.entry_eq]

/-- A duplicate of the parent prepares for a division in front of the child. -/
lemma prepared_duplicate : Prepared t (t.duplicate p.number).2 x p none x.own.tail := by
  refine prepared_of_entries h (by simp [Tree.duplicate]) (by simp [Tree.duplicate])
    (by simp [Tree.duplicate]) fun m => ?_
  rw [Tree.duplicate, Tree.entry_create]
  refine ite_congr rfl (fun _ => rfl) fun _ => ?_
  split
  · next hm => rw [hm, ← h.inner.1.entry_eq]
  · rfl

/-- It does not matter whether a tail is taken before or after another element is copied. -/
lemma prepared_setTail_setText (text : Option String) :
    Prepared t (((t.duplicate p.number).2.setTail x.number none).setText t.size text) x p text
      none := by
  obtain ⟨hkx, hkp, -⟩ := h.ne_size
  refine prepared_of_entries h (by simp [Tree.duplicate, Tree.setText_eq_revise, Tree.setTail_eq_revise])
    (by simp [Tree.duplicate, Tree.setText_eq_revise, Tree.setTail_eq_revise])
    (by simp [Tree.duplicate, Tree.setText_eq_revise, Tree.setTail_eq_revise]) fun m => ?_
  have hlt : x.number < t.size + 1 := Nat.lt_succ_of_lt h.lt_size.1
  simp only [Tree.setText_eq_revise, Tree.setTail_eq_revise, Tree.entry_revise, Tree.size_revise,
    Tree.duplicate, Tree.size_create, Tree.entry_create, Nat.lt_succ_self, hlt, and_true]
  by_cases hk : m = t.size
  · simp only [hk, if_true, if_neg hkx]
    rfl
  · by_cases hx : m = x.number
    · simp only [hx, if_true, if_neg hkx.symm]
    · simp only [hk, hx, if_false]

/-- It does not matter whether the tail is taken before or after the duplicate is made. -/
lemma duplicate_setTail :
    ((t.setTail x.number none).duplicate p.number).2 =
      (t.duplicate p.number).2.setTail x.number none := by
  obtain ⟨hxp, -, -⟩ := h.ne
  obtain ⟨hkx, -, -⟩ := h.ne_size
  have hlt : x.number < t.size + 1 := Nat.lt_succ_of_lt h.lt_size.1
  have hp : (t.setTail x.number none).element p.number = t.element p.number := by
    simp [Tree.setTail, Tree.element_update, hxp.symm]
  refine Tree.ext_of_element (by simp [Tree.duplicate, Tree.setTail]) fun m => ?_
  simp only [Tree.duplicate, Tree.tag, Tree.attributes, Tree.declaredNamespaces, hp]
  simp only [Tree.setTail, Tree.element_create, Tree.element_update, Tree.size_update,
    Tree.size_create, hlt, h.lt_size.1, and_true]
  by_cases hk : m = t.size
  · simp only [hk, if_true, if_neg hkx]
  · simp only [hk, if_false]

end Prepare

/-! ### The edits that divide -/

section Edits

variable (h : c.tree.WellFormed) (hplace : c.branch = plug (p :: g :: fs) x)

include h hplace

/-- Two frames around a place make it a nested one. -/
lemma nested_of_place : Nested c.tree x p g :=
  have hplace' : c.branch = plug fs (g.fill (p.fill x)) := hplace
  ⟨h, (holds_plug.1 (holds_of_place h hplace')).1⟩

/-- What is done to the element around a target's parent, is done inside of the cursor's subtree. -/
lemma replaced_of_place {u : Tree} {b : Branch}
    (hu : Tree.Replaced c.tree u g.number b) :
    Tree.Replaced c.tree u c.root (plug fs b) := by
  refine hu.plug h ?_
  rw [(nested_of_place h hplace).branch_outer]
  exact hplace

variable (hchosen : n?.or c.current = some x.number)

include hchosen

/-- Dividing the parent of a target in front of it. -/
theorem splitBefore_ok :
    ∃ u, splitBefore n? c = .ok () { c with tree := u } ∧
      Tree.Replaced c.tree u c.root (plug fs (g.fillRow (p.splitBefore c.tree.size x))) := by
  have hnested := nested_of_place h hplace
  obtain ⟨u, v, hrun, hrun', hv⟩ :=
    hnested.divided (prepared_duplicate hnested) [] (x :: p.after) (by cases x; rfl)
  refine ⟨_, ?_, replaced_of_place h hplace hv⟩
  have hfollowing := p.followingSiblings_eq h hnested.inner.2
  rw [splitBefore, Program.bind_ok (targetInDivisible_ok h _ hchosen hplace)]
  simp only [Program.get_bind_apply, stepTree_bind_apply, hfollowing]
  rw [Program.bind_ok (onTree_ok hrun), placeAfter_ok (placeRow_singleton hrun')]
  rfl

/-- Dividing the parent of a target behind it, in front of its tail. -/
theorem splitAfterTail_ok :
    ∃ u, splitAfterTail n? c = .ok () { c with tree := u } ∧
      Tree.Replaced c.tree u c.root (plug fs (g.fillRow (p.splitAfterTail c.tree.size x))) := by
  have hnested := nested_of_place h hplace
  obtain ⟨u, v, hrun, hrun', hv⟩ :=
    hnested.divided (prepared_setTail_setText hnested x.own.tail) [x.withTail none] p.after rfl
  refine ⟨_, ?_, replaced_of_place h hplace hv⟩
  have hfollowing := p.followingSiblings_eq h hnested.inner.2
  have htail : (c.tree.duplicate p.number).2.tail? x.number = x.own.tail := by
    have hentry : (c.tree.duplicate p.number).2.entry x.number = x.own := by
      rw [Tree.duplicate, Tree.entry_create, if_neg hnested.ne_size.1.symm,
        hnested.inner.1.entry_eq]
    exact congrArg Entry.tail hentry
  rw [splitAfterTail, Program.bind_ok (targetInDivisible_ok h _ hchosen hplace)]
  simp only [Program.get_bind_apply, stepTree_bind_apply, updateTree_bind_apply, Tree.takeTail,
    hfollowing]
  rw [htail, Program.bind_ok (onTree_ok hrun), placeAfter_ok (placeRow_singleton hrun')]
  rfl

/-- Lifting a target out of its parent. -/
theorem lift_ok :
    ∃ u, lift n? c = .ok () { c with tree := u } ∧
      Tree.Replaced c.tree u c.root (plug fs (g.fillRow (p.lift c.tree.size x))) := by
  have hnested := nested_of_place h hplace
  have hfollowing := p.followingSiblings_eq h hnested.inner.2
  have htail : (c.tree.tail? x.number).filter (· != "") = handedTail x.own.tail := by
    rw [hnested.inner.1.tail?_eq, handedTail]
  rw [lift, Program.bind_ok (targetInDivisible_ok h _ hchosen hplace)]
  simp only [Program.get_bind_apply, stepTree_bind_apply, Tree.takeTail, hfollowing, htail,
    Frame.lift]
  -- With nothing left for it, no back is made.
  by_cases hlast : (handedTail x.own.tail).isNone && p.after.isEmpty
  · have hlast' : (handedTail x.own.tail).isNone && (p.after.map number).isEmpty := by
      simpa using hlast
    obtain ⟨v, hrun, hv⟩ := hnested.lifted (by simp at hlast; exact hlast.2)
    rw [if_pos hlast, if_pos hlast', placeAfter_ok (placeRow_singleton hrun)]
    exact ⟨_, rfl, replaced_of_place h hplace hv⟩
  · have hlast' : ¬((handedTail x.own.tail).isNone && (p.after.map number).isEmpty) := by
      simpa using hlast
    obtain ⟨u, v, w, hrun, hrun', hrun'', hw⟩ :=
      hnested.divided_lift (prepared_setTail_setText hnested (handedTail x.own.tail))
    rw [if_neg hlast, if_neg hlast']
    simp only [stepTree_bind_apply, updateTree_bind_apply, duplicate_setTail hnested]
    have hsize : ((c.tree.setTail x.number none).duplicate p.number).1 = c.tree.size :=
      Tree.size_update ..
    rw [hsize, Program.bind_ok (onTree_ok hrun), placeAfter_ok (placeRow_pair hrun' hrun'')]
    exact ⟨_, rfl, replaced_of_place h hplace hw⟩

end Edits

/-- A division is refused, or it has a target below a child of the cursor's root. -/
lemma divisible_cases {α : Type} (h : c.tree.WellFormed) (operation : String) (n? : Option NodeId)
    (edit : NodeId × NodeId → Edit α) :
    (∃ p g fs x, c.TargetAt n? (p :: g :: fs) x) ∨
      c.Refused ((targetInDivisible operation n? >>= edit) c) := by
  rcases targetInDivisible_cases operation n? c with
    ⟨n, parent, -, htarget, hroot, hp, hparent⟩ | ⟨op, tag, reason, hrun⟩
  · obtain ⟨p, g, fs, x, hplace, rfl, -⟩ := htarget.exists_place_two h hroot hp hparent
    exact Or.inl ⟨p, g, fs, x, htarget.chosen, hplace⟩
  · exact Or.inr ⟨op, tag, reason, Program.bind_error hrun _⟩

/-- A division in front of a child has its two frames, or it is refused. -/
lemma splitBefore_cases (h : c.tree.WellFormed) (n? : Option NodeId) :
    (∃ p g fs x, c.TargetAt n? (p :: g :: fs) x) ∨ c.Refused (splitBefore n? c) :=
  divisible_cases h "split" n? _

/-- A division behind a child has its two frames, or it is refused. -/
lemma splitAfterTail_cases (h : c.tree.WellFormed) (n? : Option NodeId) :
    (∃ p g fs x, c.TargetAt n? (p :: g :: fs) x) ∨ c.Refused (splitAfterTail n? c) :=
  divisible_cases h "split" n? _

/-- A lift has its two frames, or it is refused. -/
lemma lift_cases (h : c.tree.WellFormed) (n? : Option NodeId) :
    (∃ p g fs x, c.TargetAt n? (p :: g :: fs) x) ∨ c.Refused (lift n? c) :=
  divisible_cases h "lift" n? _

end DoxygenRest.Cursor
