import DoxygenRest.Proofs.Cursor.Division
import DoxygenRest.Proofs.Cursor.Junction
import DoxygenRest.Proofs.Tree.Specimen

/-!
# Cursors stay in their subtree

A cursor is driven by operations that move it and edit the tree below it.  Whatever the operations
and their arguments, and whether they succeed or fail, the tree stays well-formed, nothing outside of
the cursor's subtree changes, and the cursor is exhausted or stands in its subtree.

An operation that fails changes nothing (`Cursor.Refused`), so the argument is about those that
succeed: each replaces the branch at the cursor's root (`Tree.Replaced`) by one that still has the
element in it that the cursor stands on afterwards.
-/

namespace DoxygenRest.Cursor

open Branch

/-- The operations of a cursor.  Edits take an element, or else the one the cursor stands on. -/
inductive Operation where
  | advanceInto
  | advancePast
  | retreat
  | stop
  | moveTo (n : NodeId)
  | mergeIntoPrevious (n? : Option NodeId)
  | splitBefore (n? : Option NodeId)
  | splitAfterTail (n? : Option NodeId)
  | lift (n? : Option NodeId)
  | remove (n? : Option NodeId)
  deriving DecidableEq

/-- What an operation does. -/
def Operation.run : Operation → Edit Unit
  | advanceInto => modify Cursor.advanceInto
  | advancePast => modify Cursor.advancePast
  | retreat => modify Cursor.retreat
  | stop => modify Cursor.stop
  | moveTo n => Cursor.moveTo n
  | mergeIntoPrevious n? => Cursor.mergeIntoPrevious n?
  | splitBefore n? => Cursor.splitBefore n?
  | splitAfterTail n? => Cursor.splitAfterTail n?
  | lift n? => Cursor.lift n?
  | remove n? => Cursor.remove n?

/-- The cursor after an operation, whether it succeeds or fails. -/
def perform (c : Cursor) (o : Operation) : Cursor :=
  match o.run c with
  | .ok _ c => c
  | .error _ c => c

variable {c c' : Cursor} {n? : Option NodeId} {x : Branch} {f p g : Frame} {fs : List Frame}

/-! ### One operation -/

/-- One cursor comes from another by changes in the subtree of that one, which it did not leave. -/
structure Confined (c c' : Cursor) : Prop where
  root : c'.root = c.root
  replaced : ∃ b, Tree.Replaced c.tree c'.tree c.root b
  contained : ∀ n, c'.current = some n → n ∈ c'.branch.numbers

/-- Without an operation, a cursor stays in its subtree. -/
lemma Confined.refl (h : c.tree.WellFormed) (hc : ∀ n, c.current = some n → n ∈ c.branch.numbers) :
    Confined c c :=
  ⟨rfl, ⟨_, Tree.Replaced.refl h c.root⟩, hc⟩

/-- Operations that stay in the subtree may follow one another. -/
lemma Confined.trans {c'' : Cursor} (h : Confined c c') (h' : Confined c' c'') : Confined c c'' := by
  obtain ⟨b, hb⟩ := h.replaced
  obtain ⟨b', hb'⟩ := h'.replaced
  rw [h.root] at hb'
  exact ⟨h'.root.trans h.root, ⟨b', hb.trans hb'⟩, h'.contained⟩

/-- An edit of the subtree that still has the element in it that the cursor comes to stand on. -/
lemma confined_of_replaced {u : Tree} {b : Branch} {current : Option NodeId}
    (hu : Tree.Replaced c.tree u c.root b) (hcurrent : ∀ n, current = some n → n ∈ b.numbers) :
    Confined c { c with tree := u, current } :=
  ⟨rfl, ⟨b, hu⟩, fun n hn => by rw [branch, hu.branch]; exact hcurrent n hn⟩

/-- A refused operation changes nothing. -/
lemma perform_of_refused {o : Operation} (ho : c.Refused (o.run c)) : c.perform o = c := by
  obtain ⟨operation, tag, reason, hrun⟩ := ho
  rw [perform, hrun]

/-- An operation that succeeds is performed. -/
lemma perform_of_ok {o : Operation} (ho : o.run c = .ok () c') : c.perform o = c' := by
  rw [perform, ho]

section Step

variable (h : c.tree.WellFormed) (hc : ∀ n, c.current = some n → n ∈ c.branch.numbers)

include h hc

/-- A movement goes to an element of the subtree or leaves it. -/
lemma confined_move {n : NodeId} (hn : c.current = some n) {next : Option NodeId}
    (hnext : ∀ fs x, c.branch = plug fs x → x.number = n → ∀ m, next = some m →
      m ∈ (plug fs x).numbers) :
    Confined c { c with current := next } := by
  obtain ⟨fs, x, hplace, hnumber⟩ := exists_plug_of_mem (hc n hn)
  refine ⟨rfl, ⟨_, Tree.Replaced.refl h c.root⟩, fun m hm => ?_⟩
  have hin := hnext fs x hplace.symm hnumber m hm
  rw [hplace] at hin
  exact hin

/-- Going behind an element stays in the subtree, or ends. -/
lemma confined_advancePast : Confined c c.advancePast := by
  unfold advancePast
  split
  · exact .refl h hc
  · next n hn =>
    refine confined_move h hc hn fun fs x hplace hnumber m hm => ?_
    rw [← hnumber, nextOutside_eq h hplace] at hm
    obtain ⟨f, hf, hm⟩ := exists_mem_of_nextNumber hm
    exact mem_numbers_plug.2 (Or.inr ⟨f, hf, by simp [Frame.numbers, hm]⟩)

/-- Walking on stays in the subtree, or ends. -/
lemma confined_advanceInto : Confined c c.advanceInto := by
  unfold advanceInto
  split
  · exact .refl h hc
  · next n hn =>
    split
    · next child hchild =>
      refine confined_move h hc hn fun fs x hplace hnumber m hm => ?_
      obtain rfl := Option.some.inj hm
      have hx := (holds_plug.1 (holds_of_place h hplace)).1
      rw [Tree.firstChild?, ← hnumber, hx.children_eq, List.head?_map] at hchild
      obtain ⟨b, hb, rfl⟩ := Option.map_eq_some_iff.1 hchild
      refine mem_numbers_plug.2 (Or.inl ?_)
      rw [← node_eta x, numbers_node]
      exact List.mem_cons_of_mem _ (number_mem_numbersAll (List.mem_of_head? hb))
    · exact confined_advancePast h hc

/-- Going back stays in the subtree, or ends. -/
lemma confined_retreat : Confined c c.retreat := by
  unfold retreat
  split
  · exact .refl h hc
  · next n hn =>
    split
    · exact .refl h hc
    · next hroot =>
      refine confined_move h hc hn fun fs x hplace hnumber m hm => ?_
      obtain ⟨f, gs, rfl⟩ := plug_eq_branch_cons hplace (hnumber ▸ hroot)
      have hf := (holds_plug.1 (holds_of_place h hplace)).2.1
      rw [← hnumber, f.previousSibling?_eq h hf, f.parent?_eq h hf] at hm
      refine mem_numbers_plug.2 (Or.inr ⟨f, List.mem_cons_self .., ?_⟩)
      cases hbefore : f.before with
      | nil =>
        rw [hbefore, List.head?_nil, Option.map_none, Option.none_or] at hm
        rw [← Option.some.inj hm]
        exact List.mem_cons_self ..
      | cons prev rest =>
        rw [hbefore, List.head?_cons, Option.map_some, Option.some_or] at hm
        rw [← Option.some.inj hm]
        simp [Frame.numbers, hbefore, number_mem_numbers]

omit h in
/-- A division of an element keeps all elements, the one with the cursor among them. -/
lemma confined_divide {u : Tree} {row : List Branch} (hplace : c.branch = plug (p :: g :: fs) x)
    (hu : Tree.Replaced c.tree u c.root (plug fs (g.fillRow row)))
    (hrow : (p.fill x).numbers ⊆ numbersAll row) : Confined c { c with tree := u } := by
  refine confined_of_replaced hu fun n hn => ?_
  have hin := hc n hn
  rw [hplace, plug_cons, plug_cons, mem_numbers_plug, Frame.mem_numbers_fill] at hin
  rw [mem_numbers_plug, Frame.mem_numbers_fillRow]
  exact hin.imp_left (Or.imp_right (hrow ·))

omit h in
/-- A cursor on a merged element goes on to what was its first child, or behind it. -/
lemma confined_merge {prev : Branch} {rest : List Branch} {u : Tree}
    (hplace : c.branch = plug (f :: fs) x) (hbefore : f.before = prev :: rest)
    (hu : Tree.Replaced c.tree u c.root
      (plug fs ({ f with before := prev.absorb x :: rest }.fillRow []))) :
    Confined c { c with
      tree := u
      current := if c.current = some x.number then
        (x.children.head?.map number).or (nextNumber (f :: fs)) else c.current } := by
  refine confined_of_replaced hu fun n hn => ?_
  rw [mem_numbers_plug, Frame.mem_numbers_fillRow]
  simp only [Frame.numbers, numbersAll_cons, List.mem_cons, List.mem_append, mem_numbers_absorb]
  -- A cursor on the merged element moves on; any other one stays, and its element is still there.
  split at hn
  · rcases Option.or_eq_some_iff.1 hn with hn | ⟨-, hn⟩
    · obtain ⟨b, hb, rfl⟩ := Option.map_eq_some_iff.1 hn
      have := number_mem_numbersAll (List.mem_of_head? hb)
      tauto
    · obtain ⟨g, hg, hn⟩ := exists_mem_of_nextNumber hn
      rcases List.mem_cons.1 hg with rfl | hg
      · tauto
      · exact Or.inr ⟨g, hg, by simp [hn]⟩
  · next hne =>
    have hin := hc n hn
    rw [hplace, plug_cons, mem_numbers_plug, Frame.mem_numbers_fill, ← node_eta x] at hin
    simp only [Frame.numbers, hbefore, numbersAll_cons, numbers_node, List.mem_cons,
      List.mem_append] at hin
    have hnx : n ≠ x.number := fun hnx => hne (hnx ▸ hn)
    refine hin.imp_left fun hin => ?_
    tauto

omit h in
/-- A cursor on a removed element, or inside of it, goes on behind it. -/
lemma confined_remove {u : Tree} (hplace : c.branch = plug (f :: fs) x)
    (hu : Tree.Replaced c.tree u c.root (plug fs ((f.extendBefore x.tail).fillRow []))) :
    Confined c { c with
      tree := u
      current := c.current.bind fun m =>
        if m ∈ x.numbers then nextNumber (f :: fs) else some m } := by
  refine confined_of_replaced hu fun n hn => ?_
  rw [mem_numbers_plug, Frame.mem_numbers_fillRow, Frame.numbers_extendBefore]
  obtain ⟨m, hm, hn⟩ := Option.bind_eq_some_iff.1 hn
  split at hn
  · obtain ⟨g, hg, hn⟩ := exists_mem_of_nextNumber hn
    have hng : n ∈ g.numbers := by simp [Frame.numbers, hn]
    rcases List.mem_cons.1 hg with rfl | hg
    · exact Or.inl (Or.inl hng)
    · exact Or.inr ⟨g, hg, hng⟩
  · next hout =>
    obtain rfl := Option.some.inj hn
    have hin := hc m hm
    rw [hplace, plug_cons, mem_numbers_plug, Frame.mem_numbers_fill] at hin
    tauto

/-- An operation keeps the cursor in its subtree. -/
theorem confined_perform (o : Operation) : Confined c (c.perform o) := by
  -- The movements stay by what they look at; each edit is refused and changes nothing, or it
  -- succeeds and replaces the branch at the root.
  cases o with
  | advanceInto => exact confined_advanceInto h hc
  | advancePast => exact confined_advancePast h hc
  | retreat => exact confined_retreat h hc
  | stop => exact ⟨rfl, ⟨_, Tree.Replaced.refl h c.root⟩, fun n hn => nomatch hn⟩
  | moveTo n =>
    by_cases hcontains : c.contains n
    · have hrun : Operation.run (.moveTo n) c = .ok () { c with current := some n } := by
        rw [Operation.run, Cursor.moveTo, Program.get_bind_apply, if_pos hcontains]
        rfl
      rw [perform_of_ok hrun]
      refine ⟨rfl, ⟨_, Tree.Replaced.refl h c.root⟩, fun m hm => ?_⟩
      obtain rfl := Option.some.inj hm
      exact (contains_iff h).1 hcontains
    · have hrefused : c.Refused (Operation.run (.moveTo n) c) := by
        rw [Operation.run, Cursor.moveTo, Program.get_bind_apply, if_neg hcontains]
        exact ⟨_, _, _, rfl⟩
      rw [perform_of_refused hrefused]
      exact .refl h hc
  | mergeIntoPrevious n? =>
    rcases mergeIntoPrevious_cases h n? with ⟨f, fs, x, prev, rest, ht, hbefore⟩ | hrefused
    · obtain ⟨u, hrun, hu⟩ := mergeIntoPrevious_ok h ht.place hbefore ht.chosen
      rw [perform_of_ok (o := .mergeIntoPrevious n?) hrun]
      exact confined_merge hc ht.place hbefore hu
    · rw [perform_of_refused (o := .mergeIntoPrevious n?) hrefused]
      exact .refl h hc
  | splitBefore n? =>
    rcases splitBefore_cases h n? with ⟨p, g, fs, x, ht⟩ | hrefused
    · obtain ⟨u, hrun, hu⟩ := splitBefore_ok h ht.place ht.chosen
      rw [perform_of_ok (o := .splitBefore n?) hrun]
      exact confined_divide hc ht.place hu (p.subset_numbersAll_splitBefore _ x)
    · rw [perform_of_refused (o := .splitBefore n?) hrefused]
      exact .refl h hc
  | splitAfterTail n? =>
    rcases splitAfterTail_cases h n? with ⟨p, g, fs, x, ht⟩ | hrefused
    · obtain ⟨u, hrun, hu⟩ := splitAfterTail_ok h ht.place ht.chosen
      rw [perform_of_ok (o := .splitAfterTail n?) hrun]
      exact confined_divide hc ht.place hu (p.subset_numbersAll_splitAfterTail _ x)
    · rw [perform_of_refused (o := .splitAfterTail n?) hrefused]
      exact .refl h hc
  | lift n? =>
    rcases lift_cases h n? with ⟨p, g, fs, x, ht⟩ | hrefused
    · obtain ⟨u, hrun, hu⟩ := lift_ok h ht.place ht.chosen
      rw [perform_of_ok (o := .lift n?) hrun]
      exact confined_divide hc ht.place hu (p.subset_numbersAll_lift _ x)
    · rw [perform_of_refused (o := .lift n?) hrefused]
      exact .refl h hc
  | remove n? =>
    rcases remove_cases h n? with ⟨f, fs, x, ht⟩ | hrefused
    · obtain ⟨u, hrun, hu⟩ := remove_ok h ht.place ht.chosen
      rw [perform_of_ok (o := .remove n?) hrun]
      exact confined_remove hc ht.place hu
    · rw [perform_of_refused (o := .remove n?) hrefused]
      exact .refl h hc

end Step

/-! ### Any operations -/

/-- Operations, one after the other, keep the cursor in its subtree. -/
theorem confined_foldl_perform (h : c.tree.WellFormed)
    (hc : ∀ n, c.current = some n → n ∈ c.branch.numbers) (os : List Operation) :
    Confined c (os.foldl perform c) := by
  induction os generalizing c with
  | nil => exact .refl h hc
  | cons o os ih =>
    have hfirst := confined_perform h hc o
    obtain ⟨b, hb⟩ := hfirst.replaced
    exact hfirst.trans (ih hb.wellFormed hfirst.contained)

/-- A cursor that starts at any element of a well-formed tree never leaves the subtree of that
element: after any operations, whether they succeed or fail, the tree is well-formed, and the cursor
is exhausted or stands on the element or below it, so that it is attached to the document if the
element was. -/
theorem stays_in_subtree {t : Tree} (h : t.WellFormed) (root : NodeId) (os : List Operation) :
    let c := os.foldl perform (start t root)
    c.root = root ∧ c.tree.WellFormed ∧ ∀ n, c.current = some n →
      (n = root ∨ root ∈ c.tree.ancestors n) ∧ (t.isAttached root → c.tree.isAttached n) := by
  intro c
  have hstart : ∀ n, (start t root).current = some n → n ∈ (start t root).branch.numbers := by
    intro n hn
    obtain rfl := Option.some.inj hn
    exact (Tree.mem_numbers_branch h).2 (Or.inl rfl)
  have hc : Confined (start t root) c := confined_foldl_perform h hstart os
  obtain ⟨b, hb⟩ := hc.replaced
  refine ⟨hc.root, hb.wellFormed, fun n hn => ?_⟩
  have hin := hc.contained n hn
  rw [branch, hc.root, Tree.mem_numbers_branch hb.wellFormed] at hin
  refine ⟨hin, fun hattached => ?_⟩
  have haround : c.tree.ancestors root = t.ancestors root := hb.ancestors h
  simp only [Tree.isAttached, Bool.or_eq_true, beq_iff_eq, Tree.isAncestorOf_iff] at hattached ⊢
  rw [← haround] at hattached
  rcases hin with rfl | hin
  · exact hattached
  · refine Or.inr ?_
    rcases hattached with rfl | hattached
    · exact hin
    · exact Tree.ancestors_subset hb.wellFormed hin hattached

/-- A cursor in a paragraph, moved into nested markup that is then lifted, merged and removed. -/
theorem stays_in_subtree_specimen :
    let c := [.moveTo 3, .lift none, .advancePast, .mergeIntoPrevious (some 4), .retreat,
      .remove (some 2)].foldl perform (start Tree.specimen 1)
    Tree.specimen.WellFormed ∧ c.tree.WellFormed ∧
      ∀ n, c.current = some n → n = 1 ∨ 1 ∈ c.tree.ancestors n := by
  have h := stays_in_subtree Tree.wellFormed_specimen 1 [.moveTo 3, .lift none, .advancePast,
    .mergeIntoPrevious (some 4), .retreat, .remove (some 2)]
  exact ⟨Tree.wellFormed_specimen, h.2.1, fun n hn => (h.2.2 n hn).1⟩

end DoxygenRest.Cursor
