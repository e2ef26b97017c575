import DoxygenRest.Proofs.Branch.Text
import DoxygenRest.Proofs.Cursor.Confinement
import DoxygenRest.Proofs.Tree.Specimen

/-!
# Edits conserve text

Merges, divisions and lifts move text from element to element, but the string value of the cursor's
root stays what it was.  A removal takes the string value of the removed element out of it, at the
place where the element stood, and nothing else.
-/

namespace DoxygenRest

open Branch

namespace Cursor

variable {c c' : Cursor} {n? : Option NodeId} {x : Branch} {f p g : Frame} {fs : List Frame}

/-- Operations that rearrange elements without removing any. -/
def Operation.isRearrangement : Operation → Bool
  | mergeIntoPrevious _ | splitBefore _ | splitAfterTail _ | lift _ => true
  | _ => false

/-- One cursor comes from another by an edit that keeps the text of the subtree. -/
structure Rearranged (c c' : Cursor) : Prop where
  root : c'.root = c.root
  wellFormed : c'.tree.WellFormed
  stringValue : c'.tree.stringValue c.root = c.tree.stringValue c.root

/-- Without an edit nothing is rearranged. -/
lemma Rearranged.refl (h : c.tree.WellFormed) : Rearranged c c :=
  ⟨rfl, h, rfl⟩

/-- Rearrangements may follow one another. -/
lemma Rearranged.trans {c'' : Cursor} (h : Rearranged c c') (h' : Rearranged c' c'') :
    Rearranged c c'' :=
  ⟨h'.root.trans h.root, h'.wellFormed, (h.root ▸ h'.stringValue).trans h.stringValue⟩

/-- What the frames around an edited place have for text does not change. -/
lemma rearranged_of_replaced {u : Tree} {b b' : Branch} {current : Option NodeId}
    (hplace : c.branch = plug fs b) (hu : Tree.Replaced c.tree u c.root (plug fs b'))
    (h : b'.stringValue = b.stringValue) (htail : b'.tail = b.tail) :
    Rearranged c { c with tree := u, current } := by
  refine ⟨rfl, hu.wellFormed, ?_⟩
  rw [Tree.stringValue_eq_branch, hu.branch, Tree.stringValue_eq_branch, ← branch, hplace]
  exact stringValue_plug_congr fs h htail

/-- A division puts a row in the place of an element that has the same text and tail. -/
lemma rearranged_divide {u : Tree} {row : List Branch} (hplace : c.branch = plug (p :: g :: fs) x)
    (hu : Tree.Replaced c.tree u c.root (plug fs (g.fillRow row)))
    (hrow : stringValues row = (p.fill x).stringValue ++ p.tail) :
    Rearranged c { c with tree := u } := by
  refine rearranged_of_replaced (b := g.fill (p.fill x)) hplace hu ?_ rfl
  rw [Frame.stringValue_fillRow, hrow, Frame.stringValue_fill g, Frame.tail_fill,
    String.append_assoc]

/-- A merge keeps the text of the sibling and the element, and of what stands between and behind. -/
lemma rearranged_merge {u : Tree} {prev : Branch} {rest : List Branch} {current : Option NodeId}
    (hplace : c.branch = plug (f :: fs) x) (hbefore : f.before = prev :: rest)
    (hu : Tree.Replaced c.tree u c.root
      (plug fs ({ f with before := prev.absorb x :: rest }.fillRow []))) :
    Rearranged c { c with tree := u, current } := by
  refine rearranged_of_replaced (b := f.fill x) hplace hu ?_ rfl
  have habsorb (rest : String) :
      (prev.absorb x).stringValue ++ ((prev.absorb x).tail ++ rest) =
        prev.stringValue ++ (prev.tail ++ (x.stringValue ++ (x.tail ++ rest))) := by
    rw [← String.append_assoc, stringValue_absorb]
    simp only [String.append_assoc]
  rw [Frame.stringValue_fillRow, Frame.stringValue_fill]
  simp only [Frame.textBefore, hbefore, List.reverse_cons, stringValues_append, stringValues_cons,
    stringValues_nil, String.append_empty, String.empty_append, String.append_assoc, habsorb]

/-- A rearrangement keeps the text of the cursor's subtree, and so does its failure. -/
theorem rearranged_perform (h : c.tree.WellFormed) {o : Operation} (ho : o.isRearrangement) :
    Rearranged c (c.perform o) := by
  -- Each edit is refused and changes nothing, or it succeeds and puts back all text it takes away.
  cases o with
  | mergeIntoPrevious n? =>
    rcases mergeIntoPrevious_cases h n? with ⟨f, fs, x, prev, rest, ht, hbefore⟩ | hrefused
    · obtain ⟨u, hrun, hu⟩ := mergeIntoPrevious_ok h ht.place hbefore ht.chosen
      rw [perform_of_ok (o := .mergeIntoPrevious n?) hrun]
      exact rearranged_merge ht.place hbefore hu
    · rw [perform_of_refused (o := .mergeIntoPrevious n?) hrefused]
      exact .refl h
  | splitBefore n? =>
    rcases splitBefore_cases h n? with ⟨p, g, fs, x, ht⟩ | hrefused
    · obtain ⟨u, hrun, hu⟩ := splitBefore_ok h ht.place ht.chosen
      rw [perform_of_ok (o := .splitBefore n?) hrun]
      exact rearranged_divide ht.place hu (p.stringValues_splitBefore _ x)
    · rw [perform_of_refused (o := .splitBefore n?) hrefused]
      exact .refl h
  | splitAfterTail n? =>
    rcases splitAfterTail_cases h n? with ⟨p, g, fs, x, ht⟩ | hrefused
    · obtain ⟨u, hrun, hu⟩ := splitAfterTail_ok h ht.place ht.chosen
      rw [perform_of_ok (o := .splitAfterTail n?) hrun]
      exact rearranged_divide ht.place hu (p.stringValues_splitAfterTail _ x)
    · rw [perform_of_refused (o := .splitAfterTail n?) hrefused]
      exact .refl h
  | lift n? =>
    rcases lift_cases h n? with ⟨p, g, fs, x, ht⟩ | hrefused
    · obtain ⟨u, hrun, hu⟩ := lift_ok h ht.place ht.chosen
      rw [perform_of_ok (o := .lift n?) hrun]
      exact rearranged_divide ht.place hu (p.stringValues_lift _ x)
    · rw [perform_of_refused (o := .lift n?) hrefused]
      exact .refl h
  | _ => cases ho

/-- Rearrangements, one after the other, keep the text of the cursor's subtree. -/
theorem rearranged_foldl_perform (h : c.tree.WellFormed) {os : List Operation}
    (hos : ∀ o ∈ os, o.isRearrangement) : Rearranged c (os.foldl perform c) := by
  induction os generalizing c with
  | nil => exact .refl h
  | cons o os ih =>
    have hfirst := rearranged_perform h (hos o (List.mem_cons_self ..))
    exact hfirst.trans (ih hfirst.wellFormed fun o ho => hos o (List.mem_cons_of_mem _ ho))

/-- A removed element takes its own text with it, and its tail stays. -/
lemma stringValue_remove (h : c.tree.WellFormed) (hrun : remove n? c = .ok () c') :
    ∃ n f fs x, n?.or c.current = some n ∧ x.number = n ∧ c.tree.branch c.root = plug (f :: fs) x ∧
      c.tree.stringValue c.root = textBefore (f :: fs) ++
        (c.tree.stringValue n ++ (c.tree.tail n ++ textAfter (f :: fs))) ∧
      c'.tree.stringValue c.root = textBefore (f :: fs) ++ (c.tree.tail n ++ textAfter (f :: fs)) := by
  rcases remove_cases h n? with ⟨f, fs, x, hchosen, hplace⟩ | ⟨op, tag, reason, hrefused⟩
  · obtain ⟨u, hrun', hu⟩ := remove_ok h hplace hchosen
    obtain ⟨-, rfl⟩ := EStateM.Result.ok.inj (hrun.symm.trans hrun')
    have hx := (holds_plug.1 (holds_of_place h hplace)).1
    have htext : c.tree.stringValue x.number = x.stringValue := by
      rw [Tree.stringValue_eq_branch, hx.branch_eq h]
    have htail : c.tree.tail x.number = x.tail := by
      rw [Tree.tail, hx.tail?_eq, Branch.tail]
    refine ⟨x.number, f, fs, x, hchosen, rfl, hplace, ?_, ?_⟩
    · rw [htext, htail, Tree.stringValue_eq_branch, ← branch, hplace, stringValue_plug]
    · rw [htail, Tree.stringValue_eq_branch, hu.branch, stringValue_plug_fillRow,
        textBefore_extendBefore, textAfter_extendBefore, stringValues_nil, String.empty_append,
        String.append_assoc]
  · rw [hrun] at hrefused
    cases hrefused

/-- The edits of a cursor conserve text.  A merge, a division or a lift leaves the string value of the
cursor's root as it was, and so do any number of them.  A removal of `n` takes the string value of
`n` out of it, where `textBefore` is the text before the place of `n`, and the tail of `n` and
`textAfter` are the text behind it. -/
theorem text_conserved (h : c.tree.WellFormed) :
    (∀ (o : Operation) (c' : Cursor), o.isRearrangement → o.run c = .ok () c' →
      c'.tree.stringValue c.root = c.tree.stringValue c.root) ∧
    (∀ (n? : Option NodeId) (c' : Cursor), remove n? c = .ok () c' →
      ∃ n f fs x, n?.or c.current = some n ∧ x.number = n ∧ c.tree.branch c.root = plug (f :: fs) x ∧
        c.tree.stringValue c.root = textBefore (f :: fs) ++
          (c.tree.stringValue n ++ (c.tree.tail n ++ textAfter (f :: fs))) ∧
        c'.tree.stringValue c.root =
          textBefore (f :: fs) ++ (c.tree.tail n ++ textAfter (f :: fs))) ∧
    (∀ os : List Operation, (∀ o ∈ os, o.isRearrangement) →
      (os.foldl perform c).tree.stringValue c.root = c.tree.stringValue c.root) := by
  refine ⟨fun o c' ho hrun => ?_, fun n? c' hrun => stringValue_remove h hrun,
    fun os hos => (rearranged_foldl_perform h hos).stringValue⟩
  rw [← perform_of_ok hrun]
  exact (rearranged_perform h ho).stringValue

/-- Lifting, dividing and merging in a paragraph leaves all of its text in place. -/
theorem text_conserved_specimen :
    Tree.specimen.WellFormed ∧
      ([.lift (some 3), .mergeIntoPrevious (some 4), .splitAfterTail (some 5)].foldl perform
        (start Tree.specimen 0)).tree.stringValue 0 = "abcdefg" := by
  refine ⟨Tree.wellFormed_specimen, ?_⟩
  have hall := (text_conserved (c := start Tree.specimen 0) Tree.wellFormed_specimen).2.2
    [.lift (some 3), .mergeIntoPrevious (some 4), .splitAfterTail (some 5)] (by decide)
  exact hall.trans (by decide)

end Cursor

end DoxygenRest
