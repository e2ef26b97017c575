import DoxygenRest.Editor
import DoxygenRest.Proofs.Branch.Descent
import DoxygenRest.Proofs.Cursor.Junction
import DoxygenRest.Proofs.Tree.Specimen
import Mathlib.Logic.Function.Iterate

/-!
# Walks in document order

The elements of a subtree in document order are its root and, child by child, the elements of the
subtrees of its children (`Tree.preorder_eq`).  Descendants are listed in this order, a cursor that walks
on from the root of its subtree comes to the elements in this order and then leaves the subtree, and one
that walks past an element comes to what stands behind the element's subtree in this order.

All of it is read off a place in the subtree: what stands before a place and what stands behind it are
two rows of elements that depend on the frames around the place alone (`numbers_plug`), and the cursor
goes on to the first of those behind it (`head?_following`).
-/

namespace DoxygenRest

open Branch

variable {t : Tree} {root n : NodeId} {x : Branch} {fs : List Frame}

/-! ### Before and behind a place -/

/-- The elements before a place, in document order. -/
def preceding : List Frame → List NodeId
  | [] => []
  | f :: fs => preceding fs ++ f.number :: numbersAll f.before.reverse

/-- The elements behind a place, in document order. -/
def following : List Frame → List NodeId
  | [] => []
  | f :: fs => numbersAll f.after ++ following fs

/-- A branch put into a place stands between what is before the place and what is behind it. -/
theorem numbers_plug (fs : List Frame) (x : Branch) :
    (plug fs x).numbers = preceding fs ++ (x.numbers ++ following fs) := by
  induction fs generalizing x with
  | nil => simp [preceding, following]
  | cons f fs ih => simp [ih, Frame.fill, preceding, following]

/-- The first element of a row is the root of its first branch. -/
lemma head?_numbersAll (bs : List Branch) :
    (numbersAll bs).head? = bs.head?.map Branch.number := by
  cases bs with
  | nil => simp
  | cons b bs =>
    cases b
    simp

/-- The element that follows a place is the first one behind it. -/
theorem head?_following (fs : List Frame) : (following fs).head? = nextNumber fs := by
  induction fs with
  | nil => rfl
  | cons f fs ih => rw [following, List.head?_append, head?_numbersAll, ih, nextNumber]

/-! ### Document order -/

namespace Tree

/-- The elements of the subtree at `n`, in document order. -/
def preorder (t : Tree) (n : NodeId) : List NodeId :=
  (t.branch n).numbers

/-- The elements of a subtree are its root and then those of the children's subtrees. -/
theorem preorder_eq (h : t.WellFormed) (n : NodeId) :
    t.preorder n = n :: (t.children n).flatMap t.preorder := by
  rw [preorder, branch_eq h, numbers_node, numbersAll_eq_flatMap, List.flatMap_map]
  rfl

/-- Each element of a subtree has its own subtree in document order inside of that of the whole. -/
lemma exists_preorder_eq (h : t.WellFormed) (hn : n ∈ t.preorder root) :
    ∃ fs x, t.branch root = plug fs x ∧ x.number = n ∧
      t.preorder root = preceding fs ++ (t.preorder n ++ following fs) := by
  obtain ⟨fs, x, hplace, rfl⟩ := exists_plug_of_mem hn
  have hx : t.branch x.number = x := by
    have hholds := holds_branch h root
    rw [← hplace, holds_plug] at hholds
    exact hholds.1.branch_eq h
  refine ⟨fs, x, hplace.symm, rfl, ?_⟩
  rw [preorder, ← hplace, numbers_plug, preorder, hx]

end Tree

/-! ### Walking on -/

namespace Cursor

/-- A cursor that walks past an element goes on to the first one behind the element's subtree. -/
theorem advancePast_of_mem (h : t.WellFormed) (hn : n ∈ t.preorder root) :
    ∃ before after, t.preorder root = before ++ (t.preorder n ++ after) ∧
      (⟨t, root, some n⟩ : Cursor).advancePast = ⟨t, root, after.head?⟩ := by
  obtain ⟨fs, x, hplace, rfl, horder⟩ := Tree.exists_preorder_eq h hn
  refine ⟨preceding fs, following fs, horder, ?_⟩
  rw [advancePast]
  simp only [nextOutside_eq (c := ⟨t, root, some x.number⟩) h hplace, head?_following]

/-- A cursor that walks on from an element goes on to what stands right behind it in document order. -/
lemma advanceInto_of_place (h : t.WellFormed) (hplace : t.branch root = plug fs x) :
    (⟨t, root, some x.number⟩ : Cursor).advanceInto =
      ⟨t, root, (numbersAll x.children ++ following fs).head?⟩ := by
  rw [advanceInto_eq (c := ⟨t, root, some x.number⟩) h hplace rfl, List.head?_append,
    head?_numbersAll, head?_following]

/-- A cursor that walks on goes on to the next element in document order, if there is one. -/
theorem advanceInto_getElem? (h : t.WellFormed) (root : NodeId) (k : Nat) :
    (⟨t, root, (t.preorder root)[k]?⟩ : Cursor).advanceInto =
      ⟨t, root, (t.preorder root)[k + 1]?⟩ := by
  cases hk : (t.preorder root)[k]? with
  | none =>
    have hlength := List.getElem?_eq_none_iff.1 hk
    rw [advanceInto, List.getElem?_eq_none (Nat.le_succ_of_le hlength)]
  | some n =>
    obtain ⟨hlt, hget⟩ := List.getElem?_eq_some_iff.1 hk
    obtain ⟨fs, x, hplace, rfl⟩ := exists_plug_of_mem (hget ▸ List.getElem_mem hlt)
    have horder : t.preorder root =
        preceding fs ++ x.number :: (numbersAll x.children ++ following fs) := by
      rw [Tree.preorder, ← hplace, numbers_plug, ← Branch.node_eta x, numbers_node]
      rfl
    -- No element occurs twice, so the place of `x` is the one behind all that precedes it.
    have hindex : k = (preceding fs).length := by
      apply (List.getElem?_inj hlt (Tree.nodup_numbers_branch h root)).1
      rw [hk, horder, List.getElem?_append_right (Nat.le_refl _), Nat.sub_self,
        List.getElem?_cons_zero]
    rw [advanceInto_of_place h hplace.symm, horder, hindex,
      List.getElem?_append_right (Nat.le_add_right _ 1), Nat.add_sub_cancel_left,
      List.getElem?_cons_succ, List.head?_eq_getElem?]

/-- A cursor that walks on from the root of its subtree stands on one element after the other, in
document order, and then has left the subtree. -/
theorem iterate_advanceInto (h : t.WellFormed) (root : NodeId) (k : Nat) :
    advanceInto^[k] (start t root) = ⟨t, root, (t.preorder root)[k]?⟩ := by
  induction k with
  | zero => rw [Tree.preorder_eq h]; rfl
  | succ k ih => rw [Function.iterate_succ_apply', ih, advanceInto_getElem? h]

end Cursor

/-! ### Passes without rules -/

namespace Editor

/-- Handle elements until the cursor leaves its subtree, in at most `left` steps, and tell which elements
were handled. -/
def handledFor (r : Editor Cursor.Edit) : (left : Nat) → Cursor.Edit (List NodeId)
  | 0 => do
    if ← hasNext then throw (givenUp r.maxSteps (← get))
    else return []
  | left + 1 => do
    if ← hasNext then
      let current := (← get).current
      r.handle
      return current.toList ++ (← r.handledFor left)
    else return []

section Handled

variable {r : Editor Cursor.Edit} {c c' : Cursor} {left : Nat}

/-- A pass is a row of handlings. -/
lemma runFor_eq_handledFor (r : Editor Cursor.Edit) (left : Nat) (c : Cursor) :
    r.runFor left c = (r.handledFor left >>= fun _ => pure ()) c := by
  induction left generalizing c with
  | zero =>
    rw [runFor, handledFor, Program.bind_assoc_apply, Program.bind_apply, Program.bind_apply]
    cases (hasNext : Cursor.Edit Bool) c with
    | error failure c₁ => rfl
    | ok more c₁ => cases more <;> rfl
  | succ left ih =>
    rw [runFor, handledFor, Program.bind_assoc_apply, Program.bind_apply, Program.bind_apply]
    cases (hasNext : Cursor.Edit Bool) c with
    | error failure c₁ => rfl
    | ok more c₁ =>
      cases more with
      | false => rfl
      | true =>
        simp only [if_true, Program.bind_assoc_apply, Program.get_bind_apply]
        rw [Program.bind_apply, Program.bind_apply]
        cases r.handle c₁ with
        | error failure c₂ => rfl
        | ok a c₂ =>
          refine (ih c₂).trans ?_
          simp only [Program.bind_assoc_apply]
          rfl

/-- Where an element is left, it is handled before the others. -/
lemma handledFor_succ (hnext : (hasNext : Cursor.Edit Bool) c = .ok true c)
    (hhandle : r.handle c = .ok () c') :
    r.handledFor (left + 1) c =
      (r.handledFor left >>= fun rest => pure (c.current.toList ++ rest)) c' := by
  rw [handledFor, Program.bind_ok hnext]
  exact Program.bind_ok hhandle _

/-- Outside of its subtree a pass has nothing to handle. -/
lemma handledFor_none (r : Editor Cursor.Edit) (left : Nat) (t : Tree) (root : NodeId) :
    r.handledFor left ⟨t, root, none⟩ = .ok [] ⟨t, root, none⟩ := by
  cases left <;> rfl

end Handled

/-- An editor without rules, which only walks on. -/
def idle (maxSteps : Nat) : Editor Cursor.Edit :=
  ⟨[], maxSteps⟩

variable {maxSteps : Nat} {c : Cursor}

/-- Without rules, an element is handled by walking on. -/
lemma handle_idle (hcurrent : c.current = some n) :
    (idle maxSteps).handle c = .ok () c.advanceInto := by
  have hlimit : nestingLimit = nestingLimit - 1 + 1 := rfl
  rw [handle, hlimit, handleWithin, Program.get_bind_apply, hcurrent]
  rfl

/-- Before the last element in document order there is one left to handle. -/
lemma hasNext_of_lt (h : t.WellFormed) {k : Nat} (hk : k < (t.preorder root).length) :
    (hasNext : Cursor.Edit Bool) ⟨t, root, some (t.preorder root)[k]⟩ =
      .ok true ⟨t, root, some (t.preorder root)[k]⟩ := by
  have hcontains : (⟨t, root, some (t.preorder root)[k]⟩ : Cursor).contains (t.preorder root)[k] =
      true := (Cursor.contains_iff h).2 (List.getElem_mem hk)
  rw [hasNext, Program.get_bind_apply]
  simp [hcontains]

/-- Without rules, a pass handles one element after the other, as far as it may. -/
theorem handledFor_idle (h : t.WellFormed) (root : NodeId) (maxSteps left k : Nat) :
    (idle maxSteps).handledFor left ⟨t, root, (t.preorder root)[k]?⟩ =
      if (t.preorder root).length ≤ k + left then .ok ((t.preorder root).drop k) ⟨t, root, none⟩
      else
        .error (givenUp maxSteps ⟨t, root, (t.preorder root)[k + left]?⟩)
          ⟨t, root, (t.preorder root)[k + left]?⟩ := by
  induction left generalizing k with
  | zero =>
    rw [Nat.add_zero]
    by_cases hk : (t.preorder root).length ≤ k
    · rw [if_pos hk, List.getElem?_eq_none hk, List.drop_eq_nil_of_le hk, handledFor_none]
    · rw [if_neg hk, List.getElem?_eq_getElem (Nat.lt_of_not_le hk), handledFor,
        Program.bind_ok (hasNext_of_lt h (Nat.lt_of_not_le hk))]
      rfl
  | succ left ih =>
    by_cases hk : (t.preorder root).length ≤ k
    · rw [if_pos (by omega), List.getElem?_eq_none hk, List.drop_eq_nil_of_le hk, handledFor_none]
    · have hlt := Nat.lt_of_not_le hk
      have hnext := Cursor.advanceInto_getElem? h root k
      rw [List.getElem?_eq_getElem hlt] at hnext ⊢
      rw [handledFor_succ (hasNext_of_lt h hlt) (handle_idle rfl), hnext, Program.bind_apply, ih,
        List.drop_eq_getElem_cons hlt, Nat.add_right_comm, Nat.add_assoc]
      by_cases hle : (t.preorder root).length ≤ k + (left + 1)
      · rw [if_pos hle, if_pos hle]
        rfl
      · rw [if_neg hle, if_neg hle]

/-- With enough steps, a pass without rules handles each element of the subtree once. -/
lemma handledFor_idle_of_le (h : t.WellFormed) (hle : (t.preorder root).length ≤ maxSteps) :
    (idle maxSteps).handledFor maxSteps (Cursor.start t root) =
      .ok (t.preorder root) ⟨t, root, none⟩ := by
  have hstart : Cursor.start t root = ⟨t, root, (t.preorder root)[0]?⟩ :=
    Cursor.iterate_advanceInto h root 0
  rw [hstart, handledFor_idle h, Nat.zero_add, if_pos hle, List.drop_zero]

/-- With too few steps, a pass without rules is given up on the element that comes next. -/
lemma run_idle_of_lt (h : t.WellFormed) (hlt : maxSteps < (t.preorder root).length) :
    (idle maxSteps).run (Cursor.start t root) =
      .error (.noProgress maxSteps (t.tag (t.preorder root)[maxSteps]))
        ⟨t, root, some (t.preorder root)[maxSteps]⟩ := by
  have hstart : Cursor.start t root = ⟨t, root, (t.preorder root)[0]?⟩ :=
    Cursor.iterate_advanceInto h root 0
  have hhandled := handledFor_idle h root maxSteps maxSteps 0
  rw [Nat.zero_add, if_neg (Nat.not_le_of_lt hlt), List.getElem?_eq_getElem hlt, ← hstart] at hhandled
  rw [run, runFor_eq_handledFor]
  exact Program.bind_error hhandled _

end Editor

/-- Walks are in document order.  In document order, the elements of a subtree are its root and then the
elements of its children's subtrees, none of them twice, and without the root they are the root's
descendants.  Walking on again and again from the root, a cursor stands on one after the other and then
has left the subtree; walking past one of them, it goes on to the first element behind that one's
subtree.  A pass without rules handles one after the other and ends well, if it may take as many steps,
and is given up otherwise.  The tree stays as it is. -/
theorem walk_in_document_order (t : Tree) (h : t.WellFormed) (root : NodeId) :
    (∀ n, t.preorder n = n :: (t.children n).flatMap t.preorder) ∧
      (t.preorder root).Nodup ∧
      t.preorder root = root :: t.descendants root ∧
      (∀ k, Cursor.advanceInto^[k] (.start t root) = ⟨t, root, (t.preorder root)[k]?⟩) ∧
      (∀ n, n = root ∨ root ∈ t.ancestors n → ∃ before after,
        t.preorder root = before ++ (t.preorder n ++ after) ∧
          (⟨t, root, some n⟩ : Cursor).advancePast = ⟨t, root, after.head?⟩) ∧
      (∀ maxSteps, (t.preorder root).length ≤ maxSteps →
        (Editor.idle maxSteps).run (.start t root) = .ok () ⟨t, root, none⟩ ∧
          (Editor.idle maxSteps).handledFor maxSteps (.start t root) =
            .ok (t.preorder root) ⟨t, root, none⟩) ∧
      ∀ maxSteps, ∀ hlt : maxSteps < (t.preorder root).length,
        (Editor.idle maxSteps).run (.start t root) =
          .error (.noProgress maxSteps (t.tag (t.preorder root)[maxSteps]))
            ⟨t, root, some (t.preorder root)[maxSteps]⟩ := by
  refine ⟨t.preorder_eq h, Tree.nodup_numbers_branch h root, Tree.numbers_branch h root,
    Cursor.iterate_advanceInto h root, ?past, ?enough,
    fun maxSteps hlt => Editor.run_idle_of_lt h hlt⟩
  case past => exact fun n hn => Cursor.advancePast_of_mem h ((Tree.mem_numbers_branch h).2 hn)
  intro maxSteps hle
  have hhandled := Editor.handledFor_idle_of_le h hle
  refine ⟨?_, hhandled⟩
  rw [Editor.run, Editor.runFor_eq_handledFor]
  exact Program.bind_ok hhandled _

/-- In `specimen`, a walk over the first bold of the paragraph ends in front of the second. -/
theorem walk_in_document_order_specimen :
    Tree.specimen.WellFormed ∧ Tree.specimen.nextSibling? 2 = some 4 ∧
      Tree.specimen.preorder 2 = [2, 3] ∧
      Cursor.advanceInto^[1] (.start Tree.specimen 2) = ⟨Tree.specimen, 2, some 3⟩ ∧
      Cursor.advanceInto^[2] (.start Tree.specimen 2) = ⟨Tree.specimen, 2, none⟩ ∧
      (Editor.idle 2).run (.start Tree.specimen 2) = .ok () ⟨Tree.specimen, 2, none⟩ ∧
      (Editor.idle 1).run (.start Tree.specimen 2) =
        .error (.noProgress 1 "emphasis") ⟨Tree.specimen, 2, some 3⟩ := by
  obtain ⟨-, -, -, hwalk, -, henough, hfew⟩ :=
    walk_in_document_order Tree.specimen Tree.wellFormed_specimen 2
  exact ⟨Tree.wellFormed_specimen, by decide, by decide, hwalk 1, hwalk 2,
    (henough 2 (by decide)).1, hfew 1 (by decide)⟩

end DoxygenRest
