import DoxygenRest.Proofs.Adjust.Step

/-!
# How far a step gets

A walk has passed the elements around its place and those of the branches before it.  No step passes
more than one element (`Step.passed_le`), so a walk over a branch takes as many steps as the branch
that is left in the end has elements, or more.
-/

namespace DoxygenRest.Adjust

open Branch

variable {x : Branch} {f : Frame} {fs : List Frame}

/-- The number of elements that a walk has passed when it comes to a place. -/
def passed : List Frame → Nat
  | [] => 0
  | f :: fs => passed fs + ((numbersAll f.before).length + 1)

/-- The number of elements that a walk has passed after a step. -/
def Outcome.passed : Outcome → Nat
  | standing l => Adjust.passed l.frames
  | finished b => b.numbers.length

/-- A row lists as many elements backwards. -/
lemma length_numbersAll_reverse (bs : List Branch) :
    (numbersAll bs.reverse).length = (numbersAll bs).length :=
  (numbersAll_perm_reverse bs).length_eq

/-- A branch has the elements that were passed before it, its own, and maybe more after it. -/
lemma passed_add_le_length_plug (fs : List Frame) (x : Branch) :
    passed fs + x.numbers.length ≤ (plug fs x).numbers.length := by
  induction fs generalizing x with
  | nil => simp [passed]
  | cons f fs ih =>
    have hfill := ih (f.fill x)
    rw [(f.numbers_fill_perm x).length_eq, List.length_append, Frame.numbers, List.length_cons,
      List.length_append] at hfill
    rw [plug_cons, passed]
    omega

/-- Going behind a branch passes all its elements. -/
lemma passed_leave (x : Branch) (fs : List Frame) :
    (leave x fs).passed = passed fs + x.numbers.length := by
  induction fs generalizing x with
  | nil => simp [leave, Outcome.passed, passed]
  | cons f fs ih =>
    unfold leave
    split
    · next hafter =>
      rw [ih, (f.numbers_fill_perm x).length_eq, List.length_append, Frame.numbers, hafter,
        numbersAll_nil, List.append_nil, List.length_cons, passed]
      omega
    · next y rest hafter =>
      rw [Outcome.passed, passed, passed, numbersAll_cons, List.length_append]
      omega

/-- Going behind an empty place passes nothing. -/
lemma passed_skip (f : Frame) (fs : List Frame) : (skip f fs).passed = passed (f :: fs) := by
  unfold skip
  split
  · next hafter =>
    rw [passed_leave, Frame.fillRow, hafter, List.append_nil, List.append_nil, numbers_node,
      List.length_cons, length_numbersAll_reverse, passed]
  · next y rest hafter => rfl

/-- Going into a branch passes its root. -/
lemma passed_enter (x : Branch) (fs : List Frame) : (enter x fs).passed = passed fs + 1 := by
  unfold enter
  split
  · next hchildren =>
    obtain ⟨n, e, cs⟩ := x
    rw [children_node] at hchildren
    rw [passed_leave, hchildren, numbers_node, numbersAll_nil, List.length_singleton]
  · next y ys hchildren => simp [Outcome.passed, passed]

/-- A branch lists its root and what is in its children. -/
lemma length_numbers_eq (b : Branch) : b.numbers.length = (numbersAll b.children).length + 1 := by
  cases b
  simp

/-- A merge with an element that has no children leaves the number of elements. -/
lemma length_numbers_absorb {b c : Branch} (h : c.children = []) :
    (b.absorb c).numbers.length = b.numbers.length := by
  rw [length_numbers_eq, length_numbers_eq b]
  simp [Branch.absorb, h]

/-- No step passes more than one element. -/
theorem Step.passed_le {outer : Context} {fresh : NodeId} {l : Location} {o : Outcome}
    (hstep : Step outer fresh l o) : o.passed ≤ passed l.frames + 1 := by
  cases hstep with
  | replace hτ => simp [passed_skip, passed]
  | remove hτ hmore => simp [passed_skip, passed]
  | removeLast hτ hbelow hempty =>
    simp only [Outcome.passed, passed]
    omega
  | flatten hτ => simp [Outcome.passed]
  | lift hτ hchildren hinline hlift => simp [Outcome.passed, passed]
  | trim hτ htext => simp [Outcome.passed, passed]
  | trimRoot hτ htext => simp [Outcome.passed]
  | absorb hτ hbefore hmergeable hchildren =>
    simp only [Outcome.passed, passed, hbefore, length_numbersAll_reverse, numbersAll_cons,
      numbersAll_children_appendContent, children_withTail, List.length_append, length_numbers_eq]
    omega
  | absorbLeaf hτ hbefore hmergeable hchildren =>
    simp only [passed_leave, passed, hbefore, numbersAll_cons, List.length_append,
      length_numbers_absorb hchildren]
    omega
  | keep hτ hbefore hdiffer => exact Nat.le_of_eq (passed_enter ..)
  | divideBefore hτ hchildren hfront hsplit => simp [Outcome.passed, passed]
  | divideBehind hτ hchildren htail hsplit => simp [Outcome.passed, passed]
  | undivided hτ hcontent => exact Nat.le_of_eq (passed_enter ..)
  | advance hτ => exact Nat.le_of_eq (passed_enter ..)

end DoxygenRest.Adjust
