import DoxygenRest.Proofs.Branch.Replacement
import DoxygenRest.Proofs.Tree.Regrouping

/-!
# What an edit works on

An edit of a cursor first finds the element that it works on.  Either that fails, and the cursor is as
before, or the element has a place in the branch at the cursor's root, with a frame around it if it
is not the root itself, and two if it lies below a child of the root.
-/

namespace DoxygenRest.Cursor

open Branch

variable {c : Cursor} {n? : Option NodeId} {n : NodeId}

/-! ### Running edits of the tree under a cursor -/

/-- An edit of the tree that succeeds changes the cursor's tree alone. -/
lemma onTree_ok {α : Type} {edit : Tree.Edit α} {a : α} {u : Tree} (h : edit c.tree = .ok a u) :
    onTree edit c = .ok a { c with tree := u } := by
  rw [onTree, h]

@[simp] lemma updateTree_apply (f : Tree → Tree) (c : Cursor) :
    updateTree f c = .ok () { c with tree := f c.tree } := rfl

@[simp] lemma stepTree_apply {α : Type} (f : Tree → α × Tree) (c : Cursor) :
    stepTree f c = .ok (f c.tree).1 { c with tree := (f c.tree).2 } := rfl

@[simp] lemma updateTree_bind_apply {β : Type} (f : Tree → Tree) (g : Unit → Edit β) (c : Cursor) :
    (updateTree f >>= g) c = g () { c with tree := f c.tree } := rfl

@[simp] lemma stepTree_bind_apply {α β : Type} (f : Tree → α × Tree) (g : α → Edit β)
    (c : Cursor) :
    (stepTree f >>= g) c = g (f c.tree).1 { c with tree := (f c.tree).2 } := rfl

/-! ### The cursor's subtree -/

/-- The subtree that a cursor may not leave, by value. -/
def branch (c : Cursor) : Branch :=
  c.tree.branch c.root

/-- The elements that a cursor contains are those of its branch. -/
lemma contains_iff (h : c.tree.WellFormed) : c.contains n = true ↔ n ∈ c.branch.numbers := by
  rw [branch, Tree.mem_numbers_branch h, contains, Bool.or_eq_true, beq_iff_eq,
    Tree.isAncestorOf_iff]

/-- Around an element that is not the root there is a frame. -/
lemma plug_eq_branch_cons {x : Branch} {fs : List Frame} (hplace : c.branch = plug fs x)
    (hne : x.number ≠ c.root) : ∃ f gs, fs = f :: gs := by
  cases fs with
  | nil =>
    rw [plug_nil] at hplace
    exact absurd (by rw [← hplace, branch, Tree.number_branch]) hne
  | cons f gs => exact ⟨f, gs, rfl⟩

/-! ### Targets -/

/-- The element an edit works on: the one given, or else the current one, in the cursor's subtree. -/
structure IsTarget (c : Cursor) (n? : Option NodeId) (n : NodeId) : Prop where
  chosen : n?.or c.current = some n
  contained : c.contains n = true

/-- An operation is refused as a misuse, and the cursor is as before. -/
def Refused {α : Type} (c : Cursor) (result : EStateM.Result PassError Cursor α) : Prop :=
  ∃ operation tag reason, result = .error (.misuse operation tag reason) c

/-- The element to work on is found, or the edit is refused. -/
lemma target_cases (operation : String) (n? : Option NodeId) (c : Cursor) :
    (∃ n, target operation n? c = .ok n c ∧ c.IsTarget n? n) ∨ c.Refused (target operation n? c) := by
  unfold target
  rw [Program.get_bind_apply]
  cases hn : n?.or c.current with
  | none => exact Or.inr ⟨_, _, _, rfl⟩
  | some n =>
    by_cases hcontains : c.contains n
    · exact Or.inl ⟨n, by simp [hcontains], hn, hcontains⟩
    · exact Or.inr ⟨operation, c.tree.tag n, "outside the cursor's subtree", by
        simp [hcontains, violation]⟩

/-- An element below the root is found, or the edit is refused. -/
lemma targetBelowRoot_cases (operation : String) (n? : Option NodeId) (c : Cursor) :
    (∃ n, targetBelowRoot operation n? c = .ok n c ∧ c.IsTarget n? n ∧ n ≠ c.root) ∨
      c.Refused (targetBelowRoot operation n? c) := by
  unfold targetBelowRoot
  rcases target_cases operation n? c with ⟨n, hrun, htarget⟩ | ⟨op, tag, reason, hrun⟩
  · rw [Program.bind_ok hrun, Program.get_bind_apply]
    by_cases hroot : n = c.root
    · exact Or.inr ⟨operation, c.tree.tag n, "it is the cursor's root", by
        simp [hroot, violation, Program.bind_apply]⟩
    · exact Or.inl ⟨n, by simp [hroot], htarget, hroot⟩
  · exact Or.inr ⟨op, tag, reason, Program.bind_error hrun _⟩

/-- An element in one that can be divided is found with its parent, or the edit is refused. -/
lemma targetInDivisible_cases (operation : String) (n? : Option NodeId) (c : Cursor) :
    (∃ n parent, targetInDivisible operation n? c = .ok (n, parent) c ∧ c.IsTarget n? n ∧
        n ≠ c.root ∧ c.tree.parent? n = some parent ∧ parent ≠ c.root) ∨
      c.Refused (targetInDivisible operation n? c) := by
  unfold targetInDivisible
  rcases targetBelowRoot_cases operation n? c with ⟨n, hrun, htarget, hroot⟩ | ⟨op, tag, reason, hrun⟩
  · rw [Program.bind_ok hrun, Program.get_bind_apply]
    cases hp : c.tree.parent? n with
    | none => exact Or.inr ⟨_, _, _, rfl⟩
    | some parent =>
      by_cases hparent : parent = c.root
      · exact Or.inr ⟨operation, c.tree.tag n, "it is a direct child of the cursor's root", by
          simp [hparent, violation]⟩
      · exact Or.inl ⟨n, parent, by simp [hparent], htarget, hroot, hp, hparent⟩
  · exact Or.inr ⟨op, tag, reason, Program.bind_error hrun _⟩

/-- A target below the root has a frame around it. -/
lemma IsTarget.exists_place (h : c.tree.WellFormed) (htarget : c.IsTarget n? n)
    (hroot : n ≠ c.root) : ∃ f fs x, c.branch = plug (f :: fs) x ∧ x.number = n := by
  obtain ⟨fs, x, hplace, rfl⟩ := exists_plug_of_mem ((contains_iff h).1 htarget.contained)
  obtain ⟨f, gs, rfl⟩ := plug_eq_branch_cons hplace.symm hroot
  exact ⟨f, gs, x, hplace.symm, rfl⟩

/-- A target below a child of the root has two frames around it. -/
lemma IsTarget.exists_place_two (h : c.tree.WellFormed) (htarget : c.IsTarget n? n)
    (hroot : n ≠ c.root) {parent : NodeId} (hp : c.tree.parent? n = some parent)
    (hparent : parent ≠ c.root) :
    ∃ p g fs x, c.branch = plug (p :: g :: fs) x ∧ x.number = n ∧ p.number = parent := by
  obtain ⟨p, fs, x, hplace, rfl⟩ := htarget.exists_place h hroot
  have hholds := Tree.holds_branch h c.root
  rw [← branch, hplace, holds_plug] at hholds
  have hnumber : p.number = parent := Option.some.inj ((p.parent?_eq h hholds.2.1).symm.trans hp)
  have hplace' : c.branch = plug fs (p.fill x) := hplace
  obtain ⟨g, gs, rfl⟩ := plug_eq_branch_cons hplace' (by rwa [Frame.number_fill, hnumber])
  exact ⟨p, g, gs, x, hplace, rfl, hnumber⟩

/-! ### Targets at a given place -/

/-- An edit is given the element `x`, which stands in the cursor's subtree with `fs` around it. -/
structure TargetAt (c : Cursor) (n? : Option NodeId) (fs : List Frame) (x : Branch) : Prop where
  chosen : n?.or c.current = some x.number
  place : c.branch = plug fs x

section Place

variable {x : Branch} {f p g : Frame} {fs : List Frame} (h : c.tree.WellFormed)

include h

/-- What is at a place of a cursor's branch, with the frames around it, is in the cursor's tree. -/
lemma holds_of_place (hplace : c.branch = plug fs x) : (plug fs x).Holds c.tree :=
  hplace ▸ Tree.holds_branch h c.root

/-- What stands at a place of its branch, the cursor contains. -/
lemma contains_of_place (hplace : c.branch = plug fs x) : c.contains x.number = true :=
  (contains_iff h).2 (hplace ▸ mem_numbers_plug.2 (Or.inl x.number_mem_numbers))

/-- What stands in a frame is not the root. -/
lemma ne_root_of_place (hplace : c.branch = plug (f :: fs) x) : x.number ≠ c.root := by
  have hnodup := Tree.nodup_numbers_branch h c.root
  rw [← branch, hplace, (numbers_plug_perm _ _).nodup_iff, List.nodup_append] at hnodup
  obtain ⟨g, hg, hnumber⟩ := exists_number_eq_of_plug_cons f fs x
  rw [← hplace, branch, Tree.number_branch] at hnumber
  rw [hnumber]
  exact hnodup.2.2 _ x.number_mem_numbers _
    (List.mem_flatMap.2 ⟨g, hg, List.mem_cons_self ..⟩)

/-- The parent of what stands at a place is the nearest frame around it. -/
lemma parent?_of_place (hplace : c.branch = plug (f :: fs) x) :
    c.tree.parent? x.number = some f.number :=
  f.parent?_eq h (holds_plug.1 (holds_of_place h hplace)).2.1

/-- What stands at a place of its branch, the cursor may work on. -/
lemma target_ok (operation : String) (hchosen : n?.or c.current = some x.number)
    (hplace : c.branch = plug fs x) : target operation n? c = .ok x.number c := by
  rw [target, Program.get_bind_apply, hchosen]
  simp [contains_of_place h hplace]

/-- With a frame around it, it is below the root. -/
lemma targetBelowRoot_ok (operation : String) (hchosen : n?.or c.current = some x.number)
    (hplace : c.branch = plug (f :: fs) x) : targetBelowRoot operation n? c = .ok x.number c := by
  rw [targetBelowRoot, Program.bind_ok (target_ok h operation hchosen hplace),
    Program.get_bind_apply, if_neg (ne_root_of_place h hplace)]
  rfl

/-- With two frames around it, its parent can be divided. -/
lemma targetInDivisible_ok (operation : String) (hchosen : n?.or c.current = some x.number)
    (hplace : c.branch = plug (p :: g :: fs) x) :
    targetInDivisible operation n? c = .ok (x.number, p.number) c := by
  rw [targetInDivisible, Program.bind_ok (targetBelowRoot_ok h operation hchosen hplace),
    Program.get_bind_apply, parent?_of_place h hplace]
  have hne : p.number ≠ c.root := ne_root_of_place h (x := p.fill x) hplace
  simp [hne]

end Place

end DoxygenRest.Cursor
