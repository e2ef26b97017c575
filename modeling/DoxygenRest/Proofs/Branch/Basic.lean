import DoxygenRest.Tree.Fragment
import DoxygenRest.Proofs.Tree.Moves
import Mathlib.Data.List.Nodup
import Mathlib.Data.List.Pairwise

/-!
# Numbered subtrees as values

A branch is a subtree by value, like a fragment, but with the numbers of its elements.  Statements
about what an edit does to a subtree are statements about branches, and proofs about branches are
inductions on their shape (`Branch.induction`).

`Tree.branch` reads the branch at an element, and `Branch.Holds` says that a tree has a branch in
it.  In a well-formed tree the two say the same (`holds_branch`, `Holds.branch_eq`), the elements
of a branch are its root and all below it (`mem_numbers_branch`), and none occurs twice
(`nodup_numbers_branch`).
-/

namespace DoxygenRest

/-- A subtree by value: the number and the own data of its root, and the branches of its
children. -/
inductive Branch where
  | node (number : NodeId) (own : Entry) (children : List Branch)
  deriving Inhabited

namespace Branch

/-- The number of the root. -/
def number : Branch → NodeId
  | node number _ _ => number

/-- The own data of the root. -/
def own : Branch → Entry
  | node _ own _ => own

/-- The branches of the root's children. -/
def children : Branch → List Branch
  | node _ _ children => children

@[simp] lemma number_node (n : NodeId) (e : Entry) (cs : List Branch) :
    (node n e cs).number = n := rfl

@[simp] lemma own_node (n : NodeId) (e : Entry) (cs : List Branch) : (node n e cs).own = e := rfl

@[simp] lemma children_node (n : NodeId) (e : Entry) (cs : List Branch) :
    (node n e cs).children = cs := rfl

/-- A branch is made of its number, its own data and its children. -/
@[simp] lemma node_eta (b : Branch) : node b.number b.own b.children = b := by
  cases b
  rfl

mutual

/-- What holds of a branch as soon as it holds of its children, holds of all branches. -/
theorem induction {motive : Branch → Prop}
    (step : ∀ n e cs, (∀ c ∈ cs, motive c) → motive (node n e cs)) : ∀ b, motive b
  | node n e cs => step n e cs (inductionAll step cs)

/-- The same for the branches of a row. -/
theorem inductionAll {motive : Branch → Prop}
    (step : ∀ n e cs, (∀ c ∈ cs, motive c) → motive (node n e cs)) :
    ∀ bs : List Branch, ∀ b ∈ bs, motive b
  | [] => fun _ hb => nomatch hb
  | b :: bs => fun _ hc => (List.mem_cons.1 hc).elim (fun h => h ▸ induction step b)
      (inductionAll step bs _)

end

/-- A branch whose root has other own data. -/
def revise (b : Branch) (f : Entry → Entry) : Branch :=
  node b.number (f b.own) b.children

@[simp] lemma number_revise (b : Branch) (f : Entry → Entry) : (b.revise f).number = b.number := rfl

@[simp] lemma own_revise (b : Branch) (f : Entry → Entry) : (b.revise f).own = f b.own := rfl

@[simp] lemma children_revise (b : Branch) (f : Entry → Entry) :
    (b.revise f).children = b.children := rfl

/-! ### The elements of a branch -/

mutual

/-- The numbers of all elements of a branch, in document order. -/
def numbers : Branch → List NodeId
  | node number _ children => number :: numbersAll children

/-- The numbers of all elements of a row of branches, in document order. -/
def numbersAll : List Branch → List NodeId
  | [] => []
  | b :: bs => b.numbers ++ numbersAll bs

end

@[simp] lemma numbers_node (n : NodeId) (e : Entry) (cs : List Branch) :
    (node n e cs).numbers = n :: numbersAll cs := by
  rw [numbers]

@[simp] lemma numbersAll_nil : numbersAll [] = [] := by
  rw [numbersAll]

@[simp] lemma numbersAll_cons (b : Branch) (bs : List Branch) :
    numbersAll (b :: bs) = b.numbers ++ numbersAll bs := by
  rw [numbersAll]

/-- The numbers of a row are those of its parts, one after the other. -/
@[simp] lemma numbersAll_append (bs cs : List Branch) :
    numbersAll (bs ++ cs) = numbersAll bs ++ numbersAll cs := by
  induction bs with
  | nil => simp
  | cons b bs ih => simp [ih]

/-- Reversing a row changes the order of its numbers alone. -/
lemma numbersAll_perm_reverse (bs : List Branch) : (numbersAll bs.reverse).Perm (numbersAll bs) := by
  induction bs with
  | nil => simp
  | cons b bs ih =>
    rw [List.reverse_cons, numbersAll_append, numbersAll_cons, numbersAll_nil, List.append_nil,
      numbersAll_cons]
    -- The first branch comes last, so its numbers move behind the others.
    exact List.perm_append_comm.trans (ih.append_left _)

/-- A reversed row has the same elements. -/
@[simp] lemma mem_numbersAll_reverse {m : NodeId} {bs : List Branch} :
    m ∈ numbersAll bs.reverse ↔ m ∈ numbersAll bs :=
  (numbersAll_perm_reverse bs).mem_iff

/-- The numbers of a row, branch by branch. -/
lemma numbersAll_eq_flatMap (bs : List Branch) : numbersAll bs = bs.flatMap numbers := by
  induction bs with
  | nil => simp
  | cons b bs ih => simp [ih]

/-- An element of a row is an element of one of its branches. -/
lemma mem_numbersAll {m : NodeId} {bs : List Branch} :
    m ∈ numbersAll bs ↔ ∃ b ∈ bs, m ∈ b.numbers := by
  rw [numbersAll_eq_flatMap, List.mem_flatMap]

/-- Other own data change no numbers. -/
@[simp] lemma numbers_revise (b : Branch) (f : Entry → Entry) :
    (b.revise f).numbers = b.numbers := by
  cases b
  simp [revise]

/-- The root is an element of its branch. -/
lemma number_mem_numbers (b : Branch) : b.number ∈ b.numbers := by
  cases b
  simp

/-- The roots of a row's branches are elements of the row. -/
lemma number_mem_numbersAll {b : Branch} {bs : List Branch} (h : b ∈ bs) :
    b.number ∈ numbersAll bs :=
  mem_numbersAll.2 ⟨b, h, b.number_mem_numbers⟩

/-! ### Forgetting the numbers -/

mutual

/-- The branch without its numbers. -/
def fragment : Branch → Fragment
  | node _ own children =>
    .element own.tag own.attributes own.namespaces own.text own.tail (fragments children)

/-- A row of branches without their numbers. -/
def fragments : List Branch → List Fragment
  | [] => []
  | b :: bs => b.fragment :: fragments bs

end

/-- A row forgets its numbers branch by branch. -/
@[simp] lemma fragments_eq_map (bs : List Branch) : fragments bs = bs.map fragment := by
  induction bs with
  | nil => rw [fragments, List.map_nil]
  | cons b bs ih => rw [fragments, List.map_cons, ih]

@[simp] lemma fragment_node (n : NodeId) (e : Entry) (cs : List Branch) :
    (node n e cs).fragment =
      .element e.tag e.attributes e.namespaces e.text e.tail (cs.map fragment) := by
  rw [fragment, fragments_eq_map]

/-- Branches that differ in numbers alone have the same own data, and so do all their children. -/
lemma fragment_eq_iff {x y : Branch} :
    x.fragment = y.fragment ↔ x.own = y.own ∧ x.children.map fragment = y.children.map fragment := by
  obtain ⟨n, e, cs⟩ := x
  obtain ⟨m, e', ds⟩ := y
  obtain ⟨tag, attributes, namespaces, text, tail⟩ := e
  obtain ⟨tag', attributes', namespaces', text', tail'⟩ := e'
  simp only [fragment_node, Fragment.element.injEq, own_node, Entry.mk.injEq, children_node]
  tauto

/-- Branches that differ in numbers alone still do after the same change of own data. -/
lemma fragment_revise_congr {x y : Branch} (h : x.fragment = y.fragment) (g : Entry → Entry) :
    (x.revise g).fragment = (y.revise g).fragment := by
  obtain ⟨hown, hchildren⟩ := fragment_eq_iff.1 h
  exact fragment_eq_iff.2 ⟨congrArg g hown, hchildren⟩

/-! ### Branches in a tree -/

mutual

/-- The tree has the branch in it: each element of the branch has the own data and the children that
the branch gives it. -/
def Holds (t : Tree) : Branch → Prop
  | node number own children =>
    t.entry number = own ∧ t.children number = children.map Branch.number ∧ HoldsAll t children

/-- The tree has all branches of a row in it. -/
def HoldsAll (t : Tree) : List Branch → Prop
  | [] => True
  | b :: bs => b.Holds t ∧ HoldsAll t bs

end

variable {t u : Tree}

@[simp] lemma holds_node {n : NodeId} {e : Entry} {cs : List Branch} :
    (node n e cs).Holds t ↔
      t.entry n = e ∧ t.children n = cs.map Branch.number ∧ HoldsAll t cs := by
  rw [Holds]

/-- A row is in a tree if each of its branches is. -/
lemma holdsAll_iff {bs : List Branch} : HoldsAll t bs ↔ ∀ b ∈ bs, b.Holds t := by
  induction bs with
  | nil => simp [HoldsAll]
  | cons b bs ih => simp [HoldsAll, ih]

@[simp] lemma holdsAll_nil : HoldsAll t [] ↔ True := by
  rw [HoldsAll]

@[simp] lemma holdsAll_cons {b : Branch} {bs : List Branch} :
    HoldsAll t (b :: bs) ↔ b.Holds t ∧ HoldsAll t bs := by
  rw [HoldsAll]

@[simp] lemma holdsAll_append {bs cs : List Branch} :
    HoldsAll t (bs ++ cs) ↔ HoldsAll t bs ∧ HoldsAll t cs := by
  simp only [holdsAll_iff, List.forall_mem_append]

/-- It does not matter for that in which order the row is. -/
@[simp] lemma holdsAll_reverse {bs : List Branch} : HoldsAll t bs.reverse ↔ HoldsAll t bs := by
  simp only [holdsAll_iff, List.mem_reverse]

/-- The root of a branch in the tree has the own data that the branch says. -/
lemma Holds.entry_eq {b : Branch} (h : b.Holds t) : t.entry b.number = b.own := by
  cases b
  exact (holds_node.1 h).1

/-- The root of a branch in the tree has the children that the branch says. -/
lemma Holds.children_eq {b : Branch} (h : b.Holds t) :
    t.children b.number = b.children.map number := by
  cases b
  exact (holds_node.1 h).2.1

/-- With a branch, the branches of its root's children are in the tree. -/
lemma Holds.holdsAll_children {b : Branch} (h : b.Holds t) : HoldsAll t b.children := by
  cases b
  exact (holds_node.1 h).2.2

lemma Holds.tag_eq {b : Branch} (h : b.Holds t) : t.tag b.number = b.own.tag :=
  congrArg Entry.tag h.entry_eq

lemma Holds.tail?_eq {b : Branch} (h : b.Holds t) : t.tail? b.number = b.own.tail :=
  congrArg Entry.tail h.entry_eq

lemma Holds.text?_eq {b : Branch} (h : b.Holds t) : t.text? b.number = b.own.text :=
  congrArg Entry.text h.entry_eq

/-- Branches without the elements that an edit touches stay in the tree. -/
lemma Holds.congr {b : Branch} (h : b.Holds t)
    (hsame : ∀ m ∈ b.numbers, u.entry m = t.entry m ∧ u.children m = t.children m) : b.Holds u := by
  induction b using Branch.induction with
  | step n e cs ih =>
    rw [holds_node, holdsAll_iff] at h ⊢
    obtain ⟨hentry, hchildren, hcs⟩ := h
    obtain ⟨hentry', hchildren'⟩ := hsame n (by simp)
    refine ⟨hentry'.trans hentry, hchildren'.trans hchildren, fun c hc => ?_⟩
    exact ih c hc (hcs c hc) fun m hm =>
      hsame m (by simpa using Or.inr (mem_numbersAll.2 ⟨c, hc, hm⟩))

/-- Rows without the elements that an edit touches stay in the tree. -/
lemma HoldsAll.congr {bs : List Branch} (h : HoldsAll t bs)
    (hsame : ∀ m ∈ numbersAll bs, u.entry m = t.entry m ∧ u.children m = t.children m) :
    HoldsAll u bs := by
  rw [holdsAll_iff] at h ⊢
  exact fun b hb => (h b hb).congr fun m hm => hsame m (mem_numbersAll.2 ⟨b, hb, hm⟩)

end Branch

namespace Tree

open Branch

/-- The branch at `n`, cut off below depth `depth`. -/
def branchWithin (t : Tree) : (depth : Nat) → NodeId → Branch
  | 0, n => .node n (t.entry n) []
  | depth + 1, n => .node n (t.entry n) ((t.children n).map (t.branchWithin depth))

/-- The subtree at `n` by value, with the numbers of its elements. -/
def branch (t : Tree) (n : NodeId) : Branch :=
  t.branchWithin t.size n

/-- A fragment is a branch without its numbers, whatever the depth at which both are cut off. -/
lemma fragment_branchWithin (t : Tree) (depth : Nat) (n : NodeId) :
    (t.branchWithin depth n).fragment = t.fragmentWithin depth n := by
  induction depth generalizing n with
  | zero => simp [branchWithin, fragmentWithin, entry]
  | succ depth ih =>
    simp only [branchWithin, fragmentWithin, fragment_node, List.map_map]
    congr 1
    exact List.map_congr_left fun c _ => ih c

/-- A fragment is a branch without its numbers. -/
lemma fragment_branch (t : Tree) (n : NodeId) : (t.branch n).fragment = t.fragment n :=
  t.fragment_branchWithin t.size n

/-- The branch at an element has its number. -/
@[simp] lemma number_branchWithin (t : Tree) (depth : Nat) (n : NodeId) :
    (t.branchWithin depth n).number = n := by
  cases depth <;> rfl

@[simp] lemma number_branch (t : Tree) (n : NodeId) : (t.branch n).number = n :=
  t.number_branchWithin t.size n

variable {t : Tree}

/-- A branch is not cut off at a depth that no chain of ancestors exceeds. -/
lemma branchWithin_succ (h : t.WellFormed) (depth : Nat) (n : NodeId)
    (hdepth : t.size ≤ depth + (t.ancestors n).length + 1) :
    t.branchWithin (depth + 1) n = t.branchWithin depth n := by
  induction depth generalizing n with
  | zero =>
    have hchildren : t.children n = [] := by
      -- A child would have more ancestors than the tree has elements.
      refine List.eq_nil_iff_forall_not_mem.2 fun c hc => ?_
      have hp := h.mem_children_iff.1 hc
      have hlt := length_ancestors_lt h (lt_size_of_parent?_eq_some hp)
      rw [ancestors_eq_cons h hp, List.length_cons] at hlt
      omega
    simp [branchWithin, hchildren]
  | succ depth ih =>
    rw [branchWithin, branchWithin]
    congr 1
    refine List.map_congr_left fun c hc => ih c ?_
    rw [ancestors_eq_cons h (h.mem_children_iff.1 hc), List.length_cons]
    omega

/-- The branch at an element has the branches at its children for children. -/
theorem branch_eq (h : t.WellFormed) (n : NodeId) :
    t.branch n = .node n (t.entry n) ((t.children n).map t.branch) := by
  have hsucc := branchWithin_succ h t.size n (by omega)
  rw [branch, ← hsucc]
  rfl

/-- The own data of the branch at an element are those of the element. -/
lemma own_branch (h : t.WellFormed) (n : NodeId) : (t.branch n).own = t.entry n := by
  rw [branch_eq h, own_node]

/-- The children of the branch at an element are the branches at its children. -/
lemma children_branch (h : t.WellFormed) (n : NodeId) :
    (t.branch n).children = (t.children n).map t.branch := by
  rw [branch_eq h, children_node]

/-- The branch at a child is a child of the branch. -/
lemma branch_mem_children (h : t.WellFormed) {n c : NodeId} (hc : c ∈ t.children n) :
    t.branch c ∈ (t.branch n).children := by
  rw [children_branch h]
  exact List.mem_map_of_mem hc

/-- A well-formed tree has in it what is read at any of its elements. -/
theorem holds_branch (h : t.WellFormed) (n : NodeId) : (t.branch n).Holds t := by
  induction n using h.child_induction with
  | step n ih =>
    rw [branch_eq h n, holds_node, holdsAll_iff]
    refine ⟨rfl, ?_, ?_⟩
    · simp [Function.comp_def]
    · simpa using ih

end Tree

/-- What a well-formed tree has in it is what is read at its number. -/
theorem Branch.Holds.branch_eq {t : Tree} (h : t.WellFormed) {b : Branch} (hb : b.Holds t) :
    t.branch b.number = b := by
  induction b using Branch.induction with
  | step n e cs ih =>
    rw [holds_node, holdsAll_iff] at hb
    obtain ⟨hentry, hchildren, hcs⟩ := hb
    rw [number_node, Tree.branch_eq h, hentry, hchildren, List.map_map]
    congr 1
    exact (List.map_congr_left fun c hc => ih c hc (hcs c hc)).trans (List.map_id _)

/-! ### The elements of a branch are the root and all below it -/

namespace Tree

open Branch

variable {t : Tree}

/-- The elements of a branch are its root and all that lie below it. -/
theorem mem_numbers_branch (h : t.WellFormed) {n m : NodeId} :
    m ∈ (t.branch n).numbers ↔ m = n ∨ n ∈ t.ancestors m := by
  induction n using h.child_induction with
  | step n ih =>
    rw [branch_eq h, numbers_node, List.mem_cons, mem_numbersAll, mem_ancestors_iff_child h]
    refine or_congr_right ?_
    simp only [List.mem_map, exists_exists_and_eq_and]
    exact exists_congr fun c => and_congr_right fun hc => ih c hc

/-- Two elements that lie around a third lie around one another. -/
lemma comparable_of_mem_ancestors {n a b : NodeId}
    (ha : a ∈ n :: t.ancestors n) (hb : b ∈ n :: t.ancestors n) (hne : a ≠ b) :
    a ∈ t.ancestors b ∨ b ∈ t.ancestors a := by
  let comparable (a b : NodeId) : Prop := a ∈ t.ancestors b ∨ b ∈ t.ancestors a
  have : Std.Symm comparable := ⟨fun _ _ => Or.symm⟩
  have hpairwise : (n :: t.ancestors n).Pairwise comparable :=
    (pairwise_climb (Nat.le_refl t.size) n).imp Or.inr
  exact hpairwise.forall ha hb hne

/-- The branches at two children of an element have no element in common. -/
lemma disjoint_numbers_branch (h : t.WellFormed) {n c d : NodeId} (hc : c ∈ t.children n)
    (hd : d ∈ t.children n) (hne : c ≠ d) :
    List.Disjoint (t.branch c).numbers (t.branch d).numbers := by
  -- Otherwise one child would lie below the other, and so `n` below itself.
  have hbelow {c d : NodeId} (hc : c ∈ t.children n) (hd : d ∈ t.children n) :
      c ∉ t.ancestors d := by
    intro hcd
    obtain ⟨parent, hp, hcp⟩ := (mem_ancestors_iff h).1 hcd
    obtain rfl : n = parent := Option.some.inj ((h.mem_children_iff.1 hd).symm.trans hp)
    refine h.notMem_ancestors n ?_
    exact (mem_ancestors_iff_child h).2 ⟨c, hc, hcp.imp_left Eq.symm⟩
  intro m hmc hmd
  have haround {a : NodeId} (ha : m ∈ (t.branch a).numbers) : a ∈ m :: t.ancestors m :=
    List.mem_cons.2 (((mem_numbers_branch h).1 ha).imp_left Eq.symm)
  rcases comparable_of_mem_ancestors (haround hmc) (haround hmd) hne with hcd | hdc
  · exact hbelow hc hd hcd
  · exact hbelow hd hc hdc

/-- No element occurs twice in a branch. -/
theorem nodup_numbers_branch (h : t.WellFormed) (n : NodeId) : (t.branch n).numbers.Nodup := by
  induction n using h.child_induction with
  | step n ih =>
    rw [branch_eq h, numbers_node, numbersAll_eq_flatMap, List.nodup_cons, List.nodup_flatMap,
      ← numbersAll_eq_flatMap]
    refine ⟨fun hn => ?_, ?_, ?_⟩
    · simp only [mem_numbersAll, List.mem_map, exists_exists_and_eq_and, mem_numbers_branch h] at hn
      exact h.notMem_ancestors n ((mem_ancestors_iff_child h).2 hn)
    · simpa using ih
    · rw [List.pairwise_map]
      exact (h.nodup_children n).imp_of_mem fun hc hd hne => disjoint_numbers_branch h hc hd hne

end Tree

end DoxygenRest
