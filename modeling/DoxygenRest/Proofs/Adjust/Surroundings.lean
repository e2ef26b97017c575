import DoxygenRest.Proofs.Adjust.Context

/-!
# What lies around a subtree

Of what lies around the subtree that the adjusting pass walks over, two things matter to the pass:
the context of the subtree's root, and the sibling right before the root, but for its text and tail
(`Surroundings`).

There is one place outside of the subtree where the pass may write all the same: right before the
root, in the tail of that sibling or in the text of the parent (`Tree.writtenBefore`).  Neither this
nor what happens in the subtree changes the surroundings.
-/

namespace DoxygenRest

open Branch

namespace Tree

variable {t u : Tree} {n m : NodeId}

/-! ### Right before a subtree -/

/-- A sibling right before an element is another child of the same parent. -/
lemma parent?_of_previousSibling (h : t.WellFormed) (hm : t.previousSibling? n = some m) :
    m ≠ n ∧ ∃ parent, t.parent? n = some parent ∧ t.parent? m = some parent := by
  cases hp : t.parent? n with
  | none => simp [Tree.previousSibling?, Tree.precedingSiblings, hp] at hm
  | some parent =>
    obtain ⟨before, after, hchildren⟩ := List.append_of_mem (h.mem_children_iff.2 hp)
    rw [Tree.previousSibling?_of_children_eq h hchildren] at hm
    have hbefore : m ∈ before := List.mem_of_getLast? hm
    have hmp : t.parent? m = some parent := by
      rw [← h.mem_children_iff, hchildren]
      exact List.mem_append_left _ hbefore
    refine ⟨?_, parent, rfl, hmp⟩
    rintro rfl
    exact (Tree.notMem_of_children_eq h hchildren).1 hbefore

/-- A sibling right before an element lies outside of the branch at the element. -/
lemma notMem_numbers_of_previousSibling (h : t.WellFormed) (hm : t.previousSibling? n = some m) :
    m ∉ (t.branch n).numbers := by
  obtain ⟨hne, parent, hp, hmp⟩ := parent?_of_previousSibling h hm
  rw [Tree.mem_numbers_branch h, not_or]
  refine ⟨hne, ?_⟩
  rw [Tree.ancestors_eq_cons h hmp, ← Tree.ancestors_eq_cons h hp]
  exact h.notMem_ancestors n

/-- The parent of an element lies outside of the branch at the element. -/
lemma notMem_numbers_of_parent (h : t.WellFormed) (hp : t.parent? n = some m) :
    m ∉ (t.branch n).numbers := by
  rw [Tree.mem_numbers_branch h]
  have hparent : m ∈ t.ancestors n := (Tree.mem_ancestors_iff h).2 ⟨m, hp, Or.inl rfl⟩
  rintro (rfl | hn)
  · exact h.notMem_ancestors m hparent
  · exact h.notMem_ancestors n (Tree.ancestors_subset h hparent hn)

/-- The sibling right before an element is told by the links around it. -/
lemma previousSibling?_congr (hparent : u.parent? n = t.parent? n)
    (hchildren : ∀ p, t.parent? n = some p → u.children p = t.children p) :
    u.previousSibling? n = t.previousSibling? n := by
  rw [previousSibling?, previousSibling?, precedingSiblings, precedingSiblings, indexInParent?,
    indexInParent?, hparent]
  cases hp : t.parent? n with
  | none => rfl
  | some p =>
    simp only [Option.bind_some, hchildren p hp]
    cases List.idxOf? n (t.children p) with
    | none => rfl
    | some index => simp only [hchildren p hp]

/-! ### Writing right before an element -/

/-- The tree with text appended to what stands right before an element: the tail of the sibling
before it, or else the text of its parent. -/
def writtenBefore (t : Tree) (n : NodeId) (more : String) : Tree :=
  match t.previousSibling? n, t.parent? n with
  | some previous, _ => t.extendTail previous more
  | none, some parent => t.extendText parent more
  | none, none => t

/-- Revisions of two elements can be done in either order. -/
lemma revise_comm (t : Tree) (hne : n ≠ m) (f g : Entry → Entry) :
    (t.revise n f).revise m g = (t.revise m g).revise n f := by
  refine ext_of_element (by simp) fun k => element_ext ?_ (by simp) (by simp)
  simp only [entry_revise, size_revise]
  by_cases hkn : k = n
  · subst hkn
    simp [hne]
  · simp [hkn]

/-- Two revisions of an element make one. -/
lemma revise_revise (t : Tree) (n : NodeId) (f g : Entry → Entry) :
    (t.revise n f).revise n g = t.revise n fun e => g (f e) := by
  refine ext_of_element (by simp) fun m => element_ext ?_ (by simp) (by simp)
  simp only [entry_revise, size_revise]
  split <;> rfl

/-- Appending nothing to a text changes nothing. -/
lemma revise_of_eq_self (t : Tree) {f : Entry → Entry} (hf : ∀ e, f e = e) : t.revise n f = t := by
  refine ext_of_element (by simp) fun k => element_ext ?_ (by simp) (by simp)
  rw [entry_revise, hf]
  split <;> rfl

/-- Writing nothing leaves the tree as it is. -/
@[simp] lemma writtenBefore_empty (t : Tree) (n : NodeId) : t.writtenBefore n "" = t := by
  unfold writtenBefore
  split
  · exact t.revise_of_eq_self (f := fun e => { e with tail := appendTo e.tail "" }) fun e => by
      simp
  · exact t.revise_of_eq_self (f := fun e => { e with text := appendTo e.text "" }) fun e => by
      simp
  · rfl

/-- What is written right before an element goes to the text or the tail of one element outside of
the branch at it. -/
lemma writtenBefore_cases (h : t.WellFormed) (n : NodeId) (more : String) :
    t.writtenBefore n more = t ∨ ∃ m g, t.writtenBefore n more = t.revise m g ∧
      m ∉ (t.branch n).numbers ∧ ∀ e, (g e).bare = e.bare := by
  rw [writtenBefore]
  cases hm : t.previousSibling? n with
  | some previous =>
    exact Or.inr ⟨previous, fun e => { e with tail := appendTo e.tail more }, rfl,
      notMem_numbers_of_previousSibling h hm, fun _ => rfl⟩
  | none =>
    cases hp : t.parent? n with
    | none => exact Or.inl rfl
    | some parent =>
      exact Or.inr ⟨parent, fun e => { e with text := appendTo e.text more }, rfl,
        notMem_numbers_of_parent h hp, fun _ => rfl⟩

section Written

variable (h : t.WellFormed) (n : NodeId) (more : String)

include h

/-- Writing in front of an element keeps a tree well-formed. -/
lemma wellFormed_writtenBefore : (t.writtenBefore n more).WellFormed := by
  rcases writtenBefore_cases h n more with heq | ⟨m, g, heq, -, -⟩
  · rwa [heq]
  · rw [heq]
    exact h.revise m g

/-- It adds no element. -/
lemma size_writtenBefore : (t.writtenBefore n more).size = t.size := by
  rcases writtenBefore_cases h n more with heq | ⟨m, g, heq, -, -⟩
  · rw [heq]
  · rw [heq, size_revise]

/-- It leaves every element below its parent. -/
lemma parent?_writtenBefore (k : NodeId) : (t.writtenBefore n more).parent? k = t.parent? k := by
  rcases writtenBefore_cases h n more with heq | ⟨m, g, heq, -, -⟩
  · rw [heq]
  · rw [heq, parent?_revise]

/-- It leaves every element its children. -/
lemma children_writtenBefore (k : NodeId) :
    (t.writtenBefore n more).children k = t.children k := by
  rcases writtenBefore_cases h n more with heq | ⟨m, g, heq, -, -⟩
  · rw [heq]
  · rw [heq, children_revise]

/-- Only texts and tails are written to. -/
lemma bare_entry_writtenBefore (k : NodeId) :
    ((t.writtenBefore n more).entry k).bare = (t.entry k).bare := by
  rcases writtenBefore_cases h n more with heq | ⟨m, g, heq, -, hg⟩
  · rw [heq]
  · rw [heq, entry_revise]
    split
    · exact hg _
    · rfl

/-- What is written right before an element does not go to its branch. -/
lemma entry_writtenBefore_of_mem {k : NodeId} (hk : k ∈ (t.branch n).numbers) :
    (t.writtenBefore n more).entry k = t.entry k := by
  rcases writtenBefore_cases h n more with heq | ⟨m, g, heq, hm, -⟩
  · rw [heq]
  · rw [heq]
    exact entry_revise_of_ne g fun hkm => hm (hkm ▸ hk)

/-- The branch at an element is not changed by what is written right before it. -/
lemma branch_writtenBefore : (t.writtenBefore n more).branch n = t.branch n := by
  have hholds : (t.branch n).Holds (t.writtenBefore n more) := by
    refine (holds_branch h n).congr fun m hm => ?_
    exact ⟨entry_writtenBefore_of_mem h n more hm, children_writtenBefore h n more m⟩
  have hbranch := hholds.branch_eq (wellFormed_writtenBefore h n more)
  rwa [number_branch] at hbranch

/-- It leaves every element its ancestors. -/
lemma ancestors_writtenBefore (k : NodeId) :
    (t.writtenBefore n more).ancestors k = t.ancestors k :=
  ancestors_congr h (wellFormed_writtenBefore h n more) fun _ _ => parent?_writtenBefore h n more _

/-- It leaves every element its previous sibling. -/
lemma previousSibling?_writtenBefore (k : NodeId) :
    (t.writtenBefore n more).previousSibling? k = t.previousSibling? k :=
  previousSibling?_congr (parent?_writtenBefore h n more k) fun p _ =>
    children_writtenBefore h n more p

/-- It does not matter whether an element is revised before or after something is written right
before it. -/
lemma writtenBefore_revise (g : Entry → Entry) :
    (t.revise n g).writtenBefore n more = (t.writtenBefore n more).revise n g := by
  have hprevious : (t.revise n g).previousSibling? n = t.previousSibling? n :=
    previousSibling?_congr (parent?_revise ..) fun p _ => children_revise ..
  have hnumber : n ∈ (t.branch n).numbers := (mem_numbers_branch h).2 (Or.inl rfl)
  rw [writtenBefore, writtenBefore, hprevious, parent?_revise]
  cases hm : t.previousSibling? n with
  | some previous =>
    refine revise_comm t (fun heq => ?_) g fun e => { e with tail := appendTo e.tail more }
    exact notMem_numbers_of_previousSibling h hm (heq ▸ hnumber)
  | none =>
    cases hp : t.parent? n with
    | none => rfl
    | some parent =>
      refine revise_comm t (fun heq => ?_) g fun e => { e with text := appendTo e.text more }
      exact notMem_numbers_of_parent h hp (heq ▸ hnumber)

/-- Writing right before an element and replacing the branch at it can be done in either order. -/
lemma Replaced.writtenBefore {b : Branch} (hu : Replaced t u n b) :
    Replaced (t.writtenBefore n more) (u.writtenBefore n more) n b := by
  have hchildren {p : NodeId} (hp : t.parent? n = some p) : u.element p = t.element p :=
    hu.outside p (h.parent_lt_size hp) (notMem_numbers_of_parent h hp)
  have hprevious : u.previousSibling? n = t.previousSibling? n :=
    previousSibling?_congr hu.parent fun p hp => children_congr (hchildren hp)
  refine ⟨wellFormed_writtenBefore hu.wellFormed n more, ?_, ?_, ?_, fun k hk hkn => ?_, ?_⟩
  · rw [branch_writtenBefore hu.wellFormed, hu.branch]
  · rw [size_writtenBefore h, size_writtenBefore hu.wellFormed]
    exact hu.size_le
  · rw [parent?_writtenBefore h, parent?_writtenBefore hu.wellFormed, hu.parent]
  · rw [size_writtenBefore h] at hk
    rw [branch_writtenBefore h] at hkn
    have helement := hu.outside k hk hkn
    -- Whichever element takes the text, it lies outside of the branch and is the same in both
    -- trees.
    have hrevise (m : NodeId) (hm : m < t.size) (g : Entry → Entry) :
        (u.revise m g).element k = (t.revise m g).element k := by
      refine element_ext ?_ ?_ ?_
      · rw [entry_revise, entry_revise, entry_congr helement]
        simp only [hm, Nat.lt_of_lt_of_le hm hu.size_le]
      · rw [parent?_revise, parent?_revise, parent?_congr helement]
      · rw [children_revise, children_revise, children_congr helement]
    rw [Tree.writtenBefore, Tree.writtenBefore, hprevious, hu.parent]
    cases hm : t.previousSibling? n with
    | some previous =>
      obtain ⟨-, parent, -, hmp⟩ := parent?_of_previousSibling h hm
      exact hrevise previous (lt_size_of_parent?_eq_some hmp) fun e =>
        { e with tail := appendTo e.tail more }
    | none =>
      cases hp : t.parent? n with
      | none => exact helement
      | some parent =>
        exact hrevise parent (h.parent_lt_size hp) fun e =>
          { e with text := appendTo e.text more }
  · rw [branch_writtenBefore h, size_writtenBefore h]
    exact hu.numbers

end Written

end Tree

namespace Adjust

variable {t u : Tree} {n : NodeId}

/-! ### Surroundings -/

/-- What handling the elements of a walk depends on besides the walk. -/
structure Surroundings where
  /-- The context of the root of the walk. -/
  outer : Context
  /-- The own data of the sibling right before the root, but for its text and tail. -/
  previous? : Option Entry

/-- What lies around the subtree at an element. -/
def surroundings (t : Tree) (n : NodeId) : Surroundings :=
  ⟨context t n, (t.previousSibling? n).map fun m => (t.entry m).bare⟩

/-- Texts and tails of the elements around an element do not matter to its context. -/
lemma context_congr (hancestors : u.ancestors n = t.ancestors n)
    (hentry : ∀ a ∈ t.ancestors n, (u.entry a).bare = (t.entry a).bare) :
    context u n = context t n := by
  rw [context, context, hancestors]
  generalize t.ancestors n = as at hentry
  induction as with
  | nil => rfl
  | cons a as ih =>
    rw [List.forall_mem_cons] at hentry
    rw [List.foldr_cons, List.foldr_cons, ih hentry.2]
    have htag : (u.entry a).bare.tag = (t.entry a).bare.tag := by rw [hentry.1]
    have hnamespaces : (u.entry a).bare.namespaces = (t.entry a).bare.namespaces := by
      rw [hentry.1]
    exact Context.inside_congr _ htag hnamespaces

/-- What is written right before an element does not change its surroundings. -/
lemma surroundings_writtenBefore (h : t.WellFormed) (n : NodeId) (more : String) :
    surroundings (t.writtenBefore n more) n = surroundings t n := by
  rw [surroundings, surroundings, Tree.previousSibling?_writtenBefore h,
    context_congr (Tree.ancestors_writtenBefore h n more n) fun a _ =>
      Tree.bare_entry_writtenBefore h n more a]
  simp only [Tree.bare_entry_writtenBefore h]

/-- What happens in the branch at an element does not change the element's surroundings. -/
lemma surroundings_replaced (h : t.WellFormed) {b : Branch} (hu : Tree.Replaced t u n b) :
    surroundings u n = surroundings t n := by
  have hprevious : u.previousSibling? n = t.previousSibling? n := by
    refine Tree.previousSibling?_congr hu.parent fun p hp => Tree.children_congr ?_
    exact hu.outside p (h.parent_lt_size hp) (Tree.notMem_numbers_of_parent h hp)
  rw [surroundings, surroundings, context_replaced h hu, hprevious]
  cases hm : t.previousSibling? n with
  | none => rfl
  | some m =>
    obtain ⟨-, parent, -, hmp⟩ := Tree.parent?_of_previousSibling h hm
    have helement := hu.outside m (Tree.lt_size_of_parent?_eq_some hmp)
      (Tree.notMem_numbers_of_previousSibling h hm)
    rw [Option.map_some, Option.map_some, Tree.entry_congr helement]

end Adjust

end DoxygenRest
