import DoxygenRest.Proofs.Branch.Basic

/-!
# Places in a branch

A frame is an element with one of its children taken out, and a list of frames, the innermost
first, is a branch with one branch taken out.  `plug` puts a branch into that place.

Each element of a branch has a place in it (`exists_plug_of_mem`), and in a tree that has the branch
in it, the frames tell the relatives of the element: its parent and its siblings.
-/

namespace DoxygenRest

open Branch

/-- An element with one of its children taken out. -/
structure Frame where
  number : NodeId
  own : Entry
  /-- The children before the one taken out, nearest first. -/
  before : List Branch
  /-- The children after the one taken out, in document order. -/
  after : List Branch
  deriving Inhabited

namespace Frame

/-- Put a branch in the place of the child that was taken out. -/
def fill (f : Frame) (b : Branch) : Branch :=
  .node f.number f.own (f.before.reverse ++ b :: f.after)

@[simp] lemma number_fill (f : Frame) (b : Branch) : (f.fill b).number = f.number := rfl

@[simp] lemma own_fill (f : Frame) (b : Branch) : (f.fill b).own = f.own := rfl

@[simp] lemma children_fill (f : Frame) (b : Branch) :
    (f.fill b).children = f.before.reverse ++ b :: f.after := rfl

/-- An element with one of its children taken out and put back is as before. -/
lemma fill_eq_of_children {x y : Branch} {bs as : List Branch} (h : x.children = bs ++ y :: as) :
    (⟨x.number, x.own, bs.reverse, as⟩ : Frame).fill y = x := by
  rw [fill, List.reverse_reverse, ← h, node_eta]

/-- The same for the first child. -/
lemma fill_eq_of_children_cons {x y : Branch} {as : List Branch} (h : x.children = y :: as) :
    (⟨x.number, x.own, [], as⟩ : Frame).fill y = x := by
  rw [fill, List.reverse_nil, List.nil_append, ← h, node_eta]

/-- The elements of a frame. -/
def numbers (f : Frame) : List NodeId :=
  f.number :: (numbersAll f.before ++ numbersAll f.after)

/-- The elements of a filled place are those of what fills it and those around it, each as often. -/
lemma numbers_fill_perm (f : Frame) (b : Branch) :
    (f.fill b).numbers.Perm (b.numbers ++ f.numbers) := by
  rw [fill, numbers_node, numbersAll_append, numbersAll_cons, numbers]
  refine List.Perm.trans (List.Perm.cons _ ?_) List.perm_middle.symm
  rw [← List.append_assoc, ← List.append_assoc]
  exact (((numbersAll_perm_reverse f.before).append_right _).trans
    List.perm_append_comm).append_right _

end Frame

/-- Put a branch into the place that a list of frames, innermost first, leaves. -/
def plug : List Frame → Branch → Branch
  | [], b => b
  | f :: fs, b => plug fs (f.fill b)

@[simp] lemma plug_nil (b : Branch) : plug [] b = b := rfl

@[simp] lemma plug_cons (f : Frame) (fs : List Frame) (b : Branch) :
    plug (f :: fs) b = plug fs (f.fill b) := rfl

/-- The element that follows a place in document order, within the frames around it. -/
def nextNumber : List Frame → Option NodeId
  | [] => none
  | f :: fs => (f.after.head?.map Branch.number).or (nextNumber fs)

/-- What follows a place is not what is put there. -/
lemma exists_mem_of_nextNumber {fs : List Frame} {m : NodeId} (h : nextNumber fs = some m) :
    ∃ f ∈ fs, m ∈ numbersAll f.after := by
  induction fs with
  | nil => cases h
  | cons f fs ih =>
    rw [nextNumber] at h
    cases hafter : f.after with
    | nil =>
      rw [hafter, List.head?_nil, Option.map_none, Option.none_or] at h
      obtain ⟨g, hg, hm⟩ := ih h
      exact ⟨g, List.mem_cons_of_mem _ hg, hm⟩
    | cons b bs =>
      rw [hafter, List.head?_cons, Option.map_some, Option.some_or] at h
      refine ⟨f, List.mem_cons_self .., ?_⟩
      rw [hafter, ← Option.some.inj h]
      exact number_mem_numbersAll (List.mem_cons_self ..)

/-- A place in a place is a place. -/
lemma plug_append (fs gs : List Frame) (b : Branch) : plug (fs ++ gs) b = plug gs (plug fs b) := by
  induction fs generalizing b with
  | nil => rfl
  | cons f fs ih => exact ih _

/-- The root of a branch does not depend on what is put in a place below it. -/
lemma number_plug_congr (fs : List Frame) {b c : Branch} (h : b.number = c.number) :
    (plug fs b).number = (plug fs c).number := by
  induction fs generalizing b c with
  | nil => exact h
  | cons f fs ih => exact ih rfl

/-- The root of a branch with a place below it is one of the frames around the place. -/
lemma exists_number_eq_of_plug_cons (f : Frame) (fs : List Frame) (b : Branch) :
    ∃ g ∈ f :: fs, (plug (f :: fs) b).number = g.number := by
  induction fs generalizing f b with
  | nil => exact ⟨f, List.mem_cons_self .., rfl⟩
  | cons g fs ih =>
    obtain ⟨g', hg', hnumber⟩ := ih g (f.fill b)
    exact ⟨g', List.mem_cons_of_mem _ hg', hnumber⟩

/-- The elements of a branch are those at a place of it and those of the frames around the place. -/
lemma numbers_plug_perm (fs : List Frame) (b : Branch) :
    (plug fs b).numbers.Perm (b.numbers ++ fs.flatMap Frame.numbers) := by
  induction fs generalizing b with
  | nil => simp
  | cons f fs ih =>
    rw [plug_cons, List.flatMap_cons, ← List.append_assoc]
    exact (ih _).trans ((f.numbers_fill_perm b).append_right _)

/-- An element of a branch stands at a place of it or in a frame around the place. -/
lemma mem_numbers_plug {fs : List Frame} {b : Branch} {m : NodeId} :
    m ∈ (plug fs b).numbers ↔ m ∈ b.numbers ∨ ∃ f ∈ fs, m ∈ f.numbers := by
  rw [(numbers_plug_perm fs b).mem_iff, List.mem_append, List.mem_flatMap]

/-- Each element of a branch has a place in it. -/
theorem exists_plug_of_mem {b : Branch} {m : NodeId} (h : m ∈ b.numbers) :
    ∃ fs x, plug fs x = b ∧ x.number = m := by
  induction b using Branch.induction with
  | step n e cs ih =>
    rw [numbers_node, List.mem_cons] at h
    rcases h with rfl | h
    · exact ⟨[], .node m e cs, rfl, rfl⟩
    · obtain ⟨c, hc, hm⟩ := mem_numbersAll.1 h
      obtain ⟨fs, x, rfl, rfl⟩ := ih c hc hm
      obtain ⟨before, after, rfl⟩ := List.append_of_mem hc
      refine ⟨fs ++ [⟨n, e, before.reverse, after⟩], x, ?_, rfl⟩
      rw [plug_append, plug_cons, plug_nil, Frame.fill, List.reverse_reverse]

/-! ### Places in a tree -/

/-- The tree has a frame in it, around an element of the given number. -/
def Frame.Holds (t : Tree) (f : Frame) (n : NodeId) : Prop :=
  t.entry f.number = f.own ∧
    t.children f.number = f.before.reverse.map Branch.number ++ n :: f.after.map Branch.number ∧
    HoldsAll t f.before ∧ HoldsAll t f.after

/-- The tree has a row of frames in it, around an element of the given number. -/
def FramesHold (t : Tree) : List Frame → NodeId → Prop
  | [], _ => True
  | f :: fs, n => f.Holds t n ∧ FramesHold t fs f.number

variable {t u : Tree}

/-- A tree has a filled place in it if it has what fills it and the frame around that. -/
lemma holds_fill {f : Frame} {b : Branch} :
    (f.fill b).Holds t ↔ b.Holds t ∧ f.Holds t b.number := by
  simp only [Frame.fill, Frame.Holds, holds_node, holdsAll_append, holdsAll_cons, holdsAll_reverse,
    List.map_append, List.map_cons]
  tauto

/-- A tree has a branch in it if it has what stands at a place of it and the frames around the
place. -/
lemma holds_plug {fs : List Frame} {b : Branch} :
    (plug fs b).Holds t ↔ b.Holds t ∧ FramesHold t fs b.number := by
  induction fs generalizing b with
  | nil => simp [FramesHold]
  | cons f fs ih =>
    rw [plug_cons, ih, holds_fill, FramesHold, Frame.number_fill, and_assoc]

/-- Frames without the elements that an edit touches stay in the tree. -/
lemma FramesHold.congr {fs : List Frame} {n : NodeId} (h : FramesHold t fs n)
    (hsame : ∀ f ∈ fs, ∀ m ∈ f.numbers, u.entry m = t.entry m ∧ u.children m = t.children m) :
    FramesHold u fs n := by
  induction fs generalizing n with
  | nil => trivial
  | cons f fs ih =>
    obtain ⟨⟨hentry, hchildren, hbefore, hafter⟩, hfs⟩ := h
    have hf := hsame f (List.mem_cons_self ..)
    have hnumber := hf f.number (by simp [Frame.numbers])
    refine ⟨⟨hnumber.1.trans hentry, hnumber.2.trans hchildren, hbefore.congr fun m hm => hf m ?_,
      hafter.congr fun m hm => hf m ?_⟩, ih hfs fun g hg => hsame g (List.mem_cons_of_mem _ hg)⟩
    · simp [Frame.numbers, hm]
    · simp [Frame.numbers, hm]

/-- With the frames around a place, the tree has the branches before and after it. -/
lemma FramesHold.holdsAll {fs : List Frame} {n : NodeId} (h : FramesHold t fs n) :
    ∀ f ∈ fs, HoldsAll t f.before ∧ HoldsAll t f.after := by
  induction fs generalizing n with
  | nil => simp
  | cons g fs ih =>
    intro f hf
    rcases List.mem_cons.1 hf with rfl | hf
    · exact h.1.2.2
    · exact ih h.2 f hf

namespace Frame

variable (h : t.WellFormed) {f : Frame} {n : NodeId} (hf : f.Holds t n)

include h hf

/-- The element of a frame is the parent of what stands in its place. -/
lemma parent?_eq : t.parent? n = some f.number :=
  Tree.parent?_of_children_eq h hf.2.1

/-- The sibling before a place is the nearest child before it. -/
lemma previousSibling?_eq : t.previousSibling? n = f.before.head?.map Branch.number := by
  rw [Tree.previousSibling?_of_children_eq h hf.2.1, List.map_reverse, List.getLast?_reverse,
    List.head?_map]

/-- The sibling after a place is the first child after it. -/
lemma nextSibling?_eq : t.nextSibling? n = f.after.head?.map Branch.number := by
  rw [Tree.nextSibling?_of_children_eq h hf.2.1, List.head?_map]

/-- The siblings after a place are the children after it. -/
lemma followingSiblings_eq : t.followingSiblings n = f.after.map Branch.number :=
  Tree.followingSiblings_of_children_eq h hf.2.1

end Frame

/-! ### What an edit at a place leaves alone -/

/-- The elements of a branch are elements of the tree. -/
lemma Branch.Holds.lt_size (h : t.WellFormed) {b : Branch} (hb : b.Holds t)
    (hn : b.number < t.size) : ∀ m ∈ b.numbers, m < t.size := by
  intro m hm
  rw [← hb.branch_eq h, Tree.mem_numbers_branch h] at hm
  rcases hm with rfl | hm
  · exact hn
  · obtain ⟨parent, hp, -⟩ := (Tree.mem_ancestors_iff h).1 hm
    exact Tree.lt_size_of_parent?_eq_some hp

/-- The elements of a frame are elements of the tree. -/
lemma Frame.Holds.lt_size (h : t.WellFormed) {f : Frame} {n : NodeId} (hf : f.Holds t n) :
    ∀ m ∈ f.numbers, m < t.size := by
  obtain ⟨-, hchildren, hbefore, hafter⟩ := hf
  have hrow {bs : List Branch} (hbs : HoldsAll t bs)
      (hsub : bs.map Branch.number ⊆ t.children f.number) : ∀ m ∈ numbersAll bs, m < t.size := by
    intro m hm
    obtain ⟨b, hb, hm⟩ := mem_numbersAll.1 hm
    have hp := h.mem_children_iff.1 (hsub (List.mem_map_of_mem hb))
    exact (holdsAll_iff.1 hbs b hb).lt_size h (Tree.lt_size_of_parent?_eq_some hp) m hm
  intro m hm
  simp only [Frame.numbers, List.mem_cons, List.mem_append] at hm
  rcases hm with rfl | hm | hm
  · exact Tree.lt_size_of_mem_children (show n ∈ t.children f.number by simp [hchildren])
  · exact hrow hbefore (by simp [hchildren]) m hm
  · exact hrow hafter (by simp [hchildren]) m hm

/-- All elements of the frames around a place are elements of the tree. -/
lemma FramesHold.lt_size (h : t.WellFormed) {fs : List Frame} {n : NodeId}
    (hfs : FramesHold t fs n) : ∀ f ∈ fs, ∀ m ∈ f.numbers, m < t.size := by
  induction fs generalizing n with
  | nil => simp
  | cons g fs ih =>
    intro f hf
    rcases List.mem_cons.1 hf with rfl | hf
    · exact hfs.1.lt_size h
    · exact ih hfs.2 f hf

/-- An edit that touches no element of `t` but the root of a branch and the elements of the frames
around it, leaves the branches below the root and beside the frames alone. -/
theorem holds_beside (h : t.WellFormed) {fs : List Frame} {x : Branch} (hx : x.number < t.size)
    (hholds : (plug fs x).Holds t)
    (hsame : ∀ m < t.size, m ≠ x.number → (∀ f ∈ fs, m ≠ f.number) →
      u.entry m = t.entry m ∧ u.children m = t.children m) :
    HoldsAll u x.children ∧ ∀ f ∈ fs, HoldsAll u f.before ∧ HoldsAll u f.after := by
  -- No element occurs twice, so what stands at the place or beside it is neither the element at the
  -- place nor one of those around it.
  have hnodup := Tree.nodup_numbers_branch h (plug fs x).number
  rw [hholds.branch_eq h, (numbers_plug_perm fs x).nodup_iff, List.nodup_append,
    List.nodup_flatMap] at hnodup
  obtain ⟨hnodupx, ⟨hnodupf, hpairwise⟩, hdisjoint⟩ := hnodup
  obtain ⟨hbranch, hframes⟩ := holds_plug.1 hholds
  have hout {m : NodeId} {f : Frame} (hf : f ∈ fs) (hm : m ∈ f.numbers) : m ∉ x.numbers :=
    fun hmx => hdisjoint m hmx m (List.mem_flatMap.2 ⟨f, hf, hm⟩) rfl
  have hnumber (f : Frame) : f.number ∈ f.numbers := List.mem_cons_self ..
  constructor
  · obtain ⟨n, e, cs⟩ := x
    rw [numbers_node, List.nodup_cons] at hnodupx
    rw [holds_node] at hbranch
    refine hbranch.2.2.congr fun m hm => hsame m ?_ ?_ fun f hf hmf => ?_
    · exact (holds_node.2 hbranch).lt_size h hx m (by simp [hm])
    · rintro rfl
      exact hnodupx.1 hm
    · exact hout hf (hmf ▸ hnumber f) (by simp [hm])
  · intro f hf
    have hbeside : ∀ m ∈ numbersAll f.before ++ numbersAll f.after,
        u.entry m = t.entry m ∧ u.children m = t.children m := by
      intro m hm
      have hmf : m ∈ f.numbers := List.mem_cons_of_mem _ hm
      refine hsame m (hframes.lt_size h f hf m hmf) ?_ fun g hg hmg => ?_
      · rintro rfl
        exact hout hf hmf x.number_mem_numbers
      -- In the same frame, or in another one.
      · by_cases hfg : f = g
        · subst hfg
          exact (List.nodup_cons.1 (hnodupf f hf)).1 (hmg ▸ hm)
        · have : Std.Symm (Function.onFun List.Disjoint Frame.numbers) :=
            ⟨fun _ _ hd => List.disjoint_symm hd⟩
          exact hpairwise.forall hf hg hfg hmf (hmg ▸ hnumber g)
    obtain ⟨hbefore, hafter⟩ := hframes.holdsAll f hf
    exact ⟨hbefore.congr fun m hm => hbeside m (List.mem_append_left _ hm),
      hafter.congr fun m hm => hbeside m (List.mem_append_right _ hm)⟩

end DoxygenRest
