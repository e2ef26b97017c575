import DoxygenRest.Proofs.Branch.Text
import DoxygenRest.Proofs.Cursor.Division
import DoxygenRest.Proofs.Cursor.Junction
import DoxygenRest.Proofs.Tree.Specimen

/-!
# Joining what was divided

A division of an element puts a copy behind it, and joining the copy into the element undoes the
division (`Cursor.restored_of_merge`).  What the two leave of a tree is the tree as it was, but for the
difference between an empty tail and none (`Tree.Restored`): a tail that is handed to the copy, or becomes
its text, comes back, unless it is empty.

The place of the divided element holds, in the end, the element with at most two new tails, its own and
that of the child behind which it was divided.  Giving these two elements their tails has the same effect
on the tree, so nothing else can have changed (`Tree.restored_of_replaced`).
-/

namespace DoxygenRest

open Branch

/-! ### Trees as they were -/

/-- Rows of fragments of the same elements are the same if the elements' tails are, and what is inside of
them. -/
lemma Fragment.sameList_map {f g : NodeId → Fragment} {row : List NodeId}
    (h : ∀ c ∈ row, (f c).tail = (g c).tail ∧ (f c).same (g c) = true) :
    sameList (row.map f) (row.map g) = true := by
  induction row with
  | nil => rw [List.map_nil, List.map_nil, sameList]
  | cons c row ih =>
    obtain ⟨⟨htail, hsame⟩, hrow⟩ := List.forall_mem_cons.1 h
    rw [List.map_cons, List.map_cons, sameList, htail, hsame, ih hrow]
    simp

namespace Tree

variable {t u v : Tree} {r n : NodeId}

/-- All elements of `t` are in `u` with the parents and the children they have in `t` and with the same
own data, where an empty tail and none are alike. -/
structure Restored (t u : Tree) : Prop where
  parent? : ∀ m < t.size, u.parent? m = t.parent? m
  children : ∀ m < t.size, u.children m = t.children m
  own : ∀ m < t.size, { u.entry m with tail := none } = { t.entry m with tail := none }
  tail : ∀ m < t.size, u.tail m = t.tail m

/-- A tail may be written as absent or as empty. -/
lemma restored_setTail (t : Tree) (n : NodeId) {tail : Option String}
    (htail : tail.getD "" = t.tail n) : Restored t (t.setTail n tail) := by
  have hentry (m : NodeId) : (t.setTail n tail).entry m =
      if m = n ∧ n < t.size then { t.entry m with tail } else t.entry m := by
    rw [setTail_eq_revise, entry_revise]
  refine ⟨fun m _ => ?_, fun m _ => ?_, fun m _ => ?_, fun m _ => ?_⟩
  · rw [setTail_eq_revise, parent?_revise]
  · rw [setTail_eq_revise, children_revise]
  · rw [hentry]
    split <;> rfl
  · have htail' : (t.setTail n tail).tail m = ((t.setTail n tail).entry m).tail.getD "" := rfl
    rw [htail', hentry]
    split
    · next hm => rw [hm.1, htail]
    · rfl

namespace Restored

/-- What was restored twice is restored. -/
lemma trans (hu : Restored t u) (hv : Restored u v) (hsize : t.size ≤ u.size) : Restored t v where
  parent? m hm := (hv.parent? m (Nat.lt_of_lt_of_le hm hsize)).trans (hu.parent? m hm)
  children m hm := (hv.children m (Nat.lt_of_lt_of_le hm hsize)).trans (hu.children m hm)
  own m hm := (hv.own m (Nat.lt_of_lt_of_le hm hsize)).trans (hu.own m hm)
  tail m hm := (hv.tail m (Nat.lt_of_lt_of_le hm hsize)).trans (hu.tail m hm)

/-- It does not matter what becomes of other elements than those of the tree. -/
lemma of_agree (hv : Restored t v) (hagree : ∀ m < t.size, u.element m = v.element m) :
    Restored t u where
  parent? m hm := (parent?_congr (hagree m hm)).trans (hv.parent? m hm)
  children m hm := (children_congr (hagree m hm)).trans (hv.children m hm)
  own m hm := by
    rw [entry_congr (hagree m hm)]
    exact hv.own m hm
  tail m hm := by
    have htail : u.tail m = v.tail m := congrArg (fun e => e.tail.getD "") (hagree m hm)
    rw [htail, hv.tail m hm]

/-- In a tree that is as it was, all elements mean the same. -/
theorem semanticallyEqual (h : t.WellFormed) (hwf : u.WellFormed) (hu : Restored t u)
    (hn : n < t.size) : u.semanticallyEqual n t n = true := by
  induction n using h.child_induction with
  | step n ih =>
    have hchildren : Fragment.sameList ((t.children n).map u.fragment)
        ((t.children n).map t.fragment) = true := by
      refine Fragment.sameList_map fun c hc => ?_
      have hlt := lt_size_of_parent?_eq_some (h.mem_children_iff.1 hc)
      refine ⟨?_, ih c hc hlt⟩
      rw [← fragment_branch, ← fragment_branch, Branch.tail_fragment, Branch.tail_fragment,
        Branch.tail, Branch.tail, own_branch hwf, own_branch h]
      exact hu.tail c hlt
    have hown := hu.own n hn
    simp only [Entry.mk.injEq, and_true] at hown
    obtain ⟨htag, hattributes, -, htext⟩ := hown
    rw [Tree.semanticallyEqual, ← fragment_branch, ← fragment_branch, branch_eq hwf, branch_eq h,
      Branch.fragment_node, Branch.fragment_node, hu.children n hn, List.map_map, List.map_map,
      Fragment.same, htag, hattributes, htext]
    simpa [Function.comp_def, fragment_branch] using hchildren

end Restored

/-- Where an element and its parent were given tails that are like their own, the tree is as it was. -/
theorem restored_of_replaced (h : t.WellFormed) {x : Branch} {p g : Frame} {fs : List Frame}
    (hplace : t.branch r = plug (p :: g :: fs) x) {tail tail' : Option String}
    (htail : tail.getD "" = x.tail) (htail' : tail'.getD "" = p.own.tail.getD "")
    (hu : Replaced t u r (plug (g :: fs) ((p.fill (x.withTail tail)).withTail tail'))) :
    Restored t u := by
  have hrefl := Replaced.refl h r
  rw [hplace] at hrefl
  have hx := (holds_plug.1 hrefl.holds).1
  have hp := (holds_plug.1 hrefl.holds).2.1
  have hinner := hrefl.revise hrefl.lt_size_place.1 fun e => { e with tail }
  rw [plug_cons] at hinner
  have hw := hinner.revise hinner.lt_size_place.1 fun e => { e with tail := tail' }
  have hchild : Restored t (t.setTail x.number tail) := by
    refine restored_setTail t x.number (htail.trans ?_)
    rw [Branch.tail, Tree.tail, hx.tail?_eq]
  have hparent : Restored (t.setTail x.number tail)
      ((t.setTail x.number tail).setTail p.number tail') := by
    refine restored_setTail _ p.number (htail'.trans ?_)
    rw [hchild.tail _ hrefl.lt_size_place.2, ← hp.1]
    rfl
  refine (hchild.trans hparent (by simp [setTail_eq_revise])).of_agree fun m hm => ?_
  refine hu.agree hw hm fun hin => ?_
  rw [hplace, plug_cons, mem_numbers_plug, Frame.mem_numbers_fill] at hin
  rw [mem_numbers_plug, numbers_withTail, Frame.mem_numbers_fill, numbers_withTail]
  exact hin

end Tree

/-! ### Joining a divided element -/

namespace Frame

variable (p : Frame) (number : NodeId) (x : Branch)

/-- The back of an element is joined into its front. -/
lemma front_absorb_back (more : List Branch) (text : Option String) (children : List Branch) :
    (p.front more).absorb (p.back number text children) =
      .node p.number { ((p.front more).appendContent (text.getD "")).own with
          tail := handedTail p.own.tail }
        (((p.front more).appendContent (text.getD "")).children ++ children) := by
  have hself : (p.front more).withTail none = p.front more := rfl
  have htail : (p.front more).tail = "" := rfl
  rw [absorb, hself, htail, appendContent_empty]
  rfl

/-- Joining the two parts of an element that was divided in front of a child gives the element. -/
lemma absorb_splitBefore :
    (p.front []).absorb (p.back number none (x :: p.after)) =
      (p.fill x).withTail (handedTail p.own.tail) := by
  rw [front_absorb_back, Option.getD_none, appendContent_empty]
  simp [front, fill, withTail, revise]

/-- Joining the two parts of an element that was divided behind a child gives the element, and the child
its tail. -/
lemma absorb_splitAfterTail :
    (p.front [x.withTail none]).absorb (p.back number x.own.tail p.after) =
      (p.fill (x.withTail (Tree.appendTo none x.tail))).withTail (handedTail p.own.tail) := by
  have hchildren : (p.front [x.withTail none]).children = p.before.reverse ++ [x.withTail none] := rfl
  rw [front_absorb_back, appendContent_of_append hchildren]
  simp [front, fill, withTail, revise, extendTail, Branch.tail]

end Frame

namespace Cursor

variable {c : Cursor} {n? : Option NodeId} {g : Frame} {fs : List Frame} {b b' : Branch}

/-- The second of two neighbors is joined into the first. -/
lemma merge_pair_ok (h : c.tree.WellFormed) (hplace : c.branch = plug fs (g.fillRow [b, b']))
    (hchosen : n?.or c.current = some b'.number) :
    ∃ u current, mergeIntoPrevious n? c = .ok () ⟨u, c.root, current⟩ ∧
      Tree.Replaced c.tree u c.root (plug fs (g.fill (b.absorb b'))) := by
  rw [Frame.fillRow_pair_eq_fill_second, ← plug_cons] at hplace
  obtain ⟨u, hrun, hu⟩ := mergeIntoPrevious_ok h hplace rfl hchosen
  have hrow : Frame.fillRow { g with before := b.absorb b' :: g.before } [] =
      g.fill (b.absorb b') := by
    simp [Frame.fillRow, Frame.fill]
  exact ⟨u, _, hrun, hrow ▸ hu⟩

/-- Neighbors are siblings. -/
lemma nextSibling?_of_pair (h : c.tree.WellFormed) (hplace : c.branch = plug fs (g.fillRow [b, b'])) :
    c.tree.nextSibling? b.number = some b'.number := by
  rw [Frame.fillRow_pair_eq_fill_second, Frame.fill_shift, ← plug_cons] at hplace
  exact Frame.nextSibling?_eq h (holds_plug.1 (holds_of_place h hplace)).2.1

/-- Under `c'` there is a new element right behind `parent`, and the same cursor at any position joins it
into `parent` and gives back the tree of `c`: all elements are as they were, but for an empty tail in place
of none or the other way round, and the subtree means the same. -/
def RestoredByMerge (c c' : Cursor) (parent : NodeId) : Prop :=
  c'.tree.nextSibling? parent = some c.tree.size ∧
    ∀ current n? : Option NodeId, n?.or current = some c.tree.size →
      ∃ c'', mergeIntoPrevious n? { c' with current } = .ok () c'' ∧ c''.root = c.root ∧
        Tree.Restored c.tree c''.tree ∧ c''.tree.semanticallyEqual c.root c.tree c.root = true

/-- A division whose two parts make up the element again is undone by joining them. -/
lemma restoredByMerge_of_pair {p : Frame} {x : Branch} {u : Tree} {tail : Option String}
    (h : c.tree.WellFormed) (hroot : c.root < c.tree.size) (hplace : c.branch = plug (p :: g :: fs) x)
    (hu : Tree.Replaced c.tree u c.root (plug fs (g.fillRow [b, b'])))
    (hb : b.number = p.number) (hb' : b'.number = c.tree.size) (htail : tail.getD "" = x.tail)
    (hjoined : b.absorb b' = (p.fill (x.withTail tail)).withTail (handedTail p.own.tail)) :
    RestoredByMerge c { c with tree := u } p.number := by
  constructor
  · rw [← hb, ← hb']
    exact nextSibling?_of_pair (c := { c with tree := u }) hu.wellFormed hu.branch
  · intro current n? hchosen
    rw [← hb'] at hchosen
    obtain ⟨v, current', hrun, hv⟩ :=
      merge_pair_ok (c := { c with tree := u, current }) hu.wellFormed hu.branch hchosen
    have hrestored : Tree.Restored c.tree v := by
      refine Tree.restored_of_replaced h hplace htail (getD_handedTail _) ?_
      rw [plug_cons, ← hjoined]
      exact hu.trans hv
    exact ⟨_, hrun, rfl, hrestored, hrestored.semanticallyEqual h hv.wellFormed hroot⟩

/-- Joining undoes dividing.  If the parent of an element lies below the root of the cursor's subtree, it
can be divided in front of the element and behind it, and joining the new sibling into it gives back what
was there before. -/
theorem restored_of_merge (c : Cursor) (n? : Option NodeId) (n parent : NodeId)
    (h : c.tree.WellFormed) (hchosen : n?.or c.current = some n)
    (hparent : c.tree.parent? n = some parent) (hbelow : c.root ∈ c.tree.ancestors parent) :
    (∃ c', splitBefore n? c = .ok () c' ∧ RestoredByMerge c c' parent) ∧
      ∃ c', splitAfterTail n? c = .ok () c' ∧ RestoredByMerge c c' parent := by
  have hroot : c.root ∈ c.tree.ancestors n := by
    rw [Tree.ancestors_eq_cons h hparent]
    exact List.mem_cons_of_mem _ hbelow
  have htarget : c.IsTarget n? n := by
    refine ⟨hchosen, (contains_iff h).2 ?_⟩
    exact (Tree.mem_numbers_branch h).2 (Or.inr hroot)
  have hne {m : NodeId} (hm : c.root ∈ c.tree.ancestors m) : m ≠ c.root := by
    rintro rfl
    exact h.notMem_ancestors _ hm
  obtain ⟨p, g, fs, x, hplace, rfl, rfl⟩ :=
    htarget.exists_place_two h (hne hroot) hparent (hne hbelow)
  obtain ⟨u, hbefore, hu⟩ := splitBefore_ok h hplace hchosen
  obtain ⟨v, hafter, hv⟩ := splitAfterTail_ok h hplace hchosen
  have hlt := Tree.lt_size_of_mem_ancestors h hbelow
  constructor
  · refine ⟨_, hbefore, restoredByMerge_of_pair h hlt hplace hu rfl rfl rfl ?_⟩
    exact (p.absorb_splitBefore _ x).trans (by cases x; rfl)
  · refine ⟨_, hafter, restoredByMerge_of_pair h hlt hplace hv rfl rfl ?_
      (p.absorb_splitAfterTail _ x)⟩
    rw [getD_appendTo, Option.getD_none, String.empty_append]

/-- In `specimen`, the first bold of the paragraph is divided at the emphasis and made whole again. -/
theorem restored_of_merge_specimen :
    Tree.specimen.WellFormed ∧ Tree.specimen.parent? 3 = some 2 ∧ 0 ∈ Tree.specimen.ancestors 2 ∧
      (∃ c', splitBefore (some 3) (start Tree.specimen 0) = .ok () c' ∧
        RestoredByMerge (start Tree.specimen 0) c' 2) ∧
      ∃ c', splitAfterTail (some 3) (start Tree.specimen 0) = .ok () c' ∧
        RestoredByMerge (start Tree.specimen 0) c' 2 := by
  have hparent : Tree.specimen.parent? 3 = some 2 := rfl
  have hbelow : 0 ∈ Tree.specimen.ancestors 2 := by decide
  exact ⟨Tree.wellFormed_specimen, hparent, hbelow,
    restored_of_merge (start Tree.specimen 0) (some 3) 3 2 Tree.wellFormed_specimen rfl hparent hbelow⟩

end Cursor

end DoxygenRest
