import DoxygenRest.Proofs.Adjust.Trimming
import DoxygenRest.Proofs.Cursor.Division
import DoxygenRest.Proofs.Cursor.Junction

/-!
# The pass makes the moves of a walk

A cursor of the pass tracks an outcome if its tree has the outcome's branch at the cursor's root and
the cursor stands on the outcome's current element.  When the pass handles an element, the cursor
comes to track the outcome that `move` gives, or the pass fails the way `move` says; and nothing
outside of the subtree changes but for what is written right before its root (`Tracks.performs`).

So whenever the pass handles an element without a failure, it takes a `Step`
(`exists_step_of_handle`), and below the root of the walk the only failure is that the document is
refused for an element that has no place where it stands (`Tracks.handle_below`).
-/

namespace DoxygenRest.Adjust

open Branch

/-! ### Where a paragraph is divided -/

section Division

variable {t : Tree} {n : NodeId} {isLine : Bool} {bs : List Branch} {x : Branch}

/-- A paragraph begins in the tree the way its branch does. -/
lemma beginsInline_eq (hx : x.Holds t) : beginsInline t x.number = beginsLine x := by
  rw [beginsInline, beginsLine, Tree.hasText, hx.text_eq, Tree.firstChild?, hx.children_eq]
  cases hchildren : x.children with
  | nil => rfl
  | cons y ys =>
    have hy := hx.holdsAll_children
    rw [hchildren, holdsAll_cons] at hy
    simp only [List.map_cons, List.head?_cons, Option.all_some, Schema.isStructural,
      hy.1.classify_eq]
    rfl

/-- A change of content is found in the tree where it is in the row of branches. -/
lemma division?_eq_cutBehind? (hbs : HoldsAll t bs) {e : Entry} (htag : t.tag n = e.tag)
    (before : List Branch) :
    division? t n isLine (bs.map number) =
      (cutBehind? isLine n e before bs).map (Option.map Cut.division) := by
  induction bs generalizing before with
  | nil => rfl
  | cons b bs ih =>
    rw [holdsAll_cons] at hbs
    rw [List.map_cons]
    unfold division? cutBehind?
    rw [hbs.1.classify_eq, Tree.hasTail, hbs.1.tail_eq, hbs.1.tag_eq, htag, ih hbs.2 (b :: before)]
    cases b.markup <;> cases isLine <;> by_cases htail : b.tail = "" <;>
      simp [htail, Except.map, Cut.division]

/-- A paragraph is divided in the tree where its branch is. -/
theorem division?_eq_cut? (hx : x.Holds t) :
    division? t x.number (beginsInline t x.number) (t.children x.number) =
      (cut? x).map (Option.map Cut.division) := by
  rw [beginsInline_eq hx, hx.children_eq,
    division?_eq_cutBehind? hx.holdsAll_children hx.tag_eq [], cut?]

/-- A paragraph without a change of content is a line of inline markup or a row of blocks. -/
theorem division?_eq_none_iff (hx : x.Holds t) :
    division? t x.number (beginsInline t x.number) (t.children x.number) = .ok none ↔
      IsUndivided x.text x.children := by
  rw [division?_eq_cut? hx, ← cut?_eq_none_iff]
  rcases cut? x with failure | (_ | cut) <;> simp [Except.map]

end Division

/-! ### Tracking an outcome -/

/-- The cursor stands where the outcome of a step says, in a tree that has the outcome's branch. -/
structure Tracks (root : NodeId) (outer : Context) (c : Cursor) (o : Outcome) : Prop where
  root_eq : c.root = root
  wellFormed : c.tree.WellFormed
  whole : c.branch = o.whole
  standing : c.current = o.number?
  around : context c.tree c.root = outer

variable {root : NodeId} {outer : Context} {c c' : Cursor}
variable {x : Branch} {f : Frame} {fs : List Frame}

/-- An edit of the branch at the cursor's root leads to an outcome with the new branch. -/
lemma Tracks.of_replaced {o o' : Outcome} (hc : Tracks root outer c o) {u : Tree} {b : Branch}
    {current : Option NodeId} (hu : Tree.Replaced c.tree u c.root b) (hwhole : b = o'.whole)
    (hstanding : current = o'.number?) : Tracks root outer { c with tree := u, current } o' where
  root_eq := hc.root_eq
  wellFormed := hu.wellFormed
  whole := hu.branch.trans hwhole
  standing := hstanding
  around := (context_replaced hc.wellFormed hu).trans hc.around

/-- What the pass does by a move.  With an outcome, the cursor comes to track it, and the branch at
its root has taken the place of the one in the tree `base`; else the pass fails, with `base` for a
tree. -/
def Performs (root : NodeId) (outer : Context) (c : Cursor) (base : Tree) :
    Except PassError Outcome → EStateM.Result PassError Cursor Unit → Prop
  | .ok o, result =>
    ∃ c', result = .ok () c' ∧ Tracks root outer c' o ∧ Tree.Replaced base c'.tree c.root o.whole
  | .error failure, result => result = .error failure { c with tree := base }

/-- An edit of the branch at the cursor's root performs a move to an outcome with the new branch. -/
lemma Tracks.performs_of_replaced {o o' : Outcome} (hc : Tracks root outer c o) {u : Tree}
    {b : Branch} {current : Option NodeId} (hu : Tree.Replaced c.tree u c.root b)
    (hwhole : b = o'.whole) (hstanding : current = o'.number?) :
    Performs root outer c c.tree (.ok o') (.ok () { c with tree := u, current }) :=
  ⟨_, rfl, hc.of_replaced hu hwhole hstanding, hwhole ▸ hu⟩

section Standing

variable (hc : Tracks root outer c (.standing ⟨x, fs⟩))

include hc

/-- The branch at the root is the location the cursor is at. -/
lemma Tracks.place : c.branch = plug fs x := hc.whole

/-- The tree holds the location. -/
lemma Tracks.holds : (plug fs x).Holds c.tree :=
  Cursor.holds_of_place hc.wellFormed hc.place

/-- The tree holds what the cursor stands on. -/
lemma Tracks.holds_focus : x.Holds c.tree :=
  (holds_plug.1 hc.holds).1

/-- An operation without a target works on what the cursor stands on. -/
lemma Tracks.chosen : (none : Option NodeId).or c.current = some x.number := by
  rw [Option.none_or, hc.standing, Outcome.number?]

/-- The current element of the cursor is the one in focus. -/
lemma Tracks.current_ok : Adjust.current c = .ok x.number c :=
  Adjust.current_ok hc.standing

/-- The context of the current element is read off the frames around it. -/
lemma Tracks.context_focus : context c.tree x.number = contextAt outer fs := by
  have hroot : (plug fs x).number = c.root := by
    rw [← hc.place, Cursor.branch, Tree.number_branch]
  rw [context_eq_contextAt hc.wellFormed hc.holds, hroot, hc.around]

/-- The branch at the root may be replaced by itself. -/
lemma Tracks.replaced_refl : Tree.Replaced c.tree c.tree c.root (plug fs x) := by
  have hrefl := Tree.Replaced.refl hc.wellFormed c.root
  rwa [← Cursor.branch, hc.place] at hrefl

/-! ### Movements -/

/-- Walking on goes to the first child or behind the element. -/
lemma Tracks.advanceInto : Tracks root outer c.advanceInto (enter x fs) := by
  rw [Cursor.advanceInto_eq hc.wellFormed hc.place hc.standing]
  exact ⟨hc.root_eq, hc.wellFormed, hc.place.trans (whole_enter x fs).symm, (number?_enter x fs).symm,
    hc.around⟩

/-- Walking on is a move. -/
lemma Tracks.performs_advance :
    Performs root outer c c.tree (.ok (enter x fs)) (.ok () c.advanceInto) := by
  refine ⟨_, rfl, hc.advanceInto, ?_⟩
  rw [Cursor.tree_advanceInto, whole_enter]
  exact hc.replaced_refl

/-! ### Flattening -/

omit hc in
/-- What is no inline markup is found in the tree where it is in the row of branches. -/
lemma find?_isInline {t : Tree} {bs : List Branch} (hbs : HoldsAll t bs) :
    (bs.map number).find? (fun child => !Schema.isInline t child) =
      (bs.find? fun b => b.markup != .inline).map number := by
  induction bs with
  | nil => rfl
  | cons b bs ih =>
    rw [holdsAll_cons] at hbs
    rw [List.map_cons, List.find?_cons, List.find?_cons, hbs.1.isInline_eq, ih hbs.2]
    cases b.markup <;> rfl

/-- The content of a link becomes text, if all of it is inline markup. -/
lemma Tracks.flattenLink (hchildren : x.children ≠ []) :
    Performs root outer c c.tree (moveFlatten x fs) (flattenLink c) := by
  have hholds := hc.holds_focus
  obtain ⟨u, hdetach, hu⟩ := Tree.detachAll_ok hc.wellFormed hholds
  have hlt : x.number < c.tree.size := by
    obtain ⟨y, hy⟩ := List.exists_mem_of_ne_nil _ hchildren
    have hmem : y.number ∈ c.tree.children x.number := by
      rw [hholds.children_eq]
      exact List.mem_map_of_mem hy
    exact Tree.lt_size_of_mem_children hmem
  rw [Adjust.flattenLink, Program.bind_ok hc.current_ok, Program.get_bind_apply, moveFlatten]
  simp only [hholds.children_eq, hholds.stringValue_eq hc.wellFormed,
    find?_isInline hholds.holdsAll_children]
  cases hblock : x.children.find? fun b => b.markup != .inline with
  | some block =>
    have hb := holdsAll_iff.1 hholds.holdsAll_children block (List.mem_of_find?_eq_some hblock)
    simp only [Option.map_some, hb.tag_eq, hholds.tag_eq]
    rfl
  | none =>
    simp only [Option.map_none, Program.bind_ok (Cursor.onTree_ok hdetach)]
    have hu' := hc.replaced_refl.step hu
    have hv := hu'.revise (Nat.lt_of_lt_of_le hlt hu'.size_le) fun e =>
      { e with text := some x.stringValue }
    exact hc.performs_of_replaced hv rfl hc.standing

end Standing

section Below

variable (hc : Tracks root outer c (.standing ⟨x, f :: fs⟩))

include hc

/-- The previous sibling of the current element is the one before the hole. -/
lemma Tracks.previous :
    (c.tree.previousSibling? x.number).map c.tree.entry = previousOwn? (f :: fs) := by
  have hf := (holds_plug.1 hc.holds).2.1
  rw [f.previousSibling?_eq hc.wellFormed hf, previousOwn?]
  cases hbefore : f.before with
  | nil => rfl
  | cons prev rest =>
    have hprev := hf.2.2.1
    rw [hbefore, holdsAll_cons] at hprev
    simp [hprev.1.entry_eq]

/-- Handling an element below the root is giving it the treatment of its location. -/
lemma Tracks.handle_eq_run :
    Editor.handle editor c = (treatmentAt outer ⟨x, f :: fs⟩).run c := by
  rw [Adjust.handle_eq_run hc.holds_focus hc.standing hc.wellFormed, hc.context_focus, hc.previous,
    treatmentAt]

/-! ### Treatments that cannot fail -/

/-- Text takes the place of the element. -/
lemma Tracks.replace (text : String) :
    Performs root outer c c.tree (moveReplace x text (f :: fs)) (textualize x.number text c) := by
  obtain ⟨u, hrun, hu⟩ := Cursor.extendBefore_ok text hc.replaced_refl
  have hplace : ({ c with tree := u } : Cursor).branch = plug (f.extendBefore text :: fs) x :=
    hu.branch
  have hchosen : (some x.number).or c.current = some x.number := rfl
  obtain ⟨v, hrun', hv⟩ := Cursor.remove_ok hu.wellFormed hplace hchosen
  rw [textualize, Program.bind_ok hrun, hrun']
  refine hc.performs_of_replaced (hu.trans hv) (whole_skip _ fs).symm ?_
  rw [hc.standing, number?_skip]
  simp [Outcome.number?, number_mem_numbers, nextNumber]

/-- White space leaves the text of the element. -/
lemma Tracks.trim {text : String} (htext : x.own.text = some text) :
    Performs root outer c c.tree (moveTrim x (f :: fs)) (trimCurrent c) := by
  have htree : c.tree.text? x.number = some text := by
    rw [hc.holds_focus.text?_eq, htext]
  obtain ⟨u, hrun, hu⟩ := Cursor.extendBefore_ok (Text.splitBlanks text).1 hc.replaced_refl
  obtain rfl : c.tree.writtenBefore x.number (Text.splitBlanks text).1 = u := by
    cases hrun
    rfl
  have hv := hu.revise hu.lt_size_place.1 (trimEntry text)
  rw [trimCurrent_ok hc.wellFormed hc.standing htree, moveTrim, htext]
  exact hc.performs_of_replaced hv rfl hc.standing

/-- The element is removed; if that leaves its parent empty, the parent comes next. -/
lemma Tracks.removeCurrent :
    Performs root outer c c.tree (moveRemove x (f :: fs)) (removeCurrent c) := by
  obtain ⟨u, hremove, hu⟩ := Cursor.remove_ok hc.wellFormed hc.place hc.chosen
  have hrun : Cursor.remove none c =
      .ok () { c with tree := u, current := nextNumber (f :: fs) } := by
    rw [hremove, hc.standing]
    simp [Outcome.number?, number_mem_numbers]
  have hplace : ({ c with tree := u, current := nextNumber (f :: fs) } : Cursor).branch =
      plug fs ((f.extendBefore x.tail).fillRow []) := hu.branch
  have hcontains := Cursor.contains_of_place hu.wellFormed hplace
  have hempty := (holds_plug.1 hu.holds).1.isEmpty_eq
  rw [Frame.number_fillRow, Frame.number_extendBefore] at hcontains hempty
  -- The parent is removed next only if it is not the root, and the root is the last frame.
  have hroot : f.number ≠ c.root ↔ fs ≠ [] := by
    cases fs with
    | nil =>
      have hnumber := congrArg Branch.number hc.place
      rw [Cursor.branch, Tree.number_branch, plug_cons, plug_nil, Frame.number_fill] at hnumber
      simp [hnumber]
    | cons g fs =>
      have hplace' : c.branch = plug (g :: fs) (f.fill x) := hc.place
      simpa using Cursor.ne_root_of_place hc.wellFormed hplace'
  rw [Adjust.removeCurrent, Program.bind_ok hc.current_ok, Program.get_bind_apply,
    Program.bind_ok hrun]
  simp only [Cursor.parent?_of_place hc.wellFormed hc.place, Program.get_bind_apply, hcontains,
    hempty, hroot, moveRemove]
  -- Either the cursor goes back to a parent that is empty now, or it goes on behind what was
  -- removed.
  by_cases hlast : fs ≠ [] ∧ ((f.extendBefore x.tail).fillRow []).isEmpty = true
  · have hmove : Cursor.moveTo f.number
        ({ c with tree := u, current := nextNumber (f :: fs) } : Cursor) =
        .ok () { c with tree := u, current := some f.number } := by
      rw [Cursor.moveTo, Program.get_bind_apply, if_pos hcontains]
      rfl
    rw [if_pos hlast, if_pos ⟨hlast.1, trivial, hlast.2⟩, hmove]
    refine hc.performs_of_replaced hu rfl ?_
    simp [Outcome.number?]
  · rw [if_neg hlast, if_neg fun hp => hlast ⟨hp.1, hp.2.2⟩]
    refine hc.performs_of_replaced hu (whole_skip _ fs).symm ?_
    rw [number?_skip]
    simp [nextNumber]

/-! ### Treatments that may fail -/

/-- The first child of inline markup is lifted out of it, if it is inline markup itself. -/
lemma Tracks.liftNested :
    Performs root outer c c.tree (moveLift c.tree.size x (f :: fs)) (liftNested c) := by
  have hholds := hc.holds_focus
  rw [Adjust.liftNested, Program.bind_ok hc.current_ok, Program.get_bind_apply, moveLift]
  simp only [Tree.firstChild?, hholds.children_eq]
  cases hchildren : x.children with
  | nil => exact hc.performs_advance
  | cons y ys =>
    have hplace : c.branch = plug (⟨x.number, x.own, [], ys⟩ :: f :: fs) y := by
      rw [hc.place, plug_cons _ (f :: fs), Frame.fill_eq_of_children_cons hchildren]
    have hy := (holds_plug.1 (Cursor.holds_of_place hc.wellFormed hplace)).1
    obtain ⟨u, hlift, hu⟩ := Cursor.lift_ok hc.wellFormed hplace
      (show (some y.number).or c.current = some y.number from rfl)
    simp only [List.map_cons, List.head?_cons, hy.isInline_eq, beq_iff_eq]
    by_cases hinline : y.markup = .inline
    · rw [if_pos hinline, if_pos hinline, hlift]
      obtain ⟨rest, hrow⟩ := exists_lift_eq_cons ⟨x.number, x.own, [], ys⟩ c.tree.size y
      rw [hrow] at hu ⊢
      refine hc.performs_of_replaced hu ?_ hc.standing
      simp [standOn, Outcome.whole, Frame.fill, Frame.fillRow]
    · rw [if_neg hinline, if_neg hinline, hy.tag_eq, hholds.tag_eq]
      rfl

/-- Two siblings are compatible if they could be one. -/
lemma Tracks.areCompatible_iff {prev : Branch} {rest : List Branch}
    (hbefore : f.before = prev :: rest) :
    areCompatible c.tree prev.number x.number = true ↔
      Mergeable (contextAt outer (f :: fs)) prev.own x.own := by
  have hshift : f.fill x = { f with before := rest, after := x :: f.after }.fill prev := by
    rw [← Frame.fill_shift, ← hbefore]
  have hwhole : plug (f :: fs) x =
      plug ({ f with before := rest, after := x :: f.after } :: fs) prev :=
    congrArg (plug fs) hshift
  have hprevious : Tracks root outer { c with current := some prev.number }
      (.standing ⟨prev, { f with before := rest, after := x :: f.after } :: fs⟩) :=
    ⟨hc.root_eq, hc.wellFormed, hc.place.trans hwhole, rfl, hc.around⟩
  have hprev := hprevious.holds_focus
  have hx := hc.holds_focus
  have hscope : (context c.tree prev.number).scope = (contextAt outer (f :: fs)).scope :=
    congrArg Context.scope hprevious.context_focus
  simp only [areCompatible, hprev.tag_eq, hprev.attributes_eq, hx.tag_eq, hx.attributes_eq,
    namespaces_eq, hprev.declaredNamespaces_eq, hx.declaredNamespaces_eq, hscope, hc.context_focus,
    Bool.and_eq_true, beq_iff_eq, and_assoc, Mergeable]

/-- A section joins the section before it if the two are compatible. -/
lemma Tracks.absorb {s : Surroundings} (hs : s.outer = outer) :
    Performs root outer c c.tree (moveAbsorb s x (f :: fs)) (absorb c) := by
  have hprevious := f.previousSibling?_eq hc.wellFormed (holds_plug.1 hc.holds).2.1
  rw [Adjust.absorb, Program.bind_ok hc.current_ok, Program.get_bind_apply, moveAbsorb, hs]
  cases hbefore : f.before with
  | nil =>
    have hnone : ¬(c.tree.previousSibling? x.number).any
        (fun previous => areCompatible c.tree previous x.number) = true := by
      simp [hprevious, hbefore]
    rw [if_neg hnone]
    exact hc.performs_advance
  | cons prev rest =>
    -- The program compares two elements of the tree, the plan what the branch says of them.
    have hcompatible : (c.tree.previousSibling? x.number).any
        (fun previous => areCompatible c.tree previous x.number) = true ↔
        Mergeable (contextAt outer (f :: fs)) prev.own x.own := by
      rw [hprevious, hbefore, List.head?_cons, Option.map_some, Option.any_some,
        hc.areCompatible_iff hbefore]
    simp only
    by_cases hmergeable : Mergeable (contextAt outer (f :: fs)) prev.own x.own
    · obtain ⟨u, hmerge, hu⟩ := Cursor.mergeIntoPrevious_ok hc.wellFormed hc.place hbefore hc.chosen
      have hcurrent : c.current = some x.number := hc.standing
      rw [if_pos hmergeable, if_pos (hcompatible.2 hmergeable), hmerge, if_pos hcurrent, joinInto]
      cases hchildren : x.children with
      | nil =>
        refine hc.performs_of_replaced hu ?_ ?_
        · rw [whole_leave]
          simp [Frame.fill, Frame.fillRow]
        · rw [number?_leave]
          rfl
      | cons y ys =>
        refine hc.performs_of_replaced hu ?_ rfl
        simp [Outcome.whole, Frame.fill, Frame.fillRow, Branch.absorb, hchildren]
    · rw [if_neg hmergeable, if_neg (mt hcompatible.1 hmergeable)]
      exact hc.performs_advance

/-- A paragraph is divided, or it needs no division, if all its children have a place in it. -/
lemma Tracks.dividePara :
    Performs root outer c c.tree (moveDivide c.tree.size x (f :: fs)) (dividePara c) := by
  have hx := hc.holds_focus
  rw [Adjust.dividePara, Program.bind_ok hc.current_ok, Program.get_bind_apply, moveDivide]
  simp only [division?_eq_cut? hx]
  rcases hcut : cut? x with failure | (_ | cut)
  · rfl
  · exact hc.performs_advance
  · obtain ⟨ys, y, zs, hchildren, hcases⟩ := exists_of_cut?_eq_some hcut
    have hplace : c.branch = plug (⟨x.number, x.own, ys.reverse, zs⟩ :: f :: fs) y := by
      rw [hc.place, plug_cons _ (f :: fs), Frame.fill_eq_of_children hchildren]
    have hchosen : (some y.number).or c.current = some y.number := rfl
    rcases hcases with ⟨rfl, -⟩ | ⟨rfl, -⟩
    · obtain ⟨u, hsplit, hu⟩ := Cursor.splitBefore_ok hc.wellFormed hplace hchosen
      simp only [Except.map, Option.map_some, Cut.division, hsplit]
      exact hc.performs_of_replaced hu rfl hc.standing
    · obtain ⟨u, hsplit, hu⟩ := Cursor.splitAfterTail_ok hc.wellFormed hplace hchosen
      simp only [Except.map, Option.map_some, Cut.division, hsplit]
      exact hc.performs_of_replaced hu rfl hc.standing

/-- Below the root of the walk, handling an element is making a move. -/
theorem Tracks.performs_below {s : Surroundings} (hs : s.outer = outer) :
    Performs root outer c c.tree (move s c.tree.size ⟨x, f :: fs⟩) (Editor.handle editor c) := by
  have htreatment : s.treatmentAt ⟨x, f :: fs⟩ = treatmentAt outer ⟨x, f :: fs⟩ := by
    rw [← hs]
    rfl
  rw [hc.handle_eq_run, move, htreatment]
  cases h : treatmentAt outer ⟨x, f :: fs⟩ with
  | replace text =>
    rw [Treatment.run, Program.bind_ok hc.current_ok]
    exact hc.replace text
  | remove => exact hc.removeCurrent
  | flatten =>
    cases groundsAt h with
    | link htag hchildren => exact hc.flattenLink hchildren
  | lift => exact hc.liftNested
  | trim =>
    obtain ⟨text, htext⟩ := exists_text_of_trim h
    exact hc.trim htext
  | absorb => exact hc.absorb hs
  | divide => exact hc.dividePara
  | advance => exact hc.performs_advance

end Below

/-! ### At the root of the walk -/

/-- What is written right before the root of the walk is no part of the walk. -/
lemma Tracks.writeBefore {o : Outcome} (hc : Tracks root outer c o) (more : String) :
    Tracks root outer { c with tree := c.tree.writtenBefore c.root more } o where
  root_eq := hc.root_eq
  wellFormed := Tree.wellFormed_writtenBefore hc.wellFormed c.root more
  whole := (Tree.branch_writtenBefore hc.wellFormed c.root more).trans hc.whole
  standing := hc.standing
  around := by
    rw [← hc.around]
    exact congrArg Surroundings.outer (surroundings_writtenBefore hc.wellFormed c.root more)

/-- Of the sibling before an element only the tag matters to the element's treatment. -/
lemma treatment_congr_previous (k : Context) {previous? previous'? : Option Entry} (x : Branch)
    (h : previous?.map Entry.tag = previous'?.map Entry.tag) :
    treatment k previous? x = treatment k previous'? x := by
  have hany : previous?.any (·.tag == "simplesect") = previous'?.any (·.tag == "simplesect") := by
    have hmap (e? : Option Entry) :
        e?.any (·.tag == "simplesect") = (e?.map Entry.tag).any (· == "simplesect") := by
      cases e? <;> rfl
    rw [hmap, hmap, h]
  rw [treatment, treatment, hany]

section Root

variable (hc : Tracks root outer c (.standing ⟨x, []⟩))

include hc

/-- Without a frame around it, what the cursor stands on is the root. -/
lemma Tracks.number_root : x.number = c.root := by
  have hnumber := congrArg Branch.number hc.place
  rw [Cursor.branch, Tree.number_branch, plug_nil] at hnumber
  exact hnumber.symm

/-- Text added in front of the root is written into the tree around it. -/
lemma Tracks.extendBefore_root (more : String) :
    Cursor.extendBefore x.number more c =
      .ok () { c with tree := c.tree.writtenBefore c.root more } := by
  rw [hc.number_root]
  rfl

/-- An edit that must not work on the root, is refused there. -/
lemma Tracks.refused_root (operation : String) {n? : Option NodeId}
    (hn : n?.or c.current = some x.number) :
    Cursor.targetBelowRoot operation n? c = .error (refusalOfRoot operation x) c := by
  rw [Cursor.targetBelowRoot, Program.bind_ok (Cursor.target_ok hc.wellFormed operation hn hc.place),
    Program.get_bind_apply, if_pos hc.number_root, Cursor.violation, hc.holds_focus.tag_eq]
  rfl

/-- The root is never divided. -/
lemma Tracks.refused_inRoot (operation : String) {y : Branch} {ys zs : List Branch}
    (hchildren : x.children = ys ++ y :: zs) :
    Cursor.targetInDivisible operation (some y.number) c =
      .error (refusalInRoot operation y) c := by
  have hplace : c.branch = plug [⟨x.number, x.own, ys.reverse, zs⟩] y := by
    rw [hc.place, plug_cons, plug_nil, plug_nil, Frame.fill_eq_of_children hchildren]
  have hy := (holds_plug.1 (Cursor.holds_of_place hc.wellFormed hplace)).1
  have hp : c.tree.parent? y.number = some x.number :=
    Cursor.parent?_of_place hc.wellFormed hplace
  have hchosen : (some y.number).or c.current = some y.number := rfl
  rw [Cursor.targetInDivisible,
    Program.bind_ok (Cursor.targetBelowRoot_ok hc.wellFormed operation hchosen hplace),
    Program.get_bind_apply, hp]
  simp only [hc.number_root, if_true, Cursor.violation, hy.tag_eq]
  rfl

/-- White space leaves the text of the root of the walk; what precedes the text is written right
before the root. -/
lemma Tracks.trimRoot {text : String} (htext : x.own.text = some text) :
    Performs root outer c (c.tree.writtenBefore c.root (Text.splitBlanks text).1) (moveTrim x [])
      (trimCurrent c) := by
  have htree : c.tree.text? x.number = some text := by
    rw [hc.holds_focus.text?_eq, htext]
  have hlt : x.number < c.tree.size := by
    refine Nat.lt_of_not_le fun hsize => ?_
    rw [Tree.text?, Tree.element_of_size_le hsize] at htree
    cases htree
  have hc' := hc.writeBefore (Text.splitBlanks text).1
  have hlt' : x.number < (c.tree.writtenBefore c.root (Text.splitBlanks text).1).size := by
    rwa [Tree.size_writtenBefore hc.wellFormed]
  have hv := hc'.replaced_refl.revise hlt' (trimEntry text)
  rw [trimCurrent_ok hc.wellFormed hc.standing htree, hc.number_root]
  simp only [moveTrim, htext]
  refine hc'.performs_of_replaced ?_ rfl hc.standing
  rwa [hc.number_root] at hv

/-- The root of the walk and the sibling right before it are compatible if they could be one. -/
lemma Tracks.areCompatible_root {m : NodeId} (hm : c.tree.previousSibling? x.number = some m) :
    areCompatible c.tree m x.number = true ↔ Mergeable outer (c.tree.entry m).bare x.own := by
  obtain ⟨-, parent, hp, hmp⟩ := Tree.parent?_of_previousSibling hc.wellFormed hm
  have hx := hc.holds_focus
  have hcontext : context c.tree m = outer := by
    rw [context_eq_inside hc.wellFormed hmp, ← context_eq_inside hc.wellFormed hp, hc.context_focus]
    rfl
  have hcontext' : context c.tree x.number = outer := hc.context_focus
  simp only [areCompatible, namespaces_eq, hcontext, hcontext', hx.tag_eq, hx.attributes_eq,
    hx.declaredNamespaces_eq, Bool.and_eq_true, beq_iff_eq, and_assoc, Mergeable]
  rfl

/-- Text is written right before the root, but the root cannot be removed. -/
lemma Tracks.replace_root (text : String) :
    Performs root outer c (c.tree.writtenBefore c.root text) (moveReplace x text [])
      (textualize x.number text c) := by
  have hrefused := (hc.writeBefore text).refused_root "remove"
    (show (some x.number).or c.current = some x.number from rfl)
  rw [textualize, Program.bind_ok (hc.extendBefore_root text), Cursor.remove]
  exact Program.bind_error hrefused _

/-- The root cannot be removed, and the editor fails as the plan says. -/
lemma Tracks.removeCurrent_root :
    Performs root outer c c.tree (moveRemove x []) (Adjust.removeCurrent c) := by
  rw [Adjust.removeCurrent, Program.bind_ok hc.current_ok, Program.get_bind_apply, Cursor.remove,
    Program.bind_assoc_apply]
  exact Program.bind_error (hc.refused_root "remove" hc.chosen) _

/-- Nothing can be lifted out of the root. -/
lemma Tracks.liftNested_root :
    Performs root outer c c.tree (moveLift c.tree.size x []) (Adjust.liftNested c) := by
  have hx := hc.holds_focus
  rw [Adjust.liftNested, Program.bind_ok hc.current_ok, Program.get_bind_apply, moveLift]
  simp only [Tree.firstChild?, hx.children_eq]
  cases hchildren : x.children with
  | nil => exact hc.performs_advance
  | cons y ys =>
    have hplace : x.children = [] ++ y :: ys := hchildren
    have hy := hx.holdsAll_children
    rw [hchildren, holdsAll_cons] at hy
    simp only [List.map_cons, List.head?_cons, hy.1.isInline_eq, beq_iff_eq]
    by_cases hinline : y.markup = .inline
    · rw [if_pos hinline, if_pos hinline, Cursor.lift]
      exact Program.bind_error (hc.refused_inRoot "lift" hplace) _
    · rw [if_neg hinline, if_neg hinline, hy.1.tag_eq, hx.tag_eq]
      rfl

/-- The root cannot join the sibling before it. -/
lemma Tracks.absorb_root :
    Performs root outer c c.tree (moveAbsorb (surroundings c.tree c.root) x [])
      (Adjust.absorb c) := by
  have hcompatible : (c.tree.previousSibling? x.number).any
      (fun previous => areCompatible c.tree previous x.number) = true ↔
      (surroundings c.tree c.root).previous?.any
        (fun e => decide (Mergeable (surroundings c.tree c.root).outer e x.own)) = true := by
    rw [surroundings, hc.around, ← hc.number_root]
    cases hm : c.tree.previousSibling? x.number with
    | none => rfl
    | some m => simp [hc.areCompatible_root hm]
  rw [Adjust.absorb, Program.bind_ok hc.current_ok, Program.get_bind_apply, moveAbsorb]
  split
  · next hmergeable =>
    rw [if_pos (hcompatible.2 hmergeable), Cursor.mergeIntoPrevious]
    exact Program.bind_error (hc.refused_root "merge" hc.chosen) _
  · next hdiffer =>
    rw [if_neg (mt hcompatible.1 hdiffer)]
    exact hc.performs_advance

/-- The root cannot be divided. -/
lemma Tracks.dividePara_root :
    Performs root outer c c.tree (moveDivide c.tree.size x []) (Adjust.dividePara c) := by
  rw [Adjust.dividePara, Program.bind_ok hc.current_ok, Program.get_bind_apply, moveDivide]
  simp only [division?_eq_cut? hc.holds_focus]
  rcases hcut : cut? x with failure | (_ | cut)
  · rfl
  · exact hc.performs_advance
  · obtain ⟨ys, y, zs, hchildren, hcases⟩ := exists_of_cut?_eq_some hcut
    have hrefused := hc.refused_inRoot "split" hchildren
    rcases hcases with ⟨rfl, -⟩ | ⟨rfl, -⟩
    · simp only [Except.map, Option.map_some, Cut.division, Cursor.splitBefore]
      exact Program.bind_error hrefused _
    · simp only [Except.map, Option.map_some, Cut.division, Cursor.splitAfterTail]
      exact Program.bind_error hrefused _

/-- Handling the root of the walk is giving it the treatment of its location. -/
lemma Tracks.handle_root_eq_run :
    Editor.handle editor c = ((surroundings c.tree c.root).treatmentAt ⟨x, []⟩).run c := by
  have htreatment : treatment outer ((c.tree.previousSibling? x.number).map c.tree.entry) x =
      (surroundings c.tree c.root).treatmentAt ⟨x, []⟩ := by
    rw [← show (surroundings c.tree c.root).outer = outer from hc.around]
    refine treatment_congr_previous _ x ?_
    show _ = (surroundings c.tree c.root).previous?.map Entry.tag
    rw [surroundings, ← hc.number_root, Option.map_map, Option.map_map]
    rfl
  rw [← htreatment, Adjust.handle_eq_run hc.holds_focus hc.standing hc.wellFormed,
    hc.context_focus]
  rfl

/-- At the root of the walk, handling an element is making a move. -/
theorem Tracks.performs_root :
    Performs root outer c
      (c.tree.writtenBefore c.root (spill (surroundings c.tree c.root) ⟨x, []⟩))
      (move (surroundings c.tree c.root) c.tree.size ⟨x, []⟩) (Editor.handle editor c) := by
  -- Only a replacement and trimming write text around the root, as it has no frame to hold it.
  rw [hc.handle_root_eq_run, move, spill]
  cases hτ : (surroundings c.tree c.root).treatmentAt ⟨x, []⟩ with
  | replace text =>
    rw [Treatment.run, Program.bind_ok hc.current_ok]
    exact hc.replace_root text
  | remove =>
    rw [Tree.writtenBefore_empty]
    exact hc.removeCurrent_root
  | flatten =>
    rw [Tree.writtenBefore_empty]
    cases grounds hτ with
    | link htag hchildren => exact hc.flattenLink hchildren
  | lift =>
    rw [Tree.writtenBefore_empty]
    exact hc.liftNested_root
  | trim =>
    obtain ⟨text, htext⟩ := exists_text_of_trim (treatmentAt_outer_of_ne_absorb hτ (by simp))
    have htext' : x.text = text := by rw [Branch.text, htext, Option.getD_some]
    rw [htext']
    exact hc.trimRoot htext
  | absorb =>
    rw [Tree.writtenBefore_empty]
    exact hc.absorb_root
  | divide =>
    rw [Tree.writtenBefore_empty]
    exact hc.dividePara_root
  | advance =>
    rw [Tree.writtenBefore_empty]
    exact hc.performs_advance

end Root

/-! ### Handling an element -/

section Handling

variable {l : Location} (hc : Tracks root outer c (.standing l))

include hc

/-- **Handling an element is making a move**: the cursor comes to track the outcome, or the pass
fails.  Outside of the subtree at the cursor's root nothing changes, but that what the move spills
is written right before the root. -/
theorem Tracks.performs :
    Performs root outer c (c.tree.writtenBefore c.root (spill (surroundings c.tree c.root) l))
      (move (surroundings c.tree c.root) c.tree.size l) (Editor.handle editor c) := by
  obtain ⟨x, fs⟩ := l
  cases fs with
  | nil => exact hc.performs_root
  | cons f fs =>
    rw [spill, Tree.writtenBefore_empty]
    exact hc.performs_below hc.around

/-- Whenever the pass handles an element without a failure, it takes a step. -/
theorem exists_step_of_handle (hrun : Editor.handle editor c = .ok () c') :
    ∃ o, Step outer c.tree.size l o ∧ Tracks root outer c' o := by
  have hperforms := hc.performs
  cases hmove : move (surroundings c.tree c.root) c.tree.size l with
  | error failure =>
    rw [hmove] at hperforms
    cases hperforms.symm.trans hrun
  | ok o =>
    rw [hmove] at hperforms
    obtain ⟨c₁, hok, hc₁, -⟩ := hperforms
    cases hok.symm.trans hrun
    have hstep := step_of_move hmove
    rw [show (surroundings c.tree c.root).outer = outer from hc.around] at hstep
    exact ⟨o, hstep, hc₁⟩

end Handling

/-- The document was refused for an element that has no place where it stands. -/
def Misplaced {σ : Type} (result : EStateM.Result PassError σ Unit) : Prop :=
  ∃ tag owner s, result = .error (.unexpected tag owner) s

/-- Handling an element took a step, or the document was refused for an element that has no place
where it stands. -/
def Handled (root : NodeId) (outer : Context) (c : Cursor) (l : Location)
    (result : EStateM.Result PassError Cursor Unit) : Prop :=
  (∃ c' o, result = .ok () c' ∧ Step outer c.tree.size l o ∧ Tracks root outer c' o) ∨
    Misplaced result

/-- Below the root of the walk, whatever is to be done with an element can be done, unless the
document is refused. -/
theorem Tracks.handle_below (hc : Tracks root outer c (.standing ⟨x, f :: fs⟩)) :
    Handled root outer c ⟨x, f :: fs⟩ (Editor.handle editor c) := by
  have hperforms := hc.performs
  cases hmove : move (surroundings c.tree c.root) c.tree.size ⟨x, f :: fs⟩ with
  | error failure =>
    rw [hmove] at hperforms
    obtain ⟨tag, owner, rfl⟩ := unexpected_of_move_below hmove
    exact Or.inr ⟨tag, owner, _, hperforms⟩
  | ok o =>
    rw [hmove] at hperforms
    obtain ⟨c₁, hok, -⟩ := hperforms
    obtain ⟨o', hstep, hc₁⟩ := exists_step_of_handle hc hok
    exact Or.inl ⟨c₁, o', hok, hstep, hc₁⟩

end DoxygenRest.Adjust
