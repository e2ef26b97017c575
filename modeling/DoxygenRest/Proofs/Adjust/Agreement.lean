import DoxygenRest.Proofs.Adjust.Course
import DoxygenRest.Proofs.Adjust.Likeness

/-!
# Runs that the pass cannot tell apart

Moves lead from walks that resemble one another to walks that do (`resemble_move`), whatever the
numbers of new elements are.  So courses lead to the same branch, numbers aside, or to the same
failure (`Course.agree`), and so do the runs of the pass (`Yields.agree`).
-/

namespace DoxygenRest.Adjust

open Branch

/-! ### Moves -/

section Moves

variable {s s' : Surroundings} {fresh fresh' : NodeId} {outer : Context} {x y : Branch}
variable {f g : Frame} {fs gs : List Frame} {τ : Treatment}

/-- A row of branches is put in two places alike. -/
lemma resemble_standOn {row row' : List Branch}
    (hf : FrameResembles (contextAt outer fs).highlighted f g) (hfs : FramesResemble outer fs gs)
    (hrow : ResemblesRow (contextAt outer (f :: fs)).highlighted row row') :
    OutcomesResemble outer (standOn f fs row) (standOn g gs row') := by
  cases row with
  | nil =>
    rw [resemblesRow_nil.1 hrow]
    exact resemble_skip hf hfs
  | cons z rest =>
    obtain ⟨w, rest', rfl, hw, hrest⟩ := resemblesRow_cons.1 hrow
    refine ⟨hw, framesResemble_cons.2 ⟨⟨hf.own, hf.visible, hf.quoted, hf.before, ?_⟩, hfs⟩⟩
    exact resemblesRow_append.2 ⟨rest', g.after, rfl, hrest, hf.after⟩

/-- Replacing elements that resemble each other by the same text agrees. -/
lemma resemble_replace (hfs : FramesResemble outer fs gs)
    (hx : Resembles (contextAt outer fs).highlighted x y) (text : String) :
    Agree (OutcomesResemble outer) (moveReplace x text fs) (moveReplace y text gs) := by
  cases fs with
  | nil =>
    rw [framesResemble_nil.1 hfs]
    simp only [moveReplace, Agree, refusalOfRoot, hx.tag_eq]
  | cons f fs =>
    obtain ⟨g, gs, rfl, hf, hfs⟩ := hfs
    simp only [moveReplace, Agree, hx.tail_eq]
    exact resemble_skip ((hf.extendBefore text).extendBefore x.tail) hfs

/-- Removing elements that resemble each other agrees. -/
lemma resemble_remove (hfs : FramesResemble outer fs gs)
    (hx : Resembles (contextAt outer fs).highlighted x y) :
    Agree (OutcomesResemble outer) (moveRemove x fs) (moveRemove y gs) := by
  cases fs with
  | nil =>
    rw [framesResemble_nil.1 hfs]
    simp only [moveRemove, Agree, refusalOfRoot, hx.tag_eq]
  | cons f fs =>
    obtain ⟨g, gs, rfl, hf, hfs⟩ := hfs
    have hleft := hf.extendBefore x.tail
    -- What is left of the element around is empty in both walks or in neither.
    have hempty : ((g.extendBefore x.tail).fillRow []).isEmpty =
        ((f.extendBefore x.tail).fillRow []).isEmpty := by
      have hbefore : (g.extendBefore x.tail).before = [] ↔ (f.extendBefore x.tail).before = [] := by
        rw [← List.map_eq_nil_iff (f := fragment), ← hleft.before, List.map_eq_nil_iff]
      rw [Bool.eq_iff_iff, Branch.isEmpty_iff, Branch.isEmpty_iff]
      simp only [Frame.fillRow, Branch.text, own_node, children_node, hleft.own, List.nil_append,
        List.append_eq_nil_iff, List.reverse_eq_nil_iff, hbefore, hleft.after.eq_nil_iff]
    have hroot : gs ≠ [] ↔ fs ≠ [] := by
      cases fs with
      | nil => simp [framesResemble_nil.1 hfs]
      | cons f' fs =>
        obtain ⟨g', gs', rfl, -⟩ := hfs
        simp
    simp only [moveRemove, hx.tail_eq, hempty, hroot]
    split
    · next hlast =>
      obtain ⟨-, hchildren⟩ := Branch.isEmpty_iff.1 hlast.2
      rw [Frame.fillRow, children_node, List.nil_append, List.append_eq_nil_iff] at hchildren
      exact ⟨resembles_of_fragment_eq (hleft.fragment_fillRow hchildren.2 rfl), hfs⟩
    · exact resemble_skip hleft hfs

/-- The first elements that are not inline in rows that resemble each other do so, or there are
none. -/
lemma resemblesRow_find? {k : Bool} {xs ys : List Branch} (h : ResemblesRow k xs ys) :
    Option.Rel (Resembles k) (xs.find? fun b => b.markup != .inline)
      (ys.find? fun b => b.markup != .inline) := by
  induction xs generalizing ys with
  | nil =>
    rw [resemblesRow_nil.1 h]
    exact .none
  | cons b xs ih =>
    obtain ⟨c, zs, rfl, hc, hzs⟩ := resemblesRow_cons.1 h
    rw [List.find?_cons, List.find?_cons, hc.markup_eq]
    split
    · exact .some hc
    · exact ih hzs

/-- Flattening links that resemble each other agrees. -/
lemma resemble_flatten (hfs : FramesResemble outer fs gs)
    (hx : Resembles (contextAt outer fs).highlighted x y) (htag : x.own.tag = "ulink") :
    Agree (OutcomesResemble outer) (moveFlatten x fs) (moveFlatten y gs) := by
  have hvisible : x.own.tag ∉ Schema.presentationTags := by
    rw [htag]
    decide
  obtain ⟨hown, hrow, hvalue⟩ := (resembles_iff.1 hx).2.2 hvisible
  have hblock := resemblesRow_find? hrow
  unfold moveFlatten
  -- Both links hold a block or neither does. A link without one keeps only its string value, the
  -- same for both.
  cases hfind : x.children.find? fun b => b.markup != .inline with
  | none =>
    rw [hfind] at hblock
    cases hblock' : y.children.find? fun b => b.markup != .inline with
    | some c =>
      rw [hblock'] at hblock
      cases hblock
    | none =>
      refine ⟨resembles_of_fragment_eq (fragment_eq_iff.2 ⟨?_, rfl⟩), hfs⟩
      simp only [flattened, own_node, hown, hvalue (Or.inl htag)]
  | some b =>
    rw [hfind] at hblock
    cases hblock' : y.children.find? fun b => b.markup != .inline with
    | none =>
      rw [hblock'] at hblock
      cases hblock
    | some c =>
      rw [hblock'] at hblock
      cases hblock with
      | some hc => simp only [Agree, hc.tag_eq, hx.tag_eq]

/-- A lift leaves rows that resemble one another. -/
lemma resemblesRow_lift {k : Bool} {z w : Branch} {zs ws : List Branch} {n m : NodeId} {e : Entry}
    (hquoted : ¬IsQuoted k e.tag) (hhighlight : e.tag ≠ "highlight") (hz : Resembles k z w)
    (hzs : ResemblesRow k zs ws) :
    ResemblesRow k (Frame.lift ⟨n, e, [], zs⟩ fresh z) (Frame.lift ⟨m, e, [], ws⟩ fresh' w) := by
  have hempty : ws.isEmpty = zs.isEmpty := by
    rw [Bool.eq_iff_iff, List.isEmpty_iff, List.isEmpty_iff]
    exact hzs.eq_nil_iff
  have hfront : Resembles k (Frame.front ⟨n, e, [], zs⟩ []) (Frame.front ⟨m, e, [], ws⟩ []) :=
    resembles_of_fragment_eq rfl
  have hback : Resembles k (Frame.back ⟨n, e, [], zs⟩ fresh (handedTail z.own.tail) zs)
      (Frame.back ⟨m, e, [], ws⟩ fresh' (handedTail z.own.tail) ws) := by
    refine resembles_node hquoted ?_
    show ResemblesRow (k || e.tag == "highlight") zs ws
    rw [beq_false_of_ne hhighlight, Bool.or_false]
    exact hzs
  simp only [Frame.lift, hz.tail?_eq, hempty]
  split
  · simp [hfront, hz.withTail]
  · simp [hfront, hz.withTail, hback]

/-- Lifting the first children of inline elements that resemble each other agrees. -/
lemma resemble_lift (hfs : FramesResemble outer fs gs)
    (hx : Resembles (contextAt outer fs).highlighted x y)
    (hinline : x.own.tag ∈ Schema.inlineTags) (hvisible : x.own.tag ∉ Schema.presentationTags)
    (hquoted : ¬IsQuoted (contextAt outer fs).highlighted x.own.tag) :
    Agree (OutcomesResemble outer) (moveLift fresh x fs) (moveLift fresh' y gs) := by
  have hrow := hx.row hvisible
  have hhighlight : x.own.tag ≠ "highlight" := by
    intro htag
    rw [htag] at hinline
    exact absurd hinline (by decide)
  rw [beq_false_of_ne hhighlight, Bool.or_false] at hrow
  unfold moveLift
  -- An inline element is not a highlight, so its children are in the same context as itself.
  cases hchildren : x.children with
  | nil =>
    have hy : y.children = [] := hrow.eq_nil_iff.2 hchildren
    simp only [hy]
    exact resemble_enter hx hfs hvisible fun hne => absurd hchildren hne
  | cons z zs =>
    rw [hchildren] at hrow
    obtain ⟨w, ws, hy, hw, hws⟩ := resemblesRow_cons.1 hrow
    simp only [hy, hw.markup_eq]
    split
    · cases fs with
      | nil =>
        rw [framesResemble_nil.1 hfs]
        simp only [Agree, refusalInRoot, hw.tag_eq]
      | cons f fs =>
        obtain ⟨g, gs, rfl, hf, hfs⟩ := hfs
        refine resemble_standOn hf hfs ?_
        rw [hx.own_eq hvisible]
        exact resemblesRow_lift hquoted hhighlight hw hws
    · simp only [Agree, hw.tag_eq, hx.tag_eq]

/-- Trimming elements that resemble each other agrees. -/
lemma resemble_trim (hfs : FramesResemble outer fs gs)
    (hx : Resembles (contextAt outer fs).highlighted x y)
    (hvisible : x.own.tag ∉ Schema.presentationTags) (hchildren : x.children = []) :
    Agree (OutcomesResemble outer) (moveTrim x fs) (moveTrim y gs) := by
  have hfragment := hx.fragment_eq hvisible hchildren
  obtain ⟨hown, hrow⟩ := fragment_eq_iff.1 hfragment
  unfold moveTrim
  rw [← hown]
  cases htext : x.own.text with
  | none => exact ⟨hx, hfs⟩
  | some text =>
    have htrimmed : (trimmed x text).fragment = (trimmed y text).fragment := by
      refine fragment_eq_iff.2 ⟨?_, hrow⟩
      simp only [trimmed, own_node, hown]
    cases fs with
    | nil =>
      rw [framesResemble_nil.1 hfs]
      exact ⟨resembles_of_fragment_eq htrimmed, rfl⟩
    | cons f fs =>
      obtain ⟨g, gs, rfl, hf, hfs⟩ := hfs
      exact ⟨resembles_of_fragment_eq htrimmed, framesResemble_cons.2 ⟨hf.extendBefore _, hfs⟩⟩

/-- A section is joined into the one before it alike. -/
lemma resemble_joinInto {prev prev' : Branch} (hfs : FramesResemble outer fs gs)
    (hprev : prev.fragment = prev'.fragment)
    (hx : Resembles (contextAt outer fs).highlighted x y) (htag : x.own.tag = "simplesect")
    (hsame : prev.own.tag = x.own.tag) :
    OutcomesResemble outer (joinInto prev x fs) (joinInto prev' y gs) := by
  have hvisible : x.own.tag ∉ Schema.presentationTags := by
    rw [htag]
    decide
  have hown := hx.own_eq hvisible
  have hrow := hx.row hvisible
  have habsorbed : (prev.absorb x).own.tag = "simplesect" :=
    (alike_absorb prev x).tag.trans (hsame.trans htag)
  unfold joinInto
  cases hchildren : x.children with
  | nil =>
    have hy : y.children = [] := hrow.eq_nil_iff.2 hchildren
    simp only [hy]
    exact resemble_leave (fragment_absorb_congr hprev (hx.fragment_eq hvisible hchildren)) hfs
  | cons z zs =>
    rw [hchildren, htag] at hrow
    obtain ⟨w, ws, hy, hw, hws⟩ := resemblesRow_cons.1 hrow
    have htext : y.text = x.text := by rw [Branch.text, Branch.text, hown]
    have hjoined := (fragment_eq_iff.1 (fragment_joined_congr hprev x.text)).2
    simp only [hy, htext]
    refine ⟨?_, framesResemble_cons.2 ⟨⟨?_, ?_, ?_, ?_, ?_⟩, hfs⟩⟩
    · simpa [contextAt, Context.inside, habsorbed] using hw
    · exact own_absorb_congr hprev.symm hown
    · rw [habsorbed]
      decide
    · rw [habsorbed]
      exact not_isQuoted (by decide) (by decide)
    · rw [List.map_reverse, List.map_reverse, hjoined]
    · rw [habsorbed]
      exact hws

/-- A section is merged into the sibling before the root of one walk exactly if it is for the other:
the sibling is a section then, and no presentation markup. -/
lemma SurroundingsResemble.mergeable_eq (hs : SurroundingsResemble s s') {e : Entry}
    (hvisible : e.tag ∉ Schema.presentationTags) :
    s'.previous?.any (fun p => decide (Mergeable s'.outer p e)) =
      s.previous?.any fun p => decide (Mergeable s.outer p e) := by
  have hrel := hs.previous
  generalize s.previous? = p at hrel
  generalize s'.previous? = p' at hrel
  cases hrel with
  | none => rfl
  | @some q q' hq =>
    rw [Option.any_some, Option.any_some, hs.outer]
    by_cases hpresentation : q.tag ∈ Schema.presentationTags
    · have hdiffer : q.tag ≠ e.tag := fun heq => hvisible (heq ▸ hpresentation)
      simp [Mergeable, hq.1, hdiffer]
    · rw [hq.2 hpresentation]

/-- Merging sections that resemble each other into the ones before them agrees. -/
lemma resemble_absorb (hs : SurroundingsResemble s s') (hfs : FramesResemble s.outer fs gs)
    (hx : Resembles (contextAt s.outer fs).highlighted x y) (htag : x.own.tag = "simplesect") :
    Agree (OutcomesResemble s.outer) (moveAbsorb s x fs) (moveAbsorb s' y gs) := by
  have hvisible : x.own.tag ∉ Schema.presentationTags := by
    rw [htag]
    decide
  have hown := hx.own_eq hvisible
  have hquoted {k : Bool} : ¬IsQuoted k x.own.tag := by
    rw [htag]
    exact not_isQuoted (by decide) (by decide)
  have henter := resemble_enter hx hfs hvisible fun _ => hquoted
  -- The previous sibling is looked up in the hole. At the root it is the one around the editor.
  cases fs with
  | nil =>
    cases framesResemble_nil.1 hfs
    simp only [moveAbsorb, hown, hs.mergeable_eq hvisible]
    split
    · simp only [Agree, refusalOfRoot, hx.tag_eq]
    · exact henter
  | cons f fs =>
    obtain ⟨g, gs, rfl, hf, hfs'⟩ := hfs
    have hbefore := hf.before
    unfold moveAbsorb
    cases hf' : f.before with
    | nil =>
      have hg : g.before = [] := by
        rw [hf'] at hbefore
        exact List.map_eq_nil_iff.1 hbefore.symm
      simp only [hf', hg]
      exact henter
    | cons prev rest =>
      rw [hf'] at hbefore
      obtain ⟨prev', rest', hg, hprev, hrest⟩ := List.map_eq_cons_iff.1 hbefore.symm
      have hcontext : contextAt s'.outer (g :: gs) = contextAt s.outer (f :: fs) := by
        rw [hs.outer]
        exact FramesResemble.contextAt_eq (framesResemble_cons.2 ⟨hf, hfs'⟩)
      simp only [hf', hg, hcontext, (fragment_eq_iff.1 hprev).1, hown]
      split
      · next hmergeable =>
        refine resemble_joinInto (framesResemble_cons.2
          ⟨⟨hf.own, hf.visible, hf.quoted, hrest.symm, hf.after⟩, hfs'⟩) hprev.symm hx htag ?_
        exact hmergeable.1
      · exact henter

/-- Two paragraphs with the own data `e` are cut at the same place. -/
def CutsResemble (k : Bool) (e : Entry) : Cut → Cut → Prop
  | .before f z, .before g w | .behind f z, .behind g w =>
    f.own = e ∧ g.own = e ∧ ResemblesRow k f.before g.before ∧ Resembles k z w ∧
      ResemblesRow k f.after g.after
  | _, _ => False

section Cuts

variable {k : Bool} {e : Entry} {cut cut' : Cut}

/-- The children at which two paragraphs are cut resemble each other. -/
lemma CutsResemble.child (h : CutsResemble k e cut cut') : Resembles k cut.child cut'.child := by
  cases cut <;> cases cut'
  · exact h.2.2.2.1
  · cases h
  · cases h
  · exact h.2.2.2.1

/-- Paragraphs that are cut at the same place have parts that resemble one another. -/
lemma CutsResemble.parts (h : CutsResemble k e cut cut') (htag : e.tag = "para") :
    ResemblesRow k (cut.parts fresh) (cut'.parts fresh') := by
  have hpart {n m : NodeId} {e' : Entry} {cs ds : List Branch} (he : e'.tag = "para")
      (hrow : ResemblesRow k cs ds) : Resembles k (node n e' cs) (node m e' ds) := by
    refine resembles_node ?_ ?_
    · rw [he]
      exact not_isQuoted (by decide) (by decide)
    · rw [he]
      simpa using hrow
  -- Both paragraphs are cut in front of the child, or both behind it.
  cases cut with
  | before f z =>
    cases cut' with
    | behind g w => cases h
    | before g w =>
      obtain ⟨hf, hg, hbefore, hz, hafter⟩ := h
      simp only [Cut.parts, Frame.splitBefore, Frame.front, Frame.back, hf, hg, List.append_nil,
        resemblesRow_cons]
      exact ⟨_, _, rfl, hpart htag hbefore.reverse, _, _, rfl,
        hpart htag (resemblesRow_cons.2 ⟨w, _, rfl, hz, hafter⟩), resemblesRow_nil.2 rfl⟩
  | behind f z =>
    cases cut' with
    | before g w => cases h
    | behind g w =>
      obtain ⟨hf, hg, hbefore, hz, hafter⟩ := h
      have hlast : ResemblesRow k [z.withTail none] [w.withTail none] :=
        resemblesRow_cons.2 ⟨_, [], rfl, hz.withTail none, resemblesRow_nil.2 rfl⟩
      simp only [Cut.parts, Frame.splitAfterTail, Frame.front, Frame.back, hf, hg, hz.tail?_eq,
        resemblesRow_cons]
      exact ⟨_, _, rfl, hpart htag (resemblesRow_append.2 ⟨_, _, rfl, hbefore.reverse, hlast⟩), _,
        _, rfl, hpart htag hafter, resemblesRow_nil.2 rfl⟩

/-- Rows that resemble each other are cut at children that do so. -/
lemma resemble_cutBehind? {isLine : Bool} {n m : NodeId} {xs ys bs cs : List Branch}
    (hbefore : ResemblesRow k bs cs) (h : ResemblesRow k xs ys) :
    Agree (Option.Rel (CutsResemble k e)) (cutBehind? isLine n e bs xs)
      (cutBehind? isLine m e cs ys) := by
  induction xs generalizing ys bs cs with
  | nil =>
    rw [resemblesRow_nil.1 h]
    exact .none
  | cons z zs ih =>
    obtain ⟨w, ws, rfl, hw, hws⟩ := resemblesRow_cons.1 h
    have hlater := ih (resemblesRow_cons.2 ⟨w, cs, rfl, hw, hbefore⟩) hws
    unfold cutBehind?
    rw [hw.markup_eq, hw.tail_eq, hw.tag_eq]
    cases z.markup <;> cases isLine <;> simp only
    · exact .some ⟨rfl, rfl, hbefore, hw, hws⟩
    · exact hlater
    · split
      · exact .some ⟨rfl, rfl, hbefore, hw, hws⟩
      · exact hlater
    · exact .some ⟨rfl, rfl, hbefore, hw, hws⟩
    · rfl
    · rfl

/-- Paragraphs that resemble one another are cut at the same place. -/
lemma resemble_cut? (h : Resembles k x y) (htag : x.own.tag = "para") :
    Agree (Option.Rel (CutsResemble k x.own)) (cut? x) (cut? y) := by
  have hvisible : x.own.tag ∉ Schema.presentationTags := by
    rw [htag]
    decide
  have hown := h.own_eq hvisible
  have hrow := h.row hvisible
  rw [htag, show (k || "para" == "highlight") = k from Bool.or_false k] at hrow
  have hline : beginsLine y = beginsLine x := by
    rw [beginsLine, beginsLine, Branch.text, Branch.text, hown]
    generalize x.children = zs at hrow
    cases zs with
    | nil => rw [resemblesRow_nil.1 hrow]
    | cons z zs =>
      obtain ⟨w, ws, hy, hw, -⟩ := resemblesRow_cons.1 hrow
      rw [hy, List.head?_cons, List.head?_cons, Option.all_some, Option.all_some, hw.markup_eq]
  rw [cut?, cut?, hline, hown]
  exact resemble_cutBehind? (resemblesRow_nil.2 rfl) hrow

end Cuts

/-- Dividing paragraphs that resemble each other agrees. -/
lemma resemble_divide (hfs : FramesResemble outer fs gs)
    (hx : Resembles (contextAt outer fs).highlighted x y) (htag : x.own.tag = "para") :
    Agree (OutcomesResemble outer) (moveDivide fresh x fs) (moveDivide fresh' y gs) := by
  have hcut := resemble_cut? hx htag
  unfold moveDivide
  -- Both cuts fail, or both are found or missing.
  rcases hcutx : cut? x with failure | found <;> rcases hcuty : cut? y with failure' | found'
  · rw [hcutx, hcuty] at hcut
    exact hcut
  · rw [hcutx, hcuty] at hcut
    cases hcut
  · rw [hcutx, hcuty] at hcut
    cases hcut
  · rw [hcutx, hcuty] at hcut
    cases hcut with
    | none =>
      refine resemble_enter hx hfs ?_ fun _ => ?_
      · rw [htag]
        decide
      · rw [htag]
        exact not_isQuoted (by decide) (by decide)
    | @some cut cut' h =>
      cases fs with
      | nil =>
        rw [framesResemble_nil.1 hfs]
        simp only [Agree, refusalInRoot, h.child.tag_eq]
      | cons f fs =>
        obtain ⟨g, gs, rfl, hf, hfs⟩ := hfs
        exact resemble_standOn hf hfs (h.parts htag)

/-- The siblings before two places that resemble one another are of the same tag. -/
lemma previousAt_tag_eq (hs : SurroundingsResemble s s') (hfs : FramesResemble s.outer fs gs) :
    (s.previousAt fs).map Entry.tag = (s'.previousAt gs).map Entry.tag := by
  cases fs with
  | nil =>
    cases framesResemble_nil.1 hfs
    have hrel := hs.previous
    show s.previous?.map Entry.tag = s'.previous?.map Entry.tag
    generalize s.previous? = p at hrel
    generalize s'.previous? = p' at hrel
    cases hrel with
    | none => rfl
    | some he => rw [Option.map_some, Option.map_some, he.1]
  | cons f fs =>
    obtain ⟨g, gs, rfl, hf, -⟩ := hfs
    have hbefore := congrArg List.head? hf.before
    rw [List.head?_map, List.head?_map] at hbefore
    show (f.before.head?.map own).map Entry.tag = (g.before.head?.map own).map Entry.tag
    generalize f.before.head? = p at hbefore
    generalize g.before.head? = p' at hbefore
    cases p <;> cases p' <;> simp_all [fragment_eq_iff]

/-- **Moves cannot tell apart walks that resemble one another**: the outcomes resemble one another
again, or the moves fail in the same way. -/
theorem resemble_move (fresh fresh' : NodeId) {l l' : Location} (hs : SurroundingsResemble s s')
    (hl : OutcomesResemble s.outer (.standing l) (.standing l')) :
    Agree (OutcomesResemble s.outer) (move s fresh l) (move s' fresh' l') := by
  obtain ⟨x, fs⟩ := l
  obtain ⟨y, gs⟩ := l'
  obtain ⟨hx, hfs⟩ := hl
  -- Both locations call for the same treatment, and each treatment agrees with itself.
  have htreatment : s'.treatmentAt ⟨y, gs⟩ = s.treatmentAt ⟨x, fs⟩ := by
    rw [Surroundings.treatmentAt, Surroundings.treatmentAt, hs.outer, hfs.contextAt_eq]
    exact (hx.treatment_eq (previousAt_tag_eq hs hfs)).symm
  rw [move, move, htreatment]
  cases hτ : s.treatmentAt ⟨x, fs⟩ with
  | replace text => exact resemble_replace hfs hx text
  | remove => exact resemble_remove hfs hx
  | flatten =>
    cases grounds hτ with
    | link htag hchildren => exact resemble_flatten hfs hx htag
  | lift =>
    cases grounds hτ with
    | nested href hinline hchildren =>
      refine resemble_lift hfs hx hinline (fun hpresentation => ?_) ?_
      · cases hτ.symm.trans (treatment_presentation _ _ hpresentation)
      · exact not_or.2 ⟨tag_ne_of_lift hτ, href⟩
  | trim =>
    cases grounds hτ with
    | untrimmed href hinline hchildren hblanks =>
      refine resemble_trim hfs hx (fun hpresentation => ?_) hchildren
      cases hτ.symm.trans (treatment_presentation _ _ hpresentation)
  | absorb =>
    cases grounds hτ with
    | laterSection htag hempty hprevious => exact resemble_absorb hs hfs hx htag
  | divide =>
    cases grounds hτ with
    | paragraph htag hempty => exact resemble_divide hfs hx htag
  | advance =>
    cases grounds hτ with
    | fine href hsp hbreak hpresentation hflat =>
      refine resemble_enter hx hfs hpresentation fun hne => not_or.2 ⟨fun htag => ?_, href⟩
      exact hne (hflat (by rw [htag]; decide))

end Moves

/-! ### Courses -/

/-- **Courses of walks that resemble one another agree**: they come to the same branch, numbers
aside, or to the same failure. -/
theorem Course.agree {s s' : Surroundings} {o o' : Outcome} {last last' : Except PassError Branch}
    (hcourse : Course s o last) (hcourse' : Course s' o' last') (hs : SurroundingsResemble s s')
    (ho : OutcomesResemble s.outer o o') :
    Agree (fun b b' => b.fragment = b'.fragment) last last' := by
  -- By induction on one of the courses: the other one ends or goes on with it, as their moves
  -- agree.
  induction hcourse generalizing o' with
  | finish b =>
    cases hcourse' with
    | finish b' => exact ho
    | fail hmove' => cases ho
    | step hmove' hrest' => cases ho
  | @fail fresh l failure hmove =>
    cases hcourse' with
    | finish b' => cases ho
    | @fail fresh' l' failure' hmove' =>
      have hagree := resemble_move fresh fresh' hs ho
      rw [hmove, hmove'] at hagree
      exact hagree
    | @step fresh' l' o₁' last' hmove' hrest' =>
      have hagree := resemble_move fresh fresh' hs ho
      rw [hmove, hmove'] at hagree
      cases hagree
  | @step fresh l o₁ last hmove hrest ih =>
    cases hcourse' with
    | finish b' => cases ho
    | @fail fresh' l' failure' hmove' =>
      have hagree := resemble_move fresh fresh' hs ho
      rw [hmove, hmove'] at hagree
      cases hagree
    | @step fresh' l' o₁' last' hmove' hrest' =>
      have hagree := resemble_move fresh fresh' hs ho
      rw [hmove, hmove'] at hagree
      exact ih hrest' hagree

/-! ### Results -/

/-- Two results of the pass, on the subtrees at `n` and at `m`, agree: the pass left the same
subtree, numbers aside, or it failed in the same way. -/
def ResultsAgree (n m : NodeId) :
    EStateM.Result PassError Tree Unit → EStateM.Result PassError Tree Unit → Prop
  | .ok _ u, .ok _ v => u.fragment n = v.fragment m
  | .error failure _, .error failure' _ => failure = failure'
  | _, _ => False

/-- The surroundings of an element resemble themselves. -/
lemma SurroundingsResemble.refl (s : Surroundings) : SurroundingsResemble s s := by
  refine ⟨rfl, ?_⟩
  cases s.previous? with
  | none => exact .none
  | some e => exact .some ⟨rfl, fun _ => rfl⟩

/-- **Runs of the pass that it cannot tell apart agree.** -/
theorem Yields.agree {t u : Tree} {n m : NodeId} {x y : EStateM.Result PassError Tree Unit}
    (hx : Yields n t x) (hy : Yields m u y) (ht : t.WellFormed) (hu : u.WellFormed)
    (hs : SurroundingsResemble (surroundings t n) (surroundings u m))
    (hbranch : Resembles (context t n).highlighted (t.branch n) (u.branch m)) :
    ResultsAgree n m x y := by
  have hstart : OutcomesResemble (surroundings t n).outer (start t n) (start u m) := ⟨hbranch, rfl⟩
  cases x with
  | ok a t' =>
    obtain ⟨-, -, hcourse⟩ := hx.course_ok ht
    cases y with
    | ok b u' =>
      obtain ⟨-, -, hcourse'⟩ := hy.course_ok hu
      have hagree := hcourse.agree hcourse' hs hstart
      rw [ResultsAgree, ← Tree.fragment_branch, ← Tree.fragment_branch]
      exact hagree
    | error failure u' => cases hcourse.agree (hy.course_error hu) hs hstart
  | error failure t' =>
    have hcourse := hx.course_error ht
    cases y with
    | ok b u' =>
      obtain ⟨-, -, hcourse'⟩ := hy.course_ok hu
      cases hcourse.agree hcourse' hs hstart
    | error failure' u' => exact hcourse.agree (hy.course_error hu) hs hstart

end DoxygenRest.Adjust
