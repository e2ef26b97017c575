import DoxygenRest.Proofs.Adjust.Clearance
import DoxygenRest.Proofs.Adjust.Walk
import DoxygenRest.Proofs.Cursor.Outside

/-!
# What the pass does outside of its subtree

Whatever the pass is run on and however it ends, all that it changes lies in its subtree, but for
the text around it (`outside_of_adjust`).  Text leaves the subtree in two ways, and both need a root
that is treated itself: a root that stands for a text is to give way to it, so the text is written
right before the root, and only then it turns out that the root cannot be removed; and white space
around the text of a root that is inline markup is moved right before the root and into its tail.
`spilled` tells what leaves the subtree.

Once the walk is below its root, nothing leaves the subtree any more (`Tracks.spares_runFor`).
-/

namespace DoxygenRest

open Branch

/-- The state that a program leaves behind, whether it succeeds or fails. -/
def Program.stateOf {ε σ α : Type} : EStateM.Result ε σ α → σ
  | .ok _ s => s
  | .error _ s => s

namespace Adjust

variable {root : NodeId} {outer : Context} {c : Cursor} {o : Outcome} {x : Branch}

/-! ### Leaving the outside alone -/

/-- One tree comes from another by changes in the subtree at an element alone, and the element has
the given own data after them, but for its text. -/
def Spares (t u : Tree) (n : NodeId) (e : Entry) : Prop :=
  ∃ b, Tree.Replaced t u n b ∧ b.own.withoutText = e.withoutText

/-- A tree spares its own surroundings of an element. -/
lemma Spares.refl {t : Tree} (h : t.WellFormed) (n : NodeId) : Spares t t n (t.branch n).own :=
  ⟨_, Tree.Replaced.refl h n, rfl⟩

/-- What is spared after a replacement is spared from the start. -/
lemma Spares.of_replaced {t u v : Tree} {n : NodeId} {b : Branch} {e : Entry}
    (hu : Tree.Replaced t u n b) (hv : Spares u v n e) : Spares t v n e := by
  obtain ⟨b', hb', hown⟩ := hv
  exact ⟨b', hu.trans hb', hown⟩

/-- The texts of the element itself are not part of what is spared. -/
lemma Spares.congr {t u : Tree} {n : NodeId} {e e' : Entry} (h : Spares t u n e)
    (he : e.withoutText = e'.withoutText) : Spares t u n e' := by
  obtain ⟨b, hb, hown⟩ := h
  exact ⟨b, hb, hown.trans he⟩

/-- A cursor that does nothing leaves everything alone. -/
lemma Tracks.spares_refl (hc : Tracks root outer c o) : Spares c.tree c.tree c.root o.whole.own := by
  rw [← hc.whole]
  exact Spares.refl hc.wellFormed c.root

/-! ### Below the root -/

/-- A step below the root of a walk leaves the root's own data as they were, but for the text. -/
lemma Step.withoutText_whole {fresh : NodeId} {l : Location} (hstep : Step outer fresh l o)
    (hbelow : l.frames ≠ []) :
    o.whole.own.withoutText = (Outcome.standing l).whole.own.withoutText := by
  cases hstep with
  | @replace x f fs text hτ =>
    rw [whole_skip]
    refine withoutText_plug fs ((Frame.withoutText_extendBefore _ _).trans ?_)
    exact Frame.withoutText_extendBefore f text
  | @remove x f fs hτ hmore =>
    rw [whole_skip]
    exact withoutText_plug fs (Frame.withoutText_extendBefore f x.tail)
  | @removeLast x f fs hτ hfs hempty =>
    exact withoutText_plug fs (Frame.withoutText_extendBefore f x.tail)
  | @flatten x fs hτ =>
    obtain ⟨f, gs, rfl⟩ := List.exists_cons_of_ne_nil hbelow
    exact withoutText_plug gs rfl
  | @lift x y front ys rest f fs hτ hchildren hinline hrow => exact withoutText_plug fs rfl
  | @trim x f fs text hτ htext =>
    exact withoutText_plug fs (Frame.withoutText_extendBefore f _)
  | trimRoot hτ htext => exact absurd rfl hbelow
  | @absorb x y prev ys rest f fs hτ hbefore hmergeable hchildren => exact withoutText_plug fs rfl
  | @absorbLeaf x prev rest f fs hτ hbefore hmergeable hchildren =>
    rw [whole_leave]
    exact withoutText_plug fs rfl
  | keep hτ hbefore hdiffer => rw [whole_enter]; rfl
  | @divideBefore x y front back ys zs f fs hτ hchildren hfront hrow =>
    exact withoutText_plug fs rfl
  | @divideBehind x y front back ys zs f fs hτ hchildren htail hrow =>
    exact withoutText_plug fs rfl
  | undivided hτ hcontent => rw [whole_enter]; rfl
  | advance hτ => rw [whole_enter]; rfl

/-- No step changes the tag of the root of a walk. -/
lemma Step.tag_whole {fresh : NodeId} {l : Location} (hstep : Step outer fresh l o) :
    o.whole.own.tag = (Outcome.standing l).whole.own.tag := by
  by_cases hbelow : l.frames = []
  · cases hstep with
    | flatten hτ =>
      cases hbelow
      rfl
    | trimRoot hτ htext => rfl
    | undivided hτ hcontent => rw [whole_enter]; rfl
    | advance hτ => rw [whole_enter]; rfl
    | _ => cases hbelow
  · have htag := congrArg Entry.tag (hstep.withoutText_whole hbelow)
    exact htag

/-- A run that does not stand on the root of its walk leaves everything outside of the subtree
alone, however it ends, and the root's own data but for its text. -/
theorem Tracks.spares_runFor (hc : Tracks root outer c o) (ho : o.OnRoot fun _ => False)
    (left : Nat) :
    Spares c.tree (Program.stateOf (editor.runFor left c)).tree c.root o.whole.own := by
  -- Below the root nothing is written around it, so each step replaces the branch at the root, and
  -- the rest of the run spares what is around that.
  induction left generalizing c o with
  | zero =>
    cases o with
    | finished b =>
      rw [hc.runFor_finished]
      exact hc.spares_refl
    | standing l =>
      rw [Editor.runFor, Program.bind_ok hc.hasNext_standing]
      exact hc.spares_refl
  | succ left ih =>
    cases o with
    | finished b =>
      rw [hc.runFor_finished]
      exact hc.spares_refl
    | standing l =>
      have hbelow : l.frames ≠ [] := ho
      obtain ⟨x, fs⟩ := l
      obtain ⟨f, gs, rfl⟩ := List.exists_cons_of_ne_nil hbelow
      have hperforms := hc.performs
      rw [spill, Tree.writtenBefore_empty] at hperforms
      rw [hc.runFor_standing]
      cases hmove : move (surroundings c.tree c.root) c.tree.size ⟨x, f :: gs⟩ with
      | error failure =>
        rw [hmove] at hperforms
        rw [Program.bind_error hperforms]
        exact hc.spares_refl
      | ok o' =>
        rw [hmove] at hperforms
        obtain ⟨c', hok, hc', hreplaced⟩ := hperforms
        have hstep := step_of_move hmove
        have hroot : c'.root = c.root := hc'.root_eq.trans hc.root_eq.symm
        have hrest := ih hc' (hstep.onRoot ho)
        rw [hroot] at hrest
        rw [Program.bind_ok hok]
        exact (hrest.of_replaced hreplaced).congr (hstep.withoutText_whole hbelow)

/-! ### At the root -/

/-- The white space in front of a text and the one behind it. -/
def outerBlanks (text : String) : String × String :=
  ((Text.splitBlanks text).1, (Text.splitBlanks text).2.2)

/-- The text that leaves a subtree in the context `k` when the pass is run on it: what is written
right before the root, and what is put in front of the root's tail. -/
def spilled (k : Context) (x : Branch) : String × String :=
  match treatment k none x with
  | .replace text => (text, "")
  | .trim => outerBlanks x.text
  | .flatten =>
    if x.children.all fun y => y.markup == .inline then outerBlanks x.stringValue else ("", "")
  | _ => ("", "")

/-- An element of this tag stands for a text as a whole. -/
def IsTextual (k : Context) (tag : String) : Prop :=
  k.highlighted = true ∧ (tag = "ref" ∨ tag = "sp") ∨ tag = "linebreak"

/-- Whether text takes the place of an element can be told by its tag and its context. -/
lemma exists_replace_iff {k : Context} {previous? : Option Entry} :
    (∃ text, treatment k previous? x = .replace text) ↔ IsTextual k x.own.tag := by
  constructor
  · rintro ⟨text, h⟩
    cases grounds h with
    | reference htag hk => exact Or.inl ⟨hk, Or.inl htag⟩
    | space htag hk => exact Or.inl ⟨hk, Or.inr htag⟩
    | linebreak htag => exact Or.inr htag
  · rintro (⟨hk, htag | htag⟩ | htag)
    · exact ⟨x.stringValue, by simp [treatment, htag, hk]⟩
    · exact ⟨" ", by simp [treatment, htag, hk]⟩
    · exact ⟨"\n", by simp [treatment, htag]⟩

/-- A treatment that writes to no element but the current one and those below, or moves on. -/
def Treatment.isContained : Treatment → Bool
  | replace _ | trim | flatten => false
  | _ => true

/-- A root whose treatment is contained is entered, if the pass does not fail. -/
lemma eq_enter_of_isContained {s : Surroundings} {fresh : NodeId}
    (hτ : (s.treatmentAt ⟨x, []⟩).isContained = true) (h : move s fresh ⟨x, []⟩ = .ok o) :
    o = enter x [] := by
  rw [move] at h
  split at h
  · cases h
  · cases h
  · next heq => rw [heq] at hτ; cases hτ
  · unfold moveLift at h
    split at h
    · exact (Except.ok.inj h).symm
    · split at h <;> cases h
  · next heq => rw [heq] at hτ; cases hτ
  · simp only [moveAbsorb] at h
    split at h
    · cases h
    · exact (Except.ok.inj h).symm
  · simp only [moveDivide] at h
    split at h
    · cases h
    · exact (Except.ok.inj h).symm
    · cases h
  · exact (Except.ok.inj h).symm

/-- An element without children, which does not stand for a text and has no white space around its
own, is treated without writing to other elements. -/
lemma isContained_treatment {k : Context} {previous? : Option Entry}
    (htextual : ¬IsTextual k x.own.tag) (hchildren : x.children = [])
    (hblanks : Text.hasOuterBlanks x.text = false) :
    (treatment k previous? x).isContained = true := by
  cases hτ : treatment k previous? x with
  | replace text => exact absurd (exists_replace_iff.1 ⟨text, hτ⟩) htextual
  | flatten =>
    cases grounds hτ with
    | link htag hne => exact absurd hchildren hne
  | trim =>
    cases grounds hτ with
    | untrimmed href hinline hchildren' hblanks' =>
      rw [hblanks] at hblanks'
      cases hblanks'
  | _ => rfl

/-- A link with a text is trimmed if there is white space around the text. -/
lemma hasOuterBlanks_of_treatment_flattened {k : Context} {previous? : Option Entry}
    (htag : x.own.tag = "ulink") (h : treatment k previous? (flattened x) ≠ .trim) :
    Text.hasOuterBlanks x.stringValue = false := by
  by_contra hblanks
  have hlink : (flattened x).own.tag = "ulink" := htag
  have hchildren : (flattened x).children = [] := rfl
  have htext : (flattened x).text = x.stringValue := rfl
  have hempty : (flattened x).isEmpty = false := by
    cases hisEmpty : (flattened x).isEmpty with
    | false => rfl
    | true =>
      rw [← htext, (Branch.isEmpty_iff.1 hisEmpty).1] at hblanks
      exact absurd rfl hblanks
  have hmarkup : (flattened x).markup = .inline := by
    rw [Branch.markup, Entry.markup_eq_classOfTag hlink (by decide)]
    decide
  have hinline : "ulink" ∈ Schema.inlineTags := by decide
  have hvisible : "ulink" ∉ Schema.presentationTags := by decide
  refine h ?_
  rw [treatment]
  simp [hlink, hchildren, htext, hempty, hmarkup, hblanks, hinline, hvisible]

section Root

variable (hc : Tracks root outer c (.standing ⟨x, []⟩))

include hc

/-- A root whose treatment is contained keeps its own data but for the text, and nothing outside of
the subtree changes. -/
lemma Tracks.spares_runFor_contained
    (hτ : ((surroundings c.tree c.root).treatmentAt ⟨x, []⟩).isContained = true) (left : Nat) :
    Spares c.tree (Program.stateOf (editor.runFor left c)).tree c.root x.own := by
  cases left with
  | zero =>
    rw [Editor.runFor, Program.bind_ok hc.hasNext_standing]
    exact hc.spares_refl
  | succ left =>
    have hperforms := hc.performs
    have hspill : spill (surroundings c.tree c.root) ⟨x, []⟩ = "" := by
      rw [spill]
      split
      · next heq => rw [heq] at hτ; cases hτ
      · next heq => rw [heq] at hτ; cases hτ
      · rfl
    rw [hspill, Tree.writtenBefore_empty] at hperforms
    rw [hc.runFor_standing]
    cases hmove : move (surroundings c.tree c.root) c.tree.size ⟨x, []⟩ with
    | error failure =>
      rw [hmove] at hperforms
      rw [Program.bind_error hperforms]
      exact hc.spares_refl
    | ok o =>
      rw [hmove, eq_enter_of_isContained hτ hmove] at hperforms
      obtain ⟨c', hok, hc', hreplaced⟩ := hperforms
      have hroot : c'.root = c.root := hc'.root_eq.trans hc.root_eq.symm
      have hrest := hc'.spares_runFor (onRoot_enter ..) left
      rw [hroot, whole_enter] at hrest
      rw [Program.bind_ok hok]
      exact hrest.of_replaced hreplaced

/-- A root that stands for a text is not removed, but the text is written before it all the same. -/
lemma Tracks.spares_runFor_replace {text : String}
    (hτ : (surroundings c.tree c.root).treatmentAt ⟨x, []⟩ = .replace text) (left : Nat) :
    Spares (c.tree.writtenBefore c.root text)
      (Program.stateOf (editor.runFor (left + 1) c)).tree c.root x.own := by
  have hperforms := hc.performs
  have hspill : spill (surroundings c.tree c.root) ⟨x, []⟩ = text := by
    rw [spill, hτ]
  have hmove : move (surroundings c.tree c.root) c.tree.size ⟨x, []⟩ =
      .error (refusalOfRoot "remove" x) := by
    rw [move, hτ]
    rfl
  rw [hspill, hmove] at hperforms
  rw [hc.runFor_standing, Program.bind_error hperforms]
  exact (hc.writeBefore text).spares_refl

/-- White space around the text of a root that is inline markup is moved before the root and into
the root's tail. -/
lemma Tracks.spares_runFor_trim
    (hτ : (surroundings c.tree c.root).treatmentAt ⟨x, []⟩ = .trim) (left : Nat) :
    Spares (c.tree.writtenBefore c.root (outerBlanks x.text).1)
      (Program.stateOf (editor.runFor (left + 1) c)).tree c.root
      { x.own with tail := Tree.prependTo x.own.tail (outerBlanks x.text).2 } := by
  have hτ' := treatmentAt_outer_of_ne_absorb hτ (by simp)
  have hgrounds := groundsAt hτ'
  obtain ⟨text, htext⟩ := exists_text_of_trim hτ'
  have htext' : x.text = text := by rw [Branch.text, htext, Option.getD_some]
  have hspill : spill (surroundings c.tree c.root) ⟨x, []⟩ = (outerBlanks x.text).1 := by
    rw [spill, hτ]
    rfl
  have hmove : move (surroundings c.tree c.root) c.tree.size ⟨x, []⟩ =
      .ok (.standing ⟨trimmed x text, []⟩) := by
    rw [move, hτ]
    simp only [moveTrim, htext]
    rfl
  have hperforms := hc.performs
  rw [hspill, hmove] at hperforms
  obtain ⟨c', hok, hc', hreplaced⟩ := hperforms
  have hroot : c'.root = c.root := hc'.root_eq.trans hc.root_eq.symm
  -- What is trimmed is neither trimmed again nor does it have children or stand for a text.
  have hcontained :
      ((surroundings c'.tree c'.root).treatmentAt ⟨trimmed x text, []⟩).isContained = true := by
    have houter : (surroundings c'.tree c'.root).outer = (surroundings c.tree c.root).outer :=
      hc'.around.trans hc.around.symm
    refine isContained_treatment (fun htextual => ?_) ?_ ?_
    · have hreplace : ∃ text', (surroundings c.tree c.root).treatmentAt ⟨x, []⟩ = .replace text' :=
        exists_replace_iff.2 (by rw [contextAt, houter] at htextual; exact htextual)
      rw [hτ] at hreplace
      obtain ⟨text', heq⟩ := hreplace
      cases heq
    · cases hgrounds
      assumption
    · rw [text_trimmed]
      exact Text.hasOuterBlanks_splitBlanks text
  have hrest := hc'.spares_runFor_contained hcontained left
  rw [hroot] at hrest
  rw [hc.runFor_standing, Program.bind_ok hok]
  refine (hrest.of_replaced hreplaced).congr ?_
  rw [htext']
  rfl

/-- A root that is a link becomes a link with a text, which is trimmed then. -/
lemma Tracks.spares_runFor_flatten
    (hτ : (surroundings c.tree c.root).treatmentAt ⟨x, []⟩ = .flatten)
    (hinline : ∀ y ∈ x.children, y.markup = .inline) (left : Nat) :
    Spares (c.tree.writtenBefore c.root (outerBlanks x.stringValue).1)
      (Program.stateOf (editor.runFor (left + 2) c)).tree c.root
      { x.own with tail := Tree.prependTo x.own.tail (outerBlanks x.stringValue).2 } := by
  have hspill : spill (surroundings c.tree c.root) ⟨x, []⟩ = "" := by
    rw [spill, hτ]
  have hblock : (x.children.find? fun y => y.markup != .inline) = none := by
    simpa using hinline
  have hmove : move (surroundings c.tree c.root) c.tree.size ⟨x, []⟩ =
      .ok (.standing ⟨flattened x, []⟩) := by
    rw [move, hτ]
    simp only [moveFlatten, hblock]
  have hperforms := hc.performs
  rw [hspill, Tree.writtenBefore_empty, hmove] at hperforms
  obtain ⟨c', hok, hc', hreplaced⟩ := hperforms
  have hroot : c'.root = c.root := hc'.root_eq.trans hc.root_eq.symm
  have houter : (surroundings c'.tree c'.root).outer = (surroundings c.tree c.root).outer :=
    hc'.around.trans hc.around.symm
  rw [hc.runFor_standing, Program.bind_ok hok]
  -- The flattened link is trimmed next, or what comes next writes nothing around it.
  by_cases htrim : (surroundings c'.tree c'.root).treatmentAt ⟨flattened x, []⟩ = .trim
  · have hrest := hc'.spares_runFor_trim htrim left
    rw [hroot] at hrest
    exact hrest.of_replaced (hreplaced.writtenBefore hc.wellFormed c.root _)
  · -- A link with a text is only trimmed if there is white space around the text.
    have htag : x.own.tag = "ulink" := by
      cases groundsAt (treatmentAt_outer_of_ne_absorb hτ (by simp)) with
      | link htag hchildren => exact htag
    have hblanks := hasOuterBlanks_of_treatment_flattened htag htrim
    have hcontained :
        ((surroundings c'.tree c'.root).treatmentAt ⟨flattened x, []⟩).isContained = true := by
      refine isContained_treatment (fun htextual => ?_) rfl hblanks
      simp [IsTextual, flattened, htag] at htextual
    have hrest := hc'.spares_runFor_contained hcontained (left + 1)
    rw [hroot] at hrest
    rw [outerBlanks, Text.splitBlanks_of_hasOuterBlanks hblanks, Tree.writtenBefore_empty]
    refine (hrest.of_replaced hreplaced).congr ?_
    simp [Entry.withoutText, flattened, Tree.prependTo]

/-- A link that is refused for a block in it stays as it is. -/
lemma Tracks.spares_runFor_refusedLink
    (hτ : (surroundings c.tree c.root).treatmentAt ⟨x, []⟩ = .flatten)
    (hblock : ¬(x.children.all fun y => y.markup == .inline) = true) (left : Nat) :
    Spares c.tree (Program.stateOf (editor.runFor (left + 1) c)).tree c.root x.own := by
  obtain ⟨block, hfind⟩ : ∃ block, (x.children.find? fun y => y.markup != .inline) =
      some block := by
    rw [← Option.isSome_iff_exists, List.find?_isSome]
    simpa using hblock
  have hmove : move (surroundings c.tree c.root) c.tree.size ⟨x, []⟩ =
      .error (.unexpected block.own.tag x.own.tag) := by
    rw [move, hτ]
    simp only [moveFlatten, hfind]
  have hperforms := hc.performs
  rw [spill, hτ, hmove, Tree.writtenBefore_empty] at hperforms
  rw [hc.runFor_standing, Program.bind_error hperforms]
  exact hc.spares_refl

/-- Whatever the root of a walk is, what leaves the subtree is what `spilled` says, as soon as two
steps can be taken. -/
theorem Tracks.spares_runFor_root (left : Nat) :
    Spares (c.tree.writtenBefore c.root (spilled outer x).1)
      (Program.stateOf (editor.runFor (left + 2) c)).tree c.root
      { x.own with tail := Tree.prependTo x.own.tail (spilled outer x).2 } := by
  have houter : (surroundings c.tree c.root).outer = outer := hc.around
  have hsame {τ : Treatment} (hτ : (surroundings c.tree c.root).treatmentAt ⟨x, []⟩ = τ)
      (hne : τ ≠ .absorb) : treatment outer none x = τ := by
    rw [← houter]
    exact treatmentAt_outer_of_ne_absorb hτ hne
  -- Where nothing is spilled, the root keeps its tail.
  have hnone (hspilled : spilled outer x = ("", ""))
      (h : Spares c.tree (Program.stateOf (editor.runFor (left + 2) c)).tree c.root x.own) :
      Spares (c.tree.writtenBefore c.root (spilled outer x).1)
        (Program.stateOf (editor.runFor (left + 2) c)).tree c.root
        { x.own with tail := Tree.prependTo x.own.tail (spilled outer x).2 } := by
    rw [hspilled, Tree.writtenBefore_empty]
    exact h
  cases hτ : (surroundings c.tree c.root).treatmentAt ⟨x, []⟩ with
  | replace text =>
    have hspilled : spilled outer x = (text, "") := by
      rw [spilled, hsame hτ (by simp)]
    rw [hspilled]
    exact hc.spares_runFor_replace hτ (left + 1)
  | trim =>
    have hspilled : spilled outer x = outerBlanks x.text := by
      rw [spilled, hsame hτ (by simp)]
    rw [hspilled]
    exact hc.spares_runFor_trim hτ (left + 1)
  | flatten =>
    by_cases hall : (x.children.all fun y => y.markup == .inline) = true
    · have hspilled : spilled outer x = outerBlanks x.stringValue := by
        rw [spilled, hsame hτ (by simp)]
        exact if_pos hall
      have hinline : ∀ y ∈ x.children, y.markup = .inline := by simpa using hall
      rw [hspilled]
      exact hc.spares_runFor_flatten hτ hinline left
    · have hspilled : spilled outer x = ("", "") := by
        rw [spilled, hsame hτ (by simp)]
        exact if_neg hall
      exact hnone hspilled (hc.spares_runFor_refusedLink hτ hall (left + 1))
  | absorb =>
    have hadvance := treatmentAt_outer_of_absorb hτ
    rw [houter] at hadvance
    have hspilled : spilled outer x = ("", "") := by
      rw [spilled, show treatment outer none x = .advance from hadvance]
    exact hnone hspilled (hc.spares_runFor_contained (by rw [hτ]; rfl) (left + 2))
  | remove | lift | divide | advance =>
    have hspilled : spilled outer x = ("", "") := by
      rw [spilled, hsame hτ (by simp)]
    exact hnone hspilled (hc.spares_runFor_contained (by rw [hτ]; rfl) (left + 2))

end Root

/-! ### The pass -/

/-- A root that is no inline markup and no blank of a listing spills nothing. -/
lemma spilled_of_notMem {k : Context} (htag : x.own.tag ∉ Schema.inlineTags)
    (hsp : x.own.tag ≠ "sp") : spilled k x = ("", "") := by
  have hne {tag : String} (hmem : tag ∈ Schema.inlineTags) : x.own.tag ≠ tag :=
    fun heq => htag (heq ▸ hmem)
  rw [spilled]
  split
  · next text hτ =>
    rcases exists_replace_iff.1 ⟨text, hτ⟩ with ⟨-, href | hspace⟩ | hbreak
    · exact absurd href (hne (by decide))
    · exact absurd hspace hsp
    · exact absurd hbreak (hne (by decide))
  · next hτ =>
    cases grounds hτ with
    | untrimmed href hinline hchildren hblanks =>
      exact absurd (Entry.mem_inlineTags_of_markup hinline) htag
  · next hτ =>
    cases grounds hτ with
    | link hlink hchildren => exact absurd hlink (hne (by decide))
  · rfl

/-- **What the pass does outside of its subtree**: however it ends, of the elements that are neither
the root nor below it, only the one whose text stands right before the root changes, by the text
that is spilled there; the root keeps its tag, attributes, namespaces and parent, and its tail but
for what is spilled in front of it.  Unless the root is inline markup or a blank of a listing,
nothing is spilled: all elements outside keep all they have, and the root keeps its tail. -/
theorem outside_of_adjust {t : Tree} (h : t.WellFormed) (root : NodeId) :
    let u := Program.stateOf (adjust root t)
    let out := spilled (context t root) (t.branch root)
    (∀ n < t.size, n ≠ root → root ∉ t.ancestors n →
      u.element n = (t.writtenBefore root out.1).element n) ∧
      u.tag root = t.tag root ∧ u.attributes root = t.attributes root ∧
      u.declaredNamespaces root = t.declaredNamespaces root ∧ u.parent? root = t.parent? root ∧
      u.tail? root = Tree.prependTo (t.tail? root) out.2 ∧
      (t.tag root ∉ Schema.inlineTags → t.tag root ≠ "sp" →
        (∀ n < t.size, n ≠ root → root ∉ t.ancestors n → u.element n = t.element n) ∧
          u.tail? root = t.tail? root) := by
  intro u out
  -- A run has steps enough to get past the root, where text may be written around it.
  obtain ⟨limit, hlimit⟩ : ∃ limit, editor.maxSteps = limit + 2 := ⟨999998, rfl⟩
  have hstate : u = (Program.stateOf (editor.runFor (limit + 2) (Cursor.start t root))).tree := by
    show Program.stateOf (adjust root t) = _
    rw [adjust, runOn, Editor.run, hlimit]
    cases editor.runFor (limit + 2) (Cursor.start t root) <;> rfl
  obtain ⟨b, hb, hown⟩ := (tracks_start h root).spares_runFor_root limit
  rw [← hstate] at hb
  have hb : Tree.Replaced (t.writtenBefore root out.1) u root b := hb
  have hentry : u.entry root = b.own := by
    rw [← Tree.own_branch hb.wellFormed, hb.branch]
  have hown : (u.entry root).withoutText =
      { t.entry root with tail := Tree.prependTo (t.tail? root) out.2 }.withoutText := by
    rw [hentry, hown, Tree.own_branch h]
    rfl
  have houtside : ∀ n < t.size, n ≠ root → root ∉ t.ancestors n →
      u.element n = (t.writtenBefore root out.1).element n := by
    intro n hn hne hbelow
    refine hb.outside n (by rwa [Tree.size_writtenBefore h]) ?_
    rw [Tree.branch_writtenBefore h, Tree.mem_numbers_branch h, not_or]
    exact ⟨hne, hbelow⟩
  have htail : u.tail? root = Tree.prependTo (t.tail? root) out.2 := congrArg Entry.tail hown
  refine ⟨houtside, congrArg Entry.tag hown, congrArg Entry.attributes hown,
    congrArg Entry.namespaces hown, ?_, htail, fun htag hsp => ?_⟩
  · rw [hb.parent, Tree.parent?_writtenBefore h]
  · have hout : out = ("", "") := by
      refine spilled_of_notMem ?_ ?_
      · rwa [Tree.own_branch h]
      · rwa [Tree.own_branch h]
    rw [hout, Tree.writtenBefore_empty] at houtside
    rw [hout] at htail
    exact ⟨houtside, htail⟩

/-- A word in bold with white space around it, between other words:

    <para>x<bold> b </bold>y</para>
-/
def spaced : Tree :=
  ⟨#[{ tag := "para", text := some "x", children := [1] },
    { tag := "bold", text := some " b ", tail := some "y", parent := some 0 }]⟩

/-- Run on the bold word alone, the pass moves the white space out of its subtree. -/
theorem outside_of_adjust_spaced :
    let u := Program.stateOf (adjust 1 spaced)
    spaced.WellFormed ∧ u.element 0 = (spaced.writtenBefore 1 " ").element 0 ∧
      u.tail? 1 = some " y" := by
  have h : spaced.WellFormed := Tree.wellFormed_of_ordered (by decide)
  obtain ⟨houtside, -, -, -, -, htail, -⟩ := outside_of_adjust h 1
  have hspilled : spilled (context spaced 1) (spaced.branch 1) = (" ", " ") := by decide +kernel
  rw [hspilled] at houtside htail
  exact ⟨h, houtside 0 (by decide) (by decide) (by decide), htail⟩

/-- A line that is broken:

    <para>x<linebreak/>y</para>
-/
def broken : Tree :=
  ⟨#[{ tag := "para", text := some "x", children := [1] },
    { tag := "linebreak", tail := some "y", parent := some 0 }]⟩

/-- The pass does change elements outside of its subtree: run on the break alone it fails, and
leaves the break in the text before it. -/
theorem not_outside_untouched_of_adjust :
    ¬∀ (t : Tree) (root : NodeId), t.WellFormed → ∀ n < t.size, n ≠ root → root ∉ t.ancestors n →
      (Program.stateOf (adjust root t)).element n = t.element n := by
  intro h
  have hsame := h broken 1 (Tree.wellFormed_of_ordered (by decide)) 0 (by decide) (by decide)
    (by decide)
  have hrun : adjust 1 broken =
      .error (.misuse "remove" "linebreak" "it is the cursor's root") (broken.extendText 0 "\n") := by
    decide +kernel
  rw [hrun] at hsame
  exact absurd hsame (by decide)

end Adjust

end DoxygenRest
