import DoxygenRest.Proofs.Adjust.Clearance
import DoxygenRest.Proofs.Adjust.Reading
import DoxygenRest.Proofs.Adjust.Walk
import DoxygenRest.Proofs.Text.Visible

/-!
# The pass conserves what is visible

White space aside, the pass leaves the text of a subtree as it is (`visible_of_adjust`): it writes
line breaks and spaces, but moves all other text.  This needs that nothing is removed with its text,
and that an element that stands for a space in a highlight holds nothing visible.
-/

namespace DoxygenRest.Adjust

open Branch
open Text (visible)

variable {outer : Context} {x : Branch} {highlighted : Bool} {bs : List Branch}

/-! ### Reading what is visible -/

/-- Reading the visible text; an element that stands for a space is read as nothing. -/
def visibleReading : Reading Char where
  ink _ s := visible s
  stamp? highlighted tag := if tag = "sp" ∧ highlighted then some [] else none
  ink_append _ s s' := Text.visible_append s s'
  ink_congr _ _ _ := rfl
  ink_blank _ _ _ hs := by rw [Text.visible_eq_nil_iff.2 hs]
  stamped {highlighted tag} h := by
    split at h
    · next hsp => exact Or.inr (Or.inr hsp)
    · exact absurd rfl h

/-- An element that stands for a space holds nothing visible. -/
def BlankSpace (highlighted : Bool) (x : Branch) : Prop :=
  x.own.tag = "sp" ∧ highlighted = true → visible x.stringValue = []

/-- If nothing visible is inside of elements that stand for spaces, all visible text is read. -/
lemma read_visibleReading
    (h : ThroughoutRow BlankSpace (highlighted || x.own.tag == "highlight") x.children) :
    visibleReading.read highlighted x = visible x.stringValue := by
  refine visibleReading.read_eq_ink (fun _ _ _ => rfl) (fun {k y} hy symbols hsymbols => ?_) h
  have hstamp : visibleReading.stamp? k y.own.tag =
      if y.own.tag = "sp" ∧ k then some [] else none := rfl
  rw [hstamp, Option.mem_def] at hsymbols
  split_ifs at hsymbols with hsp
  exact (Option.some.inj hsymbols).symm.trans (hy hsp).symm

/-- In a highlight, no cleared element stands for a space. -/
lemma throughout_blankSpace (h : Throughout Cleared highlighted x) :
    Throughout BlankSpace highlighted x := by
  induction x using Branch.induction generalizing highlighted with
  | step n e cs ih =>
    rw [throughout_iff, throughoutRow_iff] at h ⊢
    exact ⟨fun hsp => absurd hsp.1 (h.1.textual hsp.2).2, fun c hc => ih c hc (h.2 c hc)⟩

/-! ### Elements ahead -/

/-- The pass does not remove the element with its text, and what it takes the text of as a whole
holds nothing visible that is not read. -/
structure Legible (highlighted : Bool) (x : Branch) : Prop where
  visible : x.own.tag ∉ Schema.presentationTags ∧ x.own.tag ≠ "linebreak"
  quoted : x.own.tag = "ulink" ∨ x.own.tag = "ref" ∧ highlighted = true →
    ThroughoutRow BlankSpace (highlighted || x.own.tag == "highlight") x.children

/-- A part of a legible element is legible. -/
lemma divisible_legible : Divisible Legible where
  part {highlighted x x'} h halike hdrawn := by
    refine ⟨?_, fun htag => ?_⟩
    · rw [halike.tag]
      exact h.visible
    · rw [halike.tag] at htag ⊢
      refine (h.quoted htag).drawn (fun tail hblank hsp => ?_) hdrawn
      rw [stringValue_withTail]
      exact hblank hsp
  bare {highlighted x} hchildren htag hsp := by
    have hcleared := cleared_of_notMem_inlineTags htag hsp
    refine ⟨hcleared.visible, fun _ => ?_⟩
    rw [hchildren]
    trivial

/-- In order, a step treats as text what is read as text. -/
lemma agrees_visibleReading {l : Location} (h : (Outcome.standing l).Orderly Legible outer)
    (hroot : (Outcome.standing l).Rooted) : visibleReading.Agrees outer l where
  root := hroot
  replace e text hτ := by
    have hlegible := (throughout_iff.1 h.1).1
    cases groundsAt hτ with
    | reference htag hk =>
      have hstamp : visibleReading.stamp? (contextAt outer l.frames).highlighted
          l.focus.own.tag = none := if_neg (by simp [htag])
      rw [visibleReading.item_of_eq_none hstamp,
        read_visibleReading (hlegible.quoted (Or.inr ⟨htag, hk⟩))]
      rfl
    | space htag hk =>
      have hstamp : visibleReading.stamp? (contextAt outer l.frames).highlighted
          l.focus.own.tag = some [] := if_pos ⟨htag, hk⟩
      rw [Reading.item, hstamp, Option.getD_some]
      rfl
    | linebreak htag => exact absurd htag hlegible.visible.2
  remove hτ := by
    cases groundsAt hτ with
    | presentation htag => exact absurd htag (throughout_iff.1 h.1).1.visible.1
    | empty hkind hempty =>
      obtain ⟨htext, hchildren⟩ := isEmpty_iff.1 hempty
      -- A space in a highlight is read as none, but a space element is never removed for being
      -- empty.
      have hsp : l.focus.own.tag ≠ "sp" := by
        rcases hkind with hinline | htag | htag
        · intro htag
          have hmem := Entry.mem_inlineTags_of_markup hinline
          rw [htag] at hmem
          exact absurd hmem (by decide)
        · simp [htag]
        · simp [htag]
      rw [visibleReading.item_of_eq_none (if_neg fun h => hsp h.1), visibleReading.read_eq, htext,
        hchildren, visibleReading.readRow_nil, visibleReading.ink_empty, List.append_nil]
  flatten hτ := by
    cases groundsAt hτ with
    | link htag hchildren =>
      exact read_visibleReading ((throughout_iff.1 h.1).1.quoted (Or.inl htag))
  gap _ _ _ _ _ _ _ _ := rfl

/-! ### The pass -/

/-- What each step keeps: all is in order, and the visible text that is read stays the same. -/
structure Outcome.Legible (outer : Context) (text : List Char) (o : Outcome) : Prop where
  orderly : o.Orderly Adjust.Legible outer
  rooted : o.Rooted
  read_eq : visibleReading.read outer.highlighted o.whole = text

/-- After a step, the visible text is the same and all is legible still. -/
lemma Step.legible {fresh : NodeId} {l : Location} {o : Outcome} {text : List Char}
    (hstep : Step outer fresh l o) (h : (Outcome.standing l).Legible outer text) :
    o.Legible outer text := by
  refine ⟨hstep.orderly divisible_legible h.orderly, hstep.rooted h.rooted, ?_⟩
  rw [hstep.read_eq (agrees_visibleReading h.orderly h.rooted)]
  exact h.read_eq

/-- **The pass conserves what is visible**: if it succeeds on a subtree where nothing is removed with
its text, the visible text of the subtree is what it was. -/
theorem visible_of_adjust {t t' : Tree} {root : NodeId} (h : t.WellFormed)
    (hroot : t.tag root ∉ Schema.inlineTags)
    (hvisible : ∀ n, root ∈ t.ancestors n →
      t.tag n ∉ Schema.presentationTags ∧ t.tag n ≠ "linebreak")
    (hspace : ∀ n, root ∈ t.ancestors n → t.tag n = "sp" →
      (∃ a ∈ t.ancestors n, t.tag a = "highlight") → Text.isBlank (t.stringValue n) = true)
    (hrun : adjust root t = .ok () t') :
    visible (t'.stringValue root) = visible (t.stringValue root) := by
  have hblank (n : NodeId) (hn : root ∈ t.ancestors n) :
      BlankSpace (context t n).highlighted (t.branch n) := by
    rintro ⟨htag, hk⟩
    rw [Tree.own_branch h] at htag
    rw [← Tree.stringValue_eq_branch, Text.visible_eq_nil_iff]
    exact hspace n hn htag (highlighted_iff.1 hk)
  have hlegible (n : NodeId) (hn : n = root ∨ root ∈ t.ancestors n) :
      Legible (context t n).highlighted (t.branch n) := by
    refine ⟨?_, fun _ => ?_⟩
    · rw [Tree.own_branch h]
      rcases hn with rfl | hn
      · have hcleared : Cleared false (t.branch n) := by
          refine cleared_of_notMem_inlineTags ?_ fun hk => absurd hk Bool.false_ne_true
          rw [Tree.own_branch h]
          exact hroot
        have hvisible := hcleared.visible
        rw [Tree.own_branch h] at hvisible
        exact hvisible
      · exact hvisible n hn
    · refine throughoutRow_branch h fun m hm => hblank m ?_
      rcases hn with rfl | hn
      · exact hm
      · exact Tree.ancestors_subset h hm hn
  have hstart : (Outcome.standing ⟨t.branch root, []⟩).Legible (context t root)
      (visible (t.stringValue root)) := by
    refine ⟨⟨throughout_branch h hlegible, trivial⟩, fun _ => ?_, ?_⟩
    · rw [Tree.own_branch h]
      exact hroot
    · rw [Tree.stringValue_eq_branch]
      exact read_visibleReading (throughoutRow_branch h hblank)
  obtain ⟨-, -, hend⟩ := keeps_of_adjust h hrun Step.legible hstart
  rw [Tree.stringValue_eq_branch, ← hend.read_eq]
  exact (read_visibleReading (throughout_iff.1 (throughout_blankSpace hend.orderly)).2).symm

end DoxygenRest.Adjust
