import DoxygenRest.Document
import DoxygenRest.Proofs.Adjust.Course
import DoxygenRest.Proofs.Adjust.Layout
import DoxygenRest.Proofs.Adjust.VisibleText
import DoxygenRest.Proofs.Rest.Conveyance
import DoxygenRest.Proofs.Tree.Specimen

/-!
# No text is dropped on the way

White space aside, the pass conserves the text of a description, and what is rendered of it then
shows all text that its blocks carry, in order (`visible_of_convert`).

Blocks do not carry all text that stands in them.  The title of a section is shown for sections of
one kind alone, so that a note loses its title (`not_visible_of_convert`).
-/

namespace DoxygenRest.Rest

open Branch
open Text (visible)
open scoped List

variable {index : Resolver} {t t' : Tree} {d n : NodeId} {out : String}

/-- An element that is converted is adjusted, and then rendered. -/
lemma of_convert (h : convert index n t = .ok out t') :
    Adjust.adjust n t = .ok () t' ∧ render index t' n "" = .ok out := by
  unfold convert at h
  cases hadjust : Adjust.adjust n t with
  | error failure u =>
    rw [Program.bind_error hadjust] at h
    cases h
  | ok a u =>
    rw [Program.bind_ok hadjust, Program.get_bind_apply] at h
    cases hrender : render index u n "" with
    | error failure =>
      rw [hrender] at h
      cases h
    | ok text =>
      rw [hrender] at h
      cases h
      exact ⟨rfl, hrender⟩

/-- The pass leaves a tidy subtree. -/
lemma isTidy_of_adjust (h : t.WellFormed)
    (hformula : ∀ n, n = d ∨ d ∈ t.ancestors n → t.tag n = "formula" → t.children n = [])
    (hrun : Adjust.adjust d t = .ok () t') : IsTidy t' d where
  undivided _ hn htag := Adjust.undivided_of_adjust h hformula hrun hn htag
  unbroken n hn := by
    obtain ⟨h', hapart⟩ := Adjust.apart_of_adjust h hformula hrun
    have hcleared := (Adjust.throughout_iff.1 (hapart.orderly.below h' (Or.inr hn))).1
    have hbreak := hcleared.visible.2
    rwa [Tree.own_branch h'] at hbreak

/-- **No text is dropped on the way**: if a description is converted in which nothing is for another
output format, no line is broken, no formula holds elements, and no space in a listing holds text,
then its visible text is what it was, and the output shows all of it that its blocks carry, in
order; so it shows all text if nothing visible stands outside of the parts of blocks. -/
theorem visible_of_convert (index : Resolver) (h : t.WellFormed)
    (hd : t.tag d ∈ Schema.descriptionTags)
    (hvisible : ∀ n, d ∈ t.ancestors n →
      t.tag n ∉ Schema.presentationTags ∧ t.tag n ≠ "linebreak")
    (hformula : ∀ n, d ∈ t.ancestors n → t.tag n = "formula" → t.children n = [])
    (hspace : ∀ n, d ∈ t.ancestors n → t.tag n = "sp" →
      (∃ a ∈ t.ancestors n, t.tag a = "highlight") → Text.isBlank (t.stringValue n) = true)
    (hrun : convert index d t = .ok out t') :
    visible (t'.stringValue d) = visible (t.stringValue d) ∧
      carried (t'.branch d) <+ out.toList ∧
      ((∀ n, n = d ∨ d ∈ t'.ancestors n → IsComplete (t'.branch n)) →
        visible (t.stringValue d) <+ out.toList) := by
  obtain ⟨hadjust, hrender⟩ := of_convert hrun
  have hplain : Adjust.IsPlain (t.tag d) := by
    have hall : ∀ tag ∈ Schema.descriptionTags,
        tag ∉ Schema.inlineTags ∧ tag ≠ "para" ∧ tag ≠ "simplesect" ∧ tag ≠ "sp" := by
      decide
    exact hall _ hd
  -- First the pass keeps what is visible, then rendering shows what is carried; where all is
  -- complete, that is the same.
  have hsame := Adjust.visible_of_adjust h hplain.1 hvisible hspace hadjust
  have hflat (n : NodeId) (hn : n = d ∨ d ∈ t.ancestors n) (htag : t.tag n = "formula") :
      t.children n = [] := by
    rcases hn with rfl | hn
    · rw [htag] at hd
      exact absurd hd (by decide)
    · exact hformula n hn htag
  have h' := (Adjust.apart_of_adjust h hflat hadjust).1
  have htidy := isTidy_of_adjust h hflat hadjust
  have hrendered : IsRendered t' d := by
    refine Or.inl (List.mem_cons_of_mem _ ?_)
    rwa [Adjust.tag_root_of_adjust h hplain hadjust]
  have hdepth : (t'.descendants d).length < t'.size + 1 :=
    Nat.lt_succ_of_le (Tree.length_descendants_le h' d)
  rw [render, Renderer.render] at hrender
  have hconveys := conveys_of_renderWithin h' htidy hdepth (Or.inl rfl) hrendered hrender
  have hcarried := hconveys.trans (Text.visible_sublist out)
  refine ⟨hsame, hcarried, fun hcomplete => ?_⟩
  rwa [← hsame, ← carried_eq_visible_of_complete h' hcomplete]

/-- A description with a line of text, and a section of a given kind that has a title:

    <detaileddescription>
      <para>a <bold>b</bold></para>
      <para><simplesect kind="..."><title>T</title><para>x</para></simplesect></para>
    </detaileddescription>
-/
def titled (kind : String) : Tree :=
  ⟨#[{ tag := "detaileddescription", children := [1, 3] },
    { tag := "para", text := some "a ", parent := some 0, children := [2] },
    { tag := "bold", text := some "b", parent := some 1 },
    { tag := "para", parent := some 0, children := [4] },
    { tag := "simplesect", attributes := .ofList [("kind", kind)], parent := some 3
      children := [5, 6] },
    { tag := "title", text := some "T", parent := some 4 },
    { tag := "para", text := some "x", parent := some 4 }]⟩

/-- The example is well-formed. -/
lemma wellFormed_titled (kind : String) : (titled kind).WellFormed :=
  Tree.wellFormed_of_ordered (of_decide_eq_true rfl)

/-- Nothing in the description is removed with its text. -/
lemma tag_titled (kind : String) {n : NodeId} (hn : 0 ∈ (titled kind).ancestors n) :
    (titled kind).tag n ∉ Schema.presentationTags ∧ (titled kind).tag n ≠ "linebreak" ∧
      (titled kind).tag n ≠ "formula" ∧ (titled kind).tag n ≠ "sp" := by
  have hall : ∀ n < (titled kind).size,
      (titled kind).tag n ∉ Schema.presentationTags ∧ (titled kind).tag n ≠ "linebreak" ∧
        (titled kind).tag n ≠ "formula" ∧ (titled kind).tag n ≠ "sp" :=
    of_decide_eq_true rfl
  exact hall n (Tree.lt_size_of_below (wellFormed_titled kind) hn)

/-- With a section that is shown with its title, all text of the description is shown. -/
theorem visible_of_convert_titled :
    convert Resolver.none 0 (titled "par") =
        .ok "a **b**\n\n.. admonition:: T\n\n   x" (titled "par") ∧
      visible ((titled "par").stringValue 0) = ['a', 'b', 'T', 'x'] ∧
      ['a', 'b', 'T', 'x'] <+ "a **b**\n\n.. admonition:: T\n\n   x".toList := by
  have hrun : convert Resolver.none 0 (titled "par") =
      .ok "a **b**\n\n.. admonition:: T\n\n   x" (titled "par") := by
    decide +kernel
  have hcomplete : ∀ n < (titled "par").size, IsComplete ((titled "par").branch n) := by
    decide +kernel
  have hvisible : visible ((titled "par").stringValue 0) = ['a', 'b', 'T', 'x'] := by
    decide +kernel
  obtain ⟨-, -, hall⟩ := visible_of_convert Resolver.none (wellFormed_titled "par") (by decide)
    (fun n hn => ⟨(tag_titled "par" hn).1, (tag_titled "par" hn).2.1⟩)
    (fun n hn htag => absurd htag (tag_titled "par" hn).2.2.1)
    (fun n hn htag => absurd htag (tag_titled "par" hn).2.2.2) hrun
  rw [hvisible] at hall
  refine ⟨hrun, hvisible, hall fun n hn => hcomplete n ?_⟩
  rcases hn with rfl | hn
  · decide
  · exact Tree.lt_size_of_below (wellFormed_titled "par") hn

/-- A note is shown without its title. -/
theorem not_visible_of_convert :
    ¬∀ (index : Resolver) (t t' : Tree) (d : NodeId) (out : String), t.WellFormed →
      t.tag d ∈ Schema.descriptionTags →
      (∀ n, d ∈ t.ancestors n →
        t.tag n ∉ Schema.presentationTags ∧ t.tag n ≠ "linebreak" ∧ t.tag n ≠ "formula") →
      convert index d t = .ok out t' → visible (t.stringValue d) <+ out.toList := by
  intro h
  have hrun : convert Resolver.none 0 (titled "note") =
      .ok "a **b**\n\n.. note::\n\n   x" (titled "note") := by
    decide +kernel
  have hsublist := h Resolver.none (titled "note") (titled "note") 0 _ (wellFormed_titled "note")
    (by decide) (fun n hn => ⟨(tag_titled "note" hn).1, (tag_titled "note" hn).2.1,
      (tag_titled "note" hn).2.2.1⟩) hrun
  have hmissing : 'T' ∉ "a **b**\n\n.. note::\n\n   x".toList := by decide
  exact hmissing (hsublist.subset (by decide +kernel))

end DoxygenRest.Rest
