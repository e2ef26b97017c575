import DoxygenRest.Proofs.Adjust.Agreement
import DoxygenRest.Proofs.Adjust.Idempotence
import DoxygenRest.Proofs.Rest.Mirror

/-!
# What presentation markup holds

Some elements hold content that is meant for one other output format alone.  The pass removes these
elements, and what they hold is neither left in the adjusted text nor does it change what is done to
anything else: if two trees differ in such content alone, the pass does the same to both, and what
it leaves is rendered alike (`presentation_unseen`).

This takes that links, and references in highlights, have the same string values in both trees.  The
string value takes the place of all that such an element holds before the pass comes to presentation
markup in it, and so it keeps the text of that markup (`not_presentation_unseen`).
-/

namespace DoxygenRest.Adjust

open Branch

variable {t u : Tree} {place : NodeId → NodeId} {root n : NodeId}

/-! ### Trees that differ in presentation content alone -/

/-- No presentation markup lies around an element. -/
def IsVisible (t : Tree) (n : NodeId) : Prop :=
  ∀ a ∈ t.ancestors n, t.tag a ∉ Schema.presentationTags

/-- Two trees are the same but for what presentation markup has as attributes and holds as text and
elements.  The element `n` of the one, if it is visible, is `place n` in the other. -/
structure SameButPresentation (t u : Tree) (place : NodeId → NodeId) : Prop where
  tag : ∀ n < t.size, IsVisible t n → u.tag (place n) = t.tag n
  tail : ∀ n < t.size, IsVisible t n → u.tail? (place n) = t.tail? n
  parent : ∀ n < t.size, IsVisible t n → u.parent? (place n) = (t.parent? n).map place
  entry : ∀ n < t.size, IsVisible t n → t.tag n ∉ Schema.presentationTags →
    u.entry (place n) = t.entry n
  children : ∀ n < t.size, IsVisible t n → t.tag n ∉ Schema.presentationTags →
    u.children (place n) = (t.children n).map place

/-- Where the pass takes the string value of an element at or below `root` with all it holds,
presentation content makes no difference to the value. -/
def QuotesAlike (t u : Tree) (place : NodeId → NodeId) (root : NodeId) : Prop :=
  ∀ n < t.size, n = root ∨ root ∈ t.ancestors n → IsVisible t n →
    IsQuoted (context t n).highlighted (t.tag n) → u.stringValue (place n) = t.stringValue n

/-- An element is visible if its parent is and is no presentation markup. -/
lemma isVisible_child (h : t.WellFormed) (hn : IsVisible t n)
    (htag : t.tag n ∉ Schema.presentationTags) {c : NodeId} (hc : c ∈ t.children n) :
    IsVisible t c := by
  rw [IsVisible, Tree.ancestors_eq_cons h (h.mem_children_iff.1 hc), List.forall_mem_cons]
  exact ⟨htag, hn⟩

/-- Around a visible element is a visible one, and none for presentation only. -/
lemma IsVisible.parent (h : t.WellFormed) (hn : IsVisible t n) {p : NodeId}
    (hp : t.parent? n = some p) : t.tag p ∉ Schema.presentationTags ∧ IsVisible t p := by
  rw [IsVisible, Tree.ancestors_eq_cons h hp, List.forall_mem_cons] at hn
  exact hn

namespace SameButPresentation

section Places

variable (h : SameButPresentation t u place) (ht : t.WellFormed) (hu : u.WellFormed)
variable (hsize : n < t.size) (hn : IsVisible t n)

include h ht hu hsize hn

/-- The elements around an element lie around it in the other tree. -/
lemma ancestors_eq : u.ancestors (place n) = (t.ancestors n).map place := by
  induction n using ht.parent_induction with
  | step n ih =>
    have hparent := h.parent n hsize hn
    cases hp : t.parent? n with
    | none =>
      rw [hp, Option.map_none] at hparent
      rw [Tree.ancestors_eq_nil hp, Tree.ancestors_eq_nil hparent, List.map_nil]
    | some p =>
      rw [hp, Option.map_some] at hparent
      rw [Tree.ancestors_eq_cons ht hp, Tree.ancestors_eq_cons hu hparent, List.map_cons,
        ih p hp (ht.parent_lt_size hp) (hn.parent ht hp).2]

/-- An element has ancestors of the same names at its place. -/
lemma map_tag_ancestors_eq :
    (u.ancestors (place n)).map u.tag = (t.ancestors n).map t.tag := by
  rw [h.ancestors_eq ht hu hsize hn, List.map_map]
  refine List.map_congr_left fun a ha => h.tag a (Tree.lt_size_of_mem_ancestors ht ha) fun b hb => ?_
  exact hn b (Tree.ancestors_subset ht ha hb)

/-- At its place, an element is in the context it was in. -/
lemma context_eq : context u (place n) = context t n := by
  induction n using ht.parent_induction with
  | step n ih =>
    have hparent := h.parent n hsize hn
    cases hp : t.parent? n with
    | none =>
      rw [hp, Option.map_none] at hparent
      rw [context, context, Tree.ancestors_eq_nil hp, Tree.ancestors_eq_nil hparent]
      rfl
    | some p =>
      rw [hp, Option.map_some] at hparent
      obtain ⟨htag, hvisible⟩ := hn.parent ht hp
      have hp' := ht.parent_lt_size hp
      rw [context_eq_inside ht hp, context_eq_inside hu hparent, ih p hp hp' hvisible,
        h.entry p hp' hvisible htag]

/-- The sibling right before an element stands right before it in the other tree. -/
lemma previousSibling?_eq :
    u.previousSibling? (place n) = (t.previousSibling? n).map place := by
  have hparent := h.parent n hsize hn
  cases hp : t.parent? n with
  | none =>
    rw [hp, Option.map_none] at hparent
    simp [Tree.previousSibling?, Tree.precedingSiblings, hp, hparent]
  | some p =>
    obtain ⟨htag, hvisible⟩ := hn.parent ht hp
    obtain ⟨before, after, hchildren⟩ := Tree.exists_children_eq ht hp
    have hchildren' := h.children p (ht.parent_lt_size hp) hvisible htag
    rw [hchildren, List.map_append, List.map_cons] at hchildren'
    rw [Tree.previousSibling?_of_children_eq ht hchildren,
      Tree.previousSibling?_of_children_eq hu hchildren', List.getLast?_map]

/-- What lies around the subtree at an element makes no difference to the pass. -/
lemma surroundingsResemble :
    SurroundingsResemble (surroundings t n) (surroundings u (place n)) := by
  refine ⟨h.context_eq ht hu hsize hn, ?_⟩
  simp only [surroundings, h.previousSibling?_eq ht hu hsize hn, Option.map_map]
  cases hm : t.previousSibling? n with
  | none => exact .none
  | some m =>
    obtain ⟨-, p, hp, hmp⟩ := Tree.parent?_of_previousSibling ht hm
    obtain ⟨htag, hvisible⟩ := hn.parent ht hp
    have hm' : m < t.size := Tree.lt_size_of_parent?_eq_some hmp
    have hmvisible := isVisible_child ht hvisible htag (ht.mem_children_iff.2 hmp)
    refine .some ⟨h.tag m hm' hmvisible, fun hmtag => ?_⟩
    rw [Function.comp_apply, h.entry m hm' hmvisible hmtag]

/-- The subtrees at an element make no difference to the pass. -/
lemma resembles (hquoted : QuotesAlike t u place root) (hbelow : n = root ∨ root ∈ t.ancestors n) :
    Resembles (context t n).highlighted (t.branch n) (u.branch (place n)) := by
  induction n using ht.child_induction with
  | step n ih =>
    rw [resembles_iff, Tree.own_branch ht, Tree.own_branch hu]
    refine ⟨h.tag n hsize hn, h.tail n hsize hn, fun htag => ⟨h.entry n hsize hn htag, ?_, ?_⟩⟩
    · rw [Tree.children_branch ht, Tree.children_branch hu, h.children n hsize hn htag]
      have hrow : ∀ c ∈ t.children n, Resembles ((context t n).highlighted ||
          (t.entry n).tag == "highlight") (t.branch c) (u.branch (place c)) := by
        intro c hc
        have hp := ht.mem_children_iff.1 hc
        have hchild := ih c hc (Tree.lt_size_of_parent?_eq_some hp) (isVisible_child ht hn htag hc)
          (Or.inr (Tree.mem_ancestors_of_mem_children ht hbelow hc))
        rwa [context_eq_inside ht hp] at hchild
      generalize t.children n = cs at hrow
      clear ih
      induction cs with
      | nil => exact resemblesRow_nil.2 rfl
      | cons c cs ihcs =>
        rw [List.forall_mem_cons] at hrow
        exact resemblesRow_cons.2 ⟨_, _, rfl, hrow.1, ihcs hrow.2⟩
    · intro hq
      rw [Branch.stringValue, Branch.stringValue, Tree.fragment_branch, Tree.fragment_branch]
      exact hquoted n hsize hbelow hn hq

end Places

end SameButPresentation

/-! ### Results -/

/-- Two results of the pass, on the subtrees at `n` and at `m`, come to the same: a success with
subtrees that mean the same and are rendered alike, or the same failure. -/
def ComeToTheSame (n m : NodeId) :
    EStateM.Result PassError Tree Unit → EStateM.Result PassError Tree Unit → Prop
  | .ok _ t, .ok _ u => t.semanticallyEqual n u m = true ∧
      ∀ index before, Rest.render index t n before = Rest.render index u m before
  | .error failure _, .error failure' _ => failure = failure'
  | _, _ => False

/-- The pass does not change the tags around its subtree. -/
lemma Yields.map_tag_ancestors (h : t.WellFormed) (hresult : Yields root t (.ok () u)) :
    (u.ancestors root).map u.tag = (t.ancestors root).map t.tag := by
  obtain ⟨hancestors, hentry⟩ := hresult.around h
  have hancestors : u.ancestors root = t.ancestors root := hancestors
  rw [hancestors]
  refine List.map_congr_left fun a ha => ?_
  have htag := congrArg Entry.tag (hentry a ha)
  exact htag

/-- **Presentation content is not seen**: of two trees that are the same but for presentation
markup, the pass succeeds on both or fails on both in the same way, and it leaves subtrees that mean
the same and are rendered alike.  Links and highlighted references need to have the same string
values in both. -/
theorem presentation_unseen (ht : t.WellFormed) (hu : u.WellFormed)
    (h : SameButPresentation t u place) (hroot : root < t.size) (hvisible : IsVisible t root)
    (hquoted : QuotesAlike t u place root) :
    ∃ x y, Yields root t x ∧ Yields (place root) u y ∧ ComeToTheSame root (place root) x y := by
  obtain ⟨x, hx⟩ := exists_yields ht root
  obtain ⟨y, hy⟩ := exists_yields hu (place root)
  have hagree := hx.agree hy ht hu (h.surroundingsResemble ht hu hroot hvisible)
    (h.resembles ht hu hroot hvisible hquoted (Or.inl rfl))
  refine ⟨x, y, hx, hy, ?_⟩
  cases x with
  | error failure t' =>
    cases y with
    | error failure' u' => exact hagree
    | ok b u' => cases hagree
  | ok a t' =>
    cases y with
    | error failure u' => cases hagree
    | ok b u' =>
      have hfragment : t'.fragment root = u'.fragment (place root) := hagree
      have haround : (t'.ancestors root).map t'.tag = (u'.ancestors (place root)).map u'.tag := by
        rw [hx.map_tag_ancestors ht, hy.map_tag_ancestors hu,
          h.map_tag_ancestors_eq ht hu hroot hvisible]
      have hmirrors : Rest.Mirrors t' u' root (place root) := ⟨hfragment, haround⟩
      refine ⟨?_, hmirrors.render_eq (hx.course_ok ht).1 (hy.course_ok hu).1⟩
      rw [Tree.semanticallyEqual, hfragment]
      exact Fragment.same_refl _

/-- A paragraph with content for other output formats, some of it in a link:

    <para>a<htmlonly><hruler/></htmlonly> b<ulink url="u"><bold>c</bold><manonly/></ulink></para>
-/
def formatted : Tree :=
  ⟨#[{ tag := "para", text := some "a", children := [1, 3] },
    { tag := "htmlonly", tail := some " b", parent := some 0, children := [2] },
    { tag := "hruler", parent := some 1 },
    { tag := "ulink", attributes := .ofList [("url", "u")], parent := some 0, children := [4, 5] },
    { tag := "bold", text := some "c", parent := some 3 },
    { tag := "manonly", parent := some 3 }]⟩

/-- The same paragraph with other content for other output formats:

    <para>a<htmlonly block="yes">d</htmlonly> b<ulink url="u"><bold>c</bold><manonly block="yes"/>
    </ulink></para>
-/
def reformatted : Tree :=
  ⟨#[{ tag := "para", text := some "a", children := [1, 2] },
    { tag := "htmlonly", attributes := .ofList [("block", "yes")], text := some "d", tail := some " b"
      parent := some 0 },
    { tag := "ulink", attributes := .ofList [("url", "u")], parent := some 0, children := [3, 4] },
    { tag := "bold", text := some "c", parent := some 2 },
    { tag := "manonly", attributes := .ofList [("block", "yes")], parent := some 2 }]⟩

/-- The paragraph, adjusted: `<para>a b<ulink url="u">c</ulink></para>`. -/
def formattedFairly : Tree :=
  ⟨#[{ tag := "para", text := some "a b", children := [3] },
    { tag := "htmlonly", children := [2] },
    { tag := "hruler", parent := some 1 },
    { tag := "ulink", attributes := .ofList [("url", "u")], text := some "c", parent := some 0 },
    { tag := "bold", text := some "c" },
    { tag := "manonly" }]⟩

/-- The two paragraphs are adjusted and rendered alike. -/
theorem presentation_unseen_formatted :
    let place : NodeId → NodeId := fun n => if n ≤ 1 then n else n - 1
    formatted.WellFormed ∧ reformatted.WellFormed ∧
      SameButPresentation formatted reformatted place ∧ IsVisible formatted 0 ∧
      QuotesAlike formatted reformatted place 0 ∧ Yields 0 formatted (.ok () formattedFairly) ∧
      ∃ w, Yields 0 reformatted (.ok () w) ∧ formattedFairly.semanticallyEqual 0 w 0 = true ∧
        ∀ index before,
          Rest.render index formattedFairly 0 before = Rest.render index w 0 before := by
  intro place
  have ht : formatted.WellFormed := Tree.wellFormed_of_ordered (by decide)
  have hu : reformatted.WellFormed := Tree.wellFormed_of_ordered (by decide)
  have h : SameButPresentation formatted reformatted place := by
    constructor
    all_goals
      unfold IsVisible
      decide +kernel
  have hvisible : IsVisible formatted 0 := by
    unfold IsVisible
    decide
  have hquoted : QuotesAlike formatted reformatted place 0 := by
    have hall : ∀ n < formatted.size, formatted.tag n = "ulink" ∨ formatted.tag n = "ref" ∧
        (context formatted n).highlighted = true →
        reformatted.stringValue (place n) = formatted.stringValue n := by
      decide +kernel
    exact fun n hn _ _ => hall n hn
  have hrun : adjust 0 formatted = .ok () formattedFairly := by decide +kernel
  have hyields := yields_of_adjust ht hrun
  obtain ⟨x, y, hx, hy, hsame⟩ := presentation_unseen ht hu h (by decide) hvisible hquoted
  cases hx.unique hyields
  cases y with
  | error failure w => cases hsame
  | ok a w => exact ⟨ht, hu, h, hvisible, hquoted, hyields, w, hy, hsame⟩

/-- A link that holds nothing but content for another output format:

    <root><para>see <ulink url="u"><htmlonly>x</htmlonly></ulink></para></root>
-/
def linked (content : Option String) : Tree :=
  ⟨#[{ tag := "root", children := [1] },
    { tag := "para", text := some "see ", parent := some 0, children := [2] },
    { tag := "ulink", attributes := .ofList [("url", "u")], parent := some 1, children := [3] },
    { tag := "htmlonly", text := content, parent := some 2 }]⟩

/-- With content that is not empty, the link has become text:

    <root><para>see <ulink url="u">x</ulink></para></root>
-/
def linkedFairly : Tree :=
  ⟨#[{ tag := "root", children := [1] },
    { tag := "para", text := some "see ", parent := some 0, children := [2] },
    { tag := "ulink", attributes := .ofList [("url", "u")], text := some "x", parent := some 1 },
    { tag := "htmlonly", text := some "x" }]⟩

/-- Without content, the link is gone: `<root><para>see </para></root>`. -/
def unlinked : Tree :=
  ⟨#[{ tag := "root", children := [1] },
    { tag := "para", text := some "see ", parent := some 0 },
    { tag := "ulink", attributes := .ofList [("url", "u")], text := some "" },
    { tag := "htmlonly" }]⟩

/-- Presentation content is seen in a link: it becomes the text of the link, and whether there is
any decides whether the link is left. -/
theorem not_presentation_unseen :
    ¬∀ (t u : Tree) (place : NodeId → NodeId) (root : NodeId), t.WellFormed → u.WellFormed →
      SameButPresentation t u place → root < t.size → IsVisible t root →
      t.tag root ∉ Schema.presentationTags →
      ∀ x y, Yields root t x → Yields (place root) u y → ComeToTheSame root (place root) x y := by
  intro hunseen
  have ht : (linked (some "x")).WellFormed := Tree.wellFormed_of_ordered (by decide)
  have hu : (linked none).WellFormed := Tree.wellFormed_of_ordered (by decide)
  have h : SameButPresentation (linked (some "x")) (linked none) id := by
    constructor
    all_goals
      unfold IsVisible
      decide +kernel
  have hvisible : IsVisible (linked (some "x")) 0 := by
    unfold IsVisible
    decide
  have hrun : adjust 0 (linked (some "x")) = .ok () linkedFairly := by decide +kernel
  have hrun' : adjust 0 (linked none) = .ok () unlinked := by decide +kernel
  obtain ⟨hsame, -⟩ := hunseen _ _ id 0 ht hu h (by decide) hvisible (by decide) _ _
    (yields_of_adjust ht hrun) (yields_of_adjust hu hrun')
  have hdiffer : linkedFairly.semanticallyEqual 0 unlinked 0 = false := by decide +kernel
  rw [id_eq, hdiffer] at hsame
  cases hsame

end DoxygenRest.Adjust
