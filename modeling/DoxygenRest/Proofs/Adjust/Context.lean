import DoxygenRest.Adjust
import DoxygenRest.Proofs.Branch.Replacement
import DoxygenRest.Proofs.Branch.Text

/-!
# What the rules ask of an element

The rules of the adjusting pass look at an element's own data and content, at the sibling before it,
and at what lies around it.  Of the latter they ask two things: whether it is a highlight, and which
namespaces it brings into scope; a `Context` is the answer to both.

The rules never change a tag or a namespace declaration, so the contexts of elements stay the same as
long as the elements keep their places.
-/

namespace DoxygenRest

open Branch

/-! ### Kinds of markup -/

/-- The part that an element with this own data plays in documentation. -/
def Entry.markup (e : Entry) : Schema.MarkupClass :=
  if e.tag = "formula" then
    if (e.text.getD "").toList.dropWhile Text.isWhite |>.head? |> (· == some '$') then .inline
    else .structural
  else Schema.classOfTag e.tag

/-- The part an element plays depends on its own data alone. -/
lemma Schema.classify_eq_markup (t : Tree) (n : NodeId) :
    Schema.classify t n = (t.entry n).markup := rfl

/-- Only a formula's part depends on more than its tag. -/
lemma Entry.markup_congr {e e' : Entry} (htag : e'.tag = e.tag) (hformula : e.tag ≠ "formula") :
    e'.markup = e.markup := by
  rw [Entry.markup, Entry.markup, htag, if_neg hformula, if_neg hformula]

/-- The part that an element other than a formula plays can be told by its tag. -/
lemma Entry.markup_eq_classOfTag {e : Entry} {tag : String} (htag : e.tag = tag)
    (hformula : tag ≠ "formula") : e.markup = Schema.classOfTag tag := by
  rw [Entry.markup, htag, if_neg hformula]

/-- Inline markup has one of the inline tags. -/
lemma Entry.mem_inlineTags_of_markup {e : Entry} (h : e.markup = .inline) :
    e.tag ∈ Schema.inlineTags := by
  unfold Entry.markup at h
  split at h
  · next htag =>
    rw [htag]
    decide
  · unfold Schema.classOfTag at h
    split at h
    · next htag => exact List.contains_iff_mem.1 htag
    · split at h <;> cases h

/-- Elements with an inline tag are inline, but for formulas. -/
lemma Entry.markup_of_mem_inlineTags {e : Entry} (h : e.tag ∈ Schema.inlineTags)
    (hformula : e.tag ≠ "formula") : e.markup = .inline := by
  rw [Entry.markup, if_neg hformula, Schema.classOfTag, if_pos (List.contains_iff_mem.2 h)]

namespace Branch

/-- The part that the root of a branch plays in documentation. -/
def markup (b : Branch) : Schema.MarkupClass :=
  b.own.markup

/-- Whether the root of a branch holds neither text nor children. -/
def isEmpty (b : Branch) : Bool :=
  b.text == "" && b.children.isEmpty

variable {t : Tree} {b : Branch}

/-- An element is empty if it has no text of its own and no children. -/
lemma isEmpty_iff : b.isEmpty = true ↔ b.text = "" ∧ b.children = [] := by
  rw [isEmpty, Bool.and_eq_true, beq_iff_eq, List.isEmpty_iff]

/-- The tree reads the text of a branch it holds. -/
lemma Holds.text_eq (h : b.Holds t) : t.text b.number = b.text := by
  rw [Tree.text, h.text?_eq, Branch.text]

/-- The tree reads the tail of a branch it holds. -/
lemma Holds.tail_eq (h : b.Holds t) : t.tail b.number = b.tail := by
  rw [Tree.tail, h.tail?_eq, Branch.tail]

/-- The tree reads the attributes of a branch it holds. -/
lemma Holds.attributes_eq (h : b.Holds t) : t.attributes b.number = b.own.attributes :=
  congrArg Entry.attributes h.entry_eq

/-- The tree reads the declarations of a branch it holds. -/
lemma Holds.declaredNamespaces_eq (h : b.Holds t) :
    t.declaredNamespaces b.number = b.own.namespaces :=
  congrArg Entry.namespaces h.entry_eq

/-- The schema classifies a branch the tree holds by the data of the branch. -/
lemma Holds.classify_eq (h : b.Holds t) : Schema.classify t b.number = b.markup := by
  rw [Schema.classify_eq_markup, h.entry_eq, markup]

/-- Whether a branch the tree holds is inline can be read off the branch. -/
lemma Holds.isInline_eq (h : b.Holds t) :
    Schema.isInline t b.number = (b.markup == .inline) := by
  rw [Schema.isInline, h.classify_eq]

/-- Whether a branch the tree holds is empty can be read off the branch. -/
lemma Holds.isEmpty_eq (h : b.Holds t) : Schema.isEmpty t b.number = b.isEmpty := by
  rw [Schema.isEmpty, Tree.hasText, h.text_eq, h.children_eq, isEmpty]
  cases b.children <;> simp [bne]

end Branch

namespace Adjust

/-! ### Contexts -/

/-- What the rules ask of the elements around one: whether there is a highlight among them, and
which namespaces they bring into scope. -/
structure Context where
  highlighted : Bool
  scope : Bindings
  deriving DecidableEq

/-- The context of an element without a parent. -/
def Context.outermost : Context :=
  ⟨false, .empty⟩

/-- The context inside of an element, given the one outside. -/
def Context.inside (k : Context) (e : Entry) : Context :=
  ⟨k.highlighted || e.tag == "highlight", k.scope.union e.namespaces⟩

/-- Texts and tails do not matter to contexts. -/
lemma Context.inside_congr (k : Context) {e e' : Entry} (htag : e'.tag = e.tag)
    (hnamespaces : e'.namespaces = e.namespaces) : k.inside e' = k.inside e := by
  rw [inside, inside, htag, hnamespaces]

/-- The context of an element. -/
def context (t : Tree) (n : NodeId) : Context :=
  (t.ancestors n).foldr (fun a k => k.inside (t.entry a)) .outermost

/-- The context of an element comes from that of its parent. -/
lemma context_eq_inside {t : Tree} (h : t.WellFormed) {n parent : NodeId}
    (hp : t.parent? n = some parent) :
    context t n = (context t parent).inside (t.entry parent) := by
  rw [context, Tree.ancestors_eq_cons h hp, List.foldr_cons, ← context]

/-- An element is highlighted if a highlight lies around it. -/
lemma highlighted_iff {t : Tree} {n : NodeId} :
    (context t n).highlighted = true ↔ ∃ a ∈ t.ancestors n, t.tag a = "highlight" := by
  rw [context]
  induction t.ancestors n with
  | nil => simp [Context.outermost]
  | cons a as ih =>
    rw [List.foldr_cons, Context.inside, Bool.or_eq_true, ih, List.exists_mem_cons_iff, or_comm]
    simp [Tree.entry]

/-- The namespaces in scope at an element are those of its context and its own. -/
lemma namespaces_eq (t : Tree) (n : NodeId) :
    t.namespaces n = (context t n).scope.union (t.declaredNamespaces n) := by
  have hscope (as : List NodeId) :
      as.reverse.foldl (fun scope m => scope.union (t.declaredNamespaces m)) .empty =
        (as.foldr (fun a k => k.inside (t.entry a)) Context.outermost).scope := by
    induction as with
    | nil => rfl
    | cons a as ih =>
      rw [List.reverse_cons, List.foldl_append, ih]
      rfl
  rw [Tree.namespaces, hscope, List.foldr_cons]
  rfl

/-- The context at a place, given that of the outermost element. -/
def contextAt (outer : Context) : List Frame → Context
  | [] => outer
  | f :: fs => (contextAt outer fs).inside f.own

/-- The context of an element can be told from the frames around it. -/
lemma context_eq_contextAt {t : Tree} (h : t.WellFormed) {fs : List Frame} {x : Branch}
    (hholds : (plug fs x).Holds t) :
    context t x.number = contextAt (context t (plug fs x).number) fs := by
  induction fs generalizing x with
  | nil => rfl
  | cons f fs ih =>
    have hf := (holds_plug.1 hholds).2.1
    rw [context_eq_inside h (f.parent?_eq h hf), hf.1, plug_cons, contextAt,
      ← ih (x := f.fill x) hholds, Frame.number_fill]

/-- What happens in a branch does not change the context of its root. -/
lemma context_replaced {t u : Tree} (h : t.WellFormed) {n : NodeId} {b : Branch}
    (hu : Tree.Replaced t u n b) : context u n = context t n := by
  rw [context, context, hu.ancestors h]
  have hentry : ∀ a ∈ t.ancestors n, u.entry a = t.entry a := fun a ha =>
    Tree.entry_congr (hu.element_of_mem_ancestors h ha)
  generalize t.ancestors n = as at hentry
  induction as with
  | nil => rfl
  | cons a as ih =>
    rw [List.foldr_cons, List.foldr_cons, hentry a (List.mem_cons_self ..),
      ih fun a ha => hentry a (List.mem_cons_of_mem _ ha)]

end Adjust

end DoxygenRest
