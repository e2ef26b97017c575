import DoxygenRest.Proofs.Adjust.Step

/-!
# Settled branches

An element fits its place if no rule has anything left to do with it (`Fits`), and a branch is
settled if all its elements fit (`Settled`).  Whether an element fits depends on its context and
on the sibling before it, so settledness is followed from the root down and along each row of
siblings.
-/

namespace DoxygenRest

/-! ### Own data up to text -/

/-- Two elements differ in nothing but their texts and tails. -/
structure Entry.Alike (e e' : Entry) : Prop where
  tag : e'.tag = e.tag
  attributes : e'.attributes = e.attributes
  namespaces : e'.namespaces = e.namespaces

namespace Branch

/-- Text that is appended to a branch belongs to it or to its last child. -/
lemma alike_appendContent (b : Branch) (more : String) :
    b.own.Alike (b.appendContent more).own := by
  unfold appendContent
  split
  · exact ⟨rfl, rfl, rfl⟩
  · exact ⟨rfl, rfl, rfl⟩

/-- A section that absorbs another one keeps its name, attributes and declarations. -/
lemma alike_absorb (b c : Branch) : b.own.Alike (b.absorb c).own := by
  have hfirst := alike_appendContent (b.withTail none) b.tail
  have hsecond := alike_appendContent ((b.withTail none).appendContent b.tail) c.text
  exact ⟨hsecond.tag.trans hfirst.tag, hsecond.attributes.trans hfirst.attributes,
    hsecond.namespaces.trans hfirst.namespaces⟩

/-- A branch that is empty after text was appended to it was empty before. -/
lemma isEmpty_of_appendContent {b : Branch} {more : String} (h : (b.appendContent more).isEmpty) :
    b.isEmpty := by
  rcases b.children_cases with hnil | ⟨bs, last, hlast⟩
  · rw [appendContent_of_nil hnil, isEmpty_iff, text, own_node, getD_appendTo,
      String.append_eq_empty_iff] at h
    exact isEmpty_iff.2 ⟨h.1.1, hnil⟩
  · rw [appendContent_of_append hlast, isEmpty_iff, children_node] at h
    simp at h

/-- If a section is empty after absorbing another one, it was empty before. -/
lemma isEmpty_of_absorb {b c : Branch} (h : (b.absorb c).isEmpty) : b.isEmpty := by
  rw [isEmpty_iff, absorb, children_node, List.append_eq_nil_iff] at h
  have hjoined : (((b.withTail none).appendContent b.tail).appendContent c.text).isEmpty :=
    isEmpty_iff.2 ⟨h.1, h.2.1⟩
  have hfirst : (b.withTail none).isEmpty :=
    isEmpty_of_appendContent (isEmpty_of_appendContent hjoined)
  exact hfirst

end Branch

namespace Adjust

open Branch

/-- What an element brings into scope does not depend on its text. -/
lemma Context.inside_alike (k : Context) {e e' : Entry} (h : e.Alike e') :
    k.inside e' = k.inside e :=
  k.inside_congr h.tag h.namespaces

/-! ### Elements that fit -/

/-- An element that the pass leaves as it is, by its context, the sibling before it, and the branch
at it. -/
structure Fits (k : Context) (previous? : Option Entry) (x : Branch) : Prop where
  visible : x.own.tag ∉ Schema.presentationTags ∧ x.own.tag ≠ "linebreak"
  /-- In a highlight, no element stands for text. -/
  textual : k.highlighted → x.own.tag ≠ "ref" ∧ x.own.tag ≠ "sp"
  flat : x.own.tag ∈ Schema.inlineTags → x.children = []
  trimmed : x.markup = .inline → ¬x.isEmpty ∧ ¬Text.hasOuterBlanks x.text
  /-- A section is not a continuation of the one before it. -/
  distinct : x.own.tag = "simplesect" → ¬x.isEmpty ∧ ∀ e ∈ previous?, ¬Mergeable k e x.own
  undivided : x.own.tag = "para" → ¬x.isEmpty ∧ IsUndivided x.text x.children

variable {k : Context} {previous? : Option Entry} {x x' : Branch}

/-- Elements that are no inline markup fit if sections and paragraphs do. -/
lemma fits_of_notMem_inlineTags (htag : x.own.tag ∉ Schema.inlineTags) (hsp : x.own.tag ≠ "sp")
    (hsection : x.own.tag = "simplesect" → ¬x.isEmpty ∧ ∀ e ∈ previous?, ¬Mergeable k e x.own)
    (hpara : x.own.tag = "para" → ¬x.isEmpty ∧ IsUndivided x.text x.children) :
    Fits k previous? x where
  visible := by
    have hsubset : Schema.presentationTags ⊆ Schema.inlineTags := by decide
    refine ⟨fun h => htag (hsubset h), fun h => htag ?_⟩
    rw [h]
    decide
  textual _ := by
    refine ⟨fun h => htag ?_, hsp⟩
    rw [h]
    decide
  flat h := absurd h htag
  trimmed h := absurd (Entry.mem_inlineTags_of_markup h) htag
  distinct := hsection
  undivided := hpara

/-- An element that nothing is to be done with fits. -/
lemma fits_of_advance (h : treatment k previous? x = .advance) : Fits k previous? x := by
  cases grounds h with
  | fine href hsp hbreak hpresentation hchildren hinline hsection hparagraph =>
    constructor
    · exact ⟨hpresentation, hbreak⟩
    · intro hk
      exact ⟨fun htag => href ⟨htag, hk⟩, fun htag => hsp ⟨htag, hk⟩⟩
    · exact hchildren
    · exact hinline
    · intro htag
      refine ⟨(hsection htag).1, fun e he hmergeable => ?_⟩
      exact (hsection htag).2 ⟨e, he, hmergeable.1.trans htag⟩
    · intro htag
      exact absurd htag hparagraph

/-- A section that differs from the one before it fits. -/
lemma fits_of_absorb (h : treatment k previous? x = .absorb)
    (hdiffer : ∀ e ∈ previous?, ¬Mergeable k e x.own) : Fits k previous? x := by
  cases grounds h with
  | laterSection htag hempty hprevious =>
    refine fits_of_notMem_inlineTags (by rw [htag]; decide) (by rw [htag]; decide)
      (fun _ => ⟨hempty, hdiffer⟩) fun hpara => ?_
    rw [htag] at hpara
    exact absurd hpara (by decide)

/-- A paragraph that needs no division fits. -/
lemma fits_of_divide (h : treatment k previous? x = .divide)
    (hcontent : IsUndivided x.text x.children) : Fits k previous? x := by
  cases grounds h with
  | paragraph htag hempty =>
    refine fits_of_notMem_inlineTags (by rw [htag]; decide) (by rw [htag]; decide)
      (fun hsection => ?_) fun _ => ⟨hempty, hcontent⟩
    rw [htag] at hsection
    exact absurd hsection (by decide)

/-- With an element that fits, the pass at most finds that there is nothing to do. -/
theorem Fits.treatment (h : Fits k previous? x) :
    treatment k previous? x = .advance ∨
      Adjust.treatment k previous? x = .absorb ∧ x.own.tag = "simplesect" ∨
      Adjust.treatment k previous? x = .divide ∧ x.own.tag = "para" := by
  -- Each other treatment has grounds that a fitting element does not give.
  cases hτ : Adjust.treatment k previous? x with
  | advance => exact Or.inl rfl
  | absorb =>
    cases grounds hτ with
    | laterSection htag hempty hprevious => exact Or.inr (Or.inl ⟨rfl, htag⟩)
  | divide =>
    cases grounds hτ with
    | paragraph htag hempty => exact Or.inr (Or.inr ⟨rfl, htag⟩)
  | replace text =>
    cases grounds hτ with
    | reference htag hk => exact absurd htag (h.textual hk).1
    | space htag hk => exact absurd htag (h.textual hk).2
    | linebreak htag => exact absurd htag h.visible.2
  | remove =>
    cases grounds hτ with
    | presentation htag => exact absurd htag h.visible.1
    | empty hkind hempty =>
      rcases hkind with hinline | htag | htag
      · exact absurd hempty (h.trimmed hinline).1
      · exact absurd hempty (h.distinct htag).1
      · exact absurd hempty (h.undivided htag).1
  | flatten =>
    cases grounds hτ with
    | link htag hchildren => exact absurd (h.flat (by rw [htag]; decide)) hchildren
  | lift =>
    cases grounds hτ with
    | nested href htag hchildren => exact absurd (h.flat htag) hchildren
  | trim =>
    cases grounds hτ with
    | untrimmed href hinline hchildren hblanks => exact absurd hblanks (h.trimmed hinline).2

/-- Texts and tails do not matter to elements that are no inline markup, as long as sections and
paragraphs do not become empty, and paragraphs stay undivided. -/
lemma Fits.of_alike (h : Fits k previous? x) (halike : x.own.Alike x'.own)
    (htag : x.own.tag ∉ Schema.inlineTags)
    (hempty : x.own.tag = "simplesect" ∨ x.own.tag = "para" → ¬x'.isEmpty)
    (hpara : x.own.tag = "para" → IsUndivided x'.text x'.children) : Fits k previous? x' where
  visible := by
    rw [halike.tag]
    exact h.visible
  textual := by
    rw [halike.tag]
    exact h.textual
  flat := by
    rw [halike.tag]
    intro htag'
    exact absurd htag' htag
  trimmed := by
    intro hinline
    have htag' := Entry.mem_inlineTags_of_markup hinline
    rw [halike.tag] at htag'
    exact absurd htag' htag
  distinct := by
    rw [halike.tag]
    intro hsection
    refine ⟨hempty (Or.inl hsection), fun e he hmergeable => ?_⟩
    have hscope : k.scope.union e.namespaces = k.scope.union x.own.namespaces := by
      rw [hmergeable.2.2, halike.namespaces]
    exact (h.distinct hsection).2 e he
      ⟨hmergeable.1.trans halike.tag, hmergeable.2.1.trans halike.attributes, hscope⟩
  undivided := by
    rw [halike.tag]
    intro htag'
    exact ⟨hempty (Or.inr htag'), hpara htag'⟩

/-- A tail lies outside of its element, and whether the element fits does not depend on it. -/
lemma Fits.extendTail (h : Fits k previous? x) (more : String) :
    Fits k previous? (x.extendTail more) := by
  have hmarkup : (x.extendTail more).markup = x.markup := rfl
  exact ⟨h.visible, h.textual, h.flat, h.trimmed, h.distinct, h.undivided⟩

/-! ### Settled branches -/

mutual

/-- All elements of a branch fit their places, given the context of its root and the sibling before
it. -/
def Settled (k : Context) (previous? : Option Entry) : Branch → Prop
  | node n e cs => Fits k previous? (node n e cs) ∧ SettledRow (k.inside e) none cs

/-- All branches of a row of siblings are settled. -/
def SettledRow (k : Context) (previous? : Option Entry) : List Branch → Prop
  | [] => True
  | b :: bs => Settled k previous? b ∧ SettledRow k (some b.own) bs

end

/-- An element is settled if it fits its place and its children are settled in theirs. -/
lemma settled_iff : Settled k previous? x ↔
    Fits k previous? x ∧ SettledRow (k.inside x.own) none x.children := by
  cases x
  rw [Settled, own_node, children_node]

/-- Rows behind each other are settled if each is, the second one behind the last element of the
first. -/
lemma settledRow_append {bs cs : List Branch} :
    SettledRow k previous? (bs ++ cs) ↔
      SettledRow k previous? bs ∧ SettledRow k ((bs.getLast?.map own).or previous?) cs := by
  induction bs generalizing previous? with
  | nil => simp [SettledRow]
  | cons b bs ih =>
    rw [List.cons_append, SettledRow, SettledRow, ih, and_assoc]
    cases hlast : bs.getLast? <;> simp [List.getLast?_cons, hlast]

/-- A row that is listed from its end is settled if its last branch and the rest are. -/
lemma settledRow_reverse_cons {bs : List Branch} :
    SettledRow k none (x :: bs).reverse ↔
      SettledRow k none bs.reverse ∧ Settled k (bs.head?.map own) x := by
  rw [List.reverse_cons, settledRow_append, List.getLast?_reverse, Option.or_none]
  simp [SettledRow]

/-- Texts that are appended to tails leave branches settled. -/
lemma Settled.extendTail (h : Settled k previous? x) (more : String) :
    Settled k previous? (x.extendTail more) := by
  have hinside : k.inside (x.extendTail more).own = k.inside x.own := rfl
  rw [settled_iff, hinside, children_extendTail]
  rw [settled_iff] at h
  exact ⟨h.1.extendTail more, h.2⟩

/-- Text behind its last element leaves a row settled. -/
lemma settledRow_extendLast {bs : List Branch} (more : String)
    (h : SettledRow k none bs) : SettledRow k none (extendLast more bs) := by
  rcases List.eq_nil_or_concat' bs with rfl | ⟨bs, b, rfl⟩
  · exact h
  · rw [extendLast_append_singleton, settledRow_append] at *
    exact ⟨h.1, h.2.1.extendTail more, trivial⟩

/-- Text that is put before a place leaves what stands there settled. -/
lemma settledRow_extendBefore {f : Frame} (more : String)
    (h : SettledRow k none f.before.reverse) :
    SettledRow k none (f.extendBefore more).before.reverse := by
  unfold Frame.extendBefore
  split
  · exact h
  · next prev rest hbefore =>
    rw [hbefore, settledRow_reverse_cons] at h
    exact settledRow_reverse_cons.2 ⟨h.1, h.2.extendTail more⟩

/-- Text added to the end of an element leaves its children settled. -/
lemma settledRow_appendContent (more : String) (h : SettledRow k none x.children) :
    SettledRow k none (x.appendContent more).children := by
  unfold appendContent
  split
  · next hnil => rwa [children_revise]
  · next y ys hcons =>
    rw [children_node, ← hcons]
    exact settledRow_extendLast more h

/-- A section that absorbs another one still fits. -/
lemma Fits.absorb (h : Fits k previous? x) (htag : x.own.tag = "simplesect") (y : Branch) :
    Fits k previous? (x.absorb y) := by
  refine h.of_alike (alike_absorb x y) (by rw [htag]; decide) (fun _ hempty => ?_) fun hpara => ?_
  · exact (h.distinct htag).1 (isEmpty_of_absorb hempty)
  · rw [htag] at hpara
    exact absurd hpara (by decide)

/-- What a section holds stays settled when text is appended to it. -/
lemma Settled.joined (h : Settled k previous? x) (y : Branch) :
    SettledRow (k.inside x.own) none
      (((x.withTail none).appendContent x.tail).appendContent y.text).children := by
  have hchildren : SettledRow (k.inside x.own) none (x.withTail none).children :=
    (settled_iff.1 h).2
  exact settledRow_appendContent _ (settledRow_appendContent _ hchildren)

/-- In a branch that is settled below its root, all branches at places below the root are settled. -/
theorem settled_place {outer : Context} {f : Frame} {fs : List Frame}
    (h : SettledRow (outer.inside (plug (f :: fs) x).own) none (plug (f :: fs) x).children) :
    Settled (contextAt outer (f :: fs)) (previousOwn? (f :: fs)) x := by
  induction fs generalizing f x with
  | nil =>
    rw [plug_cons, plug_nil, Frame.children_fill, settledRow_append, List.getLast?_reverse,
      Option.or_none] at h
    exact h.2.1
  | cons g fs ih =>
    have hg := (settled_iff.1 (ih h)).2
    rw [Frame.children_fill, settledRow_append, List.getLast?_reverse, Option.or_none] at hg
    exact hg.2.1

/-! ### Admissible branches -/

mutual

/-- The branches that the pass may be run on, given whether they lie in a highlight: no formula has
children, and in a highlight no reference is without text. -/
def Admissible (highlighted : Bool) : Branch → Prop
  | node n e cs =>
    (e.tag = "formula" → cs = []) ∧
      (e.tag = "ref" → highlighted → (node n e cs).stringValue ≠ "") ∧
      AdmissibleRow (highlighted || e.tag == "highlight") cs

/-- All branches of a row are admissible. -/
def AdmissibleRow (highlighted : Bool) : List Branch → Prop
  | [] => True
  | b :: bs => Admissible highlighted b ∧ AdmissibleRow highlighted bs

end

variable {highlighted : Bool}

/-- What it means for an element to be admissible, one level written out. -/
lemma admissible_iff : Admissible highlighted x ↔
    (x.own.tag = "formula" → x.children = []) ∧
      (x.own.tag = "ref" → highlighted → x.stringValue ≠ "") ∧
      AdmissibleRow (highlighted || x.own.tag == "highlight") x.children := by
  cases x
  rw [Admissible, own_node, children_node]

/-- A row is admissible if each of its elements is. -/
lemma admissibleRow_iff {bs : List Branch} :
    AdmissibleRow highlighted bs ↔ ∀ b ∈ bs, Admissible highlighted b := by
  induction bs with
  | nil => simp [AdmissibleRow]
  | cons b bs ih => simp [AdmissibleRow, ih]

/-- Rows behind each other are admissible if both are. -/
lemma admissibleRow_append {bs cs : List Branch} : AdmissibleRow highlighted (bs ++ cs) ↔
    AdmissibleRow highlighted bs ∧ AdmissibleRow highlighted cs := by
  simp only [admissibleRow_iff, List.forall_mem_append]

end Adjust

end DoxygenRest
