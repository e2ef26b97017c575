import DoxygenRest.Proofs.Adjust.Preservation

/-!
# What lies behind a walk and what lies ahead

A walk leaves no element behind that stands for a text as a whole, and no inline element with
children (`Cleared`), whatever it is run on.  Of what lies ahead anything may be asked that holds of
the parts of an element when it holds of the element, as all that a walk finds ahead are the
elements of the beginning and parts of them (`Divisible`).

Both together are what each step keeps (`Step.orderly`).
-/

namespace DoxygenRest.Adjust

open Branch

variable {outer : Context} {x x' : Branch} {f : Frame} {fs : List Frame} {bs cs : List Branch}
  {highlighted : Bool}

/-! ### Predicates on all elements of a branch -/

mutual

/-- All elements of a branch satisfy `P`, which may ask whether they lie in a highlight. -/
def Throughout (P : Bool → Branch → Prop) (highlighted : Bool) : Branch → Prop
  | node n e cs =>
    P highlighted (node n e cs) ∧ ThroughoutRow P (highlighted || e.tag == "highlight") cs

/-- All elements of a row of branches satisfy `P`. -/
def ThroughoutRow (P : Bool → Branch → Prop) (highlighted : Bool) : List Branch → Prop
  | [] => True
  | b :: bs => Throughout P highlighted b ∧ ThroughoutRow P highlighted bs

end

section Throughout

variable {P : Bool → Branch → Prop}

/-- What holds throughout an element holds of it and throughout its children. -/
lemma throughout_iff : Throughout P highlighted x ↔
    P highlighted x ∧ ThroughoutRow P (highlighted || x.own.tag == "highlight") x.children := by
  cases x
  rw [Throughout, own_node, children_node]

/-- What holds throughout a row holds throughout each of its elements. -/
lemma throughoutRow_iff : ThroughoutRow P highlighted bs ↔ ∀ b ∈ bs, Throughout P highlighted b := by
  induction bs with
  | nil => simp [ThroughoutRow]
  | cons b bs ih => simp [ThroughoutRow, ih]

/-- What holds throughout two rows holds throughout both together. -/
lemma throughoutRow_append : ThroughoutRow P highlighted (bs ++ cs) ↔
    ThroughoutRow P highlighted bs ∧ ThroughoutRow P highlighted cs := by
  simp only [throughoutRow_iff, List.forall_mem_append]

/-- What holds throughout a row holds when it is read backwards. -/
lemma throughoutRow_reverse :
    ThroughoutRow P highlighted bs.reverse ↔ ThroughoutRow P highlighted bs := by
  simp only [throughoutRow_iff, List.mem_reverse]

end Throughout

/-- What may be asked of the elements ahead of a walk: parts of an element satisfy it if the element
does, and an element that has lost its children satisfies it anyway. -/
structure Divisible (P : Bool → Branch → Prop) : Prop where
  part : ∀ {highlighted : Bool} {x x' : Branch}, P highlighted x → x.own.Alike x'.own →
    DrawnFrom x.children x'.children → P highlighted x'
  bare : ∀ {highlighted : Bool} {x : Branch}, x.children = [] → x.own.tag ∉ Schema.inlineTags →
    (highlighted → x.own.tag ≠ "sp") → P highlighted x

section Divisible

variable {P : Bool → Branch → Prop}

/-- A tail lies outside of its element. -/
lemma Throughout.withTail
    (hP : ∀ {highlighted : Bool} {x : Branch} (tail : Option String), P highlighted x →
      P highlighted (x.withTail tail))
    (h : Throughout P highlighted x) (tail : Option String) :
    Throughout P highlighted (x.withTail tail) := by
  rw [throughout_iff] at h ⊢
  exact ⟨hP tail h.1, h.2⟩

/-- What does not depend on tails holds throughout what is drawn from a row. -/
lemma ThroughoutRow.drawn
    (hP : ∀ {highlighted : Bool} {x : Branch} (tail : Option String), P highlighted x →
      P highlighted (x.withTail tail))
    (h : ThroughoutRow P highlighted bs) (hdrawn : DrawnFrom bs cs) :
    ThroughoutRow P highlighted cs := by
  rw [throughoutRow_iff] at h ⊢
  intro c hc
  obtain ⟨b, hb, tail, rfl⟩ := hdrawn c hc
  exact (h b hb).withTail hP tail

variable (hP : Divisible P)

include hP

/-- What may be divided does not depend on the tail. -/
lemma Divisible.withTail (tail : Option String) (h : P highlighted x) :
    P highlighted (x.withTail tail) :=
  hP.part h ⟨rfl, rfl, rfl⟩ (drawnFrom_of_subset (List.Subset.refl _))

/-- All elements of a part of a branch satisfy what all elements of the branch do. -/
lemma Divisible.throughout_part (h : Throughout P highlighted x) (halike : x.own.Alike x'.own)
    (hdrawn : DrawnFrom x.children x'.children) : Throughout P highlighted x' := by
  rw [throughout_iff] at h ⊢
  refine ⟨hP.part h.1 halike hdrawn, ?_⟩
  rw [halike.tag]
  exact h.2.drawn hP.withTail hdrawn

/-- An element that has lost its children satisfies what may be asked of the elements ahead. -/
lemma Divisible.throughout_bare (hchildren : x.children = []) (htag : x.own.tag ∉ Schema.inlineTags)
    (hsp : highlighted → x.own.tag ≠ "sp") : Throughout P highlighted x := by
  rw [throughout_iff, hchildren]
  exact ⟨hP.bare hchildren htag hsp, trivial⟩

end Divisible

/-- All elements of a subtree satisfy what each of them does in its context. -/
lemma throughout_branch {P : Bool → Branch → Prop} {t : Tree} (h : t.WellFormed) {root : NodeId}
    (hP : ∀ n, n = root ∨ root ∈ t.ancestors n → P (context t n).highlighted (t.branch n)) :
    Throughout P (context t root).highlighted (t.branch root) := by
  suffices hall : ∀ n, n = root ∨ root ∈ t.ancestors n →
      Throughout P (context t n).highlighted (t.branch n) from hall root (Or.inl rfl)
  intro n hn
  induction n using h.child_induction with
  | step n ih =>
    refine throughout_iff.2 ⟨hP n hn, ?_⟩
    rw [Tree.children_branch h, Tree.own_branch h, throughoutRow_iff]
    intro b hb
    obtain ⟨m, hm, rfl⟩ := List.mem_map.1 hb
    have hp := h.mem_children_iff.1 hm
    have hchild := ih m hm (Or.inr (Tree.mem_ancestors_of_mem_children h hn hm))
    rw [context_eq_inside h hp] at hchild
    exact hchild

/-- What all elements of a subtree satisfy, all elements of the subtrees inside do. -/
lemma Throughout.below {P : Bool → Branch → Prop} {t : Tree} (h : t.WellFormed) {root : NodeId}
    (hP : Throughout P (context t root).highlighted (t.branch root)) {n : NodeId}
    (hn : n = root ∨ root ∈ t.ancestors n) :
    Throughout P (context t n).highlighted (t.branch n) := by
  induction n using h.parent_induction with
  | step n ih =>
    rcases hn with rfl | hn
    · exact hP
    · obtain ⟨parent, hp, hparent⟩ := (Tree.mem_ancestors_iff h).1 hn
      have hrow := (throughout_iff.1 (ih parent hp (hparent.imp_left Eq.symm))).2
      rw [context_eq_inside h hp, ← Tree.own_branch h]
      exact throughoutRow_iff.1 hrow _ (Tree.branch_mem_children h (h.mem_children_iff.2 hp))

/-- All elements below the root of a subtree satisfy what each of them does in its context. -/
lemma throughoutRow_branch {P : Bool → Branch → Prop} {t : Tree} (h : t.WellFormed) {root : NodeId}
    (hP : ∀ n, root ∈ t.ancestors n → P (context t n).highlighted (t.branch n)) :
    ThroughoutRow P ((context t root).highlighted || (t.branch root).own.tag == "highlight")
      (t.branch root).children := by
  rw [Tree.children_branch h, Tree.own_branch h, throughoutRow_iff]
  intro b hb
  obtain ⟨c, hc, rfl⟩ := List.mem_map.1 hb
  have hall := throughout_branch h fun n hn =>
    hP n ((Tree.mem_ancestors_iff_child h).2 ⟨c, hc, hn⟩)
  rw [context_eq_inside h (h.mem_children_iff.1 hc)] at hall
  exact hall

/-! ### Elements behind -/

/-- An element that does not stand for a text as a whole, and that has no children if it is inline. -/
structure Cleared (highlighted : Bool) (x : Branch) : Prop where
  visible : x.own.tag ∉ Schema.presentationTags ∧ x.own.tag ≠ "linebreak"
  textual : highlighted → x.own.tag ≠ "ref" ∧ x.own.tag ≠ "sp"
  flat : x.own.tag ∈ Schema.inlineTags → x.children = []

/-- Elements without an inline tag are cleared, unless they stand for blank space in a highlight. -/
lemma cleared_of_notMem_inlineTags (htag : x.own.tag ∉ Schema.inlineTags)
    (hsp : highlighted → x.own.tag ≠ "sp") : Cleared highlighted x where
  visible := by
    have hsubset : Schema.presentationTags ⊆ Schema.inlineTags := by decide
    refine ⟨fun h => htag (hsubset h), fun h => htag ?_⟩
    rw [h]
    decide
  textual hk := by
    refine ⟨fun h => htag ?_, hsp hk⟩
    rw [h]
    decide
  flat h := absurd h htag

/-- An element that nothing is to be done with is cleared. -/
lemma cleared_of_advance {k : Context} {previous? : Option Entry}
    (h : treatment k previous? x = .advance) : Cleared k.highlighted x := by
  cases grounds h with
  | fine href hsp hbreak hpresentation hchildren hinline hsection hparagraph =>
    exact ⟨⟨hpresentation, hbreak⟩, fun hk => ⟨fun htag => href ⟨htag, hk⟩,
      fun htag => hsp ⟨htag, hk⟩⟩, hchildren⟩

/-- A cleared element with children is not inline. -/
lemma Cleared.notMem_inlineTags (h : Cleared highlighted x) {y : Branch} {ys : List Branch}
    (hchildren : x.children = y :: ys) : x.own.tag ∉ Schema.inlineTags := by
  intro htag
  have hflat := h.flat htag
  rw [hchildren] at hflat
  cases hflat

/-- A section is cleared. -/
lemma cleared_of_absorb {k : Context} {previous? : Option Entry}
    (h : treatment k previous? x = .absorb) : Cleared k.highlighted x := by
  cases grounds h with
  | laterSection htag hempty hprevious =>
    exact cleared_of_notMem_inlineTags (by rw [htag]; decide) fun _ => by rw [htag]; decide

/-- A paragraph is cleared. -/
lemma cleared_of_divide {k : Context} {previous? : Option Entry}
    (h : treatment k previous? x = .divide) : Cleared k.highlighted x := by
  cases grounds h with
  | paragraph htag hempty =>
    exact cleared_of_notMem_inlineTags (by rw [htag]; decide) fun _ => by rw [htag]; decide

/-- Texts and tails do not matter to cleared elements. -/
lemma Cleared.of_alike (h : Cleared highlighted x) (halike : x.own.Alike x'.own)
    (hchildren : x.children = [] → x'.children = []) : Cleared highlighted x' := by
  refine ⟨?_, ?_, ?_⟩
  · rw [halike.tag]
    exact h.visible
  · rw [halike.tag]
    exact h.textual
  · rw [halike.tag]
    exact fun htag => hchildren (h.flat htag)

/-- Whether an element is cleared does not depend on its tail. -/
lemma Cleared.withTail (tail : Option String) (h : Cleared highlighted x) :
    Cleared highlighted (x.withTail tail) :=
  h.of_alike ⟨rfl, rfl, rfl⟩ id

/-- What a section holds stays cleared when text is appended to it. -/
lemma Throughout.joined (h : Throughout Cleared highlighted x) (y : Branch) :
    ThroughoutRow Cleared (highlighted || x.own.tag == "highlight")
      (((x.withTail none).appendContent x.tail).appendContent y.text).children :=
  (throughout_iff.1 h).2.drawn Cleared.withTail (drawnFrom_joined x y)

/-! ### Places -/

/-- Of the elements around a place, those behind are cleared, and those ahead satisfy `P`. -/
structure Tidy (P : Bool → Branch → Prop) (outer : Context) (f : Frame) (fs : List Frame) :
    Prop where
  notInline : f.own.tag ∉ Schema.inlineTags
  notSpace : (contextAt outer fs).highlighted → f.own.tag ≠ "sp"
  before : ThroughoutRow Cleared (contextAt outer (f :: fs)).highlighted f.before
  after : ThroughoutRow P (contextAt outer (f :: fs)).highlighted f.after

/-- All that lies behind is cleared, and all that lies ahead satisfies `P`. -/
def TidyFrames (P : Bool → Branch → Prop) (outer : Context) : List Frame → Prop
  | [] => True
  | f :: fs => Tidy P outer f fs ∧ TidyFrames P outer fs

/-- No place on a walk is inside of inline markup. -/
lemma TidyFrames.notMem_inlineTags {P : Bool → Branch → Prop} (h : TidyFrames P outer fs) :
    ∀ f ∈ fs, f.own.tag ∉ Schema.inlineTags := by
  induction fs with
  | nil => exact List.forall_mem_nil _
  | cons f fs ih => exact List.forall_mem_cons.2 ⟨h.1.notInline, ih h.2⟩

/-- What each step of a walk keeps: what lies behind is cleared, and what lies ahead satisfies `P`. -/
def Outcome.Orderly (P : Bool → Branch → Prop) (outer : Context) : Outcome → Prop
  | standing l =>
    Throughout P (contextAt outer l.frames).highlighted l.focus ∧ TidyFrames P outer l.frames
  | finished b => Throughout Cleared outer.highlighted b

variable {P : Bool → Branch → Prop}

/-- Text that is put before a place lies behind. -/
lemma Tidy.extendBefore (h : Tidy P outer f fs) (more : String) :
    Tidy P outer (f.extendBefore more) fs := by
  have halike := f.alike_extendBefore more
  have hcontext := contextAt_alike outer fs halike
  refine ⟨?_, ?_, ?_, ?_⟩
  · rw [halike.tag]
    exact h.notInline
  · rw [halike.tag]
    exact h.notSpace
  · rw [hcontext]
    exact h.before.drawn Cleared.withTail (f.drawnFrom_extendBefore more)
  · rw [hcontext, Frame.after_extendBefore]
    exact h.after

/-- An element without children ahead is cleared once those ahead of its last one are. -/
lemma Tidy.throughout_fillRow {row : List Branch} (h : Tidy P outer f fs) (hafter : f.after = [])
    (hrow : ThroughoutRow Cleared (contextAt outer (f :: fs)).highlighted row) :
    Throughout Cleared (contextAt outer fs).highlighted (f.fillRow row) := by
  rw [throughout_iff]
  refine ⟨cleared_of_notMem_inlineTags h.notInline h.notSpace, ?_⟩
  rw [Frame.fillRow, children_node, hafter, List.append_nil, throughoutRow_append,
    throughoutRow_reverse]
  exact ⟨h.before, hrow⟩

/-- Behind a cleared branch, the walk goes on in order. -/
lemma orderly_leave (hx : Throughout Cleared (contextAt outer fs).highlighted x)
    (hfs : TidyFrames P outer fs) : (leave x fs).Orderly P outer := by
  induction fs generalizing x with
  | nil => exact hx
  | cons f fs ih =>
    obtain ⟨hf, hfs⟩ := hfs
    unfold leave
    split
    · next hafter =>
      have hrow : ThroughoutRow Cleared (contextAt outer (f :: fs)).highlighted [x] := ⟨hx, trivial⟩
      exact ih (hf.throughout_fillRow hafter hrow) hfs
    · next y rest hafter =>
      have hahead := hf.after
      rw [hafter] at hahead
      exact ⟨hahead.1, ⟨hf.notInline, hf.notSpace, ⟨hx, hf.before⟩, hahead.2⟩, hfs⟩

/-- Behind a place that has become empty, the walk goes on in order. -/
lemma orderly_skip (hf : Tidy P outer f fs) (hfs : TidyFrames P outer fs) :
    (skip f fs).Orderly P outer := by
  unfold skip
  split
  · next hafter => exact orderly_leave (hf.throughout_fillRow hafter trivial) hfs
  · next y rest hafter =>
    have hahead := hf.after
    rw [hafter] at hahead
    exact ⟨hahead.1, ⟨hf.notInline, hf.notSpace, hf.before, hahead.2⟩, hfs⟩

/-- Inside of a cleared element, the walk goes on in order. -/
lemma orderly_enter (hcleared : Cleared (contextAt outer fs).highlighted x)
    (hx : Throughout P (contextAt outer fs).highlighted x) (hfs : TidyFrames P outer fs) :
    (enter x fs).Orderly P outer := by
  have hahead := (throughout_iff.1 hx).2
  unfold enter
  split
  · next hchildren =>
    refine orderly_leave ?_ hfs
    rw [throughout_iff, hchildren]
    exact ⟨hcleared, trivial⟩
  · next y ys hchildren =>
    rw [hchildren] at hahead
    have htag := hcleared.notMem_inlineTags hchildren
    exact ⟨hahead.1, ⟨htag, fun hk => (hcleared.textual hk).2, trivial, hahead.2⟩, hfs⟩

/-! ### Steps -/

/-- The sibling before a place is cleared, and so are those before it. -/
lemma Tidy.before_cons {prev : Branch} {rest : List Branch} (h : Tidy P outer f fs)
    (hbefore : f.before = prev :: rest) :
    Throughout Cleared (contextAt outer (f :: fs)).highlighted prev ∧
      Tidy P outer { f with before := rest } fs := by
  have hrow := h.before
  rw [hbefore] at hrow
  exact ⟨hrow.1, h.notInline, h.notSpace, hrow.2, h.after⟩

/-- Parts of an element stand in its place, and the walk stays on the first one. -/
lemma orderly_row {front : Branch} {rest : List Branch} (h : TidyFrames P outer (f :: fs))
    (hrow : ThroughoutRow P (contextAt outer (f :: fs)).highlighted (front :: rest)) :
    (Outcome.standing ⟨front, { f with after := rest ++ f.after } :: fs⟩).Orderly P outer := by
  obtain ⟨hf, hfs⟩ := h
  have hafter := throughoutRow_append.2 ⟨hrow.2, hf.after⟩
  exact ⟨hrow.1, ⟨hf.notInline, hf.notSpace, hf.before, hafter⟩, hfs⟩

/-- Two parts of an element stand in its place, and the walk stays on the first one. -/
lemma orderly_divide {front back : Branch} (h : TidyFrames P outer (f :: fs))
    (hfront : Throughout P (contextAt outer (f :: fs)).highlighted front)
    (hback : Throughout P (contextAt outer (f :: fs)).highlighted back) :
    (Outcome.standing ⟨front, { f with after := back :: f.after } :: fs⟩).Orderly P outer := by
  have hrow : ThroughoutRow P (contextAt outer (f :: fs)).highlighted [front, back] :=
    ⟨hfront, hback, trivial⟩
  exact orderly_row h hrow

/-- The parts that inline markup falls into when its first child is lifted out of it. -/
lemma Divisible.throughoutRow_lift (hP : Divisible P) (fresh : NodeId) {y : Branch}
    {ys : List Branch} (htag : x.own.tag ∈ Schema.inlineTags) (hchildren : x.children = y :: ys)
    (hx : Throughout P highlighted x) :
    ThroughoutRow P highlighted (Frame.lift ⟨x.number, x.own, [], ys⟩ fresh y) := by
  have hhighlight : (x.own.tag == "highlight") = false := by
    rw [beq_eq_false_iff_ne]
    rintro heq
    rw [heq] at htag
    exact absurd htag (by decide)
  have hrow := (throughout_iff.1 hx).2
  rw [hhighlight, Bool.or_false, hchildren] at hrow
  have hpart {n : NodeId} {e : Entry} {cs : List Branch} (halike : x.own.Alike e)
      (hcs : cs ⊆ x.children) : Throughout P highlighted (node n e cs) :=
    hP.throughout_part hx halike (drawnFrom_of_subset hcs)
  have hys : ys ⊆ x.children := by
    rw [hchildren]
    exact List.subset_cons_self y ys
  unfold Frame.lift
  split
  · exact ⟨hpart ⟨rfl, rfl, rfl⟩ (List.nil_subset _), hrow.1.withTail hP.withTail _, trivial⟩
  · exact ⟨hpart ⟨rfl, rfl, rfl⟩ (List.nil_subset _), hrow.1.withTail hP.withTail _,
      hpart ⟨rfl, rfl, rfl⟩ hys, trivial⟩

/-- Every step of a walk keeps what lies behind and what lies ahead in order. -/
theorem Step.orderly (hP : Divisible P) {fresh : NodeId} {l : Location} {o : Outcome}
    (hstep : Step outer fresh l o) (h : (Outcome.standing l).Orderly P outer) :
    o.Orderly P outer := by
  obtain ⟨hx, hframes⟩ := h
  -- What is ahead is a part of what was ahead, and an element that is entered or left has been
  -- cleared by the treatment it got.
  cases hstep with
  | replace hτ =>
    rw [Frame.extendBefore_extendBefore]
    exact orderly_skip (hframes.1.extendBefore _) hframes.2
  | remove hτ hmore => exact orderly_skip (hframes.1.extendBefore _) hframes.2
  | @removeLast x f fs hτ hbelow hempty =>
    have hf := hframes.1.extendBefore x.tail
    exact ⟨hP.throughout_bare (isEmpty_iff.1 hempty).2 hf.notInline hf.notSpace, hframes.2⟩
  | flatten hτ =>
    refine ⟨hP.throughout_part hx ⟨rfl, rfl, rfl⟩ ?_, hframes⟩
    exact drawnFrom_of_subset (List.nil_subset _)
  | lift hτ hchildren hinline hrow =>
    cases groundsAt hτ with
    | nested href htag hne =>
      have hparts := hP.throughoutRow_lift fresh htag hchildren hx
      rw [hrow] at hparts
      exact orderly_row hframes hparts
  | @trim x f fs text hτ htext =>
    have hcontext := contextAt_alike outer fs (f.alike_extendBefore (Text.splitBlanks text).1)
    refine ⟨?_, hframes.1.extendBefore _, hframes.2⟩
    rw [hcontext]
    refine hP.throughout_part hx (alike_trimmed x text) ?_
    exact drawnFrom_of_subset (List.Subset.refl _)
  | @trimRoot x text hτ htext =>
    refine ⟨hP.throughout_part hx (alike_trimmed x text) ?_, hframes⟩
    exact drawnFrom_of_subset (List.Subset.refl _)
  | @absorb x y prev ys rest f fs hτ hbefore hmergeable hchildren =>
    have halike := alike_absorb prev x
    have hcleared := cleared_of_absorb hτ
    obtain ⟨hprev, hrest⟩ := hframes.1.before_cons hbefore
    -- The cursor stands on the first child of the merged section now, among what the two held.
    have hahead := (throughout_iff.1 hx).2
    rw [hchildren, ← hmergeable.1, ← halike.tag] at hahead
    refine ⟨hahead.1, ⟨?_, ?_, ?_, hahead.2⟩, hrest, hframes.2⟩
    · rw [halike.tag, hmergeable.1]
      exact hcleared.notMem_inlineTags hchildren
    · rw [halike.tag, hmergeable.1]
      exact fun hk => (hcleared.textual hk).2
    · rw [contextAt, Context.inside_alike _ halike, throughoutRow_reverse]
      exact hprev.joined x
  | @absorbLeaf x prev rest f fs hτ hbefore hmergeable hchildren =>
    have halike := alike_absorb prev x
    obtain ⟨hprev, hrest⟩ := hframes.1.before_cons hbefore
    have hsection : (prev.absorb x).own.tag = "simplesect" := by
      cases groundsAt hτ with
      | laterSection htag hempty hprevious => exact halike.tag.trans (hmergeable.1.trans htag)
    refine orderly_leave (throughout_iff.2 ⟨?_, ?_⟩) ⟨hrest, hframes.2⟩
    · exact cleared_of_notMem_inlineTags (by rw [hsection]; decide) fun _ => by
        rw [hsection]; decide
    · rw [halike.tag, Branch.absorb, children_node, hchildren, List.append_nil]
      exact hprev.joined x
  | keep hτ hbefore hdiffer => exact orderly_enter (cleared_of_absorb hτ) hx hframes
  | @divideBefore x y front back ys zs f fs hτ hchildren hfront hsplit =>
    cases hsplit
    -- A part of the paragraph is alike and holds some of its children.
    have hpart {n : NodeId} {e : Entry} {cs : List Branch} (halike : x.own.Alike e)
        (hcs : cs ⊆ x.children) :
        Throughout P (contextAt outer (f :: fs)).highlighted (node n e cs) :=
      hP.throughout_part hx halike (drawnFrom_of_subset hcs)
    refine orderly_divide hframes (hpart ⟨rfl, rfl, rfl⟩ ?_) (hpart ⟨rfl, rfl, rfl⟩ ?_)
    · simp [hchildren]
    · simp [hchildren]
  | @divideBehind x y front back ys zs f fs hτ hchildren htail hsplit =>
    cases hsplit
    have hpart {n : NodeId} {e : Entry} {cs : List Branch} (halike : x.own.Alike e)
        (hcs : DrawnFrom x.children cs) :
        Throughout P (contextAt outer (f :: fs)).highlighted (node n e cs) :=
      hP.throughout_part hx halike hcs
    refine orderly_divide hframes (hpart ⟨rfl, rfl, rfl⟩ ?_) (hpart ⟨rfl, rfl, rfl⟩ ?_)
    · rw [hchildren, List.reverse_reverse]
      exact drawnFrom_append_withTail ys y zs
    · refine drawnFrom_of_subset ?_
      simp [hchildren]
  | undivided hτ hcontent => exact orderly_enter (cleared_of_divide hτ) hx hframes
  | advance hτ => exact orderly_enter (cleared_of_advance hτ) hx hframes

/-! ### The root of a walk -/

/-- A walk that stands on its root stands on an element whose tag has a property. -/
def Outcome.OnRoot (P : String → Prop) : Outcome → Prop
  | standing l => l.frames = [] → P l.focus.own.tag
  | finished _ => True

section OnRoot

variable {Q : String → Prop}

/-- Below the root, nothing is asked of the element in focus. -/
lemma onRoot_below (x : Branch) (f : Frame) (fs : List Frame) :
    (Outcome.standing ⟨x, f :: fs⟩).OnRoot Q :=
  fun hnil => absurd hnil (List.cons_ne_nil f fs)

/-- A walk that goes behind an element does not stand on the root any more. -/
lemma onRoot_leave (x : Branch) (fs : List Frame) : (leave x fs).OnRoot Q := by
  induction fs generalizing x with
  | nil => trivial
  | cons f fs ih =>
    unfold leave
    split
    · exact ih _
    · exact onRoot_below _ _ _

/-- Nor does one that goes on behind a hole. -/
lemma onRoot_skip (f : Frame) (fs : List Frame) : (skip f fs).OnRoot Q := by
  unfold skip
  split
  · exact onRoot_leave ..
  · exact onRoot_below _ _ _

/-- Nor does one that enters an element. -/
lemma onRoot_enter (x : Branch) (fs : List Frame) : (enter x fs).OnRoot Q := by
  unfold enter
  split
  · exact onRoot_leave ..
  · exact onRoot_below _ _ _

/-- No step changes the tag of the root. -/
theorem Step.onRoot {fresh : NodeId} {l : Location} {o : Outcome} (hstep : Step outer fresh l o)
    (h : (Outcome.standing l).OnRoot Q) : o.OnRoot Q := by
  cases hstep with
  | replace hτ => exact onRoot_skip ..
  | remove hτ hmore => exact onRoot_skip ..
  | removeLast hτ hbelow hempty => exact fun hnil => absurd hnil hbelow
  | flatten hτ => exact h
  | lift hτ hchildren hinline hrow => exact onRoot_below _ _ _
  | trim hτ htext => exact onRoot_below _ _ _
  | trimRoot hτ htext => exact h
  | absorb hτ hbefore hmergeable hchildren => exact onRoot_below _ _ _
  | absorbLeaf hτ hbefore hmergeable hchildren => exact onRoot_leave ..
  | keep hτ hbefore hdiffer => exact onRoot_enter ..
  | divideBefore hτ hchildren hfront hsplit => exact onRoot_below _ _ _
  | divideBehind hτ hchildren htail hsplit => exact onRoot_below _ _ _
  | undivided hτ hcontent => exact onRoot_enter ..
  | advance hτ => exact onRoot_enter ..

end OnRoot

/-- A walk that stands on its root stands on no inline markup. -/
def Outcome.Rooted : Outcome → Prop
  | standing l => l.frames = [] → l.focus.own.tag ∉ Schema.inlineTags
  | finished _ => True

/-- A walk whose root is no inline markup never comes to stand on a root that is. -/
theorem Step.rooted {fresh : NodeId} {l : Location} {o : Outcome} (hstep : Step outer fresh l o)
    (h : (Outcome.standing l).Rooted) : o.Rooted := by
  have honRoot := hstep.onRoot (Q := (· ∉ Schema.inlineTags)) h
  cases o with
  | standing l => exact honRoot
  | finished b => trivial

end DoxygenRest.Adjust
