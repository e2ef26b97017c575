import DoxygenRest.Proofs.Adjust.Clearance
import DoxygenRest.Proofs.Adjust.Reading
import DoxygenRest.Proofs.Adjust.Run

/-!
# The pass keeps words in their markup

The pass divides paragraphs, lifts markup out of markup, merges sections and moves white space, but
each word stays directly inside of an element with the tag and the attributes it was in before
(`adjust_conserves_attribution`).

This is so where the pass replaces no element by text and removes none with its text, and where
sections stand in paragraphs.  A section is only merged into the one before it once its paragraph is
divided, and then nothing but white space is left between the two (`Spaced`).
-/

namespace DoxygenRest.Adjust

open Branch

variable {outer : Context} {x : Branch} {f : Frame} {fs : List Frame} {row : List Branch}
  {highlighted : Bool}

/-! ### Attribution -/

/-- The characters of a text that are no white space, each with the tag and the attributes of the
element that directly contains the text. -/
def marked (tag : String) (attributes : Bindings) (s : String) : List (Char × String × Bindings) :=
  (s.toList.filter fun c => !Text.isWhite c).map fun c => (c, tag, attributes)

/-- What is attributed to an element is attributed part by part. -/
lemma marked_append (tag : String) (attributes : Bindings) (s s' : String) :
    marked tag attributes (s ++ s') = marked tag attributes s ++ marked tag attributes s' := by
  rw [marked, String.toList_append, List.filter_append, List.map_append, marked, marked]

/-- White space is attributed to nothing. -/
lemma marked_of_isBlank (tag : String) (attributes : Bindings) {s : String}
    (h : Text.isBlank s = true) : marked tag attributes s = [] := by
  rw [marked, List.map_eq_nil_iff, List.filter_eq_nil_iff]
  intro c hc
  rw [Text.isBlank, List.all_eq_true] at h
  simp [h c hc]

/-- Reading the words with the markup they directly stand in. -/
def attributionReading : Reading (Char × String × Bindings) where
  ink e s := marked e.tag e.attributes s
  stamp? _ _ := none
  ink_append e s s' := marked_append e.tag e.attributes s s'
  ink_congr s htag hattributes := by rw [htag, hattributes]
  ink_blank e e' s hs := by rw [marked_of_isBlank _ _ hs, marked_of_isBlank _ _ hs]
  stamped h := absurd rfl h

/-- The characters in an element that are no white space, in document order, each with the tag and the
attributes of the element that directly contains it; a tail is contained in the parent. -/
def attribution (t : Tree) (n : NodeId) : List (Char × String × Bindings) :=
  attributionReading.readAt t n

/-- An element's own text comes first, and then for each child what is in it and its tail. -/
theorem attribution_eq {t : Tree} (h : t.WellFormed) (n : NodeId) :
    attribution t n = marked (t.tag n) (t.attributes n) (t.text n) ++
      (t.children n).flatMap fun c =>
        attribution t c ++ marked (t.tag n) (t.attributes n) (t.tail c) :=
  attributionReading.readAt_eq h n

/-! ### Elements that keep their text -/

/-- The pass neither replaces nor removes an element with its text, and what sections stand in is a
paragraph. -/
structure Attributable (highlighted : Bool) (x : Branch) : Prop where
  visible : x.own.tag ∉ Schema.presentationTags ∧ x.own.tag ≠ "linebreak"
  textual : highlighted → x.own.tag ≠ "ref" ∧ x.own.tag ≠ "sp"
  link : x.own.tag = "ulink" → x.children = []
  enclosed : x.own.tag ≠ "para" → ∀ c ∈ x.children, c.own.tag ≠ "simplesect"

/-- A part of an attributable element is attributable. -/
lemma divisible_attributable : Divisible Attributable where
  part {highlighted x x'} h halike hdrawn := by
    constructor
    · rw [halike.tag]
      exact h.visible
    · rw [halike.tag]
      exact h.textual
    · intro htag
      rw [halike.tag] at htag
      rw [List.eq_nil_iff_forall_not_mem]
      intro c hc
      obtain ⟨b, hb, -⟩ := hdrawn c hc
      rw [h.link htag] at hb
      exact absurd hb List.not_mem_nil
    · intro htag c hc
      rw [halike.tag] at htag
      obtain ⟨b, hb, tail, rfl⟩ := hdrawn c hc
      exact h.enclosed htag b hb
  bare {highlighted x} hchildren htag hsp := by
    have hcleared := cleared_of_notMem_inlineTags htag hsp
    refine ⟨hcleared.visible, hcleared.textual, fun _ => hchildren, fun _ c hc => ?_⟩
    rw [hchildren] at hc
    exact absurd hc List.not_mem_nil

/-- Text never takes the place of an element that keeps its text. -/
lemma Attributable.treatment_ne_replace {k : Context} (h : Attributable k.highlighted x)
    (previous? : Option Entry) (text : String) : treatment k previous? x ≠ .replace text := by
  intro hτ
  cases grounds hτ with
  | reference htag hk => exact (h.textual hk).1 htag
  | space htag hk => exact (h.textual hk).2 htag
  | linebreak htag => exact h.visible.2 htag

/-! ### Space between sections -/

/-- None of the children of an element is a section. -/
def IsSectionFree (x : Branch) : Prop :=
  ∀ c ∈ x.children, c.own.tag ≠ "simplesect"

/-- Sections stand in a paragraph, with nothing but white space behind its children. -/
def Spaced (x : Branch) : Prop :=
  IsSectionFree x ∨ x.own.tag = "para" ∧ ∀ c ∈ x.children, Text.isBlank c.tail = true

/-- There is no section directly in a section. -/
lemma Spaced.isSectionFree (h : Spaced x) (htag : x.own.tag = "simplesect") : IsSectionFree x := by
  rcases h with hfree | ⟨hpara, -⟩
  · exact hfree
  · rw [htag] at hpara
    exact absurd hpara (by decide)

/-- An undivided paragraph is spaced, and so is any other element that holds no sections. -/
lemma spaced_of_isUndivided (h : Attributable highlighted x)
    (hpara : x.own.tag = "para" → IsUndivided x.text x.children) : Spaced x := by
  by_cases htag : x.own.tag = "para"
  · rcases hpara htag with hline | ⟨-, hblocks⟩
    · left
      intro c hc hsection
      have hinline := Entry.mem_inlineTags_of_markup (hline c hc)
      rw [hsection] at hinline
      exact absurd hinline (by decide)
    · right
      refine ⟨htag, ?_⟩
      intro c hc
      rw [(hblocks c hc).2]
      rfl
  · exact Or.inl (h.enclosed htag)

/-- All that holds a place is spaced, and no section that precedes the place holds sections. -/
def SpacedFrames : List Frame → Branch → Prop
  | [], _ => True
  | f :: fs, x => Spaced (f.fill x) ∧
      (∀ b ∈ f.before, b.own.tag = "simplesect" → IsSectionFree b) ∧ SpacedFrames fs (f.fill x)

/-- What each step keeps of the space between sections. -/
def Outcome.Spaced : Outcome → Prop
  | standing l => SpacedFrames l.frames l.focus
  | finished _ => True

/-- The children of a filled hole are those before it, the row in it and those behind it. -/
lemma forall_mem_children_fillRow {Q : Branch → Prop} : (∀ c ∈ (f.fillRow row).children, Q c) ↔
    (∀ c ∈ f.before, Q c) ∧ (∀ c ∈ row, Q c) ∧ ∀ c ∈ f.after, Q c := by
  simp only [Frame.fillRow, children_node, List.forall_mem_append, List.mem_reverse]

/-- Only the tag and the tail of what stands at a place matter around it. -/
lemma SpacedFrames.congr {x' : Branch} (h : SpacedFrames fs x) (htag : x'.own.tag = x.own.tag)
    (htail : Text.isBlank x.tail = true → Text.isBlank x'.tail = true) : SpacedFrames fs x' := by
  induction fs generalizing x x' with
  | nil => trivial
  | cons f fs ih =>
    obtain ⟨hf, hbefore, hfs⟩ := h
    refine ⟨?_, hbefore, ih hfs rfl id⟩
    rw [← Frame.fillRow_singleton] at hf ⊢
    rcases hf with hfree | ⟨hpara, hblank⟩
    · left
      obtain ⟨hfirst, hplace, hlast⟩ := forall_mem_children_fillRow.1 hfree
      refine forall_mem_children_fillRow.2 ⟨hfirst, ?_, hlast⟩
      intro c hc
      rw [List.mem_singleton.1 hc, htag]
      exact hplace x (List.mem_singleton_self x)
    · right
      refine ⟨hpara, ?_⟩
      obtain ⟨hfirst, hplace, hlast⟩ := forall_mem_children_fillRow.1 hblank
      refine forall_mem_children_fillRow.2 ⟨hfirst, ?_, hlast⟩
      intro c hc
      rw [List.mem_singleton.1 hc]
      exact htail (hplace x (List.mem_singleton_self x))

/-- What a row of branches that stands in the place of `x` must be like for the space between
sections to be kept. -/
structure InPlaceOf (x : Branch) (row : List Branch) : Prop where
  tag : ∀ c ∈ row, c.own.tag = "simplesect" → x.own.tag = "simplesect"
  tail : Text.isBlank x.tail = true → ∀ c ∈ row, Text.isBlank c.tail = true

/-- White space that is put before a place keeps the tails there blank. -/
lemma isBlank_extendBefore {more : String} (h : ∀ b ∈ f.before, Text.isBlank b.tail = true)
    (hmore : Text.isBlank more = true) :
    ∀ b ∈ (f.extendBefore more).before, Text.isBlank b.tail = true := by
  unfold Frame.extendBefore
  split
  · exact h
  · next prev rest hcons =>
    rw [hcons] at h
    obtain ⟨hprev, hrest⟩ := List.forall_mem_cons.1 h
    refine List.forall_mem_cons.2 ⟨?_, hrest⟩
    rw [tail_extendTail]
    exact Text.isBlank_append hprev hmore

/-- Space is kept where a row takes the place of an element and text is put before it, if that is
white space wherever the tail of the element is. -/
lemma Spaced.exchange {more : String} (h : Spaced (f.fill x)) (hrow : InPlaceOf x row)
    (hmore : Text.isBlank x.tail = true → Text.isBlank more = true) :
    Spaced ((f.extendBefore more).fillRow row) := by
  rw [← Frame.fillRow_singleton] at h
  have hafter := f.after_extendBefore more
  rcases h with hfree | ⟨hpara, hblank⟩
  · left
    obtain ⟨hfirst, hplace, hlast⟩ := forall_mem_children_fillRow.1 hfree
    refine forall_mem_children_fillRow.2 ⟨?_, ?_, ?_⟩
    · intro c hc
      obtain ⟨b, hb, tail, rfl⟩ := f.drawnFrom_extendBefore more c hc
      exact hfirst b hb
    · intro c hc hsection
      exact hplace x (List.mem_singleton_self x) (hrow.tag c hc hsection)
    · rw [hafter]
      exact hlast
  · right
    obtain ⟨hfirst, hplace, hlast⟩ := forall_mem_children_fillRow.1 hblank
    have htail := hplace x (List.mem_singleton_self x)
    refine ⟨(f.alike_extendBefore more).tag.trans hpara, ?_⟩
    refine forall_mem_children_fillRow.2 ⟨?_, hrow.tail htail, ?_⟩
    · exact isBlank_extendBefore hfirst (hmore htail)
    · rw [hafter]
      exact hlast

/-- Text that is put before a place changes no section there. -/
lemma isSectionFree_extendBefore (h : ∀ b ∈ f.before, b.own.tag = "simplesect" → IsSectionFree b)
    (more : String) :
    ∀ b ∈ (f.extendBefore more).before, b.own.tag = "simplesect" → IsSectionFree b := by
  intro c hc htag
  obtain ⟨b, hb, tail, rfl⟩ := f.drawnFrom_extendBefore more c hc
  exact h b hb htag

/-- Text added in front of the hole leaves the frames around it as they are. -/
lemma SpacedFrames.extendBefore {more : String} (h : SpacedFrames fs (f.fill x)) :
    SpacedFrames fs ((f.extendBefore more).fillRow row) := by
  refine h.congr (f.alike_extendBefore more).tag fun htail => ?_
  rw [Branch.tail, Frame.own_fill] at htail
  rw [Branch.tail, Frame.fillRow, own_node, f.own_tail_extendBefore]
  exact htail

/-! ### Moving on -/

/-- Going behind a branch keeps the space between sections. -/
lemma spaced_leave (hx : x.own.tag = "simplesect" → IsSectionFree x) (hfs : SpacedFrames fs x) :
    (leave x fs).Spaced := by
  induction fs generalizing x with
  | nil => trivial
  | cons f fs ih =>
    obtain ⟨hf, hbefore, hfs⟩ := hfs
    unfold leave
    split
    · exact ih hf.isSectionFree hfs
    · next y rest hafter =>
      refine ⟨?_, List.forall_mem_cons.2 ⟨hx, hbefore⟩, ?_⟩
      · rw [Frame.fill_next hafter]
        exact hf
      · rw [Frame.fill_next hafter]
        exact hfs

/-- Behind a hole, a walk is spaced if the parent is. -/
lemma spaced_skip (hf : Spaced (f.fillRow []))
    (hbefore : ∀ b ∈ f.before, b.own.tag = "simplesect" → IsSectionFree b)
    (hfs : SpacedFrames fs (f.fillRow [])) : (skip f fs).Spaced := by
  unfold skip
  split
  · exact spaced_leave hf.isSectionFree hfs
  · next y rest hafter =>
    refine ⟨?_, hbefore, ?_⟩
    · rw [Frame.fillRow_nil_next hafter]
      exact hf
    · rw [Frame.fillRow_nil_next hafter]
      exact hfs

/-- Inside an element that is spaced, a walk is spaced. -/
lemma spaced_enter (hx : Spaced x) (hfs : SpacedFrames fs x) : (enter x fs).Spaced := by
  unfold enter
  split
  · exact spaced_leave hx.isSectionFree hfs
  · next y ys hchildren =>
    have hfill := Frame.fill_eq_of_children_cons hchildren
    refine ⟨?_, fun b hb => absurd hb List.not_mem_nil, ?_⟩
    · rw [hfill]
      exact hx
    · rw [hfill]
      exact hfs

/-- Parts of an element stand in its place, and the walk stays on the first one. -/
lemma spaced_row {front : Branch} {rest : List Branch} (h : SpacedFrames (f :: fs) x)
    (hrow : InPlaceOf x (front :: rest)) :
    (Outcome.standing ⟨front, { f with after := rest ++ f.after } :: fs⟩).Spaced := by
  obtain ⟨hf, hbefore, hfs⟩ := h
  have hfill : Frame.fill { f with after := rest ++ f.after } front = f.fillRow (front :: rest) := rfl
  have hspaced : Spaced ((f.extendBefore "").fillRow (front :: rest)) :=
    hf.exchange hrow fun _ => rfl
  rw [f.extendBefore_empty] at hspaced
  refine ⟨?_, hbefore, ?_⟩
  · rw [hfill]
    exact hspaced
  · rw [hfill]
    exact hfs.congr rfl id

/-- So it is in front of two parts that stand in place of a whole. -/
lemma spaced_pair {front back : Branch} (h : SpacedFrames (f :: fs) x)
    (hrow : InPlaceOf x [front, back]) :
    (Outcome.standing ⟨front, { f with after := back :: f.after } :: fs⟩).Spaced :=
  spaced_row h hrow

/-! ### Steps -/

/-- What inline markup falls into when a child is lifted out of it stands in its place. -/
lemma inPlaceOf_lift (fresh : NodeId) {y : Branch} {ys : List Branch}
    (hinline : y.markup = .inline) : InPlaceOf x (Frame.lift ⟨x.number, x.own, [], ys⟩ fresh y) where
  tag c hc hsection := by
    have hy : y.own.tag ≠ "simplesect" := by
      intro htag
      have hmem := Entry.mem_inlineTags_of_markup hinline
      rw [htag] at hmem
      exact absurd hmem (by decide)
    unfold Frame.lift at hc
    split at hc
    · rcases List.mem_pair.1 hc with rfl | rfl
      · exact hsection
      · exact absurd hsection hy
    · simp only [List.mem_cons, List.not_mem_nil, or_false] at hc
      rcases hc with rfl | rfl | rfl
      · exact hsection
      · exact absurd hsection hy
      · exact hsection
  tail htail c hc := by
    unfold Frame.lift at hc
    split at hc
    · rcases List.mem_pair.1 hc with rfl | rfl
      · rfl
      · rw [tail_withTail, getD_handedTail]
        exact htail
    · simp only [List.mem_cons, List.not_mem_nil, or_false] at hc
      rcases hc with rfl | rfl | rfl
      · rfl
      · rfl
      · rw [Branch.tail, Frame.back, own_node, getD_handedTail]
        exact htail

/-- The two parts of a divided paragraph stand in its place. -/
lemma inPlaceOf_pair {front back : Branch} (hfront : x.own.Alike front.own)
    (hback : x.own.Alike back.own) (htail : front.tail = "") (htail' : back.tail = x.tail) :
    InPlaceOf x [front, back] where
  tag c hc hsection := by
    rcases List.mem_pair.1 hc with rfl | rfl
    · exact hfront.tag.symm.trans hsection
    · exact hback.tag.symm.trans hsection
  tail hblank c hc := by
    rcases List.mem_pair.1 hc with rfl | rfl
    · rw [htail]
      rfl
    · rw [htail']
      exact hblank

/-- A section that is merged into the one before it leaves space around the two. -/
lemma spacedFrames_absorb {prev : Branch} {rest : List Branch} (h : SpacedFrames (f :: fs) x)
    (hbefore : f.before = prev :: rest) :
    SpacedFrames ({ f with before := rest } :: fs) (prev.absorb x) := by
  obtain ⟨hf, hfree, hfs⟩ := h
  rw [hbefore] at hfree
  refine ⟨?_, (List.forall_mem_cons.1 hfree).2, hfs.congr rfl id⟩
  rw [← Frame.fillRow_singleton] at hf ⊢
  rcases hf with hfree | ⟨hpara, hblank⟩
  · left
    obtain ⟨hfirst, hplace, hlast⟩ := forall_mem_children_fillRow.1 hfree
    rw [hbefore] at hfirst
    obtain ⟨hprev, hrest⟩ := List.forall_mem_cons.1 hfirst
    refine forall_mem_children_fillRow.2 ⟨hrest, ?_, hlast⟩
    intro c hc
    rw [List.mem_singleton.1 hc, (alike_absorb prev x).tag]
    exact hprev
  · right
    refine ⟨hpara, ?_⟩
    obtain ⟨hfirst, hplace, hlast⟩ := forall_mem_children_fillRow.1 hblank
    rw [hbefore] at hfirst
    obtain ⟨-, hrest⟩ := List.forall_mem_cons.1 hfirst
    refine forall_mem_children_fillRow.2 ⟨hrest, ?_, hlast⟩
    intro c hc
    rw [List.mem_singleton.1 hc]
    exact hplace x (List.mem_singleton_self x)

/-- Two merged sections hold no section directly if neither of them does. -/
lemma isSectionFree_absorb {prev : Branch} (hprev : IsSectionFree prev) (hx : IsSectionFree x) :
    IsSectionFree (prev.absorb x) := by
  intro c hc
  rcases mem_children_absorb hc with ⟨b, hb, tail, rfl⟩ | hc
  · exact hprev b hb
  · exact hx c hc

/-- Every step keeps the space between sections. -/
theorem Step.spaced {fresh : NodeId} {l : Location} {o : Outcome} (hstep : Step outer fresh l o)
    (hl : Attributable (contextAt outer l.frames).highlighted l.focus)
    (h : (Outcome.standing l).Spaced) : o.Spaced := by
  cases hstep with
  | replace hτ => exact absurd hτ (hl.treatment_ne_replace _ _)
  | remove hτ hmore =>
    obtain ⟨hf, hbefore, hfs⟩ := h
    refine spaced_skip (hf.exchange ⟨?_, ?_⟩ id) (isSectionFree_extendBefore hbefore _)
      hfs.extendBefore
    · exact fun c hc => absurd hc List.not_mem_nil
    · exact fun _ c hc => absurd hc List.not_mem_nil
  | removeLast hτ hbelow hempty => exact h.2.2.extendBefore
  | flatten hτ => exact SpacedFrames.congr h rfl id
  | lift hτ hchildren hinline hrow =>
    refine spaced_row h ?_
    rw [← hrow]
    exact inPlaceOf_lift fresh hinline
  | @trim x f fs text hτ htext =>
    obtain ⟨hf, hbefore, hfs⟩ := h
    -- What goes over to the tail is white space, so a tail that was blank stays blank.
    have hrow : InPlaceOf x [trimmed x text] := by
      constructor
      · intro c hc hsection
        rw [List.mem_singleton.1 hc, (alike_trimmed x text).tag] at hsection
        exact hsection
      · intro htail c hc
        rw [List.mem_singleton.1 hc, tail_trimmed]
        exact Text.isBlank_append (Text.isBlank_splitBlanks_snd text) htail
    have hspaced := hf.exchange hrow fun _ => Text.isBlank_splitBlanks_fst text
    have hframes : SpacedFrames fs
        ((f.extendBefore (Text.splitBlanks text).1).fillRow [trimmed x text]) :=
      hfs.extendBefore
    exact ⟨hspaced, isSectionFree_extendBefore hbefore _, hframes⟩
  | trimRoot hτ htext => trivial
  | @absorb x y prev ys rest f fs hτ hbefore hmergeable hchildren =>
    cases groundsAt hτ with
    | laterSection htag hempty hprevious =>
      -- Neither section holds another one, so the merged section needs no blank between its
      -- children.
      have hprev : IsSectionFree prev := h.2.1 prev (by simp [hbefore]) (hmergeable.1.trans htag)
      have hx : IsSectionFree x := hl.enclosed (by rw [htag]; decide)
      have hfree := isSectionFree_absorb hprev hx
      have hfill := Frame.fill_absorb prev hchildren
      refine ⟨?_, fun b hb hsection => ?_, ?_⟩
      · rw [hfill]
        exact Or.inl hfree
      · refine absurd hsection (hfree b ?_)
        rw [Branch.absorb, children_node]
        exact List.mem_append_left _ (List.mem_reverse.1 hb)
      · rw [hfill]
        exact spacedFrames_absorb h hbefore
  | @absorbLeaf x prev rest f fs hτ hbefore hmergeable hchildren =>
    cases groundsAt hτ with
    | laterSection htag hempty hprevious =>
      have hprev : IsSectionFree prev := h.2.1 prev (by simp [hbefore]) (hmergeable.1.trans htag)
      have hx : IsSectionFree x := hl.enclosed (by rw [htag]; decide)
      exact spaced_leave (fun _ => isSectionFree_absorb hprev hx) (spacedFrames_absorb h hbefore)
  | keep hτ hbefore hdiffer =>
    cases groundsAt hτ with
    | laterSection htag hempty hprevious =>
      refine spaced_enter (spaced_of_isUndivided hl fun hpara => ?_) h
      rw [htag] at hpara
      exact absurd hpara (by decide)
  | divideBefore hτ hchildren hfront hsplit =>
    cases hsplit
    exact spaced_pair h (inPlaceOf_pair ⟨rfl, rfl, rfl⟩ ⟨rfl, rfl, rfl⟩ rfl (getD_handedTail _))
  | divideBehind hτ hchildren htail hsplit =>
    cases hsplit
    exact spaced_pair h (inPlaceOf_pair ⟨rfl, rfl, rfl⟩ ⟨rfl, rfl, rfl⟩ rfl (getD_handedTail _))
  | undivided hτ hcontent => exact spaced_enter (spaced_of_isUndivided hl fun _ => hcontent) h
  | advance hτ =>
    cases groundsAt hτ with
    | fine href hsp hbreak hpresentation hchildren hinline hsection hparagraph =>
      exact spaced_enter (spaced_of_isUndivided hl fun hpara => absurd hpara hparagraph) h

/-! ### The pass -/

/-- Where elements keep their text and sections are spaced, a step takes nothing to be text that is
not, and merges no words from outside into a section. -/
lemma agrees_attributionReading {l : Location}
    (hl : Attributable (contextAt outer l.frames).highlighted l.focus)
    (hspaced : (Outcome.standing l).Spaced) (hroot : (Outcome.standing l).Rooted) :
    attributionReading.Agrees outer l where
  root := hroot
  replace e text hτ := absurd hτ (hl.treatment_ne_replace _ _)
  remove hτ := by
    cases groundsAt hτ with
    | presentation htag => exact absurd htag hl.visible.1
    | empty hkind hempty =>
      obtain ⟨htext, hchildren⟩ := isEmpty_iff.1 hempty
      rw [attributionReading.item_of_eq_none rfl, attributionReading.read_eq, htext, hchildren,
        attributionReading.readRow_nil, attributionReading.ink_empty, List.append_nil]
  flatten hτ := by
    cases groundsAt hτ with
    | link htag hchildren => exact absurd (hl.link htag) hchildren
  gap f fs prev rest hframes hbefore hτ hmergeable := by
    cases groundsAt hτ with
    | laterSection htag hempty hprevious =>
      rw [Outcome.Spaced, hframes] at hspaced
      have hrow := hspaced.1
      rw [← Frame.fillRow_singleton] at hrow
      rcases hrow with hfree | ⟨-, hblank⟩
      · have hplace := (forall_mem_children_fillRow.1 hfree).2.1
        exact absurd htag (hplace l.focus (List.mem_singleton_self _))
      · have hfirst := (forall_mem_children_fillRow.1 hblank).1
        refine attributionReading.ink_blank _ _ (hfirst prev ?_)
        rw [hbefore]
        exact List.mem_cons_self

/-- What each step keeps: all is in order and spaced, and the words stay in their markup. -/
structure Outcome.Attributed (outer : Context) (words : List (Char × String × Bindings))
    (o : Outcome) : Prop where
  orderly : o.Orderly Attributable outer
  rooted : o.Rooted
  spaced : o.Spaced
  read_eq : attributionReading.read outer.highlighted o.whole = words

/-- Every step keeps the words in their markup. -/
lemma Step.attributed {fresh : NodeId} {l : Location} {o : Outcome}
    {words : List (Char × String × Bindings)} (hstep : Step outer fresh l o)
    (h : (Outcome.standing l).Attributed outer words) : o.Attributed outer words := by
  have hl : Attributable (contextAt outer l.frames).highlighted l.focus :=
    (throughout_iff.1 h.orderly.1).1
  refine ⟨hstep.orderly divisible_attributable h.orderly, hstep.rooted h.rooted,
    hstep.spaced hl h.spaced, ?_⟩
  rw [hstep.read_eq (agrees_attributionReading hl h.spaced h.rooted)]
  exact h.read_eq

/-- What the pass asks of the subtree at `root` for all words to stay in their markup: that no element
is replaced by text or removed with its text, and that sections stand in paragraphs. -/
structure Lossless (t : Tree) (root : NodeId) : Prop where
  wellFormed : t.WellFormed
  plain : t.tag root ∉ Schema.inlineTags ∧ t.tag root ≠ "sp"
  visible : ∀ n, root ∈ t.ancestors n → t.tag n ∉ Schema.presentationTags ∧ t.tag n ≠ "linebreak"
  textual : ∀ n, root ∈ t.ancestors n → t.tag n = "ref" ∨ t.tag n = "sp" →
    ¬∃ a ∈ t.ancestors n, t.tag a = "highlight"
  link : ∀ n, root ∈ t.ancestors n → t.tag n = "ulink" → t.children n = []
  enclosed : ∀ n, root ∈ t.ancestors n → t.tag n = "simplesect" →
    ∃ parent, t.parent? n = some parent ∧ t.tag parent = "para"

/-- What sections stand in is a paragraph. -/
lemma Lossless.tag_ne {t : Tree} {root n : NodeId} (h : Lossless t root)
    (hn : n = root ∨ root ∈ t.ancestors n) (hpara : t.tag n ≠ "para") :
    ∀ c ∈ t.children n, t.tag c ≠ "simplesect" := by
  intro c hc htag
  have hp := h.wellFormed.mem_children_iff.1 hc
  have hbelow := Tree.mem_ancestors_of_mem_children h.wellFormed hn hc
  obtain ⟨parent, hparent, hparent'⟩ := h.enclosed c hbelow htag
  rw [hp, Option.some_inj] at hparent
  rw [← hparent] at hparent'
  exact hpara hparent'

/-- All elements keep their text. -/
lemma Lossless.attributable {t : Tree} {root : NodeId} (h : Lossless t root) (n : NodeId)
    (hn : n = root ∨ root ∈ t.ancestors n) :
    Attributable (context t n).highlighted (t.branch n) := by
  have htag : (t.branch n).own.tag = t.tag n := congrArg Entry.tag (Tree.own_branch h.wellFormed n)
  have henclosed : t.tag n ≠ "para" → ∀ c ∈ (t.branch n).children, c.own.tag ≠ "simplesect" := by
    intro hpara b hb
    rw [Tree.children_branch h.wellFormed] at hb
    obtain ⟨c, hc, rfl⟩ := List.mem_map.1 hb
    rw [Tree.own_branch h.wellFormed]
    exact h.tag_ne hn hpara c hc
  -- Below the root this is what is asked of the document. The root is plain, and so no treatment
  -- but walking on applies to it.
  rcases hn with rfl | hn
  · have hcleared : Cleared (context t n).highlighted (node n (t.entry n) []) :=
      cleared_of_notMem_inlineTags h.plain.1 fun _ => h.plain.2
    constructor
    · rw [htag]
      exact hcleared.visible
    · rw [htag]
      exact hcleared.textual
    · intro hlink
      rw [htag] at hlink
      exact absurd (by rw [hlink]; decide) h.plain.1
    · rw [htag]
      exact henclosed
  · constructor
    · rw [htag]
      exact h.visible n hn
    · intro hk
      rw [htag]
      have hhighlight := highlighted_iff.1 hk
      exact ⟨fun href => h.textual n hn (Or.inl href) hhighlight,
        fun hsp => h.textual n hn (Or.inr hsp) hhighlight⟩
    · intro hlink
      rw [htag] at hlink
      rw [Tree.children_branch h.wellFormed, h.link n hn hlink, List.map_nil]
    · rw [htag]
      exact henclosed

/-- **The pass keeps words in their markup**: where nothing is replaced by text or removed with its
text and sections stand in paragraphs, each character that is no white space stays directly inside of
an element with the same tag and the same attributes. -/
theorem adjust_conserves_attribution {t t' : Tree} {root : NodeId} (h : Lossless t root)
    (hrun : adjust root t = .ok () t') : attribution t' root = attribution t root := by
  have hstart : (Outcome.standing ⟨t.branch root, []⟩).Attributed (context t root)
      (attribution t root) := by
    refine ⟨⟨throughout_branch h.wellFormed h.attributable, trivial⟩, fun _ => ?_, trivial, rfl⟩
    rw [Tree.own_branch h.wellFormed]
    exact h.plain.1
  obtain ⟨-, haround, hend⟩ := keeps_of_adjust h.wellFormed hrun Step.attributed hstart
  rw [attribution, Reading.readAt, haround]
  exact hend.read_eq

/-- No element of the description is replaced by text or removed with its text. -/
lemma lossless_draft : Lossless draft 0 := by
  have h := suitable_draft.wellFormed
  have hlt {n : NodeId} (hn : 0 ∈ draft.ancestors n) : n < draft.size := Tree.lt_size_of_below h hn
  refine ⟨h, by decide, ?_, ?_, ?_, ?_⟩
  · have hvisible : ∀ n < draft.size,
        draft.tag n ∉ Schema.presentationTags ∧ draft.tag n ≠ "linebreak" := by decide
    exact fun n hn => hvisible n (hlt hn)
  · have htextual : ∀ n < draft.size, draft.tag n = "ref" ∨ draft.tag n = "sp" →
        ¬∃ a ∈ draft.ancestors n, draft.tag a = "highlight" := by decide +kernel
    exact fun n hn => htextual n (hlt hn)
  · have hlink : ∀ n < draft.size, draft.tag n = "ulink" → draft.children n = [] := by decide
    exact fun n hn => hlink n (hlt hn)
  · have henclosed : ∀ n < draft.size, draft.tag n = "simplesect" →
        draft.parent? n = some 1 := by decide
    exact fun n hn htag => ⟨1, henclosed n (hlt hn) htag, rfl⟩

/-- The pass keeps the words of the description in their markup. -/
theorem adjust_conserves_attribution_draft :
    adjust 0 draft = .ok () fairCopy ∧ attribution fairCopy 0 = attribution draft 0 :=
  ⟨adjust_draft, adjust_conserves_attribution lossless_draft adjust_draft⟩

/-- Of the words in the description, two are in a paragraph that is divided between them. -/
example : attribution draft 0 =
    [('a', "para", .empty), ('b', "bold", .empty), ('c', "emphasis", .empty),
      ('d', "para", .empty), ('e', "para", .empty), ('f', "para", .empty)] := by
  decide +kernel

end DoxygenRest.Adjust
