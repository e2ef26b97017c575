import DoxygenRest.Proofs.Adjust.Kinship

/-!
# Sections and their titles

The list of the sections of a branch, each with the titles directly in it (`Branch.sections`).  In a
tree it lists the sections of a subtree with their titles (`mem_sections_branch`).

To exchange what stands at a place is to exchange a piece of the list, as long as it is titles for the
same titles (`exists_sections_plug_fillRow`); an element around the place may be a section.  So a step
of the pass lists nothing new (`Step.sections_subset`), unless it merges a section into the one before
it: then the one before is listed with the titles of both (`Step.sections_merged`).
-/

namespace DoxygenRest

namespace Branch

/-! ### Titles in a row -/

/-- The titles in a row of branches. -/
def headings (bs : List Branch) : List NodeId :=
  (bs.filter fun b => b.own.tag == "title").map number

/-- The titles among two rows are those of the first and those of the second. -/
@[simp] lemma headings_append (bs cs : List Branch) :
    headings (bs ++ cs) = headings bs ++ headings cs := by
  rw [headings, List.filter_append, List.map_append, ← headings, ← headings]

/-- The titles of a row start with its first element, if that is one. -/
lemma headings_cons (b : Branch) (bs : List Branch) :
    headings (b :: bs) = headings [b] ++ headings bs :=
  headings_append [b] bs

/-- Whether a branch is a title, and which one, is told by its number and its tag. -/
lemma headings_singleton_congr {x y : Branch} (hnumber : y.number = x.number)
    (htag : y.own.tag = x.own.tag) : headings [y] = headings [x] := by
  by_cases h : x.own.tag = "title"
  · simp [headings, htag, h, hnumber]
  · simp [headings, htag, h]

/-- A row of other elements holds no title. -/
lemma headings_eq_nil {bs : List Branch} (h : ∀ b ∈ bs, b.own.tag ≠ "title") : headings bs = [] := by
  rw [headings, List.map_eq_nil_iff, List.filter_eq_nil_iff]
  intro b hb
  rw [beq_iff_eq]
  exact h b hb

/-- Text behind the last element does not change the titles of a row. -/
@[simp] lemma headings_extendLast (more : String) (bs : List Branch) :
    headings (extendLast more bs) = headings bs := by
  rcases List.eq_nil_or_concat' bs with rfl | ⟨bs, b, rfl⟩
  · rfl
  · rw [extendLast_append_singleton, headings_append, headings_append,
      headings_singleton_congr (y := b.extendTail more) (x := b) rfl rfl]

/-- Text that is appended to a branch leaves the titles in it. -/
@[simp] lemma headings_children_appendContent (b : Branch) (more : String) :
    headings (b.appendContent more).children = headings b.children := by
  unfold appendContent
  split
  · rfl
  · next h => rw [children_node, headings_extendLast, h]

/-! ### The list of sections -/

mutual

/-- The sections of a branch in document order, each with the titles directly in it. -/
def sections : Branch → List (NodeId × List NodeId)
  | node number own children =>
    if own.tag = "simplesect" then (number, headings children) :: sectionsAll children
    else sectionsAll children

/-- The sections of a row of branches in document order. -/
def sectionsAll : List Branch → List (NodeId × List NodeId)
  | [] => []
  | b :: bs => b.sections ++ sectionsAll bs

end

@[simp] lemma sectionsAll_nil : sectionsAll [] = [] := by
  rw [sectionsAll]

/-- The sections of a row start with those of its first element. -/
@[simp] lemma sectionsAll_cons (b : Branch) (bs : List Branch) :
    sectionsAll (b :: bs) = b.sections ++ sectionsAll bs := by
  rw [sectionsAll]

/-- The sections of rows behind each other are listed one after the other. -/
@[simp] lemma sectionsAll_append (bs cs : List Branch) :
    sectionsAll (bs ++ cs) = sectionsAll bs ++ sectionsAll cs := by
  induction bs with
  | nil => simp
  | cons b bs ih => simp [ih]

/-- The sections of a row are those of its elements, in order. -/
lemma sectionsAll_eq_flatMap (bs : List Branch) : sectionsAll bs = bs.flatMap sections := by
  induction bs with
  | nil => simp
  | cons b bs ih => simp [ih]

/-- A section is listed before the sections in it. -/
lemma sections_of_section {b : Branch} (h : b.own.tag = "simplesect") :
    b.sections = (b.number, headings b.children) :: sectionsAll b.children := by
  cases b
  rw [sections]
  exact if_pos h

/-- Of any other element, the sections in it are listed. -/
lemma sections_of_ne {b : Branch} (h : b.own.tag ≠ "simplesect") :
    b.sections = sectionsAll b.children := by
  cases b
  rw [sections]
  exact if_neg h

/-- An element with the same titles in it, and in which nothing new is listed. -/
lemma sections_subset {x y : Branch} (hnumber : y.number = x.number) (htag : y.own.tag = x.own.tag)
    (hheadings : headings y.children = headings x.children)
    (hsections : sectionsAll y.children ⊆ sectionsAll x.children) : y.sections ⊆ x.sections := by
  by_cases h : x.own.tag = "simplesect"
  · rw [sections_of_section h, sections_of_section (htag.trans h), hnumber, hheadings]
    exact List.cons_subset_cons _ hsections
  · rw [sections_of_ne h, sections_of_ne (by rwa [htag])]
    exact hsections

/-! ### Texts and tails are not on the list -/

/-- Sections do not depend on the tail of an element. -/
@[simp] lemma sections_withTail (b : Branch) (tail : Option String) :
    (b.withTail tail).sections = b.sections := by
  cases b
  rw [sections]
  exact sections.eq_1 ..

/-- Text added to the tail adds no section. -/
@[simp] lemma sections_extendTail (b : Branch) (more : String) :
    (b.extendTail more).sections = b.sections :=
  sections_withTail b _

/-- Text behind its last element does not change the sections of a row. -/
@[simp] lemma sectionsAll_extendLast (more : String) (bs : List Branch) :
    sectionsAll (extendLast more bs) = sectionsAll bs := by
  rcases List.eq_nil_or_concat' bs with rfl | ⟨bs, b, rfl⟩
  · rfl
  · simp

/-- Text added at the end of an element does not change the sections in it. -/
@[simp] lemma sectionsAll_children_appendContent (b : Branch) (more : String) :
    sectionsAll (b.appendContent more).children = sectionsAll b.children := by
  unfold appendContent
  split
  · rfl
  · next h => rw [children_node, sectionsAll_extendLast, h]

/-- Two joined sections are listed as one, with the titles of both. -/
lemma sections_absorb {b c : Branch} (h : b.own.tag = "simplesect") :
    (b.absorb c).sections = (b.number, headings b.children ++ headings c.children) ::
      (sectionsAll b.children ++ sectionsAll c.children) := by
  have htag : (b.absorb c).own.tag = "simplesect" := (alike_absorb b c).tag.trans h
  rw [sections_of_section htag, absorb, number_node, children_node, headings_append,
    sectionsAll_append]
  simp

end Branch

open Branch

/-! ### Around a place -/

/-- What is listed of an element around a row of its children, with these titles in the row. -/
lemma Frame.exists_sections_fillRow (f : Frame) (titles : List NodeId) :
    ∃ pre post, ∀ row, headings row = titles →
      (f.fillRow row).sections = pre ++ (sectionsAll row ++ post) := by
  have hown (row : List Branch) : (f.fillRow row).own.tag = f.own.tag := rfl
  by_cases htag : f.own.tag = "simplesect"
  · refine ⟨(f.number, headings f.before.reverse ++ (titles ++ headings f.after)) ::
      sectionsAll f.before.reverse, sectionsAll f.after, fun row hrow => ?_⟩
    rw [sections_of_section ((hown row).trans htag), number_fillRow, fillRow, children_node,
      headings_append, headings_append, hrow, sectionsAll_append, sectionsAll_append,
      List.cons_append]
  · refine ⟨sectionsAll f.before.reverse, sectionsAll f.after, fun row _ => ?_⟩
    rw [sections_of_ne (by rwa [hown]), fillRow, children_node, sectionsAll_append, sectionsAll_append]

/-- What is listed around a place does not depend on what stands there, but for titles. -/
theorem exists_sections_plug (fs : List Frame) (titles : List NodeId) :
    ∃ pre post, ∀ x, headings [x] = titles →
      (plug fs x).sections = pre ++ (x.sections ++ post) := by
  induction fs generalizing titles with
  | nil => exact ⟨[], [], fun x _ => by simp⟩
  | cons f fs ih =>
    obtain ⟨pre, post, hfs⟩ := ih (headings [f.fillRow []])
    obtain ⟨pre', post', hf⟩ := f.exists_sections_fillRow titles
    refine ⟨pre ++ pre', post' ++ post, fun x hx => ?_⟩
    have hfill : headings [f.fill x] = headings [f.fillRow []] := headings_singleton_congr rfl rfl
    rw [plug_cons, hfs _ hfill, ← Frame.fillRow_singleton, hf _ hx, sectionsAll_cons,
      sectionsAll_nil]
    simp only [List.append_assoc, List.nil_append]

/-- What is listed around a place does not depend on the row that stands there, but for titles. -/
theorem exists_sections_plug_fillRow (f : Frame) (fs : List Frame) (titles : List NodeId) :
    ∃ pre post, ∀ row, headings row = titles →
      (plug fs (f.fillRow row)).sections = pre ++ (sectionsAll row ++ post) := by
  obtain ⟨pre, post, hfs⟩ := exists_sections_plug fs (headings [f.fillRow []])
  obtain ⟨pre', post', hf⟩ := f.exists_sections_fillRow titles
  refine ⟨pre ++ pre', post' ++ post, fun row hrow => ?_⟩
  have hfill : headings [f.fillRow row] = headings [f.fillRow []] := headings_singleton_congr rfl rfl
  rw [hfs _ hfill, hf row hrow]
  simp only [List.append_assoc]

/-- Nothing new is listed if something takes the place of an element in which nothing new is listed,
and is the same title as the element if it is one. -/
lemma sections_plug_subset (fs : List Frame) {x y : Branch} (hheadings : headings [y] = headings [x])
    (hsections : y.sections ⊆ x.sections) : (plug fs y).sections ⊆ (plug fs x).sections := by
  obtain ⟨pre, post, hlist⟩ := exists_sections_plug fs (headings [x])
  rw [hlist x rfl, hlist y hheadings]
  intro i hi
  simp only [List.mem_append] at hi ⊢
  exact hi.imp_right fun hi => hi.imp_left fun hi => hsections hi

/-- Text that is put before a place is not on the list. -/
lemma Frame.sections_fillRow_extendBefore (f : Frame) (more : String) (row : List Branch) :
    ((f.extendBefore more).fillRow row).sections ⊆ (f.fillRow row).sections := by
  refine sections_subset (f.number_extendBefore more) (f.alike_extendBefore more).tag ?_ ?_
  · unfold extendBefore
    split
    · rfl
    · next prev rest hbefore =>
      have hprev (bs : List Branch) :
          headings (prev.extendTail more :: bs) = headings (prev :: bs) := by
        rw [headings_cons, headings_cons prev]
        exact congrArg (· ++ headings bs) (headings_singleton_congr rfl rfl)
      simp [fillRow, hbefore, hprev]
  · unfold extendBefore
    split
    · exact List.Subset.refl _
    · next prev rest hbefore => simp [fillRow, hbefore]

/-- Nothing new is listed if an element that is no title makes room for a row without titles, and text
is put before it. -/
lemma sections_shrunk {x : Branch} (f : Frame) (fs : List Frame) (more : String) (row : List Branch)
    (htag : x.own.tag ≠ "title") (hrow : headings row = [])
    (hsections : sectionsAll row ⊆ x.sections) :
    (plug fs ((f.extendBefore more).fillRow row)).sections ⊆ (plug (f :: fs) x).sections := by
  have htext : (plug fs ((f.extendBefore more).fillRow row)).sections ⊆
      (plug fs (f.fillRow row)).sections := by
    refine sections_plug_subset fs ?_ (f.sections_fillRow_extendBefore more row)
    exact headings_singleton_congr (f.number_extendBefore more) (f.alike_extendBefore more).tag
  have hx : headings [x] = [] := headings_eq_nil (List.forall_mem_singleton.2 htag)
  obtain ⟨pre, post, hlist⟩ := exists_sections_plug_fillRow f fs []
  intro i hi
  have hi' := htext hi
  rw [hlist row hrow, List.mem_append, List.mem_append] at hi'
  rw [plug_cons, ← Frame.fillRow_singleton, hlist [x] hx, List.mem_append, List.mem_append,
    sectionsAll_cons, sectionsAll_nil, List.append_nil]
  exact hi'.imp_right fun hi => hi.imp_left fun hi => hsections hi

namespace Adjust

variable {t : Tree}

/-! ### Sections of trees -/

/-- The titles directly in an element. -/
def titles (t : Tree) (n : NodeId) : List NodeId :=
  (t.children n).filter fun c => t.tag c == "title"

/-- The titles of an element are its children of that name. -/
lemma mem_titles {n c : NodeId} : c ∈ titles t n ↔ c ∈ t.children n ∧ t.tag c = "title" := by
  rw [titles, List.mem_filter, beq_iff_eq]

/-- An element has at most one title if any two of its titles are the same. -/
lemma length_titles_le_one_iff (h : t.WellFormed) {n : NodeId} :
    (titles t n).length ≤ 1 ↔ ∀ a ∈ titles t n, ∀ b ∈ titles t n, a = b := by
  have hnodup : (titles t n).Nodup := (h.nodup_children n).filter _
  constructor
  · intro hlength a ha b hb
    cases htitles : titles t n with
    | nil =>
      rw [htitles] at ha
      exact absurd ha List.not_mem_nil
    | cons c cs =>
      rw [htitles, List.length_cons] at hlength
      have hcs : cs = [] := List.eq_nil_of_length_eq_zero (by omega)
      rw [htitles, hcs, List.mem_singleton] at ha hb
      rw [ha, hb]
  · intro hall
    cases htitles : titles t n with
    | nil => simp
    | cons c cs =>
      rw [htitles] at hall hnodup
      have hcs : cs = [] := by
        rw [List.eq_nil_iff_forall_not_mem]
        intro d hd
        have heq := hall d (List.mem_cons_of_mem c hd) c List.mem_cons_self
        rw [heq] at hd
        exact (List.nodup_cons.1 hnodup).1 hd
      simp [hcs]

/-- The titles of a branch are those the tree holds below its root. -/
lemma headings_map_branch (h : t.WellFormed) (n : NodeId) :
    headings ((t.children n).map t.branch) = titles t n := by
  rw [headings, List.filter_map, List.map_map, titles]
  refine (List.map_congr_left fun c _ => Tree.number_branch t c).trans ?_
  rw [List.map_id']
  refine List.filter_congr fun c _ => ?_
  rw [Function.comp_apply, Tree.own_branch h]
  rfl

/-- The sections of a subtree, with the titles directly in them. -/
theorem mem_sections_branch (h : t.WellFormed) {root n : NodeId} {ts : List NodeId} :
    (n, ts) ∈ (t.branch root).sections ↔
      (n = root ∨ root ∈ t.ancestors n) ∧ t.tag n = "simplesect" ∧ ts = titles t n := by
  -- By induction over the tree: a section in the branch is the root of it or lies in the branch of
  -- a child.
  induction root using h.child_induction with
  | step root ih =>
    have hbelow : (n, ts) ∈ sectionsAll (t.branch root).children ↔
        root ∈ t.ancestors n ∧ t.tag n = "simplesect" ∧ ts = titles t n := by
      rw [Tree.children_branch h, sectionsAll_eq_flatMap, List.mem_flatMap,
        Tree.mem_ancestors_iff_child h]
      simp only [List.mem_map, exists_exists_and_eq_and]
      constructor
      · rintro ⟨c, hc, hn⟩
        obtain ⟨hplace, hsection⟩ := (ih c hc).1 hn
        exact ⟨⟨c, hc, hplace⟩, hsection⟩
      · rintro ⟨⟨c, hc, hplace⟩, hsection⟩
        exact ⟨c, hc, (ih c hc).2 ⟨hplace, hsection⟩⟩
    have htag : (t.branch root).own.tag = t.tag root := by
      rw [Tree.own_branch h]
      rfl
    by_cases hroot : t.tag root = "simplesect"
    · rw [sections_of_section (htag.trans hroot), List.mem_cons, hbelow, Tree.number_branch,
        Tree.children_branch h, headings_map_branch h, Prod.mk.injEq]
      constructor
      · rintro (⟨rfl, rfl⟩ | ⟨hn, hsection⟩)
        · exact ⟨Or.inl rfl, hroot, rfl⟩
        · exact ⟨Or.inr hn, hsection⟩
      · rintro ⟨rfl | hn, hsection⟩
        · exact Or.inl ⟨rfl, hsection.2⟩
        · exact Or.inr ⟨hn, hsection⟩
    · rw [sections_of_ne (by rwa [htag]), hbelow]
      constructor
      · exact fun hn => hn.imp_left Or.inr
      · rintro ⟨rfl | hn, hsection⟩
        · exact absurd hsection.1 hroot
        · exact ⟨hn, hsection⟩

variable {outer : Context} {fresh : NodeId} {l : Location} {o : Outcome} {x y prev : Branch}

/-! ### Steps -/

/-- At this location, the section in focus is merged into the branch `prev` right before it. -/
inductive Merging (outer : Context) : Location → Branch → Prop where
  | intro {x prev : Branch} {rest : List Branch} {f : Frame} {fs : List Frame}
      (h : treatmentAt outer ⟨x, f :: fs⟩ = .absorb) (hbefore : f.before = prev :: rest)
      (hmergeable : Mergeable (contextAt outer (f :: fs)) prev.own x.own) :
      Merging outer ⟨x, f :: fs⟩ prev

/-- A title is never treated. -/
lemma tag_ne_title_of_treatmentAt (h : treatmentAt outer l ≠ .advance) :
    l.focus.own.tag ≠ "title" := by
  intro htag
  apply h
  refine treatment_of_isPlain _ _ ?_
  rw [htag, IsPlain]
  decide

/-- The list of sections of the whole, before and after two sections of it are merged. -/
lemma exists_sections_merged {f : Frame} (fs : List Frame) {rest : List Branch}
    (hbefore : f.before = prev :: rest) (htag : x.own.tag = "simplesect")
    (hprev : prev.own.tag = "simplesect") :
    ∃ pre post, (plug (f :: fs) x).sections = pre ++ (prev.sections ++ x.sections ++ post) ∧
      (plug ({ f with before := rest } :: fs) (prev.absorb x)).sections =
        pre ++ ((prev.absorb x).sections ++ post) := by
  have hne {y : Branch} (hy : y.own.tag = "simplesect") : y.own.tag ≠ "title" := by
    rw [hy]
    decide
  have hpair : f.fill x = { f with before := rest }.fillRow [prev, x] := by
    rw [Frame.fillRow_pair_eq_fill_second, ← hbefore]
  have hjoined : (prev.absorb x).own.tag = "simplesect" := (alike_absorb prev x).tag.trans hprev
  obtain ⟨pre, post, hlist⟩ := exists_sections_plug_fillRow { f with before := rest } fs []
  refine ⟨pre, post, ?_, ?_⟩
  · rw [plug_cons, hpair, hlist [prev, x]]
    · simp
    · exact headings_eq_nil (by simp [hne hprev, hne htag])
  · rw [plug_cons, ← Frame.fillRow_singleton, hlist [prev.absorb x]]
    · simp
    · exact headings_eq_nil (List.forall_mem_singleton.2 (hne hjoined))

/-- In the parts that inline markup falls into when its first child is lifted out of it, nothing new
is listed. -/
lemma sectionsAll_lift_subset (fresh : NodeId) {ys : List Branch} (hchildren : x.children = y :: ys)
    (htag : x.own.tag ∈ Schema.inlineTags) :
    sectionsAll (Frame.lift ⟨x.number, x.own, [], ys⟩ fresh y) ⊆ x.sections := by
  have hne {e : Entry} (h : e.tag = x.own.tag) : e.tag ≠ "simplesect" := by
    rw [h]
    rintro heq
    rw [heq] at htag
    exact absurd htag (by decide)
  have hpart {n : NodeId} {e : Entry} {cs : List Branch} (h : e.tag = x.own.tag) :
      (node n e cs).sections = sectionsAll cs := sections_of_ne (hne h)
  rw [sections_of_ne (hne rfl), hchildren]
  unfold Frame.lift
  split
  · simp [Frame.front, hpart]
  · simp [Frame.front, Frame.back, hpart]

/-- Nothing new is listed if a paragraph is divided. -/
lemma sections_divide {front back : Branch} {f : Frame} {fs : List Frame} (htag : x.own.tag = "para")
    (hfront : front.own.tag = x.own.tag) (hback : back.own.tag = x.own.tag)
    (hchildren : sectionsAll x.children = sectionsAll front.children ++ sectionsAll back.children) :
    (plug ({ f with after := back :: f.after } :: fs) front).sections ⊆
      (plug (f :: fs) x).sections := by
  have hne {b : Branch} (hb : b.own.tag = x.own.tag) :
      b.own.tag ≠ "simplesect" ∧ b.own.tag ≠ "title" := by
    rw [hb, htag]
    decide
  have hpair : headings [front, back] = [] :=
    headings_eq_nil (by simp [(hne hfront).2, (hne hback).2])
  have hshrunk := sections_shrunk f fs "" _ (hne rfl).2 hpair (by
    rw [sections_of_ne (hne rfl).1, hchildren]
    simp [sections_of_ne (hne hfront).1, sections_of_ne (hne hback).1])
  rw [f.extendBefore_empty] at hshrunk
  exact hshrunk

/-- Once a section is merged, what stands at its place is the one before it, joined with it. -/
lemma Step.whole_of_merging {f : Frame} {fs : List Frame} {rest : List Branch}
    (hstep : Step outer fresh ⟨x, f :: fs⟩ o) (h : treatmentAt outer ⟨x, f :: fs⟩ = .absorb)
    (hbefore : f.before = prev :: rest)
    (hmergeable : Mergeable (contextAt outer (f :: fs)) prev.own x.own) :
    o.whole = plug ({ f with before := rest } :: fs) (prev.absorb x) := by
  cases hstep with
  | @absorb _ y prev' ys rest' _ _ _ hbefore' _ hchildren =>
    obtain ⟨rfl, rfl⟩ := List.cons.inj (hbefore.symm.trans hbefore')
    rw [Outcome.whole, plug_cons, Frame.fill_absorb prev hchildren]
  | @absorbLeaf _ prev' rest' _ _ _ hbefore' _ _ =>
    obtain ⟨rfl, rfl⟩ := List.cons.inj (hbefore.symm.trans hbefore')
    rw [whole_leave]
  | @keep _ prev' rest' _ _ _ hbefore' hdiffer =>
    obtain ⟨rfl, rfl⟩ := List.cons.inj (hbefore.symm.trans hbefore')
    exact absurd hmergeable hdiffer
  | _ => simp_all

/-- A step lists nothing new if it makes no merge. -/
lemma Step.sections_subset (hstep : Step outer fresh l o) (hnone : ∀ prev, ¬Merging outer l prev) :
    o.whole.sections ⊆ (Outcome.standing l).whole.sections := by
  -- Whatever is treated is no title, so the list around it stays as it is.
  have hne (h : treatmentAt outer l ≠ .advance) : l.focus.own.tag ≠ "title" :=
    tag_ne_title_of_treatmentAt h
  cases hstep with
  | @replace x f fs text hτ =>
    rw [whole_skip, Frame.extendBefore_extendBefore]
    exact sections_shrunk f fs _ [] (hne (by simp [hτ])) rfl (List.nil_subset _)
  | @remove x f fs hτ hmore =>
    rw [whole_skip]
    exact sections_shrunk f fs _ [] (hne (by simp [hτ])) rfl (List.nil_subset _)
  | @removeLast x f fs hτ hbelow hempty =>
    exact sections_shrunk f fs _ [] (hne (by simp [hτ])) rfl (List.nil_subset _)
  | @flatten x fs hτ =>
    cases groundsAt hτ with
    | link htag hchildren =>
      have hlink : x.own.tag ≠ "simplesect" := by
        rw [show x.own.tag = _ from htag]
        decide
      have hempty {e : Entry} (he : e.tag ≠ "simplesect") : (node x.number e []).sections = [] := by
        rw [sections_of_ne (b := node x.number e []) he, children_node, sectionsAll_nil]
      refine sections_plug_subset fs (headings_singleton_congr rfl rfl) ?_
      rw [hempty (by exact hlink)]
      exact List.nil_subset _
  | @lift x y front ys rest f fs hτ hchildren hinline hrow =>
    cases groundsAt hτ with
    | nested href htag hne' =>
      have hparts : ∀ c ∈ front :: rest, c.own.tag ≠ "title" := by
        rw [← hrow]
        intro c hc htitle
        have hc' := mem_inlineTags_of_mem_lift fresh htag (Entry.mem_inlineTags_of_markup hinline) hc
        rw [htitle] at hc'
        exact absurd hc' (by decide)
      have hlift := sectionsAll_lift_subset fresh hchildren htag
      rw [hrow] at hlift
      have hshrunk := sections_shrunk f fs "" _ (hne (by simp [hτ])) (headings_eq_nil hparts) hlift
      rw [f.extendBefore_empty] at hshrunk
      exact hshrunk
  | @trim x f fs text hτ htext =>
    have hx := hne (by simp [hτ])
    refine sections_shrunk f fs _ [trimmed x text] hx ?_ ?_
    · exact headings_eq_nil (by simpa [trimmed] using hx)
    · rw [sectionsAll_cons, sectionsAll_nil, List.append_nil]
      exact Branch.sections_subset rfl rfl rfl (List.Subset.refl _)
  | @trimRoot x text hτ htext =>
    exact Branch.sections_subset rfl rfl rfl (List.Subset.refl _)
  | absorb hτ hbefore hmergeable hchildren => exact absurd (.intro hτ hbefore hmergeable) (hnone _)
  | absorbLeaf hτ hbefore hmergeable hchildren =>
    exact absurd (.intro hτ hbefore hmergeable) (hnone _)
  | keep hτ hbefore hdiffer =>
    rw [whole_enter]
    exact List.Subset.refl _
  | @divideBefore x y front back ys zs f fs hτ hchildren hfront hsplit =>
    cases hsplit
    cases groundsAt hτ with
    | paragraph htag hempty =>
      refine sections_divide htag rfl rfl ?_
      simp [Frame.front, Frame.back, show x.children = _ from hchildren]
  | @divideBehind x y front back ys zs f fs hτ hchildren htail hsplit =>
    cases hsplit
    cases groundsAt hτ with
    | paragraph htag hempty =>
      refine sections_divide htag rfl rfl ?_
      simp [Frame.front, Frame.back, show x.children = _ from hchildren]
  | undivided hτ hcontent =>
    rw [whole_enter]
    exact List.Subset.refl _
  | advance hτ =>
    rw [whole_enter]
    exact List.Subset.refl _

/-- A step that merges a section into the one before it lists that one with the titles of both, and
nothing else that is new. -/
theorem Step.sections_merged (hstep : Step outer fresh l o) (hmerging : Merging outer l prev) :
    (prev.number, headings prev.children) ∈ (Outcome.standing l).whole.sections ∧
      (l.focus.number, headings l.focus.children) ∈ (Outcome.standing l).whole.sections ∧
      (prev.number, headings prev.children ++ headings l.focus.children) ∈ o.whole.sections ∧
      ∀ i ∈ o.whole.sections, i ∈ (Outcome.standing l).whole.sections ∨
        i = (prev.number, headings prev.children ++ headings l.focus.children) := by
  obtain @⟨x, prev, rest, f, fs, hτ, hbefore, hmergeable⟩ := hmerging
  rw [hstep.whole_of_merging hτ hbefore hmergeable]
  cases groundsAt hτ with
  | laterSection htag hempty hprevious =>
    have hprev : prev.own.tag = "simplesect" := hmergeable.1.trans htag
    obtain ⟨pre, post, hold, hnew⟩ := exists_sections_merged fs hbefore htag hprev
    rw [Outcome.whole, hold, hnew, sections_absorb hprev, sections_of_section hprev,
      sections_of_section htag]
    refine ⟨by simp, by simp, by simp, fun i hi => ?_⟩
    simp only [List.mem_append, List.mem_cons] at hi ⊢
    tauto

end Adjust

end DoxygenRest
