import DoxygenRest.Proofs.Adjust.Joining
import DoxygenRest.Proofs.Tree.Specimen

/-!
# Titles of sections

A section that is merged into the one before it brings its titles along, so two sections with a title
can become one with two.  Apart from that the pass gives no section another title and takes none away
(`titles_of_adjust`): the titles of a section are those of the sections that became a part of it, and
these are all kin to it.
-/

namespace DoxygenRest.Adjust

open Branch

variable {t t' : Tree} {root : NodeId} {outer : Context}

/-! ### Where titles come from -/

/-- What each step keeps: what lies behind is cleared, and all elements are gathered. -/
structure Outcome.Gathered (t : Tree) (root : NodeId) (outer : Context) (o : Outcome) : Prop where
  orderly : o.Orderly (fun _ _ => True) outer
  gathered : AllGathered t root outer.scope o.whole

/-- What holds of everything holds of the parts. -/
lemma divisible_true : Divisible fun _ _ => True where
  part _ _ _ := trivial
  bare _ _ _ := trivial

/-- Every step keeps all elements gathered. -/
lemma Step.gathered {fresh : NodeId} {l : Location} {o : Outcome} (hstep : Step outer fresh l o)
    (h : (Outcome.standing l).Gathered t root outer) : o.Gathered t root outer :=
  ⟨hstep.orderly divisible_true h.orderly,
    hstep.allGathered h.orderly.2.notMem_inlineTags h.gathered⟩

/-- At the beginning, all elements are gathered. -/
lemma gathered_start (h : t.WellFormed) (root : NodeId) :
    (Outcome.standing ⟨t.branch root, []⟩).Gathered t root (context t root) :=
  ⟨⟨throughout_branch h fun _ _ => trivial, trivial⟩, allGathered_branch h root⟩

/-- The pass leaves all elements gathered and no inline markup with children. -/
theorem gathered_of_adjust (h : t.WellFormed) (hrun : adjust root t = .ok () t') :
    t'.WellFormed ∧ AllGathered t root (context t root).scope (t'.branch root) ∧
      Throughout Cleared (context t root).highlighted (t'.branch root) := by
  obtain ⟨h', -, hend⟩ := keeps_of_adjust h hrun Step.gathered (gathered_start h root)
  exact ⟨h', hend.gathered, hend.orderly⟩

/-- A child of an element that is gathered and no inline markup with children is so itself. -/
lemma AllGathered.child {scope : Bindings} {highlighted : Bool} (h' : t'.WellFormed) {n c : NodeId}
    (h : AllGathered t root scope (t'.branch n)) (hcleared : Throughout Cleared highlighted (t'.branch n))
    (hc : c ∈ t'.children n) :
    Gathered t root scope (t'.branch n) ∧ (∃ scope, AllGathered t root scope (t'.branch c)) ∧
      ∃ highlighted, Throughout Cleared highlighted (t'.branch c) := by
  have hchild := Tree.branch_mem_children h' hc
  obtain ⟨hn, hrow⟩ := throughout_iff.1 hcleared
  have htag : (t'.branch n).own.tag ∉ Schema.inlineTags := by
    intro htag
    rw [hn.flat htag] at hchild
    exact absurd hchild List.not_mem_nil
  obtain ⟨hgathered, hchildren⟩ := allGathered_iff.1 h htag
  exact ⟨hgathered, ⟨_, hchildren _ hchild⟩, _, throughoutRow_iff.1 hrow _ hchild⟩

/-- The pass leaves every element with children gathered. -/
lemma exists_gathered_of_adjust (h : t.WellFormed) (hrun : adjust root t = .ok () t') {n c : NodeId}
    (hn : n = root ∨ root ∈ t'.ancestors n) (hc : c ∈ t'.children n) :
    ∃ scope, Gathered t root scope (t'.branch n) := by
  obtain ⟨h', hgathered, hcleared⟩ := gathered_of_adjust h hrun
  suffices hall : (∃ scope, AllGathered t root scope (t'.branch n)) ∧
      ∃ highlighted, Throughout Cleared highlighted (t'.branch n) by
    obtain ⟨⟨scope, hscope⟩, highlighted, hhighlighted⟩ := hall
    exact ⟨scope, (hscope.child h' hhighlighted hc).1⟩
  clear hc
  induction n using h'.parent_induction with
  | step n ih =>
    rcases hn with rfl | hn
    · exact ⟨⟨_, hgathered⟩, _, hcleared⟩
    · obtain ⟨parent, hp, hparent⟩ := (Tree.mem_ancestors_iff h').1 hn
      obtain ⟨⟨scope, hscope⟩, highlighted, hhighlighted⟩ := ih parent hp (hparent.imp_left Eq.symm)
      exact (hscope.child h' hhighlighted (h'.mem_children_iff.2 hp)).2

/-- The sections and titles that the pass leaves were there before, and those in a section were in one
that is kin to it. -/
theorem exists_parent_of_adjust (h : t.WellFormed) (hrun : adjust root t = .ok () t') {n c : NodeId}
    (hn : n = root ∨ root ∈ t'.ancestors n) (hc : c ∈ t'.children n)
    (hkind : t'.tag c = "simplesect" ∨ t'.tag c = "title") :
    (root ∈ t.ancestors c ∧ t.tag c = t'.tag c) ∧
      ∃ parent, t.parent? c = some parent ∧ (t'.tag n = "simplesect" → Kin t root parent n) := by
  have h' := (gathered_of_adjust h hrun).1
  obtain ⟨scope, hg⟩ := exists_gathered_of_adjust h hrun hn hc
  have hchild := Tree.branch_mem_children h' hc
  have hkind' : IsSectionOrTitle (t'.branch c) := by
    rw [IsSectionOrTitle, Tree.own_branch h']
    exact hkind
  have hc' := hg.original _ hchild hkind'
  obtain ⟨home, hhome, hfrom⟩ := hg.kin
  obtain ⟨parent, hp, hkin⟩ := hfrom _ hchild hkind'
  have hbelow := hc'.below
  have htag := hc'.tag
  rw [Tree.number_branch] at hp hbelow htag
  rw [Tree.own_branch h'] at htag
  rw [Tree.own_branch h', Tree.number_branch] at hhome
  refine ⟨⟨hbelow, htag⟩, parent, hp, fun hsection => ?_⟩
  rw [hhome hsection] at hkin
  exact hkin

/-! ### The pass -/

/-- A section that is merged into the one before it is kin to it. -/
lemma Tracks.kin_of_merges {c c' : Cursor} {l : Location} {a b : NodeId}
    (hc : Tracks root outer c (.standing l)) (ho : (Outcome.standing l).Gathered t root outer)
    (hhandle : Editor.handle editor c = .ok () c') (h : Merges c b a) : Kin t root b a := by
  obtain ⟨rfl, prev, hmerging, rfl⟩ := (hc.merges_iff_of_handle hhandle).1 h
  obtain @⟨x, prev, rest, f, fs, hτ, hbefore, hmergeable⟩ := hmerging
  cases groundsAt hτ with
  | laterSection htag hempty hprevious =>
    exact (ho.gathered.kin_of_mergeable ho.orderly.2.notMem_inlineTags htag hbefore hmergeable).symm

/-- What a run makes of a section that is left when it ends: the sections that became a part of it are
kin to it, and their titles are its titles. -/
lemma Tracks.titles_of_runFor {left : Nat} {c c' : Cursor} {o : Outcome} {n : NodeId}
    (hc : Tracks root outer c o) (ho : o.Gathered t root outer)
    (hrun : editor.runFor left c = .ok () c') (hn : IsSection c'.tree root n) :
    (∀ s, Joins c s n → IsSection c.tree root s ∧ Kin t root s n) ∧
      ∀ d, d ∈ titles c'.tree n ↔ ∃ s, Joins c s n ∧ d ∈ titles c.tree s := by
  -- At the end, only `n` itself is a part of `n`.
  have hend {b : Branch} (hc : Tracks root outer c' (.finished b)) :
      (∀ s, Joins c' s n → IsSection c'.tree root s ∧ Kin t root s n) ∧
        ∀ d, d ∈ titles c'.tree n ↔ ∃ s, Joins c' s n ∧ d ∈ titles c'.tree s := by
    have heq {s : NodeId} (hjoins : Joins c' s n) : s = n := hjoins.eq_of_current_eq_none hc.standing
    constructor
    · intro s hjoins
      obtain rfl := heq hjoins
      exact ⟨hn, .refl s⟩
    · intro d
      refine ⟨fun hd => ⟨n, .same c' n, hd⟩, ?_⟩
      rintro ⟨s, hjoins, hd⟩
      rwa [heq hjoins] at hd
  induction left generalizing c o with
  | zero =>
    rcases hc.handle_of_runFor hrun with ⟨b, rfl, rfl⟩ | ⟨_, _, _, hleft, -⟩
    · exact hend hc
    · cases hleft
  | succ left ih =>
    rcases hc.handle_of_runFor hrun with ⟨b, rfl, rfl⟩ | ⟨_, l, c₁, hleft, rfl, hhandle, hrest⟩
    · exact hend hc
    · cases hleft
      obtain ⟨o', hstep, hc₁⟩ := exists_step_of_handle hc hhandle
      obtain ⟨hparts, htitles⟩ := ih hc₁ (hstep.gathered ho) hrest
      -- Each part of `n` is one of the sections that become parts later on, or is merged into one now.
      have hnow {s : NodeId} (hs : Joins c₁ s n) := hc.mem_titles_of_handle hhandle (hparts s hs).1
      constructor
      · intro s hjoins
        rcases (joins_iff_of_handle hhandle).1 hjoins with hs | ⟨a, hmerges, ha⟩
        · exact ⟨(hnow hs).1, (hparts s hs).2⟩
        · have hkin := hc.kin_of_merges ho hhandle hmerges
          exact ⟨(hnow ha).2.1 s hmerges, hkin.trans (hparts a ha).2⟩
      · intro d
        rw [htitles]
        constructor
        · rintro ⟨s, hs, hd⟩
          rcases ((hnow hs).2.2 d).1 hd with hd | ⟨b, hmerges, hd⟩
          · exact ⟨s, (joins_iff_of_handle hhandle).2 (Or.inl hs), hd⟩
          · exact ⟨b, (joins_iff_of_handle hhandle).2 (Or.inr ⟨s, hmerges, hs⟩), hd⟩
        · rintro ⟨s, hjoins, hd⟩
          rcases (joins_iff_of_handle hhandle).1 hjoins with hs | ⟨a, hmerges, ha⟩
          · exact ⟨s, hs, ((hnow hs).2.2 d).2 (Or.inl hd)⟩
          · exact ⟨a, ha, ((hnow ha).2.2 d).2 (Or.inr ⟨s, hmerges, hd⟩)⟩

/-- The sections with at most one title, told by where the titles come from. -/
lemma length_titles_le_one_iff_of_sources (h : t.WellFormed) (h' : t'.WellFormed) {n : NodeId}
    {S : NodeId → Prop} (hsource : ∀ c, c ∈ titles t' n ↔ ∃ s, S s ∧ c ∈ titles t s)
    (hone : ∀ s, S s → (titles t s).length ≤ 1) :
    (titles t' n).length ≤ 1 ↔
      ∀ s s', S s → S s' → titles t s ≠ [] → titles t s' ≠ [] → s = s' := by
  rw [length_titles_le_one_iff h']
  constructor
  · intro hsame s s' hs hs' hne hne'
    obtain ⟨c, hc⟩ := List.exists_mem_of_ne_nil _ hne
    obtain ⟨c', hc'⟩ := List.exists_mem_of_ne_nil _ hne'
    obtain rfl := hsame c ((hsource c).2 ⟨s, hs, hc⟩) c' ((hsource c').2 ⟨s', hs', hc'⟩)
    -- A title has one parent.
    have hp := h.mem_children_iff.1 (mem_titles.1 hc).1
    have hp' := h.mem_children_iff.1 (mem_titles.1 hc').1
    exact Option.some.inj (hp.symm.trans hp')
  · intro hsame c hc d hd
    obtain ⟨s, hs, hcs⟩ := (hsource c).1 hc
    obtain ⟨s', hs', hds⟩ := (hsource d).1 hd
    obtain rfl := hsame s s' hs hs' (List.ne_nil_of_mem hcs) (List.ne_nil_of_mem hds)
    exact (length_titles_le_one_iff h).1 (hone s hs) c hcs d hds

/-- **Titles of sections**: what the pass makes a part of a section below `root` are sections kin to
it, and its titles are the titles that these had at the beginning.  So if each of them had at most one,
it has at most one if and only if no two of them had one. -/
theorem titles_of_adjust {t t' : Tree} {root n : NodeId} (h : t.WellFormed)
    (hrun : adjust root t = .ok () t') (hn : root ∈ t'.ancestors n)
    (htag : t'.tag n = "simplesect") :
    (∀ s, Joins (Cursor.start t root) s n →
      (root ∈ t.ancestors s ∧ t.tag s = "simplesect") ∧ Kin t root s n) ∧
    (∀ c, c ∈ titles t' n ↔ ∃ s, Joins (Cursor.start t root) s n ∧ c ∈ titles t s) ∧
    ((∀ s, Joins (Cursor.start t root) s n → (titles t s).length ≤ 1) →
      ((titles t' n).length ≤ 1 ↔
        ∀ s s', Joins (Cursor.start t root) s n → Joins (Cursor.start t root) s' n →
          titles t s ≠ [] → titles t s' ≠ [] → s = s')) := by
  have h' := (gathered_of_adjust h hrun).1
  have hsection : root ∈ t.ancestors n ∧ t.tag n = "simplesect" := by
    obtain ⟨parent, hp, hparent⟩ := (Tree.mem_ancestors_iff h').1 hn
    obtain ⟨⟨hbelow, hsame⟩, -⟩ := exists_parent_of_adjust h hrun (hparent.imp_left Eq.symm)
      (h'.mem_children_iff.2 hp) (Or.inl htag)
    exact ⟨hbelow, hsame.trans htag⟩
  obtain ⟨c, hloop, rfl⟩ := exists_run_of_adjust hrun
  obtain ⟨hparts, htitles⟩ := (tracks_start h root).titles_of_runFor (gathered_start h root) hloop
    ⟨Or.inr hn, htag⟩
  refine ⟨fun s hjoins => ?_, htitles, length_titles_le_one_iff_of_sources h h' htitles⟩
  have hkin := (hparts s hjoins).2
  exact ⟨hkin.isSection hsection, hkin⟩

/-- A paragraph with sections of the same kind in two places:

    <detaileddescription><para><simplesect kind="par"><title>A</title><para>v</para></simplesect>
    <simplesect kind="par"><para>w</para></simplesect>
    <simplesect kind="note"><title>B</title><para>x</para></simplesect>
    <simplesect kind="par"><title>C</title><para>y</para></simplesect>
    <simplesect kind="par"><title>D</title><para>z</para></simplesect></para></detaileddescription>
-/
def remarks : Tree :=
  ⟨#[{ tag := "detaileddescription", children := [1] },
    { tag := "para", parent := some 0, children := [2, 5, 7, 10, 13] },
    { tag := "simplesect", attributes := .ofList [("kind", "par")], parent := some 1,
      children := [3, 4] },
    { tag := "title", text := some "A", parent := some 2 },
    { tag := "para", text := some "v", parent := some 2 },
    { tag := "simplesect", attributes := .ofList [("kind", "par")], parent := some 1,
      children := [6] },
    { tag := "para", text := some "w", parent := some 5 },
    { tag := "simplesect", attributes := .ofList [("kind", "note")], parent := some 1,
      children := [8, 9] },
    { tag := "title", text := some "B", parent := some 7 },
    { tag := "para", text := some "x", parent := some 7 },
    { tag := "simplesect", attributes := .ofList [("kind", "par")], parent := some 1,
      children := [11, 12] },
    { tag := "title", text := some "C", parent := some 10 },
    { tag := "para", text := some "y", parent := some 10 },
    { tag := "simplesect", attributes := .ofList [("kind", "par")], parent := some 1,
      children := [14, 15] },
    { tag := "title", text := some "D", parent := some 13 },
    { tag := "para", text := some "z", parent := some 13 }]⟩

/-- The same paragraph after the pass, with the second section merged into the first, and the last one
into the one before. -/
def mergedRemarks : Tree :=
  ⟨#[{ tag := "detaileddescription", children := [1] },
    { tag := "para", parent := some 0, children := [2, 7, 10] },
    { tag := "simplesect", attributes := .ofList [("kind", "par")], parent := some 1,
      children := [3, 4, 6] },
    { tag := "title", text := some "A", parent := some 2 },
    { tag := "para", text := some "v", parent := some 2 },
    { tag := "simplesect", attributes := .ofList [("kind", "par")] },
    { tag := "para", text := some "w", parent := some 2 },
    { tag := "simplesect", attributes := .ofList [("kind", "note")], parent := some 1,
      children := [8, 9] },
    { tag := "title", text := some "B", parent := some 7 },
    { tag := "para", text := some "x", parent := some 7 },
    { tag := "simplesect", attributes := .ofList [("kind", "par")], parent := some 1,
      children := [11, 12, 14, 15] },
    { tag := "title", text := some "C", parent := some 10 },
    { tag := "para", text := some "y", parent := some 10 },
    { tag := "simplesect", attributes := .ofList [("kind", "par")] },
    { tag := "title", text := some "D", parent := some 10 },
    { tag := "para", text := some "z", parent := some 10 }]⟩

/-- The first section and the fourth are kin and have a title each, but a section of another kind keeps
them apart, and the first is left with its one title.  The last one becomes a part of the fourth, which
is left with two. -/
theorem titles_of_adjust_remarks :
    adjust 0 remarks = .ok () mergedRemarks ∧
      Kin remarks 0 10 2 ∧ ¬Joins (Cursor.start remarks 0) 10 2 ∧
      (titles mergedRemarks 2).length ≤ 1 ∧
      Joins (Cursor.start remarks 0) 13 10 ∧ ¬(titles mergedRemarks 10).length ≤ 1 := by
  have h : remarks.WellFormed := Tree.wellFormed_of_ordered (by decide)
  have hrun : adjust 0 remarks = .ok () mergedRemarks := by decide +kernel
  have hfirst := titles_of_adjust h hrun (show 0 ∈ mergedRemarks.ancestors 2 by decide) (by decide)
  have hfourth := titles_of_adjust h hrun (show 0 ∈ mergedRemarks.ancestors 10 by decide) (by decide)
  have hapart : ¬Joins (Cursor.start remarks 0) 10 2 := by
    intro hjoins
    exact absurd ((hfirst.2.1 11).2 ⟨10, hjoins, by decide⟩) (by decide)
  refine ⟨hrun, ?_, hapart, by decide, ?_, by decide⟩
  · exact .within ⟨by decide, by decide, by decide, by decide⟩ (p := 1) (q := 1) (by decide)
      (by decide) (.refl 1)
  · obtain ⟨s, hjoins, hs⟩ := (hfourth.2.1 14).1 (by decide)
    have honly : ∀ s < remarks.size, 14 ∈ titles remarks s → s = 13 := by decide
    obtain rfl := honly s (Tree.lt_size_of_below h (hfourth.1 s hjoins).1.1) hs
    exact hjoins

/-- A paragraph with two sections of the same kind that both have a title:

    <detaileddescription><para><simplesect kind="par"><title>A</title><para>x</para></simplesect>
    <simplesect kind="par"><title>B</title><para>y</para></simplesect></para></detaileddescription>
-/
def chapters : Tree :=
  ⟨#[{ tag := "detaileddescription", children := [1] },
    { tag := "para", parent := some 0, children := [2, 5] },
    { tag := "simplesect", attributes := .ofList [("kind", "par")], parent := some 1,
      children := [3, 4] },
    { tag := "title", text := some "A", parent := some 2 },
    { tag := "para", text := some "x", parent := some 2 },
    { tag := "simplesect", attributes := .ofList [("kind", "par")], parent := some 1,
      children := [6, 7] },
    { tag := "title", text := some "B", parent := some 5 },
    { tag := "para", text := some "y", parent := some 5 }]⟩

/-- The same paragraph after the pass, with both titles in one section. -/
def mergedChapters : Tree :=
  ⟨#[{ tag := "detaileddescription", children := [1] },
    { tag := "para", parent := some 0, children := [2] },
    { tag := "simplesect", attributes := .ofList [("kind", "par")], parent := some 1,
      children := [3, 4, 6, 7] },
    { tag := "title", text := some "A", parent := some 2 },
    { tag := "para", text := some "x", parent := some 2 },
    { tag := "simplesect", attributes := .ofList [("kind", "par")] },
    { tag := "title", text := some "B", parent := some 2 },
    { tag := "para", text := some "y", parent := some 2 }]⟩

/-- It does not suffice that each section has at most one title: two such sections that are merged
become one with two. -/
theorem not_length_titles_le_one_of_adjust :
    ¬∀ (t t' : Tree) (root : NodeId), t.WellFormed →
      (∀ n, root ∈ t.ancestors n → t.tag n = "simplesect" → (titles t n).length ≤ 1) →
      adjust root t = .ok () t' →
      ∀ n, root ∈ t'.ancestors n → t'.tag n = "simplesect" → (titles t' n).length ≤ 1 := by
  intro hall
  have h : chapters.WellFormed := Tree.wellFormed_of_ordered (by decide)
  have hone : ∀ n < chapters.size, (titles chapters n).length ≤ 1 := by decide
  have hrun : adjust 0 chapters = .ok () mergedChapters := by decide +kernel
  have htwo : ¬(titles mergedChapters 2).length ≤ 1 := by decide
  apply htwo
  refine hall chapters mergedChapters 0 h (fun n hn _ => ?_) hrun 2 (by decide) (by decide)
  exact hone n (Tree.lt_size_of_below h hn)

end DoxygenRest.Adjust
