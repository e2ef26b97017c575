import DoxygenRest.Proofs.Adjust.Headings
import DoxygenRest.Proofs.Adjust.Walk

/-!
# Which sections come together

What the pass merges is told by its run: it handles one element after the other, and when the rule for
later sections treats an element that is compatible with the sibling right before it, the element is
merged into the sibling (`Merges`).  What an element is merged into may be merged in its turn, so a
section comes to be part of another one by a chain of merges, each later than the one before (`Joins`).

Handling an element leaves each section with the titles that it had, and with those of the section that
is merged into it (`Tracks.mem_titles_of_handle`).
-/

namespace DoxygenRest.Adjust

open Branch

/-- Handling the current element `b` merges it into the section `a` right before it. -/
structure Merges (c : Cursor) (b a : NodeId) : Prop where
  current : c.current = some b
  rule : (Rule.dispatch rules c.tree b).map Rule.name = some "absorb_compatible_simplesect"
  previous : c.tree.previousSibling? b = some a
  compatible : areCompatible c.tree a b = true

/-- From the cursor `c` on, the pass makes `s` a part of `n`: the two are the same, or the pass merges
`s` into something that it makes a part of `n` later on. -/
inductive Joins : (c : Cursor) → (s n : NodeId) → Prop where
  | same (c : Cursor) (n : NodeId) : Joins c n n
  | merged {c c' : Cursor} {s a n : NodeId} (hmerges : Merges c s a)
      (hhandle : Editor.handle editor c = .ok () c') (hrest : Joins c' a n) : Joins c s n
  | later {c c' : Cursor} {s n : NodeId} (hhandle : Editor.handle editor c = .ok () c')
      (hrest : Joins c' s n) : Joins c s n

variable {c c' : Cursor} {a b n s : NodeId}

/-- An element is merged into no more than one other. -/
lemma Merges.unique {a' b' : NodeId} (h : Merges c b a) (h' : Merges c b' a') : b' = b ∧ a' = a := by
  obtain rfl : b = b' := Option.some.inj (h.current.symm.trans h'.current)
  exact ⟨rfl, Option.some.inj (h'.previous.symm.trans h.previous)⟩

/-- What becomes a part of `n` does so from the next element on, or it is merged now. -/
lemma joins_iff_of_handle (hhandle : Editor.handle editor c = .ok () c') :
    Joins c s n ↔ Joins c' s n ∨ ∃ a, Merges c s a ∧ Joins c' a n := by
  constructor
  · intro hjoins
    cases hjoins with
    | same => exact Or.inl (.same c' n)
    | @merged _ c₁ _ a _ hmerges hhandle' hrest =>
      cases hhandle.symm.trans hhandle'
      exact Or.inr ⟨a, hmerges, hrest⟩
    | @later _ c₁ _ _ hhandle' hrest =>
      cases hhandle.symm.trans hhandle'
      exact Or.inl hrest
  · rintro (hrest | ⟨a, hmerges, hrest⟩)
    · exact .later hhandle hrest
    · exact .merged hmerges hhandle hrest

/-- Once the cursor has left its subtree, nothing becomes a part of anything else. -/
lemma Joins.eq_of_current_eq_none (h : Joins c s n) (hnone : c.current = none) : s = n := by
  have hrest : Editor.handle editor c = .ok () c := by
    rw [Editor.handle, show Editor.nestingLimit = Editor.nestingLimit - 1 + 1 from rfl,
      Editor.handleWithin, Program.get_bind_apply, hnone]
    rfl
  induction h with
  | same c n => rfl
  | merged hmerges hhandle _ ih =>
    rw [hmerges.current] at hnone
    cases hnone
  | later hhandle _ ih =>
    cases hrest.symm.trans hhandle
    exact ih hnone hrest

/-! ### When the rule for later sections applies -/

/-- Of the rules, two are meant for sections: for empty ones, and for those behind another section. -/
lemma name_dispatch_section {t : Tree} (htag : t.tag n = "simplesect") :
    (Rule.dispatch rules t n).map Rule.name =
      if Schema.isEmpty t n then some "remove_empty_simplesect"
      else if sectionBefore.holds t n then some "absorb_compatible_simplesect" else none := by
  have hrules : Rule.meantFor "simplesect" rules =
      [{ name := "remove_empty_simplesect", action := fun _ => removeCurrent
         tags := some ["simplesect"], requires := some (.predicate Schema.isEmpty) },
       { name := "absorb_compatible_simplesect", action := fun _ => absorb
         tags := some ["simplesect"], requires := some (.query sectionBefore) }] := rfl
  rw [← Rule.dispatch_meantFor, htag, hrules, Rule.dispatch_cons, Rule.dispatch_cons]
  simp only [Rule.accepts_iff, htag, List.mem_singleton, Option.all_none, Option.all_some,
    Guard.holds, true_and]
  split
  · rfl
  · split
    · rfl
    · rfl

/-- The rule for later sections treats the sections that hold something and follow another section. -/
lemma name_dispatch_eq_iff {t : Tree} :
    (Rule.dispatch rules t n).map Rule.name = some "absorb_compatible_simplesect" ↔
      t.tag n = "simplesect" ∧ Schema.isEmpty t n = false ∧ sectionBefore.holds t n = true := by
  constructor
  · intro h
    obtain ⟨rule, hrule, hname⟩ := Option.map_eq_some_iff.1 h
    have htag : t.tag n = "simplesect" := by
      have hmem := List.mem_of_find?_eq_some hrule
      have haccepts := List.find?_some hrule
      simp only [rules, List.mem_cons, List.not_mem_nil, or_false] at hmem
      rcases hmem with rfl | rfl | rfl | rfl | rfl | rfl | rfl | rfl | rfl | rfl | rfl | rfl <;>
        simp_all [Rule.accepts_iff]
    rw [name_dispatch_section htag] at h
    split at h
    · simp at h
    · split at h
      · simp_all
      · cases h
  · rintro ⟨htag, hempty, hbefore⟩
    rw [name_dispatch_section htag, hempty, hbefore]
    rfl

/-- A section is merged into the one before it if it holds something. -/
lemma treatment_eq_absorb_iff {k : Context} {previous? : Option Entry} {x : Branch} :
    treatment k previous? x = .absorb ↔
      x.own.tag = "simplesect" ∧ ¬x.isEmpty ∧ ∃ e ∈ previous?, e.tag = "simplesect" := by
  constructor
  · intro h
    cases grounds h with
    | laterSection htag hempty hprevious => exact ⟨htag, hempty, hprevious⟩
  · rintro ⟨htag, hempty, e, he, hsection⟩
    rw [Option.mem_def] at he
    have hinline : "simplesect" ∉ Schema.inlineTags := by decide
    have hpresentation : "simplesect" ∉ Schema.presentationTags := by decide
    simp [treatment, htag, hempty, he, hsection, hinline, hpresentation]

variable {root : NodeId} {outer : Context} {l : Location} {x : Branch} {f : Frame} {fs : List Frame}

/-- The rule for later sections is the one that asks to merge the current element. -/
lemma name_dispatch_iff_treatment {t : Tree} (hx : x.Holds t) :
    (Rule.dispatch rules t x.number).map Rule.name = some "absorb_compatible_simplesect" ↔
      treatment (context t x.number) ((t.previousSibling? x.number).map t.entry) x = .absorb := by
  rw [name_dispatch_eq_iff, treatment_eq_absorb_iff, holds_sectionBefore, hx.tag_eq, hx.isEmpty_eq,
    Bool.not_eq_true]
  refine and_congr_right fun _ => and_congr_right fun _ => ?_
  constructor
  · rintro ⟨m, hm, htag⟩
    exact ⟨t.entry m, by rw [hm]; rfl, htag⟩
  · rintro ⟨e, he, htag⟩
    obtain ⟨m, hm, rfl⟩ := Option.map_eq_some_iff.1 he
    exact ⟨m, hm, htag⟩

/-- Below the root of the walk, what is merged is told by the place of the current element. -/
lemma Tracks.merges_iff (hc : Tracks root outer c (.standing ⟨x, f :: fs⟩)) :
    Merges c b a ↔ b = x.number ∧ ∃ prev, Merging outer ⟨x, f :: fs⟩ prev ∧ prev.number = a := by
  have hrule := name_dispatch_iff_treatment hc.holds_focus
  have htreatment : treatment (context c.tree x.number)
      ((c.tree.previousSibling? x.number).map c.tree.entry) x = treatmentAt outer ⟨x, f :: fs⟩ := by
    rw [hc.context_focus, hc.previous]
    rfl
  have hcurrent : c.current = some x.number := hc.standing
  have hprevious : c.tree.previousSibling? x.number = f.before.head?.map number :=
    f.previousSibling?_eq hc.wellFormed (holds_plug.1 hc.holds).2.1
  rw [htreatment] at hrule
  constructor
  · intro h
    obtain rfl : b = x.number := Option.some.inj (h.current.symm.trans hcurrent)
    refine ⟨rfl, ?_⟩
    obtain ⟨prev, hprev, rfl⟩ := Option.map_eq_some_iff.1 (hprevious.symm.trans h.previous)
    obtain ⟨rest, hbefore⟩ := List.head?_eq_some_iff.1 hprev
    have hmergeable := (hc.areCompatible_iff hbefore).1 h.compatible
    exact ⟨prev, .intro (hrule.1 h.rule) hbefore hmergeable, rfl⟩
  · rintro ⟨rfl, prev, ⟨hτ, hbefore, hmergeable⟩, rfl⟩
    refine ⟨hcurrent, hrule.2 hτ, ?_, (hc.areCompatible_iff hbefore).2 hmergeable⟩
    rw [hprevious, hbefore]
    rfl

/-- The root of the walk is never merged into anything. -/
lemma Tracks.not_merges_root (hc : Tracks root outer c (.standing ⟨x, []⟩))
    (hhandle : Editor.handle editor c = .ok () c') : ¬Merges c b a := by
  intro h
  obtain rfl : b = x.number := Option.some.inj (h.current.symm.trans hc.standing)
  have hcompatible : (c.tree.previousSibling? x.number).any
      (fun previous => areCompatible c.tree previous x.number) = true := by
    rw [h.previous]
    exact h.compatible
  have hmerge : Adjust.absorb c = Cursor.mergeIntoPrevious none c := by
    rw [Adjust.absorb, Program.bind_ok hc.current_ok, Program.get_bind_apply, if_pos hcompatible]
  have hrefused : Cursor.mergeIntoPrevious none c = .error (refusalOfRoot "merge" x) c :=
    Program.bind_error (hc.refused_root "merge" hc.chosen) _
  rw [Adjust.handle_eq_run hc.holds_focus hc.standing hc.wellFormed,
    (name_dispatch_iff_treatment hc.holds_focus).1 h.rule, Treatment.run, hmerge, hrefused] at hhandle
  cases hhandle

/-- What is merged when the current element is handled. -/
lemma Tracks.merges_iff_of_handle (hc : Tracks root outer c (.standing l))
    (hhandle : Editor.handle editor c = .ok () c') :
    Merges c b a ↔ b = l.focus.number ∧ ∃ prev, Merging outer l prev ∧ prev.number = a := by
  obtain ⟨x, fs⟩ := l
  cases fs with
  | nil =>
    constructor
    · intro h
      exact absurd h (hc.not_merges_root hhandle)
    · rintro ⟨-, prev, hmerging, -⟩
      cases hmerging
  | cons f fs => exact hc.merges_iff

/-! ### The titles of a section from one element to the next -/

/-- A section of the subtree at `root`. -/
structure IsSection (t : Tree) (root n : NodeId) : Prop where
  place : n = root ∨ root ∈ t.ancestors n
  tag : t.tag n = "simplesect"

/-- The sections of the branch that a cursor walks over. -/
lemma Tracks.mem_sections_iff {o : Outcome} (hc : Tracks root outer c o) {ts : List NodeId} :
    (n, ts) ∈ o.whole.sections ↔ IsSection c.tree root n ∧ ts = titles c.tree n := by
  rw [← hc.whole, Cursor.branch, hc.root_eq, mem_sections_branch hc.wellFormed]
  constructor
  · rintro ⟨hplace, htag, hts⟩
    exact ⟨⟨hplace, htag⟩, hts⟩
  · rintro ⟨⟨hplace, htag⟩, hts⟩
    exact ⟨hplace, htag, hts⟩

/-- **Handling an element** leaves each section with the titles that it had, and with those of the
section that is merged into it, which was a section of the subtree as well. -/
theorem Tracks.mem_titles_of_handle (hc : Tracks root outer c (.standing l))
    (hhandle : Editor.handle editor c = .ok () c') (hs : IsSection c'.tree root s) :
    IsSection c.tree root s ∧ (∀ b, Merges c b s → IsSection c.tree root b) ∧
      ∀ d, d ∈ titles c'.tree s ↔
        d ∈ titles c.tree s ∨ ∃ b, Merges c b s ∧ d ∈ titles c.tree b := by
  obtain ⟨o, hstep, hc'⟩ := exists_step_of_handle hc hhandle
  have hlisted : (s, titles c'.tree s) ∈ o.whole.sections := hc'.mem_sections_iff.2 ⟨hs, rfl⟩
  -- A step merges two sections at most, and changes no titles besides.
  by_cases hmerges : ∃ b, Merges c b s
  · obtain ⟨b, hb⟩ := hmerges
    obtain ⟨rfl, prev, hmerging, rfl⟩ := (hc.merges_iff_of_handle hhandle).1 hb
    obtain ⟨hprev, hx, hjoined, -⟩ := hstep.sections_merged hmerging
    obtain ⟨hsection, htitles⟩ := hc.mem_sections_iff.1 hprev
    obtain ⟨hsection', htitles'⟩ := hc.mem_sections_iff.1 hx
    have hboth := (hc'.mem_sections_iff.1 hjoined).2
    refine ⟨hsection, fun b' hb' => (hb.unique hb').1 ▸ hsection', fun d => ?_⟩
    rw [← hboth, htitles, htitles', List.mem_append]
    refine or_congr_right ⟨fun hd => ⟨_, hb, hd⟩, ?_⟩
    rintro ⟨b', hb', hd⟩
    rwa [(hb.unique hb').1] at hd
  · -- Nothing is merged into this section, so it is listed as it was.
    have hold : (s, titles c'.tree s) ∈ (Outcome.standing l).whole.sections := by
      by_cases hmerging : ∃ prev, Merging outer l prev
      · obtain ⟨prev, hmerging⟩ := hmerging
        rcases (hstep.sections_merged hmerging).2.2.2 _ hlisted with hold | hnew
        · exact hold
        · have hprev : prev.number = s := (congrArg Prod.fst hnew).symm
          exact absurd ⟨_, (hc.merges_iff_of_handle hhandle).2 ⟨rfl, prev, hmerging, hprev⟩⟩ hmerges
      · exact hstep.sections_subset (not_exists.1 hmerging) hlisted
    obtain ⟨hsection, htitles⟩ := hc.mem_sections_iff.1 hold
    refine ⟨hsection, fun b hb => absurd ⟨b, hb⟩ hmerges, fun d => ?_⟩
    rw [htitles]
    refine ⟨Or.inl, ?_⟩
    rintro (hd | ⟨b, hb, -⟩)
    · exact hd
    · exact absurd ⟨b, hb⟩ hmerges

end DoxygenRest.Adjust
