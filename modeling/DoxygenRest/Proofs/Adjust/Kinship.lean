import DoxygenRest.Proofs.Adjust.Clearance

/-!
# Sections that can come together

The pass merges a section into the one before it if the two agree in their attributes and in the
namespaces in scope.  It may merge what is inside of them next, so which sections of a tree come
together depends on more than their neighbours; but they are always kin (`Kin`): they agree, and so do
the sections that they stand in, up to an element that both stand in.

What each step keeps is that the sections and titles directly in an element are elements of the tree
at the beginning, and that they stood in elements that are kin (`Gathered`, `Step.allGathered`).
-/

namespace DoxygenRest.Adjust

open Branch

variable {t : Tree} {root : NodeId} {scope : Bindings} {outer : Context} {x x' : Branch} {f : Frame}
  {fs : List Frame} {row bs cs : List Branch}

/-! ### Kinship -/

/-- Two sections below `root` that the pass would merge if one followed the other. -/
structure Compatible (t : Tree) (root a b : NodeId) : Prop where
  below : root ∈ t.ancestors a ∧ root ∈ t.ancestors b
  tag : t.tag a = "simplesect" ∧ t.tag b = "simplesect"
  attributes : t.attributes a = t.attributes b
  namespaces : t.namespaces a = t.namespaces b

/-- Elements are kin if they are the same, or compatible sections whose parents are kin. -/
inductive Kin (t : Tree) (root : NodeId) : NodeId → NodeId → Prop where
  | refl (a : NodeId) : Kin t root a a
  | within {a b p q : NodeId} (h : Compatible t root a b) (hp : t.parent? a = some p)
      (hq : t.parent? b = some q) (hkin : Kin t root p q) : Kin t root a b

/-- Being compatible goes both ways. -/
lemma Compatible.symm {a b : NodeId} (h : Compatible t root a b) : Compatible t root b a :=
  ⟨h.below.symm, h.tag.symm, h.attributes.symm, h.namespaces.symm⟩

/-- What is compatible with the same element is compatible. -/
lemma Compatible.trans {a b c : NodeId} (h : Compatible t root a b) (h' : Compatible t root b c) :
    Compatible t root a c :=
  ⟨⟨h.below.1, h'.below.2⟩, ⟨h.tag.1, h'.tag.2⟩, h.attributes.trans h'.attributes,
    h.namespaces.trans h'.namespaces⟩

/-- Being kin goes both ways. -/
lemma Kin.symm {a b : NodeId} (h : Kin t root a b) : Kin t root b a := by
  induction h with
  | refl a => exact .refl a
  | within h hp hq hkin ih => exact .within h.symm hq hp ih

/-- What is kin to the same element is kin. -/
lemma Kin.trans {a b c : NodeId} (h : Kin t root a b) (h' : Kin t root b c) : Kin t root a c := by
  induction h generalizing c with
  | refl a => exact h'
  | within h hp hq hkin ih =>
    cases h' with
    | refl b => exact .within h hp hq hkin
    | within h' hp' hq' hkin' =>
      rw [hq, Option.some_inj] at hp'
      subst hp'
      exact .within (h.trans h') hp hq' (ih hkin')

/-- What is kin to a section below `root` is a section below `root`. -/
lemma Kin.isSection {a b : NodeId} (h : Kin t root a b)
    (hb : root ∈ t.ancestors b ∧ t.tag b = "simplesect") :
    root ∈ t.ancestors a ∧ t.tag a = "simplesect" := by
  cases h with
  | refl => exact hb
  | within h hp hq hkin => exact ⟨h.below.1, h.tag.1⟩

/-! ### Where sections and titles come from -/

/-- A section, or the title of one. -/
def IsSectionOrTitle (x : Branch) : Prop :=
  x.own.tag = "simplesect" ∨ x.own.tag = "title"

/-- An inline element is neither a section nor a title. -/
lemma not_isSectionOrTitle_of_mem_inlineTags (h : x.own.tag ∈ Schema.inlineTags) :
    ¬IsSectionOrTitle x := by
  rintro (htag | htag)
  · rw [htag] at h
    exact absurd h (by decide)
  · rw [htag] at h
    exact absurd h (by decide)

/-- An element that was below `root` at the beginning, with the same namespaces in scope. -/
structure IsOriginal (t : Tree) (root : NodeId) (scope : Bindings) (x : Branch) : Prop where
  below : root ∈ t.ancestors x.number
  tag : t.tag x.number = x.own.tag
  attributes : t.attributes x.number = x.own.attributes
  namespaces : t.namespaces x.number = scope.union x.own.namespaces

/-- The sections and titles directly in an element are original, and stood in elements that are kin;
those in a section stood in elements that are kin to it. -/
structure Gathered (t : Tree) (root : NodeId) (scope : Bindings) (x : Branch) : Prop where
  original : ∀ c ∈ x.children, IsSectionOrTitle c →
    IsOriginal t root (scope.union x.own.namespaces) c
  kin : ∃ home, (x.own.tag = "simplesect" → home = x.number) ∧
    ∀ c ∈ x.children, IsSectionOrTitle c →
      ∃ parent, t.parent? c.number = some parent ∧ Kin t root parent home

mutual

/-- All elements of a branch are gathered, but for those inside of inline markup. -/
def AllGathered (t : Tree) (root : NodeId) (scope : Bindings) : Branch → Prop
  | node n e cs => e.tag ∉ Schema.inlineTags →
      Gathered t root scope (node n e cs) ∧ AllGatheredRow t root (scope.union e.namespaces) cs

/-- All elements of a row of branches are gathered, but for those inside of inline markup. -/
def AllGatheredRow (t : Tree) (root : NodeId) (scope : Bindings) : List Branch → Prop
  | [] => True
  | b :: bs => AllGathered t root scope b ∧ AllGatheredRow t root scope bs

end

/-- A row is gathered if each of its elements is. -/
lemma allGatheredRow_iff :
    AllGatheredRow t root scope bs ↔ ∀ b ∈ bs, AllGathered t root scope b := by
  induction bs with
  | nil => simp [AllGatheredRow]
  | cons b bs ih => simp [AllGatheredRow, ih]

/-- What it means for an element and all below it to be gathered, one level written out. -/
lemma allGathered_iff : AllGathered t root scope x ↔ (x.own.tag ∉ Schema.inlineTags →
    Gathered t root scope x ∧
      ∀ c ∈ x.children, AllGathered t root (scope.union x.own.namespaces) c) := by
  cases x
  rw [AllGathered, allGatheredRow_iff, own_node, children_node]

/-- Nothing is asked of an inline element. -/
lemma allGathered_of_mem_inlineTags (h : x.own.tag ∈ Schema.inlineTags) :
    AllGathered t root scope x :=
  allGathered_iff.2 fun htag => absurd h htag

/-- At the beginning, all elements of the subtree at `root` are gathered. -/
theorem allGathered_branch (h : t.WellFormed) (root : NodeId) :
    AllGathered t root (context t root).scope (t.branch root) := by
  suffices hall : ∀ n, n = root ∨ root ∈ t.ancestors n →
      AllGathered t root (context t n).scope (t.branch n) from hall root (Or.inl rfl)
  intro n hn
  -- From the leaves up: each element holds its own children, so the home of what it gathers is the
  -- element itself.
  induction n using h.child_induction with
  | step n ih =>
    have hchild {c : NodeId} (hc : c ∈ t.children n) : t.parent? c = some n ∧ root ∈ t.ancestors c ∧
        (context t c).scope = (context t n).scope.union (t.branch n).own.namespaces := by
      have hp := h.mem_children_iff.1 hc
      refine ⟨hp, Tree.mem_ancestors_of_mem_children h hn hc, ?_⟩
      rw [context_eq_inside h hp, Tree.own_branch h]
      rfl
    refine allGathered_iff.2 fun htag => ⟨⟨?_, n, ?_, ?_⟩, ?_⟩
    · intro b hb hkind
      rw [Tree.children_branch h] at hb
      obtain ⟨c, hc, rfl⟩ := List.mem_map.1 hb
      obtain ⟨hp, hbelow, hscope⟩ := hchild hc
      rw [← hscope]
      constructor
      · rw [Tree.number_branch]
        exact hbelow
      · rw [Tree.number_branch, Tree.own_branch h]
        rfl
      · rw [Tree.number_branch, Tree.own_branch h]
        rfl
      · rw [Tree.number_branch, Tree.own_branch h]
        exact namespaces_eq t c
    · exact fun _ => (Tree.number_branch t n).symm
    · intro b hb hkind
      rw [Tree.children_branch h] at hb
      obtain ⟨c, hc, rfl⟩ := List.mem_map.1 hb
      rw [Tree.number_branch]
      exact ⟨n, (hchild hc).1, .refl n⟩
    · intro b hb
      rw [Tree.children_branch h] at hb
      obtain ⟨c, hc, rfl⟩ := List.mem_map.1 hb
      obtain ⟨hp, hbelow, hscope⟩ := hchild hc
      rw [← hscope]
      exact ih c hc (Or.inr hbelow)

/-! ### Surgery -/

/-- The sections and titles of a row are those of another one, up to text. -/
def StemsFrom (bs cs : List Branch) : Prop :=
  ∀ c ∈ cs, IsSectionOrTitle c → ∃ b ∈ bs, c.number = b.number ∧ b.own.Alike c.own

/-- Elements drawn from a row stem from it. -/
lemma stemsFrom_of_drawnFrom (h : DrawnFrom bs cs) : StemsFrom bs cs := by
  intro c hc hkind
  obtain ⟨b, hb, tail, rfl⟩ := h c hc
  exact ⟨b, hb, rfl, ⟨rfl, rfl, rfl⟩⟩

/-- Rows behind each other stem from rows behind each other. -/
lemma StemsFrom.append {as ds : List Branch} (h : StemsFrom as bs) (h' : StemsFrom cs ds) :
    StemsFrom (as ++ cs) (bs ++ ds) := by
  intro d hd hkind
  rcases List.mem_append.1 hd with hd | hd
  · obtain ⟨a, ha, halike⟩ := h d hd hkind
    exact ⟨a, List.mem_append_left cs ha, halike⟩
  · obtain ⟨c, hc, halike⟩ := h' d hd hkind
    exact ⟨c, List.mem_append_right as hc, halike⟩

/-- An element stays gathered while its sections and titles stay the same or leave. -/
lemma Gathered.stems (h : Gathered t root scope x) (halike : x.own.Alike x'.own)
    (hnumber : x.own.tag = "simplesect" → x'.number = x.number)
    (hstems : StemsFrom x.children x'.children) : Gathered t root scope x' := by
  obtain ⟨home, hhome, hkin⟩ := h.kin
  have hkind {b c : Branch} (hbc : b.own.Alike c.own) (hc : IsSectionOrTitle c) :
      IsSectionOrTitle b := by
    rw [IsSectionOrTitle, hbc.tag] at hc
    exact hc
  -- The home stays the same one, as each section or title that is there now is one of those before.
  refine ⟨?_, home, ?_, ?_⟩
  · intro c hc hsection
    obtain ⟨b, hb, hnumber', hbc⟩ := hstems c hc hsection
    have horiginal := h.original b hb (hkind hbc hsection)
    rw [halike.namespaces]
    constructor
    · rw [hnumber']
      exact horiginal.below
    · rw [hnumber', hbc.tag]
      exact horiginal.tag
    · rw [hnumber', hbc.attributes]
      exact horiginal.attributes
    · rw [hnumber', hbc.namespaces]
      exact horiginal.namespaces
  · intro htag
    rw [halike.tag] at htag
    rw [hnumber htag]
    exact hhome htag
  · intro c hc hsection
    obtain ⟨b, hb, hnumber', hbc⟩ := hstems c hc hsection
    rw [hnumber']
    exact hkin b hb (hkind hbc hsection)

/-- All of a part of a branch is gathered if the branch is. -/
lemma AllGathered.part (h : AllGathered t root scope x) (halike : x.own.Alike x'.own)
    (hnumber : x.own.tag = "simplesect" → x'.number = x.number)
    (hdrawn : DrawnFrom x.children x'.children) : AllGathered t root scope x' := by
  induction x using Branch.induction generalizing scope x' with
  | step n e cs ih =>
    rw [allGathered_iff]
    intro htag
    rw [halike.tag] at htag
    obtain ⟨hgathered, hchildren⟩ := allGathered_iff.1 h htag
    constructor
    · exact hgathered.stems halike hnumber (stemsFrom_of_drawnFrom hdrawn)
    · intro c hc
      obtain ⟨b, hb, tail, rfl⟩ := hdrawn c hc
      rw [halike.namespaces]
      exact ih b hb (hchildren b hb) ⟨rfl, rfl, rfl⟩ (fun _ => rfl)
        (drawnFrom_of_subset (List.Subset.refl _))

/-- What stands at a place inside of no inline markup is gathered if the whole is. -/
lemma AllGathered.at_place (hframes : ∀ f ∈ fs, f.own.tag ∉ Schema.inlineTags)
    (h : AllGathered t root outer.scope (plug fs x)) :
    AllGathered t root (contextAt outer fs).scope x := by
  induction fs generalizing x with
  | nil => exact h
  | cons f fs ih =>
    obtain ⟨hf, hfs⟩ := List.forall_mem_cons.1 hframes
    have hfill : AllGathered t root (contextAt outer fs).scope (f.fill x) := ih hfs h
    obtain ⟨-, hchildren⟩ := allGathered_iff.1 hfill hf
    exact hchildren x (by simp)

/-- The whole stays gathered if what stands at a place is exchanged for something that is gathered
and the same up to its content. -/
lemma AllGathered.exchange {y : Branch} (hframes : ∀ f ∈ fs, f.own.tag ∉ Schema.inlineTags)
    (h : AllGathered t root outer.scope (plug fs x))
    (hy : AllGathered t root (contextAt outer fs).scope y) (hstems : StemsFrom [x] [y]) :
    AllGathered t root outer.scope (plug fs y) := by
  induction fs generalizing x y with
  | nil => exact hy
  | cons f fs ih =>
    obtain ⟨hf, hfs⟩ := List.forall_mem_cons.1 hframes
    have hfill : AllGathered t root (contextAt outer fs).scope (f.fill x) :=
      AllGathered.at_place hfs h
    obtain ⟨hgathered, hchildren⟩ := allGathered_iff.1 hfill hf
    refine ih hfs h (allGathered_iff.2 fun _ => ⟨?_, ?_⟩) ?_
    · refine hgathered.stems ⟨rfl, rfl, rfl⟩ (fun _ => rfl) ?_
      have hrest (bs : List Branch) : StemsFrom bs bs :=
        stemsFrom_of_drawnFrom (drawnFrom_of_subset (List.Subset.refl bs))
      exact (hrest f.before.reverse).append (hstems.append (hrest f.after))
    · intro c hc
      rw [Frame.children_fill, List.mem_append, List.mem_cons] at hc
      rcases hc with hc | rfl | hc
      · exact hchildren c (by simp [List.mem_reverse.1 hc])
      · exact hy
      · exact hchildren c (by simp [hc])
    · intro c hc hkind
      rw [List.mem_singleton.1 hc]
      exact ⟨f.fill x, List.mem_singleton_self _, rfl, ⟨rfl, rfl, rfl⟩⟩

/-- The whole stays gathered if a gathered row without other sections and titles takes the place of
an element and text is put before it. -/
lemma AllGathered.exchange_row (more : String)
    (hframes : ∀ g ∈ f :: fs, g.own.tag ∉ Schema.inlineTags)
    (h : AllGathered t root outer.scope (plug (f :: fs) x))
    (hrow : ∀ c ∈ row, AllGathered t root (contextAt outer (f :: fs)).scope c)
    (hstems : StemsFrom [x] row) :
    AllGathered t root outer.scope (plug fs ((f.extendBefore more).fillRow row)) := by
  obtain ⟨hf, hfs⟩ := List.forall_mem_cons.1 hframes
  have halike := f.alike_extendBefore more
  have hfill : AllGathered t root (contextAt outer fs).scope (f.fill x) :=
    AllGathered.at_place hfs h
  obtain ⟨hgathered, hchildren⟩ := allGathered_iff.1 hfill hf
  -- Only text may have changed in front of the hole and only the row is new in it, so all sections
  -- and titles stem from those of the parent before.
  refine AllGathered.exchange hfs h (allGathered_iff.2 fun _ => ⟨?_, ?_⟩) ?_
  · refine hgathered.stems halike (fun _ => f.number_extendBefore more) ?_
    have hbefore : StemsFrom f.before.reverse (f.extendBefore more).before.reverse := by
      intro c hc hkind
      obtain ⟨b, hb, hbc⟩ := stemsFrom_of_drawnFrom (f.drawnFrom_extendBefore more) c
        (List.mem_reverse.1 hc) hkind
      exact ⟨b, List.mem_reverse.2 hb, hbc⟩
    have hafter : StemsFrom f.after (f.extendBefore more).after := by
      rw [Frame.after_extendBefore]
      exact stemsFrom_of_drawnFrom (drawnFrom_of_subset (List.Subset.refl _))
    exact hbefore.append (hstems.append hafter)
  · intro c hc
    rw [Frame.fillRow, children_node, Frame.after_extendBefore, List.mem_append, List.mem_append,
      List.mem_reverse] at hc
    have hscope : (contextAt outer fs).scope.union ((f.extendBefore more).fillRow row).own.namespaces =
        (contextAt outer (f :: fs)).scope :=
      congrArg _ halike.namespaces
    rw [hscope]
    rcases hc with hc | hc | hc
    · obtain ⟨b, hb, tail, rfl⟩ := f.drawnFrom_extendBefore more c hc
      have hb' : AllGathered t root (contextAt outer (f :: fs)).scope b := hchildren b (by simp [hb])
      exact hb'.part ⟨rfl, rfl, rfl⟩ (fun _ => rfl) (drawnFrom_of_subset (List.Subset.refl _))
    · exact hrow c hc
    · exact hchildren c (by simp [hc])
  · intro c hc hkind
    rw [List.mem_singleton.1 hc]
    exact ⟨f.fill x, List.mem_singleton_self _, f.number_extendBefore more, halike⟩

/-! ### Steps -/

/-- Two sections in an element that the pass would merge are kin. -/
lemma Gathered.kin_of_mergeable {k : Context} {a b : Branch} (h : Gathered t root k.scope x)
    (ha : a ∈ x.children) (hb : b ∈ x.children) (htag : b.own.tag = "simplesect")
    (hmergeable : Mergeable (k.inside x.own) a.own b.own) : Kin t root a.number b.number := by
  have htag' : a.own.tag = "simplesect" := hmergeable.1.trans htag
  have horiginal := h.original a ha (Or.inl htag')
  have horiginal' := h.original b hb (Or.inl htag)
  obtain ⟨home, -, hkin⟩ := h.kin
  obtain ⟨p, hp, hpkin⟩ := hkin a ha (Or.inl htag')
  obtain ⟨q, hq, hqkin⟩ := hkin b hb (Or.inl htag)
  refine .within ⟨⟨horiginal.below, horiginal'.below⟩, ⟨?_, ?_⟩, ?_, ?_⟩ hp hq
    (hpkin.trans hqkin.symm)
  · rw [horiginal.tag, htag']
  · rw [horiginal'.tag, htag]
  · rw [horiginal.attributes, horiginal'.attributes, hmergeable.2.1]
  · rw [horiginal.namespaces, horiginal'.namespaces]
    exact hmergeable.2.2

/-- Two neighbors at a place that the pass would merge are kin. -/
lemma AllGathered.kin_of_mergeable {prev : Branch} {rest : List Branch}
    (hframes : ∀ g ∈ f :: fs, g.own.tag ∉ Schema.inlineTags)
    (h : AllGathered t root outer.scope (plug (f :: fs) x)) (htag : x.own.tag = "simplesect")
    (hbefore : f.before = prev :: rest)
    (hmergeable : Mergeable (contextAt outer (f :: fs)) prev.own x.own) :
    Kin t root prev.number x.number := by
  obtain ⟨hf, hfs⟩ := List.forall_mem_cons.1 hframes
  have hfill : AllGathered t root (contextAt outer fs).scope (f.fill x) :=
    AllGathered.at_place hfs h
  have hgathered := (allGathered_iff.1 hfill hf).1
  exact hgathered.kin_of_mergeable (by simp [hbefore]) (by simp) htag hmergeable

/-- A section merged into one that is kin to it gathers what was in the two. -/
lemma Gathered.absorb {k : Context} {prev : Branch} (hkin : Kin t root prev.number x.number)
    (htag : x.own.tag = "simplesect") (hmergeable : Mergeable k prev.own x.own)
    (hprev : Gathered t root k.scope prev) (hx : Gathered t root k.scope x) :
    Gathered t root k.scope (prev.absorb x) := by
  have hnamespaces := (alike_absorb prev x).namespaces
  obtain ⟨home, hhome, hfrom⟩ := hprev.kin
  obtain ⟨home', hhome', hfrom'⟩ := hx.kin
  refine ⟨?_, prev.number, fun _ => rfl, ?_⟩
  · intro c hc hkind
    rw [hnamespaces]
    rcases mem_children_absorb hc with ⟨b, hb, tail, rfl⟩ | hc
    · have horiginal := hprev.original b hb hkind
      exact ⟨horiginal.below, horiginal.tag, horiginal.attributes, horiginal.namespaces⟩
    · have horiginal := hx.original c hc hkind
      rw [← hmergeable.2.2] at horiginal
      exact horiginal
  · intro c hc hkind
    rcases mem_children_absorb hc with ⟨b, hb, tail, rfl⟩ | hc
    · rw [← hhome (hmergeable.1.trans htag)]
      exact hfrom b hb hkind
    · obtain ⟨parent, hparent, hkin'⟩ := hfrom' c hc hkind
      rw [hhome' htag] at hkin'
      exact ⟨parent, hparent, hkin'.trans hkin.symm⟩

/-- A section that absorbs one that is kin to it has gathered what belongs to both. -/
lemma AllGathered.absorb {k : Context} {prev : Branch} (hkin : Kin t root prev.number x.number)
    (htag : x.own.tag = "simplesect") (hmergeable : Mergeable k prev.own x.own)
    (hprev : AllGathered t root k.scope prev) (hx : AllGathered t root k.scope x) :
    AllGathered t root k.scope (prev.absorb x) := by
  have hsection : prev.own.tag = "simplesect" := hmergeable.1.trans htag
  obtain ⟨hgathered, hchildren⟩ := allGathered_iff.1 hprev (by rw [hsection]; decide)
  obtain ⟨hgathered', hchildren'⟩ := allGathered_iff.1 hx (by rw [htag]; decide)
  rw [allGathered_iff]
  intro _
  constructor
  · exact hgathered.absorb hkin htag hmergeable hgathered'
  · intro c hc
    rw [(alike_absorb prev x).namespaces]
    rcases mem_children_absorb hc with ⟨b, hb, tail, rfl⟩ | hc
    · exact (hchildren b hb).part ⟨rfl, rfl, rfl⟩ (fun _ => rfl)
        (drawnFrom_of_subset (List.Subset.refl _))
    · rw [hmergeable.2.2]
      exact hchildren' c hc

/-- With a section merged into the one before it, the whole stays gathered. -/
lemma allGathered_merged {prev : Branch} {rest : List Branch}
    (hframes : ∀ g ∈ f :: fs, g.own.tag ∉ Schema.inlineTags)
    (h : AllGathered t root outer.scope (plug (f :: fs) x)) (htag : x.own.tag = "simplesect")
    (hbefore : f.before = prev :: rest)
    (hmergeable : Mergeable (contextAt outer (f :: fs)) prev.own x.own) :
    AllGathered t root outer.scope (plug fs (Frame.fill { f with before := rest } (prev.absorb x))) := by
  obtain ⟨hf, hfs⟩ := List.forall_mem_cons.1 hframes
  have hfill : AllGathered t root (contextAt outer fs).scope (f.fill x) :=
    AllGathered.at_place hfs h
  obtain ⟨hgathered, hchildren⟩ := allGathered_iff.1 hfill hf
  have hmem {c : Branch} : c ∈ (f.fill x).children ↔ c ∈ rest ∨ c = prev ∨ c = x ∨ c ∈ f.after := by
    simp [hbefore]
  have hprev : prev ∈ (f.fill x).children := hmem.2 (by simp)
  have hx : x ∈ (f.fill x).children := hmem.2 (by simp)
  -- Both sections were gathered by the same parent, which makes them kin.
  have hkin := h.kin_of_mergeable hframes htag hbefore hmergeable
  have habsorb : AllGathered t root (contextAt outer (f :: fs)).scope (prev.absorb x) :=
    AllGathered.absorb hkin htag hmergeable (hchildren prev hprev) (hchildren x hx)
  -- Besides the section that has grown, the parent holds what it held.
  refine AllGathered.exchange hfs h (allGathered_iff.2 fun _ => ⟨?_, ?_⟩) ?_
  · refine hgathered.stems ⟨rfl, rfl, rfl⟩ (fun _ => rfl) ?_
    intro c hc hkind
    rw [Frame.children_fill, List.mem_append, List.mem_reverse, List.mem_cons] at hc
    rcases hc with hc | rfl | hc
    · exact ⟨c, hmem.2 (Or.inl hc), rfl, ⟨rfl, rfl, rfl⟩⟩
    · exact ⟨prev, hprev, rfl, alike_absorb prev x⟩
    · exact ⟨c, hmem.2 (Or.inr (Or.inr (Or.inr hc))), rfl, ⟨rfl, rfl, rfl⟩⟩
  · intro c hc
    rw [Frame.children_fill, List.mem_append, List.mem_reverse, List.mem_cons] at hc
    rcases hc with hc | rfl | hc
    · exact hchildren c (hmem.2 (Or.inl hc))
    · exact habsorb
    · exact hchildren c (hmem.2 (Or.inr (Or.inr (Or.inr hc))))
  · intro c hc hkind
    rw [List.mem_singleton.1 hc]
    exact ⟨f.fill x, List.mem_singleton_self _, rfl, ⟨rfl, rfl, rfl⟩⟩

/-- Inline markup that takes the place of inline markup brings no section and no title. -/
lemma stemsFrom_of_inline (h : ∀ c ∈ cs, c.own.tag ∈ Schema.inlineTags) : StemsFrom bs cs :=
  fun c hc hkind => absurd hkind (not_isSectionOrTitle_of_mem_inlineTags (h c hc))

/-- What inline markup falls into when an inline child is lifted out of it is inline markup. -/
lemma mem_inlineTags_of_mem_lift (fresh : NodeId) {y c : Branch} {ys : List Branch}
    (hx : x.own.tag ∈ Schema.inlineTags) (hy : y.own.tag ∈ Schema.inlineTags)
    (hc : c ∈ Frame.lift ⟨x.number, x.own, [], ys⟩ fresh y) : c.own.tag ∈ Schema.inlineTags := by
  unfold Frame.lift at hc
  split at hc
  · rcases List.mem_pair.1 hc with rfl | rfl
    · exact hx
    · exact hy
  · simp only [List.mem_cons, List.not_mem_nil, or_false] at hc
    rcases hc with rfl | rfl | rfl
    · exact hx
    · exact hy
    · exact hx

/-- The whole stays gathered if parts that are neither sections nor titles take the place of an
element. -/
lemma allGathered_row {front : Branch} {rest : List Branch}
    (hframes : ∀ g ∈ f :: fs, g.own.tag ∉ Schema.inlineTags)
    (h : AllGathered t root outer.scope (plug (f :: fs) x))
    (hrow : ∀ c ∈ front :: rest, AllGathered t root (contextAt outer (f :: fs)).scope c)
    (hkind : ∀ c ∈ front :: rest, ¬IsSectionOrTitle c) :
    AllGathered t root outer.scope (plug ({ f with after := rest ++ f.after } :: fs) front) := by
  have hexchange := AllGathered.exchange_row "" hframes h hrow fun c hc hsection =>
    absurd hsection (hkind c hc)
  rw [f.extendBefore_empty] at hexchange
  exact hexchange

/-- The whole stays gathered if a paragraph is divided. -/
lemma allGathered_divide {front back : Branch}
    (hframes : ∀ g ∈ f :: fs, g.own.tag ∉ Schema.inlineTags)
    (h : AllGathered t root outer.scope (plug (f :: fs) x)) (htag : x.own.tag = "para")
    (hfront : x.own.Alike front.own) (hback : x.own.Alike back.own)
    (hdrawn : DrawnFrom x.children front.children) (hdrawn' : DrawnFrom x.children back.children) :
    AllGathered t root outer.scope (plug ({ f with after := back :: f.after } :: fs) front) := by
  have hx : AllGathered t root (contextAt outer (f :: fs)).scope x := AllGathered.at_place hframes h
  have hnumber {n : NodeId} : x.own.tag = "simplesect" → n = x.number := by
    intro hsection
    rw [htag] at hsection
    exact absurd hsection (by decide)
  have hkind {c : Branch} (halike : x.own.Alike c.own) : ¬IsSectionOrTitle c := by
    rw [IsSectionOrTitle, halike.tag, htag]
    decide
  have hpair : ∀ c ∈ [front, back], x.own.Alike c.own ∧ DrawnFrom x.children c.children := by
    intro c hc
    rcases List.mem_pair.1 hc with rfl | rfl
    · exact ⟨hfront, hdrawn⟩
    · exact ⟨hback, hdrawn'⟩
  exact allGathered_row hframes h (fun c hc => hx.part (hpair c hc).1 hnumber (hpair c hc).2)
    fun c hc => hkind (hpair c hc).1

/-- Every step keeps all elements gathered. -/
theorem Step.allGathered {fresh : NodeId} {l : Location} {o : Outcome} (hstep : Step outer fresh l o)
    (hframes : ∀ f ∈ l.frames, f.own.tag ∉ Schema.inlineTags)
    (h : AllGathered t root outer.scope (plug l.frames l.focus)) :
    AllGathered t root outer.scope o.whole := by
  have hnone (b : Branch) : StemsFrom [b] [] := fun c hc => absurd hc List.not_mem_nil
  -- Steps that take an element away or trim one bring in no section or title, and lifting moves
  -- inline elements only. What is left are merging, which needs the two sections to be kin, and
  -- dividing a paragraph, whose parts share its home.
  cases hstep with
  | replace hτ =>
    rw [Frame.extendBefore_extendBefore, whole_skip]
    exact AllGathered.exchange_row _ hframes h (List.forall_mem_nil _) (hnone _)
  | remove hτ hmore =>
    rw [whole_skip]
    exact AllGathered.exchange_row _ hframes h (List.forall_mem_nil _) (hnone _)
  | removeLast hτ hbelow hempty =>
    exact AllGathered.exchange_row _ hframes h (List.forall_mem_nil _) (hnone _)
  | @flatten x fs hτ =>
    cases groundsAt hτ with
    | link htag hchildren =>
      -- A flattened link is inline, so that nothing is asked of it.
      have hinline : x.own.tag ∈ Schema.inlineTags := by
        rw [show x.own.tag = _ from htag]
        decide
      refine AllGathered.exchange hframes h (allGathered_of_mem_inlineTags hinline) ?_
      exact stemsFrom_of_inline fun c hc => by rw [List.mem_singleton.1 hc]; exact hinline
  | @lift x y front ys rest f fs hτ hchildren hinline hrow =>
    cases groundsAt hτ with
    | nested href htag hne =>
      -- What is lifted and what remains around it are inline, so there is nothing to gather.
      have hparts : ∀ c ∈ front :: rest, c.own.tag ∈ Schema.inlineTags := by
        rw [← hrow]
        intro c hc
        exact mem_inlineTags_of_mem_lift fresh htag (Entry.mem_inlineTags_of_markup hinline) hc
      exact allGathered_row hframes h (fun c hc => allGathered_of_mem_inlineTags (hparts c hc))
        fun c hc => not_isSectionOrTitle_of_mem_inlineTags (hparts c hc)
  | @trim x f fs text hτ htext =>
    cases groundsAt hτ with
    | untrimmed href hinline hchildren hblanks =>
      have hpart : ∀ c ∈ [trimmed x text], c.own.tag ∈ Schema.inlineTags := by
        intro c hc
        rw [List.mem_singleton.1 hc, (alike_trimmed x text).tag]
        exact Entry.mem_inlineTags_of_markup hinline
      exact AllGathered.exchange_row _ hframes h
        (fun c hc => allGathered_of_mem_inlineTags (hpart c hc)) (stemsFrom_of_inline hpart)
  | @trimRoot x text hτ htext =>
    cases groundsAt hτ with
    | untrimmed href hinline hchildren hblanks =>
      refine allGathered_of_mem_inlineTags ?_
      rw [Outcome.whole, plug_nil, (alike_trimmed x text).tag]
      exact Entry.mem_inlineTags_of_markup hinline
  | @absorb x y prev ys rest f fs hτ hbefore hmergeable hchildren =>
    cases groundsAt hτ with
    | laterSection htag hempty hprevious =>
      rw [Outcome.whole, plug_cons, Frame.fill_absorb prev hchildren]
      exact allGathered_merged hframes h htag hbefore hmergeable
  | absorbLeaf hτ hbefore hmergeable hchildren =>
    cases groundsAt hτ with
    | laterSection htag hempty hprevious =>
      rw [whole_leave]
      exact allGathered_merged hframes h htag hbefore hmergeable
  | keep hτ hbefore hdiffer =>
    rw [whole_enter]
    exact h
  | @divideBefore x y front back ys zs f fs hτ hchildren hfront hsplit =>
    cases hsplit
    cases groundsAt hτ with
    | paragraph htag hempty =>
      refine allGathered_divide hframes h htag ⟨rfl, rfl, rfl⟩ ⟨rfl, rfl, rfl⟩ ?_ ?_
      · refine drawnFrom_of_subset ?_
        simp [Frame.front, hchildren]
      · refine drawnFrom_of_subset ?_
        simp [Frame.back, hchildren]
  | @divideBehind x y front back ys zs f fs hτ hchildren htail hsplit =>
    cases hsplit
    cases groundsAt hτ with
    | paragraph htag hempty =>
      refine allGathered_divide hframes h htag ⟨rfl, rfl, rfl⟩ ⟨rfl, rfl, rfl⟩ ?_ ?_
      · rw [Frame.front, children_node, List.reverse_reverse, hchildren]
        exact drawnFrom_append_withTail ys y zs
      · refine drawnFrom_of_subset ?_
        simp [Frame.back, hchildren]
  | undivided hτ hcontent =>
    rw [whole_enter]
    exact h
  | advance hτ =>
    rw [whole_enter]
    exact h

end DoxygenRest.Adjust
