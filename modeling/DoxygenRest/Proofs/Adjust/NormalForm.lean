import DoxygenRest.Proofs.Adjust.Run

/-!
# The normal form of documentation

After the pass every element below the root is in the shape that rendering relies on
(`adjusted_of_adjust`): what is not to be shown is gone, inline markup is flat and trimmed,
neighboring sections differ, and a paragraph holds a line of inline markup or a row of blocks.
-/

namespace DoxygenRest.Adjust

open Branch

/-- An element is in the shape that rendering relies on. -/
structure Adjusted (t : Tree) (n : NodeId) : Prop where
  /-- It is neither a line break nor meant for another output format alone. -/
  visible : t.tag n ∉ Schema.presentationTags ∧ t.tag n ≠ "linebreak"
  /-- In a highlight, it does not stand for text. -/
  textual : (∃ a ∈ t.ancestors n, t.tag a = "highlight") → t.tag n ≠ "ref" ∧ t.tag n ≠ "sp"
  /-- Inline markup is flat. -/
  flat : t.tag n ∈ Schema.inlineTags → t.children n = []
  /-- Inline markup holds a trimmed text. -/
  trimmed : Schema.isInline t n = true →
    Schema.isEmpty t n = false ∧ Text.hasOuterBlanks (t.text n) = false
  /-- A section differs from the section before it. -/
  distinct : t.tag n = "simplesect" → Schema.isEmpty t n = false ∧
    ∀ m, t.previousSibling? n = some m → t.tag m = "simplesect" →
      t.attributes m ≠ t.attributes n ∨ t.namespaces m ≠ t.namespaces n
  /-- A paragraph holds a line of inline markup or a row of blocks. -/
  undivided : t.tag n = "para" → Schema.isEmpty t n = false ∧
    ((∀ m ∈ t.children n, Schema.isInline t m = true) ∨
      t.hasText n = false ∧
        ∀ m ∈ t.children n, Schema.isStructural t m = true ∧ t.hasTail m = false)

variable {root : NodeId} {outer : Context} {c : Cursor} {x : Branch} {f : Frame} {fs : List Frame}

/-- What is said of the children of a paragraph by value holds in the tree. -/
lemma undivided_children {t : Tree} (hx : x.Holds t) (h : IsUndivided x.text x.children) :
    (∀ m ∈ t.children x.number, Schema.isInline t m = true) ∨
      t.hasText x.number = false ∧
        ∀ m ∈ t.children x.number, Schema.isStructural t m = true ∧ t.hasTail m = false := by
  have hrow := holdsAll_iff.1 hx.holdsAll_children
  rw [hx.children_eq]
  rcases h with hline | ⟨htext, hblocks⟩
  · left
    intro m hm
    obtain ⟨b, hb, rfl⟩ := List.mem_map.1 hm
    simp [(hrow b hb).isInline_eq, hline b hb]
  · right
    refine ⟨by simp [Tree.hasText, hx.text_eq, htext], fun m hm => ?_⟩
    obtain ⟨b, hb, rfl⟩ := List.mem_map.1 hm
    obtain ⟨hstructural, htail⟩ := hblocks b hb
    simp [Schema.isStructural, (hrow b hb).classify_eq, hstructural, Tree.hasTail,
      (hrow b hb).tail_eq, htail]

/-- The section before an element differs from it in the tree if it does so by value. -/
lemma Tracks.differs (hc : Tracks root outer c (.standing ⟨x, f :: fs⟩))
    (h : ∀ e ∈ previousOwn? (f :: fs), ¬Mergeable (contextAt outer (f :: fs)) e x.own) {m : NodeId}
    (hm : c.tree.previousSibling? x.number = some m) (htag : c.tree.tag m = x.own.tag) :
    c.tree.attributes m ≠ c.tree.attributes x.number ∨
      c.tree.namespaces m ≠ c.tree.namespaces x.number := by
  have hprevious := f.previousSibling?_eq hc.wellFormed (holds_plug.1 hc.holds).2.1
  rw [hm] at hprevious
  cases hbefore : f.before with
  | nil =>
    rw [hbefore] at hprevious
    cases hprevious
  | cons prev rest =>
    rw [hbefore] at hprevious
    obtain rfl : m = prev.number := Option.some.inj hprevious
    have hincompatible : ¬areCompatible c.tree prev.number x.number = true := by
      rw [hc.areCompatible_iff hbefore]
      exact h prev.own (by simp [previousOwn?, hbefore])
    have hsame : c.tree.tag prev.number = c.tree.tag x.number := by
      rw [htag, hc.holds_focus.tag_eq]
    by_contra hboth
    rw [not_or, not_not, not_not] at hboth
    exact hincompatible (by simp [areCompatible, hsame, hboth])

/-- A cursor that stands on an element that fits stands on one that is adjusted. -/
lemma Tracks.adjusted (hc : Tracks root outer c (.standing ⟨x, f :: fs⟩))
    (h : Fits (contextAt outer (f :: fs)) (previousOwn? (f :: fs)) x) :
    Adjusted c.tree x.number := by
  have hx := hc.holds_focus
  have hempty (hne : ¬x.isEmpty) : Schema.isEmpty c.tree x.number = false := by
    rw [hx.isEmpty_eq]
    simpa using hne
  -- What is said of the tree is read off the branch, field by field.
  constructor
  · rw [hx.tag_eq]
    exact h.visible
  · intro hhighlight
    rw [hx.tag_eq]
    have hk := highlighted_iff.2 hhighlight
    rw [hc.context_focus] at hk
    exact h.textual hk
  · intro htag
    rw [hx.tag_eq] at htag
    rw [hx.children_eq, h.flat htag, List.map_nil]
  · intro hinline
    rw [hx.isInline_eq, beq_iff_eq] at hinline
    obtain ⟨hne, hblanks⟩ := h.trimmed hinline
    refine ⟨hempty hne, ?_⟩
    rw [hx.text_eq]
    simpa using hblanks
  · intro htag
    rw [hx.tag_eq] at htag
    obtain ⟨hne, hdiffer⟩ := h.distinct htag
    exact ⟨hempty hne, fun m hm hsection => hc.differs hdiffer hm (hsection.trans htag.symm)⟩
  · intro htag
    rw [hx.tag_eq] at htag
    obtain ⟨hne, hundivided⟩ := h.undivided htag
    exact ⟨hempty hne, undivided_children hx hundivided⟩

/-- In a tree that is settled below an element, everything below it is adjusted. -/
lemma SettledBelow.adjusted {t : Tree} (h : SettledBelow t root) {n : NodeId}
    (hn : root ∈ t.ancestors n) : Adjusted t n := by
  obtain ⟨fs, x, hplace, rfl⟩ := exists_plug_of_mem
    ((Tree.mem_numbers_branch h.wellFormed).2 (Or.inr hn))
  cases fs with
  | nil =>
    rw [plug_nil] at hplace
    rw [hplace, Tree.number_branch] at hn
    exact absurd hn (h.wellFormed.notMem_ancestors root)
  | cons f fs =>
    have hrow := h.row
    rw [← hplace] at hrow
    have hc : Tracks root (context t root) ⟨t, root, some x.number⟩ (.standing ⟨x, f :: fs⟩) :=
      ⟨rfl, h.wellFormed, hplace.symm, rfl, rfl⟩
    exact hc.adjusted (settled_iff.1 (settled_place hrow)).1

/-- **The pass reaches its normal form**: if it succeeds on a suitable subtree, every element below
the root is in the shape that rendering relies on. -/
theorem adjusted_of_adjust {t t' : Tree} {root : NodeId} (h : Suitable t root)
    (hrun : adjust root t = .ok () t') {n : NodeId} (hn : root ∈ t'.ancestors n) : Adjusted t' n :=
  (settledBelow_of_adjust h hrun).1.adjusted hn

/-- A paragraph that came from one section into another is adjusted. -/
theorem adjusted_of_adjust_draft :
    Suitable draft 0 ∧ adjust 0 draft = .ok () fairCopy ∧ 0 ∈ fairCopy.ancestors 7 ∧
      Adjusted fairCopy 7 := by
  have hbelow : 0 ∈ fairCopy.ancestors 7 := by decide
  exact ⟨suitable_draft, adjust_draft, hbelow, adjusted_of_adjust suitable_draft adjust_draft hbelow⟩

end DoxygenRest.Adjust
