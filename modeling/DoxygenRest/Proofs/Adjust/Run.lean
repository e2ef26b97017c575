import DoxygenRest.Proofs.Adjust.Preservation
import DoxygenRest.Proofs.Adjust.Progress
import DoxygenRest.Proofs.Adjust.Walk
import DoxygenRest.Proofs.Tree.Specimen

/-!
# Runs of the pass

A run of the pass that comes to an end leaves a settled branch, with no more elements than the run had
steps (`settledBelow_of_adjust`).  The requirements on the subtree that the pass is run on are
those of `Suitable`.
-/

namespace DoxygenRest.Adjust

open Branch

variable {root : NodeId} {outer : Context}

/-- A walk passes at most one element a step. -/
lemma Walk.passed_le {n : Nat} {o o' : Outcome} (hwalk : Walk outer n o o') :
    o'.passed ≤ o.passed + n := by
  induction hwalk with
  | rest o => exact Nat.le_refl _
  | step hstep hrest ih =>
    have hpassed := hstep.passed_le
    rw [Outcome.passed]
    omega

/-! ### The subtrees that the pass is run on -/

/-- What the pass asks of the subtree at `root`: that the root is never treated itself, that no
formula holds other elements, and that no reference in a highlight is without text. -/
structure Suitable (t : Tree) (root : NodeId) : Prop where
  wellFormed : t.WellFormed
  plain : IsPlain (t.tag root)
  formula : ∀ n, root ∈ t.ancestors n → t.tag n = "formula" → t.children n = []
  reference : ∀ n, root ∈ t.ancestors n → t.tag n = "ref" →
    (∃ a ∈ t.ancestors n, t.tag a = "highlight") → t.stringValue n ≠ ""

/-- The subtree at `root` is settled below `root`. -/
structure SettledBelow (t : Tree) (root : NodeId) : Prop where
  wellFormed : t.WellFormed
  plain : IsPlain (t.branch root).own.tag
  row : SettledRow ((context t root).inside (t.branch root).own) none (t.branch root).children

variable {t t' : Tree}

/-- All branches of a suitable subtree are admissible. -/
lemma Suitable.admissible (h : Suitable t root) (n : NodeId)
    (hn : n = root ∨ root ∈ t.ancestors n) :
    Admissible (context t n).highlighted (t.branch n) := by
  induction n using h.wellFormed.child_induction with
  | step n ih =>
    -- The root itself is neither a formula nor a reference.
    have hbelow (htag : t.tag n ∈ Schema.inlineTags) : root ∈ t.ancestors n := by
      rcases hn with rfl | hn
      · exact absurd htag h.plain.1
      · exact hn
    rw [admissible_iff, Tree.own_branch h.wellFormed, Tree.children_branch h.wellFormed,
      ← Tree.stringValue_eq_branch]
    refine ⟨fun htag => ?_, fun htag hk => ?_, admissibleRow_iff.2 fun b hb => ?_⟩
    · have hformula := h.formula n (hbelow (by rw [show t.tag n = _ from htag]; decide)) htag
      rw [hformula, List.map_nil]
    · have href := hbelow (by rw [show t.tag n = _ from htag]; decide)
      exact h.reference n href htag (highlighted_iff.1 hk)
    · obtain ⟨m, hm, rfl⟩ := List.mem_map.1 hb
      have hp := h.wellFormed.mem_children_iff.1 hm
      have hmn := Tree.mem_ancestors_of_mem_children h.wellFormed hn hm
      have hadmissible := ih m hm (Or.inr hmn)
      rw [context_eq_inside h.wellFormed hp] at hadmissible
      exact hadmissible

/-- The pass leaves a suitable subtree settled below its root, with no more elements than it may
take steps. -/
theorem settledBelow_of_adjust (h : Suitable t root) (hrun : adjust root t = .ok () t') :
    SettledBelow t' root ∧ (t'.branch root).numbers.length ≤ editor.maxSteps := by
  have hsound : Location.Sound (context t root) ⟨t.branch root, []⟩ := by
    refine ⟨trivial, h.admissible root (Or.inl rfl), fun _ => ?_⟩
    rw [Tree.branch_eq h.wellFormed]
    exact h.plain
  obtain ⟨n, hn, ht'⟩ := exists_walk_of_adjust h.wellFormed hrun
  have hb : (Outcome.finished (t'.branch root)).Sound (context t root) :=
    ht'.walk.keeps Step.sound hsound
  have hlength := ht'.walk.passed_le
  rw [Outcome.passed, Outcome.passed, passed, Nat.zero_add] at hlength
  refine ⟨⟨ht'.wellFormed, hb.1, ?_⟩, Nat.le_trans hlength hn⟩
  rw [ht'.around]
  exact hb.2

/-! ### A run -/

/-- A subtree is suitable if the elements of the tree are as they should be. -/
lemma suitable_of_forall_lt (h : t.WellFormed) (hplain : IsPlain (t.tag root))
    (hformula : ∀ n < t.size, t.tag n = "formula" → t.children n = [])
    (href : ∀ n < t.size, t.tag n = "ref" → t.stringValue n ≠ "") : Suitable t root := by
  exact ⟨h, hplain, fun n hn => hformula n (Tree.lt_size_of_below h hn),
    fun n hn htag _ => href n (Tree.lt_size_of_below h hn) htag⟩

/-- A description that holds inline markup and sections in one paragraph:

    <detaileddescription><para>a<bold> b<emphasis>c</emphasis></bold>
    <simplesect><para>d</para></simplesect><simplesect><para>e</para></simplesect>f</para>
    </detaileddescription>
-/
def draft : Tree :=
  ⟨#[{ tag := "detaileddescription", children := [1] },
    { tag := "para", text := some "a", parent := some 0, children := [2, 4, 6] },
    { tag := "bold", text := some " b", parent := some 1, children := [3] },
    { tag := "emphasis", text := some "c", parent := some 2 },
    { tag := "simplesect", parent := some 1, children := [5] },
    { tag := "para", text := some "d", parent := some 4 },
    { tag := "simplesect", tail := some "f", parent := some 1, children := [7] },
    { tag := "para", text := some "e", parent := some 6 }]⟩

/-- The same description after the pass:

    <detaileddescription><para>a <bold>b</bold><emphasis>c</emphasis></para>
    <para><simplesect><para>d</para><para>e</para></simplesect></para><para>f</para>
    </detaileddescription>
-/
def fairCopy : Tree :=
  ⟨#[{ tag := "detaileddescription", children := [1, 8, 9] },
    { tag := "para", text := some "a ", parent := some 0, children := [2, 3] },
    { tag := "bold", text := some "b", parent := some 1 },
    { tag := "emphasis", text := some "c", parent := some 1 },
    { tag := "simplesect", parent := some 8, children := [5, 7] },
    { tag := "para", text := some "d", parent := some 4 },
    { tag := "simplesect" },
    { tag := "para", text := some "e", parent := some 4 },
    { tag := "para", parent := some 0, children := [4] },
    { tag := "para", text := some "f", parent := some 0 }]⟩

/-- The description is one that the pass may be run on. -/
lemma suitable_draft : Suitable draft 0 := by
  refine suitable_of_forall_lt (Tree.wellFormed_of_ordered (by decide)) ?_ (by decide) (by decide)
  unfold IsPlain
  decide

/-- The pass turns the one description into the other. -/
lemma adjust_draft : adjust 0 draft = .ok () fairCopy := by
  decide +kernel

end DoxygenRest.Adjust
