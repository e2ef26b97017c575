import DoxygenRest.Proofs.Adjust.Run

/-!
# Running the pass again

On a subtree that is settled below its root no rule has anything to do: the pass walks over all
elements, one a step, and changes nothing (`adjust_of_settledBelow`).  As a pass that succeeds leaves
such a subtree behind, with no more elements than it may take steps, the pass is idempotent
(`adjust_idempotent`).
-/

namespace DoxygenRest

/-! ### Sameness of fragments -/

mutual

/-- A fragment is the same as itself. -/
lemma Fragment.same_refl : ∀ x : Fragment, x.same x = true
  | .element tag attributes namespaces text tail children => by
    rw [Fragment.same]
    simp [Fragment.sameList_refl children]

/-- A row of fragments is the same as itself. -/
lemma Fragment.sameList_refl : ∀ xs : List Fragment, Fragment.sameList xs xs = true
  | [] => by rw [Fragment.sameList]
  | x :: xs => by
    rw [Fragment.sameList]
    simp [Fragment.same_refl x, Fragment.sameList_refl xs]

end

/-- Every subtree means the same element as itself. -/
lemma Tree.semanticallyEqual_refl (t : Tree) (n : NodeId) : t.semanticallyEqual n t n = true :=
  Fragment.same_refl _

namespace Adjust

open Branch

variable {root : NodeId} {outer : Context} {c : Cursor} {x : Branch} {f : Frame} {fs : List Frame}

/-! ### Elements that fit are left alone -/

/-- A section that differs from the section before it is not absorbed. -/
lemma Tracks.absorb_of_fits (hc : Tracks root outer c (.standing ⟨x, f :: fs⟩))
    (h : ∀ e ∈ previousOwn? (f :: fs), ¬Mergeable (contextAt outer (f :: fs)) e x.own) :
    Adjust.absorb c = .ok () c.advanceInto := by
  have hprevious := f.previousSibling?_eq hc.wellFormed (holds_plug.1 hc.holds).2.1
  have hincompatible : ¬(c.tree.previousSibling? x.number).any
      (fun previous => areCompatible c.tree previous x.number) = true := by
    rw [hprevious]
    cases hbefore : f.before with
    | nil => simp
    | cons prev rest =>
      rw [List.head?_cons, Option.map_some, Option.any_some, hc.areCompatible_iff hbefore]
      exact h prev.own (by simp [previousOwn?, hbefore])
  rw [Adjust.absorb, Program.bind_ok hc.current_ok, Program.get_bind_apply,
    if_neg hincompatible]
  rfl

/-- A paragraph that needs no division is not divided. -/
lemma Tracks.dividePara_of_undivided (hc : Tracks root outer c (.standing ⟨x, fs⟩))
    (h : IsUndivided x.text x.children) : Adjust.dividePara c = .ok () c.advanceInto := by
  have hdivision := (division?_eq_none_iff hc.holds_focus).2 h
  rw [Adjust.dividePara, Program.bind_ok hc.current_ok, Program.get_bind_apply]
  simp only [hdivision]
  rfl

/-- With an element that fits, the pass does nothing but walk on. -/
theorem Tracks.handle_of_fits {l : Location} (hc : Tracks root outer c (.standing l))
    (hroot : l.frames = [] → IsPlain l.focus.own.tag)
    (hfits : l.frames ≠ [] →
      Fits (contextAt outer l.frames) (previousOwn? l.frames) l.focus) :
    Editor.handle editor c = .ok () c.advanceInto := by
  obtain ⟨x, fs⟩ := l
  cases fs with
  | nil =>
    rw [Adjust.handle_eq_run hc.holds_focus hc.standing hc.wellFormed,
      treatment_of_isPlain _ _ (hroot rfl)]
    rfl
  | cons f fs =>
    have h := hfits (List.cons_ne_nil f fs)
    rw [hc.handle_eq_run, treatmentAt]
    rcases h.treatment with hτ | ⟨hτ, htag⟩ | ⟨hτ, htag⟩
    · rw [hτ]
      rfl
    · rw [hτ]
      exact hc.absorb_of_fits (h.distinct htag).2
    · rw [hτ]
      exact hc.dividePara_of_undivided (h.undivided htag).2

/-! ### A settled subtree is left alone -/

/-- A run over a branch that is settled below its root comes to an end in as many steps as elements
are left, and changes nothing. -/
theorem runFor_of_settled {left : Nat} {o : Outcome} (hc : Tracks root outer c o)
    (hplain : IsPlain o.whole.own.tag)
    (hrow : SettledRow (outer.inside o.whole.own) none o.whole.children)
    (hleft : o.whole.numbers.length ≤ o.passed + left) :
    ∃ c', editor.runFor left c = .ok () c' ∧ c'.tree = c.tree := by
  induction left generalizing c o with
  | zero =>
    cases o with
    | finished b => exact ⟨c, hc.runFor_finished editor _, rfl⟩
    | standing l =>
      -- The current element is not passed yet.
      have hpassed := passed_add_le_length_plug l.frames l.focus
      rw [length_numbers_eq] at hpassed
      rw [Outcome.whole, Outcome.passed] at hleft
      omega
  | succ left ih =>
    cases o with
    | finished b => exact ⟨c, hc.runFor_finished editor _, rfl⟩
    | standing l =>
      obtain ⟨x, fs⟩ := l
      have hhandle : Editor.handle editor c = .ok () c.advanceInto := by
        refine hc.handle_of_fits (fun hnil => ?_) fun hne => ?_
        · rw [show fs = [] from hnil] at hplain
          exact hplain
        · cases fs with
          | nil => exact absurd rfl hne
          | cons f fs => exact (settled_iff.1 (settled_place hrow)).1
      have hwhole := whole_enter x fs
      have hadvance := hc.advanceInto
      rw [hc.runFor_standing, Program.bind_ok hhandle, ← Cursor.tree_advanceInto c]
      refine ih hadvance ?_ ?_ ?_
      · rw [hwhole]
        exact hplain
      · rw [hwhole]
        exact hrow
      · have hleft' : (plug fs x).numbers.length ≤ passed fs + (left + 1) := hleft
        rw [hwhole, passed_enter]
        omega

/-- On a subtree that is settled below its root, and that it may take enough steps for, the pass
succeeds and changes nothing. -/
theorem adjust_of_settledBelow {t : Tree} (h : SettledBelow t root)
    (hsize : (t.branch root).numbers.length ≤ editor.maxSteps) : adjust root t = .ok () t := by
  have hleft : (Outcome.standing ⟨t.branch root, []⟩).whole.numbers.length ≤
      (Outcome.standing ⟨t.branch root, []⟩).passed + editor.maxSteps := by
    rw [Outcome.passed, passed, Nat.zero_add]
    exact hsize
  obtain ⟨c, hrun, htree⟩ := runFor_of_settled (tracks_start h.wellFormed root) h.plain h.row hleft
  rw [adjust, runOn, Editor.run, hrun, ← show c.tree = t from htree]

/-- **The pass is idempotent**: if it succeeds on a suitable subtree, it succeeds again, and the
subtree means the same as after the first time. -/
theorem adjust_idempotent {t t' : Tree} {root : NodeId} (h : Suitable t root)
    (hrun : adjust root t = .ok () t') :
    ∃ t'', adjust root t' = .ok () t'' ∧ t''.semanticallyEqual root t' root = true := by
  obtain ⟨hsettled, hsize⟩ := settledBelow_of_adjust h hrun
  exact ⟨t', adjust_of_settledBelow hsettled hsize, t'.semanticallyEqual_refl root⟩

/-- The pass on a description with inline markup and sections, and once more on what it leaves. -/
theorem adjust_idempotent_draft :
    Suitable draft 0 ∧ adjust 0 draft = .ok () fairCopy ∧
      ∃ t, adjust 0 fairCopy = .ok () t ∧ t.semanticallyEqual 0 fairCopy 0 = true :=
  ⟨suitable_draft, adjust_draft, adjust_idempotent suitable_draft adjust_draft⟩

end Adjust

end DoxygenRest
