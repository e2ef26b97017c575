import DoxygenRest.Proofs.Adjust.Simulation

/-!
# The pass is a walk

A run of the pass that comes to an end is a walk, a row of steps that leads from the root of the
subtree to the whole branch (`exists_walk_of_runFor`, `exists_walk_of_adjust`).  What each step keeps
is kept by walks, and so by the pass.
-/

namespace DoxygenRest.Adjust

open Branch

variable {root : NodeId} {outer : Context} {c c' : Cursor} {l : Location} {o : Outcome} {b : Branch}

/-- A row of `n` steps from one outcome to another. -/
inductive Walk (outer : Context) : (n : Nat) → Outcome → Outcome → Prop where
  | rest (o : Outcome) : Walk outer 0 o o
  | step {fresh : NodeId} {l : Location} {o o' : Outcome} {n : Nat} (hstep : Step outer fresh l o)
      (hrest : Walk outer n o o') : Walk outer (n + 1) (.standing l) o'

/-- What every step keeps is kept by walks. -/
theorem Walk.keeps {n : Nat} {o o' : Outcome} (hwalk : Walk outer n o o') {I : Outcome → Prop}
    (hkeep : ∀ {fresh : NodeId} {l : Location} {o : Outcome}, Step outer fresh l o →
      I (.standing l) → I o) (ho : I o) : I o' := by
  induction hwalk with
  | rest o => exact ho
  | step hstep hrest ih => exact ih (hkeep hstep ho)

/-! ### Coming to the end -/

/-- A cursor that stands somewhere in its subtree has an element left. -/
lemma Tracks.hasNext_standing (hc : Tracks root outer c (.standing l)) :
    (Editor.hasNext : Cursor.Edit Bool) c = .ok true c := by
  have hcontains := Cursor.contains_of_place hc.wellFormed hc.whole
  rw [Editor.hasNext, Program.get_bind_apply, hc.standing]
  simp only [Outcome.number?, hcontains]
  rfl

/-- A cursor that has come to the end has no element left. -/
lemma Tracks.hasNext_finished (hc : Tracks root outer c (.finished b)) :
    (Editor.hasNext : Cursor.Edit Bool) c = .ok false c := by
  rw [Editor.hasNext, Program.get_bind_apply, hc.standing]
  rfl

/-- At the end of a walk, a run is at its end. -/
lemma Tracks.runFor_finished (hc : Tracks root outer c (.finished b)) (r : Editor Cursor.Edit)
    (left : Nat) : r.runFor left c = .ok () c := by
  cases left with
  | zero => rw [Editor.runFor, Program.bind_ok hc.hasNext_finished]; rfl
  | succ left => rw [Editor.runFor, Program.bind_ok hc.hasNext_finished]; rfl

/-- Before the end of a walk, a run goes on as long as it may. -/
lemma Tracks.runFor_standing (hc : Tracks root outer c (.standing l)) (r : Editor Cursor.Edit)
    (left : Nat) : r.runFor (left + 1) c = (r.handle >>= fun _ => r.runFor left) c := by
  rw [Editor.runFor, Program.bind_ok hc.hasNext_standing]
  rfl

/-- Handling an element takes no number out of use. -/
lemma Tracks.size_le_of_handle (hc : Tracks root outer c (.standing l))
    (hrun : Editor.handle editor c = .ok () c') : c.tree.size ≤ c'.tree.size := by
  have hperforms := hc.performs
  rw [hrun] at hperforms
  cases hmove : move (surroundings c.tree c.root) c.tree.size l with
  | error failure =>
    rw [hmove] at hperforms
    cases hperforms
  | ok o =>
    rw [hmove] at hperforms
    obtain ⟨_, hok, -, hreplaced⟩ := hperforms
    cases hok
    have hsize := hreplaced.size_le
    rwa [Tree.size_writtenBefore hc.wellFormed] at hsize

/-- A run that comes to an end is at its end, or it handles an element and goes on. -/
lemma Tracks.handle_of_runFor {left : Nat} (hc : Tracks root outer c o)
    (hrun : editor.runFor left c = .ok () c') :
    (∃ b, o = .finished b ∧ c' = c) ∨
      ∃ left' l c₁, left = left' + 1 ∧ o = .standing l ∧ Editor.handle editor c = .ok () c₁ ∧
        editor.runFor left' c₁ = .ok () c' := by
  cases o with
  | finished b =>
    rw [hc.runFor_finished] at hrun
    cases hrun
    exact Or.inl ⟨b, rfl, rfl⟩
  | standing l =>
    cases left with
    | zero =>
      rw [Editor.runFor, Program.bind_ok hc.hasNext_standing] at hrun
      cases hrun
    | succ left =>
      rw [hc.runFor_standing, Program.bind_apply] at hrun
      cases hhandle : Editor.handle editor c with
      | error failure c₁ =>
        rw [hhandle] at hrun
        cases hrun
      | ok a c₁ =>
        rw [hhandle] at hrun
        exact Or.inr ⟨left, l, c₁, rfl, rfl, rfl, hrun⟩

/-- A run that comes to an end is at its end, or it takes a step, in which a new element gets the
first unused number, and goes on. -/
lemma Tracks.runFor_ok_cases {left : Nat} (hc : Tracks root outer c o)
    (hrun : editor.runFor left c = .ok () c') :
    (∃ b, o = .finished b ∧ c' = c) ∨
      ∃ left' l o' c₁, left = left' + 1 ∧ o = .standing l ∧ Step outer c.tree.size l o' ∧
        Tracks root outer c₁ o' ∧ c.tree.size ≤ c₁.tree.size ∧
        editor.runFor left' c₁ = .ok () c' := by
  rcases hc.handle_of_runFor hrun with hend | ⟨left', l, c₁, hleft, rfl, hhandle, hrest⟩
  · exact Or.inl hend
  · obtain ⟨o', hstep, hc₁⟩ := exists_step_of_handle hc hhandle
    exact Or.inr ⟨left', l, o', c₁, hleft, rfl, hstep, hc₁, hc.size_le_of_handle hhandle, hrest⟩

/-- A run that comes to an end is a walk. -/
theorem exists_walk_of_runFor {left : Nat} (hc : Tracks root outer c o)
    (hrun : editor.runFor left c = .ok () c') :
    ∃ n ≤ left, ∃ b, Walk outer n o (.finished b) ∧ Tracks root outer c' (.finished b) := by
  induction left generalizing c o with
  | zero =>
    rcases hc.runFor_ok_cases hrun with ⟨b, rfl, rfl⟩ | ⟨_, _, _, _, hleft, -⟩
    · exact ⟨0, Nat.le_refl 0, b, .rest _, hc⟩
    · cases hleft
  | succ left ih =>
    rcases hc.runFor_ok_cases hrun with
      ⟨b, rfl, rfl⟩ | ⟨_, l, o', c₁, hleft, rfl, hstep, hc₁, -, hrest⟩
    · exact ⟨0, Nat.zero_le _, b, .rest _, hc⟩
    · cases hleft
      obtain ⟨n, hn, b, hwalk, hb⟩ := ih hc₁ hrest
      exact ⟨n + 1, Nat.succ_le_succ hn, b, .step hstep hwalk, hb⟩

/-- What every step keeps that takes its new numbers from `size` on is kept by a run that starts with
these numbers unused. -/
theorem Tracks.keeps_of_runFor {left size : Nat} {I : Outcome → Prop}
    (hkeep : ∀ {fresh : NodeId} {l : Location} {o : Outcome}, size ≤ fresh →
      Step outer fresh l o → I (.standing l) → I o)
    (hc : Tracks root outer c o) (hsize : size ≤ c.tree.size) (ho : I o)
    (hrun : editor.runFor left c = .ok () c') :
    ∃ b, I (.finished b) ∧ Tracks root outer c' (.finished b) := by
  induction left generalizing c o with
  | zero =>
    rcases hc.runFor_ok_cases hrun with ⟨b, rfl, rfl⟩ | ⟨_, _, _, _, hleft, -⟩
    · exact ⟨b, ho, hc⟩
    · cases hleft
  | succ left ih =>
    rcases hc.runFor_ok_cases hrun with
      ⟨b, rfl, rfl⟩ | ⟨_, l, o', c₁, hleft, rfl, hstep, hc₁, hle, hrest⟩
    · exact ⟨b, ho, hc⟩
    · cases hleft
      exact ih hc₁ (Nat.le_trans hsize hle) (hkeep hsize hstep ho) hrest

/-! ### The pass -/

variable {t t' : Tree}

/-- A cursor that stands on the root of its subtree tracks the start of a walk. -/
lemma tracks_start (h : t.WellFormed) (root : NodeId) :
    Tracks root (context t root) (Cursor.start t root) (.standing ⟨t.branch root, []⟩) where
  root_eq := rfl
  wellFormed := h
  whole := rfl
  standing := by rw [Outcome.number?, Tree.number_branch]; rfl
  around := rfl

/-- A tree that a walk over the branch at `root` of another tree leads to. -/
structure Walked (t t' : Tree) (root : NodeId) (n : Nat) : Prop where
  wellFormed : t'.WellFormed
  around : context t' root = context t root
  walk : Walk (context t root) n (.standing ⟨t.branch root, []⟩) (.finished (t'.branch root))

/-- The pass is a run of its editor. -/
lemma exists_run_of_adjust (hrun : adjust root t = .ok () t') :
    ∃ c, editor.runFor editor.maxSteps (Cursor.start t root) = .ok () c ∧ c.tree = t' := by
  rw [adjust, runOn, Editor.run] at hrun
  cases hloop : editor.runFor editor.maxSteps (Cursor.start t root) with
  | error failure c =>
    rw [hloop] at hrun
    cases hrun
  | ok a c =>
    rw [hloop] at hrun
    cases hrun
    exact ⟨c, rfl, rfl⟩

/-- At the end of a walk, the tree has the whole branch. -/
lemma Tracks.ended (hc : Tracks root outer c (.finished b)) :
    c.tree.branch root = b ∧ context c.tree root = outer := by
  constructor
  · rw [← hc.root_eq]
    exact hc.whole
  · rw [← hc.around, hc.root_eq]

/-- Whenever the pass succeeds, it walks over its subtree, in no more steps than it may take. -/
theorem exists_walk_of_adjust (h : t.WellFormed) (hrun : adjust root t = .ok () t') :
    ∃ n ≤ editor.maxSteps, Walked t t' root n := by
  obtain ⟨c, hloop, rfl⟩ := exists_run_of_adjust hrun
  obtain ⟨n, hn, b, hwalk, hc⟩ := exists_walk_of_runFor (tracks_start h root) hloop
  obtain ⟨rfl, haround⟩ := hc.ended
  exact ⟨n, hn, hc.wellFormed, haround, hwalk⟩

/-- What holds at the start and is kept by every step holds of the subtree when the pass succeeds;
new elements get numbers that no element had at the start. -/
theorem keeps_of_adjust_fresh (h : t.WellFormed) (hrun : adjust root t = .ok () t')
    {I : Outcome → Prop}
    (hkeep : ∀ {fresh : NodeId} {l : Location} {o : Outcome}, t.size ≤ fresh →
      Step (context t root) fresh l o → I (.standing l) → I o)
    (hstart : I (.standing ⟨t.branch root, []⟩)) :
    t'.WellFormed ∧ context t' root = context t root ∧ I (.finished (t'.branch root)) := by
  obtain ⟨c, hloop, rfl⟩ := exists_run_of_adjust hrun
  obtain ⟨b, hb, hc⟩ := (tracks_start h root).keeps_of_runFor hkeep (Nat.le_refl _) hstart hloop
  obtain ⟨rfl, haround⟩ := hc.ended
  exact ⟨hc.wellFormed, haround, hb⟩

/-- What holds at the start and is kept by every step, whatever numbers new elements get, holds of
the subtree when the pass succeeds. -/
theorem keeps_of_adjust (h : t.WellFormed) (hrun : adjust root t = .ok () t') {I : Outcome → Prop}
    (hkeep : ∀ {fresh : NodeId} {l : Location} {o : Outcome}, Step (context t root) fresh l o →
      I (.standing l) → I o)
    (hstart : I (.standing ⟨t.branch root, []⟩)) :
    t'.WellFormed ∧ context t' root = context t root ∧ I (.finished (t'.branch root)) :=
  keeps_of_adjust_fresh h hrun (fun _ => hkeep) hstart

end DoxygenRest.Adjust
