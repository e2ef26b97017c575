import DoxygenRest.Proofs.Adjust.Outside
import DoxygenRest.Proofs.Adjust.Termination

/-!
# What the pass comes to

However many steps the pass may take, if only they are enough, it has one and the same result on a
subtree (`Yields`, `exists_yields`, `Yields.unique`).

How it comes to the result is told by moves alone: a `Course` leads from an outcome, move by move,
to the whole branch or to a failure.  It knows of no tree and no cursor, so runs of the pass on
different trees are compared by their courses.
-/

namespace DoxygenRest.Adjust

open Branch

variable {root : NodeId} {outer : Context} {c : Cursor} {o : Outcome} {t u : Tree}
variable {result result' : EStateM.Result PassError Tree Unit} {failure : PassError}

/-! ### Results -/

/-- The result of the pass on the subtree at `root` when it may take enough steps. -/
def Yields (root : NodeId) (t : Tree) (result : EStateM.Result PassError Tree Unit) : Prop :=
  ∃ enough, ∀ maxSteps ≥ enough, runOn { rules, maxSteps } root t = result

/-- There is a result. -/
theorem exists_yields (h : t.WellFormed) (root : NodeId) : ∃ result, Yields root t result := by
  obtain ⟨enough, result, -, hresult⟩ := adjust_terminates h root
  exact ⟨result, enough, hresult⟩

/-- There is no more than one result. -/
theorem Yields.unique (hresult : Yields root t result) (hresult' : Yields root t result') :
    result = result' := by
  obtain ⟨enough, henough⟩ := hresult
  obtain ⟨enough', henough'⟩ := hresult'
  rw [← henough _ (Nat.le_max_left enough enough'),
    henough' _ (Nat.le_max_right enough enough')]

/-- A run that comes to an end within some steps comes to the same end if it may take more. -/
lemma Tracks.runFor_ok_mono {r : Editor Cursor.Edit} {c' : Cursor} (hrules : r.rules = rules)
    (hc : Tracks root outer c o) {left limit : Nat} (hle : left ≤ limit)
    (hrun : editor.runFor left c = .ok () c') : r.runFor limit c = .ok () c' := by
  -- Both runs take the same steps until the shorter one ends.
  induction left generalizing limit c o with
  | zero =>
    cases o with
    | finished b =>
      rw [hc.runFor_finished] at hrun ⊢
      exact hrun
    | standing l =>
      rw [Editor.runFor, Program.bind_ok hc.hasNext_standing] at hrun
      cases hrun
  | succ left ih =>
    cases o with
    | finished b =>
      rw [hc.runFor_finished] at hrun ⊢
      exact hrun
    | standing l =>
      obtain ⟨limit, rfl⟩ := Nat.exists_eq_add_of_le' (Nat.le_trans (Nat.le_add_left 1 left) hle)
      have hhandle : Editor.handle r = Editor.handle editor := handleWithin_congr hrules _
      rw [hc.runFor_standing, Program.bind_apply] at hrun ⊢
      rw [hhandle]
      cases hfirst : Editor.handle editor c with
      | error failure c₁ =>
        rw [hfirst] at hrun
        cases hrun
      | ok a c₁ =>
        rw [hfirst] at hrun
        obtain ⟨o', -, hc₁⟩ := exists_step_of_handle hc hfirst
        exact ih hc₁ (Nat.le_of_succ_le_succ hle) hrun

/-- A success within the limit of the pass is the result. -/
theorem yields_of_adjust (h : t.WellFormed) (hrun : adjust root t = .ok () u) :
    Yields root t (.ok () u) := by
  rw [adjust, runOn, Editor.run] at hrun
  cases hloop : editor.runFor editor.maxSteps (Cursor.start t root) with
  | error failure c =>
    rw [hloop] at hrun
    cases hrun
  | ok a c =>
    rw [hloop] at hrun
    refine ⟨editor.maxSteps, fun maxSteps hle => ?_⟩
    have hsame := (tracks_start h root).runFor_ok_mono (r := { rules, maxSteps }) rfl hle hloop
    rw [runOn, Editor.run, hsame]
    exact hrun

/-- The tree that the result of a run is about. -/
def treeResult : EStateM.Result PassError Cursor Unit → EStateM.Result PassError Tree Unit
  | .ok _ c => .ok () c.tree
  | .error failure c => .error failure c.tree

/-- The weight of a subtree is a number of steps that are enough. -/
lemma Yields.eq_treeResult (h : t.WellFormed) (hresult : Yields root t result) :
    treeResult (editor.runFor (weight (t.branch root)) (Cursor.start t root)) = result := by
  obtain ⟨enough, henough⟩ := hresult
  have hle : (Outcome.standing ⟨t.branch root, []⟩).weight ≤ weight (t.branch root) := Nat.le_refl _
  have hmax : (Outcome.standing ⟨t.branch root, []⟩).weight ≤
      max enough (weight (t.branch root)) := Nat.le_max_right ..
  rw [← henough (max enough (weight (t.branch root))) (Nat.le_max_left ..), runOn, Editor.run]
  rw [(runFor_of_weight_le (r := { rules, maxSteps := max enough (weight (t.branch root)) }) rfl
    (tracks_start h root) hmax hle).1]
  cases editor.runFor (weight (t.branch root)) (Cursor.start t root) <;> rfl

/-! ### Courses -/

/-- A row of moves from an outcome to the whole branch or to a failure, for a walk with the
surroundings `s`.  New elements may get any numbers. -/
inductive Course (s : Surroundings) : Outcome → Except PassError Branch → Prop where
  | finish (b : Branch) : Course s (.finished b) (.ok b)
  | fail {fresh : NodeId} {l : Location} {failure : PassError}
      (hmove : move s fresh l = .error failure) : Course s (.standing l) (.error failure)
  | step {fresh : NodeId} {l : Location} {o : Outcome} {last : Except PassError Branch}
      (hmove : move s fresh l = .ok o) (hrest : Course s o last) : Course s (.standing l) last

/-- What a run came to is what a course from the outcome `o` comes to. -/
def Follows (root : NodeId) (outer : Context) (s : Surroundings) (o : Outcome) :
    EStateM.Result PassError Cursor Unit → Prop
  | .ok _ c => ∃ b, Course s o (.ok b) ∧ Tracks root outer c (.finished b) ∧
      surroundings c.tree c.root = s
  | .error failure _ => Course s o (.error failure)

/-- A run with enough steps follows a course. -/
theorem Tracks.follows_runFor (hc : Tracks root outer c o) {left : Nat} (hleft : o.weight ≤ left) :
    Follows root outer (surroundings c.tree c.root) o (editor.runFor left c) := by
  induction left generalizing c o with
  | zero =>
    cases o with
    | finished b =>
      rw [hc.runFor_finished]
      exact ⟨b, .finish b, hc, rfl⟩
    | standing l =>
      have hfocus := two_le_weight l.focus
      rw [Outcome.weight] at hleft
      omega
  | succ left ih =>
    cases o with
    | finished b =>
      rw [hc.runFor_finished]
      exact ⟨b, .finish b, hc, rfl⟩
    | standing l =>
      have hperforms := hc.performs
      rw [hc.runFor_standing]
      cases hmove : move (surroundings c.tree c.root) c.tree.size l with
      | error failure =>
        rw [hmove] at hperforms
        rw [Program.bind_error hperforms]
        exact .fail hmove
      | ok o' =>
        rw [hmove] at hperforms
        obtain ⟨c', hok, hc', hreplaced⟩ := hperforms
        have hroot : c'.root = c.root := hc'.root_eq.trans hc.root_eq.symm
        have hweight := (step_of_move hmove).weight_lt
        -- Neither the move nor what it writes right before the root changes the surroundings.
        have haround : surroundings c'.tree c'.root = surroundings c.tree c.root := by
          rw [hroot, surroundings_replaced (Tree.wellFormed_writtenBefore hc.wellFormed ..) hreplaced,
            surroundings_writtenBefore hc.wellFormed]
        have hrest := ih hc' (by omega)
        rw [haround] at hrest
        rw [Program.bind_ok hok]
        cases hrun : editor.runFor left c' with
        | ok a c'' =>
          rw [hrun] at hrest
          obtain ⟨b, hcourse, hc'', hs⟩ := hrest
          exact ⟨b, .step hmove hcourse, hc'', hs⟩
        | error failure c'' =>
          rw [hrun] at hrest
          exact .step hmove hrest

/-! ### Results have courses -/

/-- The start of a walk over the subtree at an element. -/
def start (t : Tree) (n : NodeId) : Outcome :=
  .standing ⟨t.branch n, []⟩

/-- A success is the end of a course.  It leaves a well-formed tree, and the surroundings of the
subtree as they were. -/
theorem Yields.course_ok (h : t.WellFormed) (hresult : Yields root t (.ok () u)) :
    u.WellFormed ∧ surroundings u root = surroundings t root ∧
      Course (surroundings t root) (start t root) (.ok (u.branch root)) := by
  have hrun := hresult.eq_treeResult h
  have hfollows := (tracks_start h root).follows_runFor (Nat.le_refl (weight (t.branch root)))
  cases hloop : editor.runFor (weight (t.branch root)) (Cursor.start t root) with
  | error failure c =>
    rw [hloop] at hrun
    cases hrun
  | ok a c =>
    rw [hloop] at hrun hfollows
    cases hrun
    obtain ⟨b, hcourse, hc, hs⟩ := hfollows
    have hb : c.tree.branch root = b := by
      rw [← hc.root_eq]
      exact hc.whole
    rw [hc.root_eq] at hs
    rw [hb]
    exact ⟨hc.wellFormed, hs, hcourse⟩

/-- A failure is the end of a course. -/
theorem Yields.course_error (h : t.WellFormed) (hresult : Yields root t (.error failure u)) :
    Course (surroundings t root) (start t root) (.error failure) := by
  have hrun := hresult.eq_treeResult h
  have hfollows := (tracks_start h root).follows_runFor (Nat.le_refl (weight (t.branch root)))
  cases hloop : editor.runFor (weight (t.branch root)) (Cursor.start t root) with
  | ok a c =>
    rw [hloop] at hrun
    cases hrun
  | error failure c =>
    rw [hloop] at hrun hfollows
    cases hrun
    exact hfollows

/-- The pass changes no more than texts and tails of the elements around the subtree, and leaves
these where they are. -/
theorem Yields.around (h : t.WellFormed) (hresult : Yields root t result) :
    (Program.stateOf result).ancestors root = t.ancestors root ∧
      ∀ a ∈ t.ancestors root, ((Program.stateOf result).entry a).bare = (t.entry a).bare := by
  have hstate : Program.stateOf result =
      (Program.stateOf (editor.runFor (weight (t.branch root)) (Cursor.start t root))).tree := by
    rw [← hresult.eq_treeResult h]
    cases editor.runFor (weight (t.branch root)) (Cursor.start t root) <;> rfl
  obtain ⟨left, hleft⟩ := Nat.exists_eq_add_of_le' (two_le_weight (t.branch root))
  obtain ⟨b, hb, -⟩ := (tracks_start h root).spares_runFor_root left
  rw [← hleft, ← hstate] at hb
  obtain ⟨more, hb⟩ : ∃ more,
      Tree.Replaced (t.writtenBefore root more) (Program.stateOf result) root b := ⟨_, hb⟩
  have hwritten := Tree.wellFormed_writtenBefore h root more
  have hancestors := Tree.ancestors_writtenBefore h root more root
  refine ⟨(hb.ancestors hwritten).trans hancestors, fun a ha => ?_⟩
  rw [← hancestors] at ha
  rw [Tree.entry_congr (hb.element_of_mem_ancestors hwritten ha),
    Tree.bare_entry_writtenBefore h]

/-- Where the root of the subtree is never treated itself, the pass changes nothing outside of the
subtree, and of the root's own data nothing but the text. -/
theorem Yields.spares (h : t.WellFormed) (hplain : IsPlain (t.tag root))
    (hresult : Yields root t result) :
    Spares t (Program.stateOf result) root (t.entry root) := by
  have hc := tracks_start h root
  have htreatment : (surroundings t root).treatmentAt ⟨t.branch root, []⟩ = .advance := by
    refine treatment_of_isPlain _ _ ?_
    rw [Tree.own_branch h]
    exact hplain
  have hcontained : ((surroundings t root).treatmentAt ⟨t.branch root, []⟩).isContained = true := by
    rw [htreatment]
    rfl
  have hspares := hc.spares_runFor_contained hcontained (weight (t.branch root))
  rw [← hresult.eq_treeResult h, ← Tree.own_branch h]
  cases hloop : editor.runFor (weight (t.branch root)) (Cursor.start t root) with
  | ok a c =>
    rw [hloop] at hspares
    exact hspares
  | error failure c =>
    rw [hloop] at hspares
    exact hspares

/-- The pass leaves the root its tag if it never treats the root itself. -/
lemma tag_root_of_adjust (h : t.WellFormed) (hplain : IsPlain (t.tag root))
    (hrun : adjust root t = .ok () u) : u.tag root = t.tag root := by
  obtain ⟨b, hb, hown⟩ := (yields_of_adjust h hrun).spares h hplain
  have hb : Tree.Replaced t u root b := hb
  have htag : b.own.tag = t.tag root := congrArg Entry.tag hown
  rw [← htag, ← hb.branch, Tree.own_branch hb.wellFormed]
  rfl

end DoxygenRest.Adjust
