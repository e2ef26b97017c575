import DoxygenRest.Proofs.Adjust.Course

/-!
# Walks inside of walks

A walk over a child of an element is a part of the walk over the element itself: it makes the same
moves, with one more frame around each place (`move_append`).  There is one difference.  Where the
last child of the walk's root is removed, the smaller walk is at its end, while the larger one comes
back to that root.  An element that is never treated is left alone then, so
the larger walk goes on where the smaller one ends (`Course.under`).

So an element whose children are never treated themselves is walked over child by child
(`CourseRow.course`).
-/

namespace DoxygenRest.Adjust

open Branch

variable {s s' : Surroundings} {fresh : NodeId} {x y : Branch} {f g : Frame} {fs gs : List Frame}
variable {o : Outcome} {last last' : Except PassError Branch} {failure : PassError}

/-! ### One more frame -/

/-- An outcome of a walk over a child, as one of the walk over the element around it. -/
def Outcome.under (f : Frame) : Outcome → Outcome
  | standing l => standing ⟨l.focus, l.frames ++ [f]⟩
  | finished b => leave b [f]

/-- Leaving an element among frames inside another one leaves it below that. -/
lemma leave_append (x : Branch) (fs : List Frame) (f : Frame) :
    leave x (fs ++ [f]) = (leave x fs).under f := by
  induction fs generalizing x with
  | nil => rfl
  | cons g fs ih =>
    rw [List.cons_append, leave, leave]
    cases g.after with
    | nil => exact ih (g.fill x)
    | cons y rest => rfl

/-- So does going on behind a hole. -/
lemma skip_append (g : Frame) (fs : List Frame) (f : Frame) :
    skip g (fs ++ [f]) = (skip g fs).under f := by
  rw [skip, skip]
  cases g.after with
  | nil => exact leave_append ..
  | cons y rest => rfl

/-- Entering an element among frames inside another one enters it below that. -/
lemma enter_append (x : Branch) (fs : List Frame) (f : Frame) :
    enter x (fs ++ [f]) = (enter x fs).under f := by
  rw [enter, enter]
  cases x.children with
  | nil => exact leave_append ..
  | cons y rest => rfl

/-- A row put in place among frames inside another one is put in place below that. -/
lemma standOn_append (g : Frame) (fs : List Frame) (row : List Branch) (f : Frame) :
    standOn g (fs ++ [f]) row = (standOn g fs row).under f := by
  cases row with
  | nil => exact skip_append ..
  | cons y rest => rfl

/-- Joining two sections inside another element joins them below that. -/
lemma joinInto_append (prev x : Branch) (fs : List Frame) (f : Frame) :
    joinInto prev x (fs ++ [f]) = (joinInto prev x fs).under f := by
  rw [joinInto, joinInto]
  cases x.children with
  | nil => exact leave_append ..
  | cons y rest => rfl

/-- The outermost frame is met first on the way to the hole. -/
lemma contextAt_append (outer : Context) (fs : List Frame) (f : Frame) :
    contextAt outer (fs ++ [f]) = contextAt (outer.inside f.own) fs := by
  induction fs with
  | nil => rfl
  | cons g fs ih => rw [List.cons_append, contextAt, contextAt, ih]

/-- What is done with an element below the root of the smaller walk is done with it in the larger
walk. -/
lemma treatmentAt_append (houter : s'.outer = s.outer.inside f.own) :
    s.treatmentAt ⟨x, g :: gs ++ [f]⟩ = s'.treatmentAt ⟨x, g :: gs⟩ := by
  rw [Surroundings.treatmentAt, Surroundings.treatmentAt, contextAt_append, houter]
  rfl

/-- **Frames lift moves**: a move below the root of the smaller walk is one of the larger walk,
unless it removes a child of that root. -/
theorem move_append (houter : s'.outer = s.outer.inside f.own)
    (hkept : gs = [] → s'.treatmentAt ⟨x, g :: gs⟩ ≠ .remove) :
    move s fresh ⟨x, g :: gs ++ [f]⟩ = (move s' fresh ⟨x, g :: gs⟩).map (Outcome.under f) := by
  have hcontext : contextAt s.outer (g :: (gs ++ [f])) = contextAt s'.outer (g :: gs) := by
    rw [← List.cons_append, contextAt_append, houter]
  -- The treatment depends on the context and the previous sibling only, which the frame further out
  -- does not change. Each move then works on the frames inside.
  rw [move, move, treatmentAt_append houter]
  cases hτ : s'.treatmentAt ⟨x, g :: gs⟩ with
  | replace text =>
    simp only [List.cons_append, moveReplace, Except.map, skip_append]
  | remove =>
    have hgs : gs ≠ [] := fun hnil => hkept hnil hτ
    simp only [List.cons_append, moveRemove, ne_eq, List.append_eq_nil_iff, hgs, List.cons_ne_nil,
      and_false, not_false_eq_true, true_and]
    split
    · rfl
    · simp only [Except.map, skip_append]
  | flatten =>
    simp only [moveFlatten]
    cases x.children.find? fun y => y.markup != .inline <;> rfl
  | lift =>
    simp only [moveLift]
    cases x.children with
    | nil => simp only [Except.map, enter_append]
    | cons y ys =>
      simp only [List.cons_append]
      split
      · simp only [Except.map, standOn_append]
      · rfl
  | trim =>
    simp only [moveTrim]
    cases x.own.text <;> rfl
  | absorb =>
    simp only [List.cons_append, moveAbsorb, hcontext]
    cases g.before with
    | nil => exact congrArg Except.ok (enter_append x (g :: gs) f)
    | cons prev rest =>
      simp only
      split
      · exact congrArg Except.ok (joinInto_append prev x ({ g with before := rest } :: gs) f)
      · exact congrArg Except.ok (enter_append x (g :: gs) f)
  | divide =>
    simp only [List.cons_append, moveDivide]
    rcases cut? x with failure | (_ | cut)
    · rfl
    · exact congrArg Except.ok (enter_append x (g :: gs) f)
    · simp only [Except.map, standOn_append]
  | advance => exact congrArg Except.ok (enter_append x (g :: gs) f)

/-! ### One course inside of another -/

/-- An element that is never treated is entered. -/
lemma move_of_isPlain (hplain : IsPlain x.own.tag) : move s fresh ⟨x, fs⟩ = .ok (enter x fs) := by
  rw [move, Surroundings.treatmentAt, treatment_of_isPlain _ _ hplain]

/-- What the larger walk comes to, when the smaller one has come to its end. -/
def Continues (s : Surroundings) (f : Frame) :
    Except PassError Branch → Except PassError Branch → Prop
  | .ok b, last => Course s (leave b [f]) last
  | .error failure, last => last = .error failure

/-- The larger walk comes back to the root of the smaller one, if that has become empty, and passes
by. -/
lemma course_remove_under (hplain : IsPlain g.own.tag)
    (hτ : s.treatmentAt ⟨x, [g, f]⟩ = .remove)
    (hrest : Course s ((skip (g.extendBefore x.tail) []).under f) last) :
    Course s (.standing ⟨x, [g, f]⟩) last := by
  have hmove : move s 0 ⟨x, [g, f]⟩ = moveRemove x [g, f] := by rw [move, hτ]
  by_cases hempty : ((g.extendBefore x.tail).fillRow []).isEmpty = true
  · have hback : move s 0 ⟨x, [g, f]⟩ = .ok (.standing ⟨(g.extendBefore x.tail).fillRow [], [f]⟩) := by
      rw [hmove, moveRemove, if_pos ⟨List.cons_ne_nil f [], hempty⟩]
    obtain ⟨-, hchildren⟩ := Branch.isEmpty_iff.1 hempty
    have hafter : (g.extendBefore x.tail).after = [] := by
      rw [Frame.fillRow, children_node, List.nil_append, List.append_eq_nil_iff] at hchildren
      exact hchildren.2
    have hplain' : IsPlain ((g.extendBefore x.tail).fillRow []).own.tag := by
      have htag := congrArg Entry.tag (Frame.withoutText_extendBefore g x.tail)
      exact htag ▸ hplain
    have hpast : move s 0 ⟨(g.extendBefore x.tail).fillRow [], [f]⟩ =
        .ok (leave ((g.extendBefore x.tail).fillRow []) [f]) := by
      rw [move_of_isPlain hplain', enter, hchildren]
    rw [skip, hafter] at hrest
    exact .step hback (.step hpast hrest)
  · have hpast : move s 0 ⟨x, [g, f]⟩ = .ok ((skip (g.extendBefore x.tail) []).under f) := by
      rw [hmove, moveRemove, if_neg fun hlast => hempty hlast.2]
      exact congrArg Except.ok (skip_append (g.extendBefore x.tail) [] f)
    exact .step hpast hrest

/-- **A course of the smaller walk is the beginning of one of the larger walk.** -/
theorem Course.under (hcourse : Course s' o last) (houter : s'.outer = s.outer.inside f.own)
    (hbelow : o.OnRoot fun _ => False) (hplain : IsPlain o.whole.own.tag)
    (hlast : Continues s f last last') : Course s (o.under f) last' := by
  induction hcourse with
  | finish b => exact hlast
  | @fail fresh l failure hmove =>
    obtain ⟨x, fs⟩ := l
    obtain ⟨g, gs, rfl⟩ := List.exists_cons_of_ne_nil (show fs ≠ [] from hbelow)
    have hkept : gs = [] → s'.treatmentAt ⟨x, g :: gs⟩ ≠ .remove := by
      rintro rfl hτ
      rw [move, hτ] at hmove
      simp [moveRemove] at hmove
    have hfail : move s fresh ⟨x, g :: gs ++ [f]⟩ = .error failure := by
      rw [move_append houter hkept, hmove]
      rfl
    rw [show last' = .error failure from hlast]
    exact .fail hfail
  | @step fresh l o last hmove hrest ih =>
    obtain ⟨x, fs⟩ := l
    obtain ⟨g, gs, rfl⟩ := List.exists_cons_of_ne_nil (show fs ≠ [] from hbelow)
    have hstep := step_of_move hmove
    have htag := congrArg Entry.tag (hstep.withoutText_whole (List.cons_ne_nil g gs))
    have hrest' := ih (hstep.onRoot hbelow) (htag ▸ hplain) hlast
    -- The one move that differs is the removal of the last child of the root: with a frame around
    -- it, the root is no longer kept because it is the root, but because it is plain.
    by_cases hroot : gs = [] ∧ s'.treatmentAt ⟨x, g :: gs⟩ = .remove
    · obtain ⟨rfl, hτ⟩ := hroot
      have ho : o = skip (g.extendBefore x.tail) [] := by
        rw [move, hτ] at hmove
        simpa [moveRemove] using hmove.symm
      rw [ho] at hrest'
      exact course_remove_under hplain ((treatmentAt_append houter).trans hτ) hrest'
    · have hkept : gs = [] → s'.treatmentAt ⟨x, g :: gs⟩ ≠ .remove := fun hnil hτ => hroot ⟨hnil, hτ⟩
      have hmove' : move s fresh ⟨x, g :: gs ++ [f]⟩ = .ok (o.under f) := by
        rw [move_append houter hkept, hmove]
        rfl
      exact .step hmove' hrest'

/-- The walk over a child that is never treated itself is the beginning of the walk from that child
on. -/
lemma Course.at_child (hcourse : Course s' (.standing ⟨x, []⟩) last)
    (houter : s'.outer = s.outer.inside f.own) (hplain : IsPlain x.own.tag)
    (hlast : Continues s f last last') : Course s (.standing ⟨x, [f]⟩) last' := by
  cases hcourse with
  | fail hmove =>
    rw [move_of_isPlain hplain] at hmove
    cases hmove
  | @step fresh l o last hmove hrest =>
    rw [move_of_isPlain hplain] at hmove
    cases hmove
    have hunder := hrest.under houter (onRoot_enter x []) (by rw [whole_enter]; exact hplain) hlast
    rw [← enter_append] at hunder
    have hmove : move s fresh ⟨x, [f]⟩ = .ok (enter x [f]) := move_of_isPlain hplain
    exact .step hmove hunder

/-! ### Child by child -/

/-- Walks over the branches of a row, one after another, in the context `k`, up to the first
failure. -/
inductive CourseRow (k : Context) : List Branch → Except PassError (List Branch) → Prop where
  | nil : CourseRow k [] (.ok [])
  | fail {s : Surroundings} {x : Branch} {xs : List Branch} {failure : PassError}
      (houter : s.outer = k) (hcourse : Course s (.standing ⟨x, []⟩) (.error failure)) :
      CourseRow k (x :: xs) (.error failure)
  | cons {s : Surroundings} {x b : Branch} {xs : List Branch} {last : Except PassError (List Branch)}
      (houter : s.outer = k) (hcourse : Course s (.standing ⟨x, []⟩) (.ok b))
      (hrest : CourseRow k xs last) : CourseRow k (x :: xs) (last.map (b :: ·))

/-- Behind its last child, the walk of a single frame goes on as behind a place that has become
empty. -/
lemma leave_singleton (b : Branch) (f : Frame) :
    leave b [f] = skip { f with before := b :: f.before } [] := by
  rw [leave, skip]
  cases hafter : f.after with
  | nil => simp [leave, Frame.fill, Frame.fillRow, hafter]
  | cons y rest => rfl

/-- Walks over the children that lie ahead make up the rest of the walk over the element. -/
theorem CourseRow.course {rest : Except PassError (List Branch)}
    (hrow : CourseRow (s.outer.inside f.own) f.after rest)
    (hplain : ∀ x ∈ f.after, IsPlain x.own.tag) :
    Course s (skip f []) (rest.map fun bs => node f.number f.own (f.before.reverse ++ bs)) := by
  generalize hxs : f.after = xs at hrow hplain
  generalize hk : s.outer.inside f.own = k at hrow
  induction hrow generalizing f with
  | nil =>
    have hfinish := Course.finish (s := s) (f.fillRow [])
    rw [skip, hxs]
    simpa only [leave, Frame.fillRow, hxs, Except.map, List.append_nil] using hfinish
  | @fail s' x xs failure houter hcourse =>
    rw [skip, hxs]
    exact hcourse.at_child (houter.trans hk.symm) (hplain x (List.mem_cons_self ..)) rfl
  | @cons s' x b xs rest houter hcourse hrest ih =>
    have hrest' : Course s (leave b [⟨f.number, f.own, f.before, xs⟩])
        (rest.map fun bs => node f.number f.own ((b :: f.before).reverse ++ bs)) := by
      rw [leave_singleton]
      exact ih rfl (fun y hy => hplain y (List.mem_cons_of_mem x hy)) hk
    have hmap : (rest.map (b :: ·)).map (fun bs => node f.number f.own (f.before.reverse ++ bs)) =
        rest.map fun bs => node f.number f.own ((b :: f.before).reverse ++ bs) := by
      cases rest <;> simp [Except.map]
    rw [hmap, skip, hxs]
    exact hcourse.at_child (houter.trans hk.symm) (hplain x (List.mem_cons_self ..)) hrest'

end DoxygenRest.Adjust
