import DoxygenRest.Adjust
import DoxygenRest.Proofs.Program

/-!
# Failures of edits

An edit of a cursor fails for a reason of its own.  Giving up for lack of progress (`GivenUp`) is
left to the loop of a pass: no edit of a cursor, and no action of the adjusting pass, ends this
way (`Steady`).
-/

namespace DoxygenRest

/-- A program was given up for lack of progress. -/
def GivenUp {σ α : Type} (result : EStateM.Result PassError σ α) : Prop :=
  ∃ steps tag s, result = .error (.noProgress steps tag) s

/-- A success is no failure. -/
lemma not_givenUp_ok {σ α : Type} (a : α) (s : σ) :
    ¬GivenUp (.ok a s : EStateM.Result PassError σ α) := by
  rintro ⟨steps, tag, s', heq⟩
  cases heq

namespace Cursor

/-- An edit that is never given up. -/
structure Steady {α : Type} (edit : Edit α) : Prop where
  not_givenUp : ∀ c, ¬GivenUp (edit c)

variable {α β : Type}

/-! ### Building blocks -/

/-- What always succeeds never gives up. -/
lemma steady_of_ok {edit : Edit α} (h : ∀ c, ∃ a c', edit c = .ok a c') : Steady edit := by
  constructor
  intro c
  obtain ⟨a, c', hok⟩ := h c
  rw [hok]
  exact not_givenUp_ok a c'

lemma steady_pure (a : α) : Steady (pure a : Edit α) :=
  steady_of_ok fun c => ⟨a, c, rfl⟩

lemma steady_get : Steady (get : Edit Cursor) :=
  steady_of_ok fun c => ⟨c, c, rfl⟩

lemma steady_set (c' : Cursor) : Steady (set c' : Edit PUnit) :=
  steady_of_ok fun _ => ⟨⟨⟩, c', rfl⟩

lemma steady_modify (f : Cursor → Cursor) : Steady (modify f : Edit PUnit) :=
  steady_of_ok fun c => ⟨⟨⟩, f c, rfl⟩

lemma steady_stepTree (f : Tree → α × Tree) : Steady (stepTree f) :=
  steady_of_ok fun c => ⟨(f c.tree).1, { c with tree := (f c.tree).2 }, rfl⟩

/-- A failure of an edit is no lack of progress. -/
lemma steady_throw {failure : PassError} (h : ∀ steps tag, failure ≠ .noProgress steps tag) :
    Steady (throw failure : Edit α) := by
  constructor
  rintro c ⟨steps, tag, s, hrun⟩
  rw [Program.throw_apply] at hrun
  injection hrun with hfailure
  exact h steps tag hfailure

/-- To refuse an operation is not to give up. -/
lemma steady_violation (c : Cursor) (operation : String) (n : NodeId) (reason : String) :
    Steady (throw (c.violation operation n reason) : Edit α) := by
  refine steady_throw fun steps tag heq => ?_
  cases heq

/-- The tree refuses edits for its own reasons. -/
lemma steady_onTree (edit : Tree.Edit α) : Steady (onTree edit) := by
  constructor
  rintro c ⟨steps, tag, s, hrun⟩
  unfold onTree at hrun
  split at hrun
  · cases hrun
  · cases hrun

/-- Steady programs in a row are steady. -/
lemma Steady.bind {edit : Edit α} {next : α → Edit β} (h : Steady edit)
    (hnext : ∀ a, Steady (next a)) : Steady (edit >>= next) := by
  constructor
  intro c hgiven
  rw [Program.bind_apply] at hgiven
  cases hrun : edit c with
  | ok a c' =>
    rw [hrun] at hgiven
    exact (hnext a).not_givenUp c' hgiven
  | error failure c' =>
    rw [hrun] at hgiven
    obtain ⟨steps, tag, s, heq⟩ := hgiven
    injection heq with hfailure
    exact h.not_givenUp c ⟨steps, tag, c', by rw [hrun, hfailure]⟩

/-! ### Edits of a cursor -/

/-- To find the element to work on is steady. -/
lemma steady_target (operation : String) (n? : Option NodeId) : Steady (target operation n?) := by
  unfold target
  refine steady_get.bind fun c => ?_
  split
  · refine steady_throw fun steps tag heq => ?_
    cases heq
  · split
    · exact steady_pure _
    · exact steady_violation ..

lemma steady_targetBelowRoot (operation : String) (n? : Option NodeId) :
    Steady (targetBelowRoot operation n?) := by
  unfold targetBelowRoot
  refine (steady_target operation n?).bind fun n => steady_get.bind fun c => ?_
  split
  · exact (steady_violation ..).bind fun _ => steady_pure n
  · exact steady_pure n

lemma steady_targetInDivisible (operation : String) (n? : Option NodeId) :
    Steady (targetInDivisible operation n?) := by
  unfold targetInDivisible
  refine (steady_targetBelowRoot operation n?).bind fun n => steady_get.bind fun c => ?_
  split
  · exact steady_violation ..
  · split
    · exact steady_violation ..
    · exact steady_pure _

/-- To place a row of elements is steady, by induction on the row. -/
lemma steady_placeRow (anchor : NodeId) (row : List NodeId) : Steady (placeRow anchor row) := by
  induction row generalizing anchor with
  | nil => exact steady_pure anchor
  | cons n row ih => exact (steady_onTree _).bind fun _ => ih n

lemma steady_placeAfter (parent : NodeId) (row : List NodeId) : Steady (placeAfter parent row) := by
  unfold placeAfter
  exact (steady_placeRow parent row).bind fun _ => (steady_stepTree _).bind fun _ => steady_modify _

/-- To merge an element into the sibling before it is steady. -/
lemma steady_mergeIntoPrevious (n? : Option NodeId) : Steady (mergeIntoPrevious n?) := by
  unfold mergeIntoPrevious
  refine (steady_targetBelowRoot "merge" n?).bind fun n => steady_get.bind fun c => ?_
  split
  · exact steady_violation ..
  · refine (steady_stepTree _).bind fun _ => (steady_modify _).bind fun _ =>
      (steady_stepTree _).bind fun _ => (steady_modify _).bind fun _ =>
      (steady_onTree _).bind fun _ => (steady_stepTree _).bind fun _ =>
      (steady_modify _).bind fun _ => (steady_onTree _).bind fun _ => ?_
    split
    · exact steady_modify _
    · exact steady_pure _

/-- To divide in front of a child is steady. -/
lemma steady_splitBefore (n? : Option NodeId) : Steady (splitBefore n?) := by
  unfold splitBefore
  exact (steady_targetInDivisible "split" n?).bind fun _ => steady_get.bind fun _ =>
    (steady_stepTree _).bind fun _ => (steady_onTree _).bind fun _ => steady_placeAfter ..

/-- To divide behind the tail of a child is steady. -/
lemma steady_splitAfterTail (n? : Option NodeId) : Steady (splitAfterTail n?) := by
  unfold splitAfterTail
  exact (steady_targetInDivisible "split" n?).bind fun _ => steady_get.bind fun _ =>
    (steady_stepTree _).bind fun _ => (steady_stepTree _).bind fun _ =>
    (steady_modify _).bind fun _ => (steady_onTree _).bind fun _ => steady_placeAfter ..

/-- To lift a child out of its parent is steady. -/
lemma steady_lift (n? : Option NodeId) : Steady (lift n?) := by
  unfold lift
  refine (steady_targetInDivisible "lift" n?).bind fun _ => steady_get.bind fun _ =>
    (steady_stepTree _).bind fun _ => ?_
  dsimp only
  split
  · exact steady_placeAfter ..
  · exact (steady_stepTree _).bind fun _ => (steady_modify _).bind fun _ =>
      (steady_onTree _).bind fun _ => steady_placeAfter ..

/-- To remove an element is steady. -/
lemma steady_remove (n? : Option NodeId) : Steady (remove n?) := by
  unfold remove
  exact (steady_targetBelowRoot "remove" n?).bind fun _ => (steady_modify _).bind fun _ =>
    (steady_stepTree _).bind fun _ => (steady_modify _).bind fun _ => steady_onTree _

/-- To move the cursor is steady. -/
lemma steady_moveTo (n : NodeId) : Steady (moveTo n) := by
  unfold moveTo
  refine steady_get.bind fun c => ?_
  split
  · exact steady_set _
  · exact steady_violation ..

end Cursor

/-! ### Actions of the adjusting pass -/

namespace Adjust

open Cursor

lemma steady_current : Steady current := by
  unfold current
  refine steady_get.bind fun c => ?_
  split
  · exact steady_pure _
  · refine steady_throw fun steps tag heq => ?_
    cases heq

/-- To remove the current element is steady. -/
lemma steady_removeCurrent : Steady removeCurrent := by
  unfold removeCurrent
  refine steady_current.bind fun _ => steady_get.bind fun _ => (steady_remove none).bind fun _ => ?_
  split
  · exact steady_pure _
  · refine steady_get.bind fun c => ?_
    split
    · exact steady_moveTo _
    · exact steady_pure _

/-- To put text in the place of an element is steady. -/
lemma steady_textualize (n : NodeId) (text : String) : Steady (textualize n text) := by
  unfold textualize
  exact (steady_modify _).bind fun _ => steady_remove (some n)

/-- To flatten a link is steady. -/
lemma steady_flattenLink : Steady flattenLink := by
  unfold flattenLink
  refine steady_current.bind fun n => steady_get.bind fun c => ?_
  dsimp only
  split
  · refine steady_throw fun steps tag heq => ?_
    cases heq
  · exact (steady_onTree _).bind fun _ => steady_modify _

/-- To lift nested markup is steady. -/
lemma steady_liftNested : Steady liftNested := by
  unfold liftNested
  refine steady_current.bind fun n => steady_get.bind fun c => ?_
  dsimp only
  split
  · exact steady_modify _
  · split
    · exact steady_lift _
    · refine steady_throw fun steps tag heq => ?_
      cases heq

/-- To trim the current element is steady. -/
lemma steady_trimCurrent : Steady trimCurrent := by
  unfold trimCurrent
  refine steady_current.bind fun n => (steady_stepTree _).bind fun text? => ?_
  split
  · exact steady_pure _
  · refine (steady_modify _).bind fun _ => (steady_modify _).bind fun _ => ?_
    split
    · exact steady_modify _
    · exact steady_pure _

/-- To absorb a section is steady. -/
lemma steady_absorb : Steady absorb := by
  unfold absorb
  refine steady_current.bind fun n => steady_get.bind fun c => ?_
  dsimp only
  split
  · exact steady_mergeIntoPrevious none
  · exact steady_modify _

/-- A paragraph with a child that has no place in it is refused for that child. -/
lemma division?_ne_noProgress (t : Tree) (n : NodeId) (isLine : Bool) (children : List NodeId)
    (steps : Nat) (tag : String) :
    division? t n isLine children ≠ .error (.noProgress steps tag) := by
  induction children with
  | nil => intro h; cases h
  | cons child children ih =>
    unfold division?
    split
    · intro h; cases h
    · intro h; cases h
    · intro h; cases h
    · split
      · intro h; cases h
      · exact ih
    · exact ih

/-- To divide a paragraph is steady. -/
lemma steady_dividePara : Steady dividePara := by
  unfold dividePara
  refine steady_current.bind fun n => steady_get.bind fun c => ?_
  dsimp only
  split
  · next failure hdivision =>
    refine steady_throw fun steps tag heq => ?_
    exact division?_ne_noProgress _ _ _ _ steps tag (heq ▸ hdivision)
  · exact steady_modify _
  · exact steady_splitBefore _
  · exact steady_splitAfterTail _

end Adjust

end DoxygenRest
