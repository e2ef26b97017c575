import DoxygenRest.Proofs.Adjust.Step
import DoxygenRest.Proofs.Adjust.Surroundings

/-!
# What handling an element leads to

`Step` says what a step of the pass may lead to.  `move` says what it does lead to: the next
outcome, or the failure that the pass ends with.  Besides the walk itself this depends on little: on
the context of its root, on the sibling right before the root (`Surroundings`), and on the number
that a new element gets.

Every outcome of `move` is one of a `Step` (`step_of_move`), and below the root of the walk the only
failure is that an element has no place where it stands (`unexpected_of_move_below`).  At the root
the pass may also ask for edits that must not work there; and the text that it then writes right
before the root leaves the walk (`spill`).
-/

namespace DoxygenRest.Adjust

open Branch

/-! ### Where a paragraph is divided -/

/-- A place where a paragraph is to be divided: at a child, with the paragraph around it. -/
inductive Cut where
  | before (f : Frame) (y : Branch)
  /-- Behind the child, in front of its tail. -/
  | behind (f : Frame) (y : Branch)

namespace Cut

/-- The child at which the paragraph is to be divided. -/
def child : Cut → Branch
  | before _ y => y
  | behind _ y => y

/-- The cut as it is found in a tree. -/
def division : Cut → Division
  | before _ y => .before y.number
  | behind _ y => .behind y.number

/-- The parts that the paragraph is divided into. -/
def parts (fresh : NodeId) : Cut → List Branch
  | before f y => f.splitBefore fresh y
  | behind f y => f.splitAfterTail fresh y

end Cut

/-- Whether a paragraph begins as a line of inline markup rather than as a row of blocks. -/
def beginsLine (x : Branch) : Bool :=
  x.text != "" || x.children.head?.all fun y => y.markup != .structural

/-- The first change of content behind the children `before` of a paragraph, which stand nearest
first. -/
def cutBehind? (isLine : Bool) (n : NodeId) (e : Entry) (before : List Branch) :
    List Branch → Except PassError (Option Cut)
  | [] => .ok none
  | y :: ys =>
    match y.markup, isLine with
    | .other, _ => .error (.unexpected y.own.tag e.tag)
    | .structural, true => .ok (some (.before ⟨n, e, before, ys⟩ y))
    | .inline, false => .ok (some (.before ⟨n, e, before, ys⟩ y))
    | .structural, false =>
      if y.tail ≠ "" then .ok (some (.behind ⟨n, e, before, ys⟩ y))
      else cutBehind? isLine n e (y :: before) ys
    | .inline, true => cutBehind? isLine n e (y :: before) ys

/-- The first change of content in a paragraph. -/
def cut? (x : Branch) : Except PassError (Option Cut) :=
  cutBehind? (beginsLine x) x.number x.own [] x.children

section Cut

variable {isLine : Bool} {n : NodeId} {e : Entry} {before ys : List Branch} {x : Branch}

/-- There is no change of content in a row of inline markup, or in a row of blocks. -/
lemma cutBehind?_eq_none :
    cutBehind? isLine n e before ys = .ok none ↔
      ∀ y ∈ ys, if isLine then y.markup = .inline else y.markup = .structural ∧ y.tail = "" := by
  induction ys generalizing before with
  | nil => simp [cutBehind?]
  | cons y ys ih =>
    unfold cutBehind?
    rw [List.forall_mem_cons, ← @ih (y :: before)]
    cases y.markup <;> cases isLine <;> by_cases htail : y.tail = "" <;> simp [htail]

/-- A change of content is found in front of a child that is a block where there was a line, or the
other way round, or behind a block with a tail. -/
lemma exists_of_cutBehind? {cut : Cut} (h : cutBehind? isLine n e before ys = .ok (some cut)) :
    ∃ as y zs, ys = as ++ y :: zs ∧
      (cut = .before ⟨n, e, as.reverse ++ before, zs⟩ y ∧ (y.markup = .structural ↔ isLine = true) ∨
        cut = .behind ⟨n, e, as.reverse ++ before, zs⟩ y ∧ y.tail ≠ "") := by
  induction ys generalizing before with
  | nil => cases h
  | cons y ys ih =>
    have hlater (h : cutBehind? isLine n e (y :: before) ys = .ok (some cut)) :
        ∃ as z zs, y :: ys = as ++ z :: zs ∧
          (cut = .before ⟨n, e, as.reverse ++ before, zs⟩ z ∧
              (z.markup = .structural ↔ isLine = true) ∨
            cut = .behind ⟨n, e, as.reverse ++ before, zs⟩ z ∧ z.tail ≠ "") := by
      obtain ⟨as, z, zs, rfl, hcut⟩ := ih h
      refine ⟨y :: as, z, zs, rfl, ?_⟩
      rw [List.reverse_cons, List.append_assoc]
      exact hcut
    unfold cutBehind? at h
    split at h
    · cases h
    · next hmarkup =>
      cases h
      exact ⟨[], y, ys, rfl, Or.inl ⟨rfl, by simp [hmarkup]⟩⟩
    · next hmarkup =>
      cases h
      exact ⟨[], y, ys, rfl, Or.inl ⟨rfl, by simp [hmarkup]⟩⟩
    · split at h
      · next htail =>
        cases h
        exact ⟨[], y, ys, rfl, Or.inr ⟨rfl, htail⟩⟩
      · exact hlater h
    · exact hlater h

/-- Where a paragraph cannot be divided, a child has no place in it. -/
lemma unexpected_of_cutBehind? {failure : PassError}
    (h : cutBehind? isLine n e before ys = .error failure) :
    ∃ tag owner, failure = .unexpected tag owner := by
  induction ys generalizing before with
  | nil => cases h
  | cons y ys ih =>
    unfold cutBehind? at h
    split at h
    · cases h
      exact ⟨_, _, rfl⟩
    · cases h
    · cases h
    · split at h
      · cases h
      · exact ih h
    · exact ih h

/-- A paragraph without a change of content is a line of inline markup or a row of blocks. -/
theorem cut?_eq_none_iff : cut? x = .ok none ↔ IsUndivided x.text x.children := by
  rw [cut?, cutBehind?_eq_none, IsUndivided]
  constructor
  · intro h
    by_cases hline : beginsLine x = true
    · simp only [hline, if_true] at h
      exact Or.inl h
    · have htext : x.text = "" := by
        by_contra hne
        exact hline (by simp [beginsLine, hne])
      simp only [hline] at h
      exact Or.inr ⟨htext, h⟩
  · -- The first child tells whether this is a line or a row of blocks.
    rintro (h | ⟨htext, h⟩) y hy
    · have hline : beginsLine x = true := by
        cases hchildren : x.children with
        | nil => simp [beginsLine, hchildren]
        | cons z zs => simp [beginsLine, hchildren, h z (by simp [hchildren])]
      rw [if_pos hline]
      exact h y hy
    · have hline : ¬beginsLine x = true := by
        obtain ⟨z, zs, hz⟩ := List.exists_cons_of_ne_nil (List.ne_nil_of_mem hy)
        simp [beginsLine, htext, hz, (h z (by simp [hz])).1]
      rw [if_neg hline]
      exact h y hy

/-- A paragraph is divided behind something. -/
theorem exists_of_cut?_eq_some {cut : Cut} (h : cut? x = .ok (some cut)) :
    ∃ ys y zs, x.children = ys ++ y :: zs ∧
      (cut = .before ⟨x.number, x.own, ys.reverse, zs⟩ y ∧ (x.text ≠ "" ∨ ys ≠ []) ∨
        cut = .behind ⟨x.number, x.own, ys.reverse, zs⟩ y ∧ y.tail ≠ "") := by
  obtain ⟨ys, y, zs, hchildren, hcut⟩ := exists_of_cutBehind? h
  rw [List.append_nil] at hcut
  refine ⟨ys, y, zs, hchildren, hcut.imp_left fun ⟨heq, hy⟩ => ⟨heq, ?_⟩⟩
  by_contra hfront
  rw [not_or, not_not, not_not] at hfront
  obtain ⟨htext, rfl⟩ := hfront
  simp [beginsLine, htext, hchildren] at hy

end Cut

/-! ### Moves -/

/-- The own data of the sibling right before a place. -/
def Surroundings.previousAt (s : Surroundings) : List Frame → Option Entry
  | [] => s.previous?
  | f :: _ => f.before.head?.map own

/-- The treatment of the current element. -/
def Surroundings.treatmentAt (s : Surroundings) (l : Location) : Treatment :=
  treatment (contextAt s.outer l.frames) (s.previousAt l.frames) l.focus

instance decidableMergeable (k : Context) (e e' : Entry) : Decidable (Mergeable k e e') :=
  inferInstanceAs (Decidable (_ ∧ _ ∧ _))

/-- The failure of an edit that must not work on the root of the walk. -/
def refusalOfRoot (operation : String) (x : Branch) : PassError :=
  .misuse operation x.own.tag "it is the cursor's root"

/-- The failure of an edit of the child `y` of the root of the walk that would divide the root. -/
def refusalInRoot (operation : String) (y : Branch) : PassError :=
  .misuse operation y.own.tag "it is a direct child of the cursor's root"

/-- Put a row of branches in a place, and go to the first of them. -/
def standOn (f : Frame) (fs : List Frame) : List Branch → Outcome
  | [] => skip f fs
  | y :: rest => .standing ⟨y, { f with after := rest ++ f.after } :: fs⟩

/-- Put text before a place.  What is put before the root of the walk leaves the walk. -/
def extendPlace (text : String) : List Frame → List Frame
  | [] => []
  | f :: fs => f.extendBefore text :: fs

/-- Join a branch into the one before it, and go to its first child, or behind both. -/
def joinInto (prev x : Branch) (fs : List Frame) : Outcome :=
  match x.children with
  | [] => leave (prev.absorb x) fs
  | y :: ys => .standing ⟨y, ⟨prev.number, (prev.absorb x).own,
      (((prev.withTail none).appendContent prev.tail).appendContent x.text).children.reverse,
      ys⟩ :: fs⟩

/-- A link whose content has become text. -/
def flattened (x : Branch) : Branch :=
  node x.number { x.own with text := some x.stringValue } []

section Moves

variable (s : Surroundings) (fresh : NodeId) (x : Branch)

/-- Text takes the place of the element, and its tail follows. -/
def moveReplace (text : String) : List Frame → Except PassError Outcome
  | [] => .error (refusalOfRoot "remove" x)
  | f :: fs => .ok (skip ((f.extendBefore text).extendBefore x.tail) fs)

/-- The element is removed.  If its parent has become empty, the parent comes next, but for the root
of the walk. -/
def moveRemove : List Frame → Except PassError Outcome
  | [] => .error (refusalOfRoot "remove" x)
  | f :: fs =>
    let left := (f.extendBefore x.tail).fillRow []
    if fs ≠ [] ∧ left.isEmpty = true then .ok (.standing ⟨left, fs⟩)
    else .ok (skip (f.extendBefore x.tail) fs)

/-- The content of a link becomes text, if all of it is inline markup. -/
def moveFlatten (fs : List Frame) : Except PassError Outcome :=
  match x.children.find? fun y => y.markup != .inline with
  | some block => .error (.unexpected block.own.tag x.own.tag)
  | none => .ok (.standing ⟨flattened x, fs⟩)

/-- The first child is lifted out of the element, if it is inline markup. -/
def moveLift (fs : List Frame) : Except PassError Outcome :=
  match x.children with
  | [] => .ok (enter x fs)
  | y :: ys =>
    if y.markup = .inline then
      match fs with
      | [] => .error (refusalInRoot "lift" y)
      | f :: fs => .ok (standOn f fs (Frame.lift ⟨x.number, x.own, [], ys⟩ fresh y))
    else .error (.unexpected y.own.tag x.own.tag)

/-- White space leaves the text of the element. -/
def moveTrim (fs : List Frame) : Except PassError Outcome :=
  match x.own.text with
  | none => .ok (.standing ⟨x, fs⟩)
  | some text => .ok (.standing ⟨trimmed x text, extendPlace (Text.splitBlanks text).1 fs⟩)

/-- The element joins the sibling before it, if the two could be one. -/
def moveAbsorb : List Frame → Except PassError Outcome
  | [] =>
    if s.previous?.any fun e => decide (Mergeable s.outer e x.own) then
      .error (refusalOfRoot "merge" x)
    else .ok (enter x [])
  | f :: fs =>
    match f.before with
    | [] => .ok (enter x (f :: fs))
    | prev :: rest =>
      if Mergeable (contextAt s.outer (f :: fs)) prev.own x.own then
        .ok (joinInto prev x ({ f with before := rest } :: fs))
      else .ok (enter x (f :: fs))

/-- The paragraph is divided at the first change of content. -/
def moveDivide (fs : List Frame) : Except PassError Outcome :=
  match cut? x with
  | .error failure => .error failure
  | .ok none => .ok (enter x fs)
  | .ok (some cut) =>
    match fs with
    | [] => .error (refusalInRoot "split" cut.child)
    | f :: fs => .ok (standOn f fs (cut.parts fresh))

end Moves

/-- What handling the current element leads to, where a new element gets the number `fresh`. -/
def move (s : Surroundings) (fresh : NodeId) (l : Location) : Except PassError Outcome :=
  match s.treatmentAt l with
  | .replace text => moveReplace l.focus text l.frames
  | .remove => moveRemove l.focus l.frames
  | .flatten => moveFlatten l.focus l.frames
  | .lift => moveLift fresh l.focus l.frames
  | .trim => moveTrim l.focus l.frames
  | .absorb => moveAbsorb s l.focus l.frames
  | .divide => moveDivide fresh l.focus l.frames
  | .advance => .ok (enter l.focus l.frames)

/-- The text that handling the current element writes right before the root of the walk. -/
def spill (s : Surroundings) : Location → String
  | ⟨_, _ :: _⟩ => ""
  | ⟨x, []⟩ =>
    match s.treatmentAt ⟨x, []⟩ with
    | .replace text => text
    | .trim => (Text.splitBlanks x.text).1
    | _ => ""

/-! ### Moves are steps -/

/-- Without a sibling before it, a section is not absorbed; nothing else changes. -/
lemma treatment_none (k : Context) (previous? : Option Entry) (x : Branch) :
    treatment k none x = treatment k previous? x ∨
      treatment k previous? x = .absorb ∧ treatment k none x = .advance := by
  by_cases htag : x.own.tag = "simplesect"
  · have hinline : "simplesect" ∉ Schema.inlineTags := by decide
    have hpresentation : "simplesect" ∉ Schema.presentationTags := by decide
    by_cases hempty : x.isEmpty = true
    · exact Or.inl (by simp [treatment, htag, hinline, hpresentation, hempty])
    · by_cases hprevious : previous?.any (·.tag == "simplesect") = true
      · exact Or.inr (by simp [treatment, htag, hinline, hpresentation, hempty, hprevious])
      · exact Or.inl (by simp [treatment, htag, hinline, hpresentation, hempty, hprevious])
  · exact Or.inl (by simp [treatment, htag])

variable {s : Surroundings} {fresh : NodeId} {x : Branch} {f : Frame} {fs : List Frame}
variable {l : Location} {o : Outcome} {failure : PassError} {τ : Treatment}

/-- What stands before the root of the walk only matters where the root is absorbed. -/
lemma treatmentAt_outer_of_ne_absorb (hτ : s.treatmentAt l = τ) (hne : τ ≠ .absorb) :
    treatmentAt s.outer l = τ := by
  subst hτ
  obtain ⟨x, fs⟩ := l
  cases fs with
  | cons f fs => rfl
  | nil =>
    rcases treatment_none s.outer s.previous? x with heq | ⟨habsorb, -⟩
    · exact heq
    · exact absurd habsorb hne

/-- The root of the walk has no sibling in it to be absorbed by. -/
lemma treatmentAt_outer_of_absorb (h : s.treatmentAt ⟨x, []⟩ = .absorb) :
    treatmentAt s.outer ⟨x, []⟩ = .advance := by
  rcases treatment_none s.outer s.previous? x with heq | ⟨-, hadvance⟩
  · cases groundsAt (l := ⟨x, []⟩) (heq.trans h) with
    | laterSection htag hempty hprevious => simp [previousOwn?] at hprevious
  · exact hadvance

/-- What is left of an element stays in its place where a child is lifted out of it. -/
lemma exists_lift_eq_cons (f : Frame) (fresh : NodeId) (y : Branch) :
    ∃ rest, f.lift fresh y = f.front [] :: rest := by
  unfold Frame.lift
  split
  · exact ⟨_, rfl⟩
  · exact ⟨_, rfl⟩

section Steps

variable (hτ : s.treatmentAt ⟨x, fs⟩ = τ)

include hτ

/-- A replacement that succeeds is a step. -/
lemma step_of_moveReplace {text : String} (h : moveReplace x text fs = .ok o)
    (heq : τ = .replace text) : Step s.outer fresh ⟨x, fs⟩ o := by
  subst heq
  have hτ' := treatmentAt_outer_of_ne_absorb hτ (by simp)
  cases fs with
  | nil => cases h
  | cons f fs =>
    cases h
    exact .replace hτ'

/-- A removal that succeeds is a step. -/
lemma step_of_moveRemove (h : moveRemove x fs = .ok o) (heq : τ = .remove) :
    Step s.outer fresh ⟨x, fs⟩ o := by
  subst heq
  have hτ' := treatmentAt_outer_of_ne_absorb hτ (by simp)
  cases fs with
  | nil => cases h
  | cons f fs =>
    simp only [moveRemove] at h
    split at h
    · next hlast =>
      cases h
      exact .removeLast hτ' hlast.1 hlast.2
    · next hmore =>
      cases h
      refine .remove hτ' ?_
      by_cases hfs : fs = []
      · exact Or.inl hfs
      · exact Or.inr (by simpa [hfs] using hmore)

/-- Flattening a link is a step, if it succeeds. -/
lemma step_of_moveFlatten (h : moveFlatten x fs = .ok o) (heq : τ = .flatten) :
    Step s.outer fresh ⟨x, fs⟩ o := by
  subst heq
  have hτ' := treatmentAt_outer_of_ne_absorb hτ (by simp)
  unfold moveFlatten at h
  split at h
  · cases h
  · cases h
    exact .flatten hτ'

/-- Lifting a child is a step, if it succeeds. -/
lemma step_of_moveLift (h : moveLift fresh x fs = .ok o) (heq : τ = .lift) :
    Step s.outer fresh ⟨x, fs⟩ o := by
  subst heq
  have hτ' := treatmentAt_outer_of_ne_absorb hτ (by simp)
  unfold moveLift at h
  split at h
  · cases groundsAt hτ'
    contradiction
  · next y ys hchildren =>
    split at h
    · next hinline =>
      cases fs with
      | nil => cases h
      | cons f fs =>
        cases h
        obtain ⟨rest, hrow⟩ := exists_lift_eq_cons ⟨x.number, x.own, [], ys⟩ fresh y
        rw [hrow]
        exact .lift hτ' hchildren hinline hrow
    · cases h

/-- Trimming is a step, if it succeeds. -/
lemma step_of_moveTrim (h : moveTrim x fs = .ok o) (heq : τ = .trim) :
    Step s.outer fresh ⟨x, fs⟩ o := by
  subst heq
  have hτ' := treatmentAt_outer_of_ne_absorb hτ (by simp)
  obtain ⟨text, htext⟩ := exists_text_of_trim hτ'
  simp only [moveTrim, htext] at h
  cases h
  cases fs with
  | nil => exact .trimRoot hτ' htext
  | cons f fs => exact .trim hτ' htext

/-- Merging a section into the one before it is a step, if it succeeds. -/
lemma step_of_moveAbsorb (h : moveAbsorb s x fs = .ok o) (heq : τ = .absorb) :
    Step s.outer fresh ⟨x, fs⟩ o := by
  subst heq
  cases fs with
  | nil =>
    simp only [moveAbsorb] at h
    split at h
    · cases h
    · cases h
      exact .advance (treatmentAt_outer_of_absorb hτ)
  | cons f fs =>
    have hτ' : treatmentAt s.outer ⟨x, f :: fs⟩ = .absorb := hτ
    simp only [moveAbsorb] at h
    split at h
    · next hbefore =>
      cases groundsAt hτ' with
      | laterSection htag hempty hprevious => simp [previousOwn?, hbefore] at hprevious
    · next prev rest hbefore =>
      split at h
      · next hmergeable =>
        unfold joinInto at h
        split at h
        · next hchildren =>
          cases h
          exact .absorbLeaf hτ' hbefore hmergeable hchildren
        · next y ys hchildren =>
          cases h
          exact .absorb hτ' hbefore hmergeable hchildren
      · next hdiffer =>
        cases h
        exact .keep hτ' hbefore hdiffer

/-- Dividing a paragraph is a step, if it succeeds. -/
lemma step_of_moveDivide (h : moveDivide fresh x fs = .ok o) (heq : τ = .divide) :
    Step s.outer fresh ⟨x, fs⟩ o := by
  subst heq
  have hτ' := treatmentAt_outer_of_ne_absorb hτ (by simp)
  unfold moveDivide at h
  split at h
  · cases h
  · next hcut =>
    cases h
    exact .undivided hτ' (cut?_eq_none_iff.1 hcut)
  · next cut hcut =>
    cases fs with
    | nil => cases h
    | cons f fs =>
      cases h
      obtain ⟨ys, y, zs, hchildren, hcases⟩ := exists_of_cut?_eq_some hcut
      rcases hcases with ⟨rfl, hfront⟩ | ⟨rfl, htail⟩
      · exact .divideBefore hτ' hchildren hfront rfl
      · exact .divideBehind hτ' hchildren htail rfl

end Steps

/-- Every outcome of a move is one of a step. -/
theorem step_of_move (h : move s fresh l = .ok o) : Step s.outer fresh l o := by
  rw [move] at h
  split at h
  · next text hτ => exact step_of_moveReplace hτ h rfl
  · next hτ => exact step_of_moveRemove hτ h rfl
  · next hτ => exact step_of_moveFlatten hτ h rfl
  · next hτ => exact step_of_moveLift hτ h rfl
  · next hτ => exact step_of_moveTrim hτ h rfl
  · next hτ => exact step_of_moveAbsorb hτ h rfl
  · next hτ => exact step_of_moveDivide hτ h rfl
  · next hτ =>
    have hτ' := treatmentAt_outer_of_ne_absorb hτ (by simp)
    cases h
    exact .advance hτ'

/-- Below the root of the walk, the only failure is that an element has no place where it stands. -/
theorem unexpected_of_move_below (h : move s fresh ⟨x, f :: fs⟩ = .error failure) :
    ∃ tag owner, failure = .unexpected tag owner := by
  rw [move] at h
  -- Below the root an element can be removed, so only markup in the wrong place makes a move fail.
  split at h
  · cases h
  · simp only [moveRemove] at h
    split at h
    · cases h
    · cases h
  · simp only [moveFlatten] at h
    split at h
    · cases h
      exact ⟨_, _, rfl⟩
    · cases h
  · simp only [moveLift] at h
    split at h
    · cases h
    · split at h
      · cases h
      · cases h
        exact ⟨_, _, rfl⟩
  · simp only [moveTrim] at h
    split at h
    · cases h
    · cases h
  · simp only [moveAbsorb] at h
    split at h
    · cases h
    · split at h
      · cases h
      · cases h
  · simp only [moveDivide] at h
    split at h
    · next hcut =>
      cases h
      exact unexpected_of_cutBehind? hcut
    · cases h
    · cases h
  · cases h

end DoxygenRest.Adjust
