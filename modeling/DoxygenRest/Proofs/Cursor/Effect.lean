import DoxygenRest.Proofs.Cursor.Confinement

/-!
# Edits happen as a whole or not at all

An edit of a cursor takes several steps, each of which the tree may refuse.  If nothing speaks against
the edit at the outset (`Cursor.Impossible`), its target has a place in the cursor's subtree, with as
many frames around it as the edit asks for (`exists_targetAt`), and then all of its steps succeed.
Otherwise the edit is refused before its first step.

So an edit does what is told of it for branches (`Cursor.Edited`), or nothing (`Cursor.Refused`), and
which of the two happens can be told from the cursor before (`effect_of_edit`).
-/

namespace DoxygenRest.Cursor

open Branch

variable {c : Cursor} {o : Operation} {x : Branch} {f : Frame} {fs : List Frame}

/-! ### What speaks against an edit -/

namespace Operation

/-- Operations that change the tree. -/
def isEdit : Operation → Bool
  | mergeIntoPrevious _ | splitBefore _ | splitAfterTail _ | lift _ | remove _ => true
  | _ => false

/-- The element that an edit is given, if any. -/
def given : Operation → Option NodeId
  | mergeIntoPrevious n? | splitBefore n? | splitAfterTail n? | lift n? | remove n? => n?
  | _ => none

/-- Edits that join an element into the one before it. -/
def isJoin : Operation → Bool
  | mergeIntoPrevious _ => true
  | _ => false

/-- Edits that divide the parent of an element. -/
def isDivision : Operation → Bool
  | splitBefore _ | splitAfterTail _ | lift _ => true
  | _ => false

end Operation

/-- What speaks against an edit: there is no target, the target lies outside of the cursor's subtree
or is its root, a target to be joined comes first among its siblings, or a target whose parent is to
be divided is a child of the cursor's root. -/
inductive Impossible (c : Cursor) (o : Operation) : Prop where
  | exhausted (htarget : o.given.or c.current = none)
  | outside {n : NodeId} (htarget : o.given.or c.current = some n) (hne : n ≠ c.root)
      (hout : c.root ∉ c.tree.ancestors n)
  | onRoot (htarget : o.given.or c.current = some c.root)
  | first {n : NodeId} (ho : o.isJoin) (htarget : o.given.or c.current = some n)
      (hfirst : c.tree.previousSibling? n = none)
  | outermost {n : NodeId} (ho : o.isDivision) (htarget : o.given.or c.current = some n)
      (hchild : c.tree.parent? n = some c.root)

/-- A place of an edit's target, with all around it that the edit asks for. -/
structure Possible (c : Cursor) (o : Operation) (f : Frame) (fs : List Frame) (x : Branch) :
    Prop where
  targetAt : c.TargetAt o.given (f :: fs) x
  before_ne : o.isJoin → f.before ≠ []
  frames_ne : o.isDivision → fs ≠ []

/-- Nothing speaks against an edit with a place. -/
lemma Possible.not_impossible (h : c.tree.WellFormed) (hp : c.Possible o f fs x) :
    ¬c.Impossible o := by
  have hplace := hp.targetAt.place
  have hchosen {n : NodeId} (htarget : o.given.or c.current = some n) : n = x.number := by
    rw [hp.targetAt.chosen, Option.some_inj] at htarget
    exact htarget.symm
  have hf := (holds_plug.1 (holds_of_place h hplace)).2.1
  rintro (htarget | @⟨n, htarget, hne, hout⟩ | htarget | @⟨n, ho, htarget, hfirst⟩ |
    @⟨n, ho, htarget, hchild⟩)
  · rw [hp.targetAt.chosen] at htarget
    cases htarget
  · have hin := contains_of_place h hplace
    rw [← hchosen htarget, contains, Bool.or_eq_true, beq_iff_eq, Tree.isAncestorOf_iff] at hin
    exact hin.elim hne hout
  · exact ne_root_of_place h hplace (hchosen htarget).symm
  · rw [hchosen htarget, f.previousSibling?_eq h hf, Option.map_eq_none_iff,
      List.head?_eq_none_iff] at hfirst
    exact hp.before_ne ho hfirst
  · rw [hchosen htarget, parent?_of_place h hplace, Option.some_inj] at hchild
    obtain ⟨g, gs, rfl⟩ := List.exists_cons_of_ne_nil (hp.frames_ne ho)
    exact ne_root_of_place h (x := f.fill x) hplace hchild

/-- If nothing speaks against an edit, its target has a place. -/
lemma exists_possible (h : c.tree.WellFormed) (ho : ¬c.Impossible o) :
    ∃ f fs x, c.Possible o f fs x := by
  -- Each cause of a refusal is ruled out in the order in which the edits look for it.
  cases htarget : o.given.or c.current with
  | none => exact absurd (.exhausted htarget) ho
  | some n =>
    have hroot : n ≠ c.root := by
      rintro rfl
      exact ho (.onRoot htarget)
    have hin : c.contains n = true := by
      rw [contains, Bool.or_eq_true, beq_iff_eq, Tree.isAncestorOf_iff]
      by_contra hout
      rw [not_or] at hout
      exact ho (.outside htarget hout.1 hout.2)
    obtain ⟨f, fs, x, hplace, rfl⟩ := IsTarget.exists_place h ⟨htarget, hin⟩ hroot
    refine ⟨f, fs, x, ⟨htarget, hplace⟩, ?_, ?_⟩
    · intro hjoin hbefore
      apply ho
      apply Impossible.first hjoin htarget
      rw [f.previousSibling?_eq h (holds_plug.1 (holds_of_place h hplace)).2.1, hbefore,
        List.head?_nil, Option.map_none]
    · rintro hdivision rfl
      apply ho
      apply Impossible.outermost hdivision htarget
      have hnumber : f.number = c.root := by
        rw [← f.number_fill x, ← plug_nil (f.fill x), ← plug_cons, ← hplace, branch,
          Tree.number_branch]
      rw [parent?_of_place h hplace, hnumber]

/-! ### What an edit does -/

/-- What an edit does: its target has a place in the cursor's subtree, and something else stands at
the place afterwards.  Edits other than merges and removals leave the cursor where it stands. -/
inductive Edited (c : Cursor) : Operation → Cursor → Prop where
  | merged {n? : Option NodeId} {f : Frame} {fs : List Frame} {x prev : Branch}
      {rest : List Branch} {u : Tree} {current : Option NodeId}
      (htarget : c.TargetAt n? (f :: fs) x) (hbefore : f.before = prev :: rest)
      (hu : Tree.Replaced c.tree u c.root
        (plug fs ({ f with before := prev.absorb x :: rest }.fillRow []))) :
      Edited c (.mergeIntoPrevious n?) { c with tree := u, current }
  | dividedBefore {n? : Option NodeId} {p g : Frame} {fs : List Frame} {x : Branch} {u : Tree}
      (htarget : c.TargetAt n? (p :: g :: fs) x)
      (hu : Tree.Replaced c.tree u c.root (plug fs (g.fillRow (p.splitBefore c.tree.size x)))) :
      Edited c (.splitBefore n?) { c with tree := u }
  | dividedBehind {n? : Option NodeId} {p g : Frame} {fs : List Frame} {x : Branch} {u : Tree}
      (htarget : c.TargetAt n? (p :: g :: fs) x)
      (hu : Tree.Replaced c.tree u c.root (plug fs (g.fillRow (p.splitAfterTail c.tree.size x)))) :
      Edited c (.splitAfterTail n?) { c with tree := u }
  | lifted {n? : Option NodeId} {p g : Frame} {fs : List Frame} {x : Branch} {u : Tree}
      (htarget : c.TargetAt n? (p :: g :: fs) x)
      (hu : Tree.Replaced c.tree u c.root (plug fs (g.fillRow (p.lift c.tree.size x)))) :
      Edited c (.lift n?) { c with tree := u }
  | removed {n? : Option NodeId} {f : Frame} {fs : List Frame} {x : Branch} {u : Tree}
      {current : Option NodeId} (htarget : c.TargetAt n? (f :: fs) x)
      (hu : Tree.Replaced c.tree u c.root (plug fs ((f.extendBefore x.tail).fillRow []))) :
      Edited c (.remove n?) { c with tree := u, current }

/-- An edit whose target has a place succeeds. -/
theorem Possible.exists_edited (h : c.tree.WellFormed) (hp : c.Possible o f fs x)
    (ho : o.isEdit) : ∃ c', o.run c = .ok () c' ∧ c.Edited o c' := by
  have htarget := hp.targetAt
  cases o with
  | mergeIntoPrevious n? =>
    obtain ⟨prev, rest, hbefore⟩ := List.exists_cons_of_ne_nil (hp.before_ne rfl)
    obtain ⟨u, hrun, hu⟩ := mergeIntoPrevious_ok h htarget.place hbefore htarget.chosen
    exact ⟨_, hrun, .merged htarget hbefore hu⟩
  | splitBefore n? =>
    obtain ⟨g, gs, rfl⟩ := List.exists_cons_of_ne_nil (hp.frames_ne rfl)
    obtain ⟨u, hrun, hu⟩ := splitBefore_ok h htarget.place htarget.chosen
    exact ⟨_, hrun, .dividedBefore htarget hu⟩
  | splitAfterTail n? =>
    obtain ⟨g, gs, rfl⟩ := List.exists_cons_of_ne_nil (hp.frames_ne rfl)
    obtain ⟨u, hrun, hu⟩ := splitAfterTail_ok h htarget.place htarget.chosen
    exact ⟨_, hrun, .dividedBehind htarget hu⟩
  | lift n? =>
    obtain ⟨g, gs, rfl⟩ := List.exists_cons_of_ne_nil (hp.frames_ne rfl)
    obtain ⟨u, hrun, hu⟩ := lift_ok h htarget.place htarget.chosen
    exact ⟨_, hrun, .lifted htarget hu⟩
  | remove n? =>
    obtain ⟨u, hrun, hu⟩ := remove_ok h htarget.place htarget.chosen
    exact ⟨_, hrun, .removed htarget hu⟩
  | _ => cases ho

/-- An edit without a place for its target is refused. -/
lemma refused_of_impossible (h : c.tree.WellFormed) (hi : c.Impossible o) (ho : o.isEdit) :
    c.Refused (o.run c) := by
  have hnone {f : Frame} {fs : List Frame} {x : Branch} : ¬c.Possible o f fs x :=
    fun hp => hp.not_impossible h hi
  -- Each edit finds its frames or is refused; with the frames it would be possible.
  cases o with
  | mergeIntoPrevious n? =>
    rcases mergeIntoPrevious_cases h n? with ⟨f, fs, x, prev, rest, htarget, hbefore⟩ | hrefused
    · refine absurd ⟨htarget, ?_, ?_⟩ hnone
      · simp [hbefore]
      · simp [Operation.isDivision]
    · exact hrefused
  | splitBefore n? =>
    rcases splitBefore_cases h n? with ⟨p, g, fs, x, htarget⟩ | hrefused
    · exact absurd ⟨htarget, by simp [Operation.isJoin], by simp⟩ hnone
    · exact hrefused
  | splitAfterTail n? =>
    rcases splitAfterTail_cases h n? with ⟨p, g, fs, x, htarget⟩ | hrefused
    · exact absurd ⟨htarget, by simp [Operation.isJoin], by simp⟩ hnone
    · exact hrefused
  | lift n? =>
    rcases lift_cases h n? with ⟨p, g, fs, x, htarget⟩ | hrefused
    · exact absurd ⟨htarget, by simp [Operation.isJoin], by simp⟩ hnone
    · exact hrefused
  | remove n? =>
    rcases remove_cases h n? with ⟨f, fs, x, htarget⟩ | hrefused
    · refine absurd ⟨htarget, ?_, ?_⟩ hnone
      · simp [Operation.isJoin]
      · simp [Operation.isDivision]
    · exact hrefused
  | _ => cases ho

/-- An edit happens as a whole if nothing speaks against it, and is refused otherwise. -/
theorem effect_of_edit (h : c.tree.WellFormed) (ho : o.isEdit) :
    (¬c.Impossible o ∧ ∃ c', o.run c = .ok () c' ∧ c.Edited o c') ∨
      c.Impossible o ∧ c.Refused (o.run c) := by
  by_cases hi : c.Impossible o
  · exact Or.inr ⟨hi, refused_of_impossible h hi ho⟩
  · obtain ⟨f, fs, x, hp⟩ := exists_possible h hi
    exact Or.inl ⟨hi, hp.exists_edited h ho⟩

/-- A successful edit does what is told of it. -/
lemma edited_of_ok {c' : Cursor} (h : c.tree.WellFormed) (ho : o.isEdit)
    (hrun : o.run c = .ok () c') : c.Edited o c' := by
  rcases effect_of_edit h ho with ⟨-, c₁, hrun₁, hc₁⟩ | ⟨-, operation, tag, reason, hrefused⟩
  · rw [hrun, EStateM.Result.ok.injEq] at hrun₁
    rwa [hrun₁.2]
  · rw [hrun] at hrefused
    cases hrefused

/-- An edit fails exactly if something speaks against it, namely that there is no target, that the
target lies outside of the cursor's subtree, is its root, has no sibling before it to be joined into,
or is a child of the root and its parent would have to be divided.  A failure is a misuse of the
cursor, never a refusal of the tree, and the cursor and its tree are as before. -/
theorem fails_iff_impossible (h : c.tree.WellFormed) (ho : o.isEdit) :
    ((∃ failure c', o.run c = .error failure c') ↔ c.Impossible o) ∧
      ∀ failure c', o.run c = .error failure c' →
        (∃ operation tag reason, failure = .misuse operation tag reason) ∧ c' = c := by
  rcases effect_of_edit h ho with ⟨hi, c₁, hrun, -⟩ | ⟨hi, operation, tag, reason, hrun⟩
  · constructor
    · constructor
      · rintro ⟨failure, c', hfail⟩
        rw [hrun] at hfail
        cases hfail
      · exact fun hi' => absurd hi' hi
    · intro failure c' hfail
      rw [hrun] at hfail
      cases hfail
  · constructor
    · exact ⟨fun _ => hi, fun _ => ⟨_, _, hrun⟩⟩
    · intro failure c' hfail
      rw [hrun] at hfail
      cases hfail
      exact ⟨⟨operation, tag, reason, rfl⟩, rfl⟩

/-- A child of the cursor's root cannot be lifted. -/
theorem fails_iff_impossible_specimen :
    Tree.specimen.WellFormed ∧ Operation.isEdit (.lift (some 2)) = true ∧
      (∃ failure c', Operation.run (.lift (some 2)) (start Tree.specimen 1) = .error failure c') ∧
      ∀ failure c', Operation.run (.lift (some 2)) (start Tree.specimen 1) = .error failure c' →
        (∃ operation tag reason, failure = .misuse operation tag reason) ∧
          c' = start Tree.specimen 1 := by
  have hchild : Impossible (start Tree.specimen 1) (.lift (some 2)) :=
    .outermost rfl rfl (by decide)
  obtain ⟨hfails, hunchanged⟩ :=
    fails_iff_impossible (c := start Tree.specimen 1) (o := .lift (some 2)) Tree.wellFormed_specimen rfl
  exact ⟨Tree.wellFormed_specimen, rfl, hfails.2 hchild, hunchanged⟩

end DoxygenRest.Cursor
