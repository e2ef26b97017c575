import DoxygenRest.Proofs.Adjust.Clearance
import DoxygenRest.Proofs.Adjust.Run
import DoxygenRest.Proofs.Cursor.Steady

/-!
# How the pass ends

Whatever document the pass is given, it ends in one of three ways: the document is adjusted, the
document is refused for an element that has no place where it stands, or the pass is given up for
the number of its steps (`adjust_ends`).  It never asks its cursor for an edit that is impossible
there, and the tree never refuses an edit of the pass.

The rules carry guards that are written as queries.  Making the rules from their texts
(`Rule.made`) does not fail either, and it makes the rules of the pass.
-/

namespace DoxygenRest

/-! ### Making rules -/

/-- A guard as it is made: a query is read from its text. -/
def Guard.made : Guard → Except PassError Guard
  | predicate test => .ok (predicate test)
  | query q => ofQuery q.source

/-- A predicate can always be made. -/
lemma Guard.made_predicate (test : Tree → NodeId → Bool) :
    (predicate test).made = .ok (predicate test) := rfl

/-- A query that its text is read as is made from it. -/
lemma Guard.made_query {q : Query} (hq : Query.parse q.source = .ok q) :
    (query q).made = .ok (query q) := by
  rw [made]
  unfold ofQuery
  rw [hq]

namespace Rule

variable {α : Type}

/-- A rule as it is made, with its guards. -/
def made (r : Rule α) : Except PassError (Rule α) := do
  let requires ← r.requires.mapM Guard.made
  let excludes ← r.excludes.mapM Guard.made
  pure { r with requires, excludes }

/-- A list of rules as it is made: once all of the rules are made, they are added one by one. -/
def madeAll (rules : List (Rule α)) : Except PassError (List (Rule α)) := do
  let rules ← rules.mapM made
  rules.foldlM (fun done r => addTo done r .last) []

/-- A rule is made without a failure if its guards are. -/
lemma made_eq_ok {r : Rule α} (hrequires : ∀ guard ∈ r.requires, guard.made = .ok guard)
    (hexcludes : ∀ guard ∈ r.excludes, guard.made = .ok guard) : r.made = .ok r := by
  have hmapM {guard? : Option Guard} (h : ∀ guard ∈ guard?, guard.made = .ok guard) :
      guard?.mapM Guard.made = .ok guard? := by
    cases guard? with
    | none => rfl
    | some guard =>
      rw [Option.mapM_some, h guard rfl]
      rfl
  rw [made, hmapM hrequires, hmapM hexcludes]
  rfl

/-- Adding rules at the end, one by one, never fails. -/
lemma foldlM_addTo_last (done rules : List (Rule α)) :
    rules.foldlM (fun done r => addTo done r .last) done = .ok (done ++ rules) := by
  induction rules generalizing done with
  | nil => rw [List.append_nil]; rfl
  | cons r rules ih =>
    rw [List.append_cons]
    exact ih (done ++ [r])

/-- Rules that are each made without a failure make up their list. -/
lemma madeAll_eq_ok {rules : List (Rule α)} (h : ∀ r ∈ rules, r.made = .ok r) :
    madeAll rules = .ok rules := by
  have hrules : rules.mapM made = .ok rules := by
    induction rules with
    | nil => rfl
    | cons r rules ih =>
      rw [List.forall_mem_cons] at h
      rw [List.mapM_cons, h.1, ih h.2]
      rfl
  rw [madeAll, hrules]
  exact foldlM_addTo_last [] rules

end Rule

namespace Adjust

open Branch

variable {root : NodeId} {outer : Context} {c : Cursor} {o : Outcome}

/-- The rules of the pass can be made. -/
theorem madeAll_rules : Rule.madeAll rules = .ok rules := by
  have hanyChild : Query.parse anyChild.source = .ok anyChild := by decide +kernel
  have hsectionBefore : Query.parse sectionBefore.source = .ok sectionBefore := by decide +kernel
  refine Rule.madeAll_eq_ok fun r hr => Rule.made_eq_ok ?_ ?_
  · revert r
    simp [rules, Guard.made_predicate, Guard.made_query, hanyChild, hsectionBefore]
  · revert r
    simp [rules]

/-! ### Handling an element -/

/-- At a root that is never treated itself, the pass goes on. -/
lemma Tracks.handle_plain {x : Branch} (hc : Tracks root outer c (.standing ⟨x, []⟩))
    (hplain : IsPlain x.own.tag) :
    Handled root outer c ⟨x, []⟩ (Editor.handle editor c) := by
  have hadvance (k : Context) (previous? : Option Entry) : treatment k previous? x = .advance :=
    treatment_of_isPlain k previous? hplain
  rw [Adjust.handle_eq_run hc.holds_focus hc.standing hc.wellFormed, hadvance]
  exact Or.inl ⟨_, _, rfl, .advance (hadvance ..), hc.advanceInto⟩

/-- In a walk whose root is never treated itself, the pass takes a step or refuses the document. -/
lemma Tracks.handle {l : Location} (hc : Tracks root outer c (.standing l))
    (hl : (Outcome.standing l).OnRoot IsPlain) :
    Handled root outer c l (Editor.handle editor c) := by
  obtain ⟨x, fs⟩ := l
  cases fs with
  | nil => exact hc.handle_plain (hl rfl)
  | cons f fs => exact hc.handle_below

/-! ### The pass -/

/-- A run in a walk whose root is never treated itself ends well, refuses the document, or is given
up. -/
theorem Tracks.runFor_ends (hc : Tracks root outer c o) (ho : o.OnRoot IsPlain) (left : Nat) :
    (∃ c', editor.runFor left c = .ok () c') ∨ Misplaced (editor.runFor left c) ∨
      GivenUp (editor.runFor left c) := by
  induction left generalizing c o with
  | zero =>
    cases o with
    | finished b => exact Or.inl ⟨c, hc.runFor_finished editor 0⟩
    | standing l =>
      rw [Editor.runFor, Program.bind_ok hc.hasNext_standing]
      exact Or.inr (Or.inr ⟨_, _, c, rfl⟩)
  | succ left ih =>
    cases o with
    | finished b => exact Or.inl ⟨c, hc.runFor_finished editor (left + 1)⟩
    | standing l =>
      rw [hc.runFor_standing]
      rcases hc.handle ho with ⟨c', o', hrun, hstep, hc'⟩ | ⟨tag, owner, s, hrun⟩
      · rw [Program.bind_ok hrun]
        exact ih hc' (hstep.onRoot ho)
      · rw [Program.bind_error hrun]
        exact Or.inr (Or.inl ⟨tag, owner, s, rfl⟩)

/-- The rules of the pass can be made, and in the subtree at an element that is never treated itself
the pass either ends well, or refuses the document for an element that has no place where it stands,
or is given up for the number of its steps. -/
theorem adjust_ends {t : Tree} (h : t.WellFormed) (hplain : IsPlain (t.tag root)) :
    Rule.madeAll rules = .ok rules ∧
      ((∃ u, adjust root t = .ok () u) ∨ Misplaced (adjust root t) ∨ GivenUp (adjust root t)) := by
  refine ⟨madeAll_rules, ?_⟩
  have hroot : (Outcome.standing ⟨t.branch root, []⟩).OnRoot IsPlain := fun _ => by
    rw [Tree.branch_eq h]
    exact hplain
  rw [adjust, runOn, Editor.run]
  rcases (tracks_start h root).runFor_ends hroot editor.maxSteps with
    ⟨c, hrun⟩ | ⟨tag, owner, c, hrun⟩ | ⟨steps, tag, c, hrun⟩
  · rw [hrun]
    exact Or.inl ⟨c.tree, rfl⟩
  · rw [hrun]
    exact Or.inr (Or.inl ⟨tag, owner, c.tree, rfl⟩)
  · rw [hrun]
    exact Or.inr (Or.inr ⟨steps, tag, c.tree, rfl⟩)

/-- The pass over a description with nested markup and adjacent sections ends in one of the ways. -/
theorem adjust_ends_draft : draft.WellFormed ∧ IsPlain (draft.tag 0) ∧
    Rule.madeAll rules = .ok rules ∧
      ((∃ u, adjust 0 draft = .ok () u) ∨ Misplaced (adjust 0 draft) ∨ GivenUp (adjust 0 draft)) :=
  ⟨suitable_draft.wellFormed, suitable_draft.plain,
    adjust_ends suitable_draft.wellFormed suitable_draft.plain⟩

end Adjust

end DoxygenRest
