import DoxygenRest.Rule
import Mathlib.Tactic.Common

/-!
# Which rule handles an element

The first rule of a list that accepts an element handles it (`Rule.dispatch_cons`).  Rules that are
meant for other tags can be left out of the list (`Rule.dispatch_meantFor`); for a list that is
given and a tag that is known, few rules are left then.

A rule that asks for surroundings gives patterns, whose tags stand between slashes
(`surrounding_eq_iff`) and have to be found in their order among the tags around an element
(`isFoundIn_iff_sublist`).
-/

namespace DoxygenRest

/-- A pattern is found if its tags occur in this order, at whatever places.  The search takes the first
place for each tag; a way to find the pattern at other places leaves no more tags for the rest of it. -/
theorem isFoundIn_iff_sublist {pattern tags : List String} :
    isFoundIn pattern tags = true ↔ pattern.Sublist tags := by
  induction tags generalizing pattern with
  | nil => cases pattern <;> simp [isFoundIn]
  | cons tag tags ih =>
    cases pattern with
    | nil => simp [isFoundIn]
    | cons name pattern =>
      rw [isFoundIn]
      split
      · next heq =>
        subst heq
        rw [ih, List.cons_sublist_cons]
      · next hne =>
        rw [ih, List.sublist_cons_iff, or_iff_left]
        rintro ⟨rest, heq, -⟩
        exact hne (List.cons.inj heq).1.symm

/-- A pattern of one tag is found where the tag occurs. -/
lemma isFoundIn_singleton (name : String) (tags : List String) :
    isFoundIn [name] tags = true ↔ name ∈ tags := by
  rw [isFoundIn_iff_sublist, List.singleton_sublist]

/-- No part of a row holds what the row is divided at. -/
lemma notMem_of_mem_splitOn {sep : Char} {cs part : List Char} (hpart : part ∈ cs.splitOn sep) :
    sep ∉ part := by
  induction cs generalizing part with
  | nil =>
    obtain rfl : part = [] := by simpa using hpart
    exact List.not_mem_nil
  | cons c cs ih =>
    rw [List.splitOn_cons_eq_if_modifyHead] at hpart
    split at hpart
    · rcases List.mem_cons.1 hpart with rfl | hpart
      · exact List.not_mem_nil
      · exact ih hpart
    · next hne =>
      cases hparts : cs.splitOn sep with
      | nil => exact absurd hparts (List.splitOn_ne_nil sep cs)
      | cons first parts =>
        rw [hparts] at hpart ih
        rcases List.mem_cons.1 hpart with rfl | hpart
        · rw [List.mem_cons, not_or]
          refine ⟨?_, ih (List.mem_cons_self ..)⟩
          rintro rfl
          exact hne (beq_self_eq_true sep)
        · exact ih (List.mem_cons_of_mem _ hpart)

/-- The tags of a pattern are what stands between its slashes. -/
theorem surrounding_eq_iff {pattern : String} {tags : List String} :
    surrounding pattern = tags ↔
      tags ≠ [] ∧ (∀ tag ∈ tags, '/' ∉ tag.toList) ∧ "/".intercalate tags = pattern := by
  constructor
  · rintro rfl
    refine ⟨?_, ?_, ?_⟩
    · simp [surrounding, List.splitOn_ne_nil]
    · intro tag htag
      obtain ⟨part, hpart, rfl⟩ := List.mem_map.1 htag
      rw [String.toList_ofList]
      exact notMem_of_mem_splitOn hpart
    · apply String.toList_injective
      have hparts : (pattern.toList.splitOn '/').map (String.toList ∘ String.ofList) =
          pattern.toList.splitOn '/' := by simp [Function.comp_def]
      rw [String.toList_intercalate, surrounding, List.map_map, hparts]
      exact List.intercalate_splitOn '/'
  · rintro ⟨hne, htags, rfl⟩
    have hsplit : (['/'].intercalate (tags.map String.toList)).splitOn '/' =
        tags.map String.toList :=
      List.splitOn_intercalate '/' (by simpa using htags) (by simpa using hne)
    rw [surrounding, String.toList_intercalate]
    exact (congrArg (List.map String.ofList) hsplit).trans (by simp [Function.comp_def])

namespace Rule

variable {α : Type}

/-- A rule with tags accepts the elements with one of these tags that pass its other criteria. -/
lemma accepts_iff {name : String} {action : α} {tags : List String}
    {within : Option (List (List String))} {requires : Option Guard} {t : Tree} {n : NodeId} :
    accepts ⟨name, action, some tags, within, requires, none⟩ t n = true ↔
      t.tag n ∈ tags ∧
        within.all (fun patterns => patterns.any fun pattern =>
          isFoundIn pattern ((t.ancestors n).map t.tag)) ∧
        requires.all (fun guard => guard.holds t n) := by
  simp [accepts, and_assoc]

/-- The first rule of a list that accepts an element is the first of the list or found in the rest.
-/
lemma dispatch_cons (r : Rule α) (rs : List (Rule α)) (t : Tree) (n : NodeId) :
    dispatch (r :: rs) t n = if r.accepts t n then some r else dispatch rs t n := by
  rw [dispatch, List.find?_cons, ← dispatch]
  cases r.accepts t n <;> rfl

/-- The rules of a list that are meant for elements of a tag, among others or alone. -/
def meantFor (tag : String) (rules : List (Rule α)) : List (Rule α) :=
  rules.filter fun r => r.tags.all (·.contains tag)

/-- An element is handled by a rule that is meant for its tag. -/
theorem dispatch_meantFor (rules : List (Rule α)) (t : Tree) (n : NodeId) :
    dispatch (meantFor (t.tag n) rules) t n = dispatch rules t n := by
  rw [dispatch, meantFor, List.find?_filter, dispatch]
  congr 1
  funext r
  rw [accepts]
  cases r.tags.all (·.contains (t.tag n)) <;> simp

end Rule

end DoxygenRest
