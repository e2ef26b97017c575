import DoxygenRest.Text.White
import Mathlib.Data.String.Basic
import Mathlib.Tactic.Common

/-!
# The visible characters of a text

What is left of a text without its white space.  Trimming does not change it, nor do blank texts that
are put between the parts of a text.
-/

namespace DoxygenRest.Text

open scoped List

/-- The characters of a text that are no white space. -/
def visible (s : String) : List Char :=
  s.toList.filter fun c => !isWhite c

variable {s s' : String}

@[simp] lemma visible_empty : visible "" = [] := rfl

/-- What is visible in two texts is visible in both together. -/
@[simp] lemma visible_append (s s' : String) : visible (s ++ s') = visible s ++ visible s' := by
  rw [visible, String.toList_append, List.filter_append, visible, visible]

/-- A text is blank if nothing of it is visible. -/
lemma visible_eq_nil_iff : visible s = [] ↔ isBlank s = true := by
  rw [visible, isBlank, List.filter_eq_nil_iff, List.all_eq_true]
  simp only [Bool.not_eq_true', Bool.not_eq_false]

/-- What is visible in a text is in the text. -/
lemma visible_sublist (s : String) : visible s <+ s.toList :=
  List.filter_sublist

/-- All that is dropped from the start is white space. -/
@[simp] lemma visible_trimStart (s : String) : visible (trimStart s) = visible s := by
  have hdropped : (s.toList.takeWhile isWhite).filter (fun c => !isWhite c) = [] := by
    rw [List.filter_eq_nil_iff]
    intro c hc
    simp [List.all_eq_true.1 List.all_takeWhile c hc]
  have hsplit := congrArg (List.filter fun c => !isWhite c)
    (List.takeWhile_append_dropWhile (p := isWhite) (l := s.toList))
  rw [List.filter_append, hdropped, List.nil_append] at hsplit
  rw [visible, trimStart, String.toList_ofList, hsplit, visible]

/-- All that is dropped from the end is white space. -/
@[simp] lemma visible_trimEnd (s : String) : visible (trimEnd s) = visible s := by
  have hdropped : (takeEndWhile isWhite s.toList).filter (fun c => !isWhite c) = [] := by
    rw [List.filter_eq_nil_iff]
    intro c hc
    rw [takeEndWhile, List.mem_reverse] at hc
    simp [List.all_eq_true.1 List.all_takeWhile c hc]
  have hsplit := congrArg (List.filter fun c => !isWhite c)
    (dropEndWhile_append_takeEndWhile isWhite s.toList)
  rw [List.filter_append, hdropped, List.append_nil] at hsplit
  rw [visible, trimEnd, String.toList_ofList, hsplit, visible]

/-- Trimming a text keeps all that is visible. -/
@[simp] lemma visible_trim (s : String) : visible (trim s) = visible s := by
  rw [trim, visible_trimEnd, visible_trimStart]

/-- Of a text with separators, what is not in the separators is left. -/
lemma filter_intercalate {α : Type} {p : α → Bool} {sep : List α} (h : sep.filter p = [])
    (parts : List (List α)) :
    (sep.intercalate parts).filter p = parts.flatMap (List.filter p) := by
  induction parts with
  | nil => rfl
  | cons part parts ih =>
    cases parts with
    | nil => simp
    | cons part' parts =>
      rw [List.intercalate_cons_cons, List.filter_append, List.filter_append, h, ih,
        List.append_nil, List.flatMap_cons (x := part)]

/-- Of texts that are joined by blank ones, the texts are visible. -/
lemma visible_intercalate {sep : String} (h : isBlank sep = true) (parts : List String) :
    visible (sep.intercalate parts) = parts.flatMap visible := by
  rw [visible, String.toList_intercalate, filter_intercalate (visible_eq_nil_iff.2 h),
    List.flatMap_map]
  rfl

end DoxygenRest.Text
