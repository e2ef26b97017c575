import DoxygenRest.Text.White
import Mathlib.Data.List.TakeWhile
import Mathlib.Tactic.Common

/-!
# Splitting white space off

A text is blank if its parts are (`isBlank_append_iff`), and `splitBlanks` cuts a text into white space, a
body that neither starts nor ends with white space, and white space again.
-/

namespace DoxygenRest.Text

variable {α : Type} {p : α → Bool} {cs : List α} {c : α}

/-- Dropping white space at the end keeps the first character if that is none. -/
lemma head?_dropEndWhile (h : cs.head? = some c) (hc : p c = false) :
    (dropEndWhile p cs).head? = some c := by
  obtain ⟨rest, rfl⟩ := List.head?_eq_some_iff.1 h
  rw [dropEndWhile, List.reverse_cons, List.dropWhile_append]
  split
  · simp [hc]
  · simp

/-- Nothing is dropped at the end of what holds nothing to drop. -/
lemma dropEndWhile_of_forall (h : ∀ c ∈ cs, p c = false) : dropEndWhile p cs = cs := by
  have hdrop : cs.reverse.dropWhile p = cs.reverse := by
    rw [List.dropWhile_eq_self_iff]
    intro hlength
    rw [h _ (List.mem_reverse.1 (List.getElem_mem hlength))]
    exact Bool.false_ne_true
  rw [dropEndWhile, hdrop, List.reverse_reverse]

/-- All is dropped at the end of what holds nothing else. -/
lemma dropEndWhile_of_all (h : cs.all p = true) :
    dropEndWhile p cs = [] ∧ takeEndWhile p cs = cs := by
  have hreverse : ∀ c ∈ cs.reverse, p c = true := fun c hc =>
    List.all_eq_true.1 h c (List.mem_reverse.1 hc)
  have hdrop : dropEndWhile p cs = [] := by
    rw [dropEndWhile, List.dropWhile_eq_nil_iff.2 hreverse, List.reverse_nil]
  have happend := dropEndWhile_append_takeEndWhile p cs
  rw [hdrop, List.nil_append] at happend
  exact ⟨hdrop, happend⟩

/-- The first item is dropped at the end only if all is. -/
lemma dropEndWhile_cons_of_not_all (h : ¬(c :: cs).all p = true) :
    dropEndWhile p (c :: cs) = c :: dropEndWhile p cs ∧
      takeEndWhile p (c :: cs) = takeEndWhile p cs := by
  have hdrop : dropEndWhile p (c :: cs) = c :: dropEndWhile p cs := by
    rw [dropEndWhile, dropEndWhile, List.reverse_cons, List.dropWhile_append]
    cases hcs : cs.reverse.dropWhile p with
    | nil =>
      have hall : cs.all p = true := by
        rw [← List.all_reverse, List.all_eq_true]
        exact List.dropWhile_eq_nil_iff.1 hcs
      have hc : ¬p c = true := fun hc => h (by rw [List.all_cons, hc, hall, Bool.and_self])
      rw [List.dropWhile_cons_of_neg hc]
      rfl
    | cons d ds => simp
  have happend := dropEndWhile_append_takeEndWhile p (c :: cs)
  rw [hdrop, List.cons_append, List.cons_inj_right] at happend
  exact ⟨hdrop, List.append_cancel_left (happend.trans (dropEndWhile_append_takeEndWhile p cs).symm)⟩

/-- What is left after dropping from the start does not start with what is dropped. -/
lemma eq_false_of_head?_dropWhile (h : (cs.dropWhile p).head? = some c) : p c = false := by
  have hhead := List.head?_dropWhile_not p cs
  rw [h] at hhead
  exact hhead

/-- What is left after dropping from the end does not end with what is dropped. -/
lemma eq_false_of_getLast?_dropEndWhile (h : (dropEndWhile p cs).getLast? = some c) :
    p c = false := by
  rw [dropEndWhile, List.getLast?_reverse] at h
  exact eq_false_of_head?_dropWhile h

/-- The three parts of a text make up the text. -/
lemma append_splitBlanks (s : String) :
    (splitBlanks s).1 ++ ((splitBlanks s).2.1 ++ (splitBlanks s).2.2) = s := by
  simp only [splitBlanks, ← String.ofList_append, dropEndWhile_append_takeEndWhile,
    List.takeWhile_append_dropWhile, String.ofList_toList]

/-- Two texts are blank together if both are. -/
lemma isBlank_append_iff {s s' : String} :
    isBlank (s ++ s') = true ↔ isBlank s = true ∧ isBlank s' = true := by
  rw [isBlank, String.toList_append, List.all_append, Bool.and_eq_true]
  rfl

/-- Blank texts are blank together. -/
lemma isBlank_append {s s' : String} (hs : isBlank s = true) (hs' : isBlank s' = true) :
    isBlank (s ++ s') = true :=
  isBlank_append_iff.2 ⟨hs, hs'⟩

/-- What is split off in front is white space. -/
lemma isBlank_splitBlanks_fst (s : String) : isBlank (splitBlanks s).1 = true := by
  rw [isBlank, splitBlanks, String.toList_ofList]
  exact List.all_takeWhile

/-- What is split off behind is white space. -/
lemma isBlank_splitBlanks_snd (s : String) : isBlank (splitBlanks s).2.2 = true := by
  rw [isBlank, splitBlanks, String.toList_ofList, takeEndWhile, List.all_reverse]
  exact List.all_takeWhile

/-- No white space is left to split off from the body. -/
lemma hasOuterBlanks_splitBlanks (s : String) : hasOuterBlanks (splitBlanks s).2.1 = false := by
  rw [hasOuterBlanks, splitBlanks, String.toList_ofList, Bool.or_eq_false_iff]
  constructor
  · cases hrest : (s.toList.dropWhile isWhite).head? with
    | none =>
      rw [List.head?_eq_none_iff] at hrest
      rw [hrest]
      rfl
    | some c =>
      have hc := eq_false_of_head?_dropWhile hrest
      rw [head?_dropEndWhile hrest hc, Option.any_some, hc]
  · cases hlast : (dropEndWhile isWhite (s.toList.dropWhile isWhite)).getLast? with
    | none => rfl
    | some c => rw [Option.any_some, eq_false_of_getLast?_dropEndWhile hlast]

/-- Nothing is taken from the start of what does not start with what is taken. -/
lemma dropWhile_of_head? (h : cs.head?.any p = false) :
    cs.dropWhile p = cs ∧ cs.takeWhile p = [] := by
  cases cs with
  | nil => exact ⟨rfl, rfl⟩
  | cons c cs =>
    rw [List.head?_cons, Option.any_some] at h
    exact ⟨List.dropWhile_cons_of_neg (by simp [h]), List.takeWhile_cons_of_neg (by simp [h])⟩

/-- A text without white space around it is all body. -/
lemma splitBlanks_of_hasOuterBlanks {s : String} (h : hasOuterBlanks s = false) :
    splitBlanks s = ("", s, "") := by
  rw [hasOuterBlanks, Bool.or_eq_false_iff, ← List.head?_reverse] at h
  obtain ⟨hdrop, htake⟩ := dropWhile_of_head? h.1
  obtain ⟨hdropEnd, htakeEnd⟩ := dropWhile_of_head? h.2
  rw [splitBlanks, hdrop, htake, dropEndWhile, hdropEnd, takeEndWhile, htakeEnd,
    List.reverse_reverse, String.ofList_toList]
  rfl

/-- Nothing is trimmed from a text without white space around it. -/
lemma trim_of_hasOuterBlanks {s : String} (h : hasOuterBlanks s = false) : trim s = s := by
  rw [hasOuterBlanks, Bool.or_eq_false_iff, ← List.head?_reverse] at h
  obtain ⟨hstart, hend⟩ := h
  rw [trim, trimStart, (dropWhile_of_head? hstart).1, String.ofList_toList, trimEnd, dropEndWhile,
    (dropWhile_of_head? hend).1, List.reverse_reverse, String.ofList_toList]

end DoxygenRest.Text
