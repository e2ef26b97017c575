import DoxygenRest.Proofs.Text.White

/-!
# How a text is split

A text can be put together in one way only from white space, a body that has no white space around
it, and white space again, if a blank text counts as white space in front (`IsSplit`); `splitBlanks`
splits it in this way (`splitBlanks_eq_iff`).

To split a text is to match it with a pattern: white space as long as possible, anything as short as
possible, and white space as long as possible up to the end.  Of all the ways to match it, in the
order in which they are tried, the first is the one that `splitBlanks` gives (`firstReading?_eq`).
-/

namespace DoxygenRest.Text

/-! ### The parts of a text -/

/-- A text in three parts: white space, a body without white space around it, and white space.  If
there is no body, all white space stands in front. -/
structure IsSplit (s head body tail : String) : Prop where
  append_eq : head ++ body ++ tail = s
  head_blank : isBlank head = true
  tail_blank : isBlank tail = true
  body_bare : hasOuterBlanks body = false
  tail_empty : body = "" → tail = ""

variable {s head body tail : String}

/-- Behind a body that is empty nothing is split off. -/
lemma splitBlanks_snd_of_empty (h : (splitBlanks s).2.1 = "") : (splitBlanks s).2.2 = "" := by
  rw [splitBlanks, String.ofList_eq_empty_iff] at h
  rw [splitBlanks, String.ofList_eq_empty_iff]
  cases hrest : s.toList.dropWhile isWhite with
  | nil => rfl
  | cons c cs =>
    -- what follows the leading white space is the start of a body
    have hc : isWhite c = false := by
      apply eq_false_of_head?_dropWhile
      rw [hrest]
      rfl
    have hkept : (dropEndWhile isWhite (c :: cs)).head? = some c := head?_dropEndWhile rfl hc
    rw [← hrest, h] at hkept
    cases hkept

/-- The blanks that are split off are all of those around the text. -/
lemma isSplit_splitBlanks (s : String) :
    IsSplit s (splitBlanks s).1 (splitBlanks s).2.1 (splitBlanks s).2.2 where
  append_eq := by rw [String.append_assoc, append_splitBlanks]
  head_blank := isBlank_splitBlanks_fst s
  tail_blank := isBlank_splitBlanks_snd s
  body_bare := hasOuterBlanks_splitBlanks s
  tail_empty := splitBlanks_snd_of_empty

/-- There is one way only to split a text. -/
lemma IsSplit.splitBlanks_eq (h : IsSplit s head body tail) : splitBlanks s = (head, body, tail) := by
  obtain ⟨rfl, hhead, htail, hbare, hempty⟩ := h
  rw [isBlank, List.all_eq_true] at hhead htail
  rw [hasOuterBlanks, Bool.or_eq_false_iff, ← List.head?_reverse] at hbare
  have hfirst : (body.toList ++ tail.toList).head?.any isWhite = false := by
    cases hbody : body.toList with
    | nil =>
      rw [hempty (String.toList_eq_nil_iff.1 hbody)]
      rfl
    | cons c cs =>
      rw [hbody] at hbare
      exact hbare.1
  obtain ⟨hdrop, htake⟩ := dropWhile_of_head? hfirst
  obtain ⟨hdropEnd, htakeEnd⟩ := dropWhile_of_head? hbare.2
  have hparts : (head ++ body ++ tail).toList = head.toList ++ (body.toList ++ tail.toList) := by
    simp only [String.toList_append, List.append_assoc]
  have hreverse : ∀ c ∈ tail.toList.reverse, isWhite c = true := fun c hc =>
    htail c (List.mem_reverse.1 hc)
  rw [splitBlanks, hparts, List.takeWhile_append_of_pos hhead, List.dropWhile_append_of_pos hhead,
    hdrop, htake, dropEndWhile, takeEndWhile, List.reverse_append,
    List.dropWhile_append_of_pos hreverse, List.takeWhile_append_of_pos hreverse, hdropEnd,
    htakeEnd]
  simp

/-- **Splitting is exact.** -/
theorem splitBlanks_eq_iff : splitBlanks s = (head, body, tail) ↔ IsSplit s head body tail := by
  constructor
  · intro h
    have hsplit := isSplit_splitBlanks s
    rwa [h] at hsplit
  · exact IsSplit.splitBlanks_eq

/-! ### Matching a pattern -/

/-- The runs of white space at the start of a text, the longest first, each with what stands behind
it. -/
def leadingRuns : List Char → List (List Char × List Char)
  | [] => [([], [])]
  | c :: cs =>
    (if isWhite c then (leadingRuns cs).map fun cut => (c :: cut.1, cut.2) else []) ++
      [([], c :: cs)]

/-- The ways to cut a text in two, the one with the shortest start first. -/
def cuts : List Char → List (List Char × List Char)
  | [] => [([], [])]
  | c :: cs => ([], c :: cs) :: (cuts cs).map fun cut => (c :: cut.1, cut.2)

/-- Match a text with white space, something, and white space up to the end: the first run in front,
then the first cut behind it, and then the first run behind the cut, with which nothing is left. -/
def firstReading? (cs : List Char) : Option (List Char × List Char × List Char) :=
  (leadingRuns cs).findSome? fun leading =>
    (cuts leading.2).findSome? fun cut =>
      (leadingRuns cut.2).findSome? fun trailing =>
        if trailing.2 = [] then some (leading.1, cut.1, trailing.1) else none

variable {α : Type} {cs : List Char}

/-- The longest run is tried first. -/
lemma head?_leadingRuns (cs : List Char) :
    (leadingRuns cs).head? = some (cs.takeWhile isWhite, cs.dropWhile isWhite) := by
  induction cs with
  | nil => rfl
  | cons c cs ih =>
    rw [leadingRuns]
    by_cases hc : isWhite c = true
    · rw [if_pos hc, List.head?_append, List.head?_map, ih, List.takeWhile_cons_of_pos hc,
        List.dropWhile_cons_of_pos hc]
      rfl
    · rw [if_neg hc, List.takeWhile_cons_of_neg hc, List.dropWhile_cons_of_neg hc]
      rfl

/-- A run of white space up to the end is found if there is nothing else. -/
lemma findSome?_leadingRuns (f : List Char → α) (cs : List Char) :
    ((leadingRuns cs).findSome? fun run => if run.2 = [] then some (f run.1) else none) =
      if cs.all isWhite then some (f cs) else none := by
  induction cs generalizing f with
  | nil => rfl
  | cons c cs ih =>
    rw [leadingRuns, List.findSome?_append, List.all_cons]
    by_cases hc : isWhite c = true
    · rw [if_pos hc, List.findSome?_map, hc, Bool.true_and, ← ih fun run => f (c :: run)]
      exact Option.or_none
    · rw [Bool.not_eq_true] at hc
      rw [hc]
      rfl

/-- The cut that is found is the first behind which all is white space. -/
lemma findSome?_cuts (f : List Char → List Char → α) (cs : List Char) :
    ((cuts cs).findSome? fun cut => if cut.2.all isWhite then some (f cut.1 cut.2) else none) =
      some (f (dropEndWhile isWhite cs) (takeEndWhile isWhite cs)) := by
  induction cs generalizing f with
  | nil => rfl
  | cons c cs ih =>
    rw [cuts, List.findSome?_cons]
    by_cases hall : (c :: cs).all isWhite = true
    · obtain ⟨hdrop, htake⟩ := dropEndWhile_of_all hall
      rw [if_pos hall, hdrop, htake]
    · obtain ⟨hdrop, htake⟩ := dropEndWhile_cons_of_not_all hall
      rw [if_neg hall, List.findSome?_map, hdrop, htake, ← ih fun front => f (c :: front)]
      rfl

/-- **A text is split as the pattern is matched.** -/
theorem firstReading?_eq (s : String) :
    firstReading? s.toList = some ((splitBlanks s).1.toList, (splitBlanks s).2.1.toList,
      (splitBlanks s).2.2.toList) := by
  have hcut (head rest : List Char) :
      ((cuts rest).findSome? fun cut =>
        (leadingRuns cut.2).findSome? fun trailing =>
          if trailing.2 = [] then some (head, cut.1, trailing.1) else none) =
        some (head, dropEndWhile isWhite rest, takeEndWhile isWhite rest) := by
    rw [← findSome?_cuts (fun body tail => (head, body, tail)) rest]
    exact congrArg (List.findSome? · (cuts rest)) <| funext fun cut =>
      findSome?_leadingRuns (fun tail => (head, cut.1, tail)) cut.2
  obtain ⟨others, hruns⟩ := List.head?_eq_some_iff.1 (head?_leadingRuns s.toList)
  rw [firstReading?, hruns, List.findSome?_cons, hcut]
  simp only [splitBlanks, String.toList_ofList]

end DoxygenRest.Text
