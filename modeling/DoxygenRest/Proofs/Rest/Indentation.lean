import DoxygenRest.Proofs.Rest.Lines

/-!
# Indentation composes

A text is told by its lines (`eq_of_linesOf_eq`), and indentation acts on each line alone
(`linesOf_indent`).  So what holds of one line holds of a text: two indentations make one, and the
blank lines, which the first leaves as they are, are blank for the second, too (`indent_composes`).

Blocks within blocks rely on this.  What is within a directive that is within another stands as far
to the right as the indentations of both come to (`indent_directive`).
-/

namespace DoxygenRest.Rest

variable {s t : String}

/-! ### Lines -/

/-- A text is told by its lines. -/
lemma eq_of_linesOf_eq (h : linesOf s.toList = linesOf t.toList) : s = t := by
  have hjoin (s : String) : ['\n'].intercalate (linesOf s.toList) = s.toList :=
    List.intercalate_splitOn '\n'
  rw [← String.toList_inj, ← hjoin s, h, hjoin t]

/-- A text has one line more than newlines. -/
lemma length_linesOf (cs : List Char) : (linesOf cs).length = cs.count '\n' + 1 := by
  induction cs with
  | nil => rfl
  | cons c cs ih =>
    rw [linesOf, List.splitOn_cons_eq_if_modifyHead, List.count_cons]
    split
    · rw [List.length_cons, ← linesOf, ih]
    · rw [List.length_modifyHead, ← linesOf, ih, Nat.add_zero]

/-- A line is blank after it is indented if and only if it was blank before. -/
lemma all_isWhite_indentLine (width : Nat) (line : List Char) :
    (indentLine width line).all Text.isWhite = line.all Text.isWhite := by
  unfold indentLine
  split
  · rfl
  · next hblank =>
    rw [Bool.not_eq_true] at hblank
    rw [List.all_append, hblank, Bool.and_false]

/-- A line that is indented twice is indented by the sum. -/
lemma indentLine_indentLine (a b : Nat) (line : List Char) :
    indentLine b (indentLine a line) = indentLine (a + b) line := by
  rw [indentLine, all_isWhite_indentLine, indentLine, indentLine]
  split
  · rfl
  · rw [← List.append_assoc, blanks, blanks, blanks, List.replicate_append_replicate, Nat.add_comm]

/-- Indented by nothing, a line stays as it is. -/
lemma indentLine_zero (line : List Char) : indentLine 0 line = line := by
  unfold indentLine
  split
  · rfl
  · rfl

/-! ### Texts -/

/-- A text that is indented twice is indented by the sum. -/
lemma indent_indent (s : String) (a b : Nat) : indent (indent s a) b = indent s (a + b) := by
  refine eq_of_linesOf_eq ?_
  rw [linesOf_indent, linesOf_indent, linesOf_indent, List.map_map]
  exact List.map_congr_left fun line _ => indentLine_indentLine a b line

/-- Indented by nothing, a text stays as it is. -/
lemma indent_zero (s : String) : indent s 0 = s := by
  refine eq_of_linesOf_eq ?_
  rw [linesOf_indent, funext indentLine_zero, List.map_id']

/-- The lines of two texts with a newline between them. -/
lemma linesOf_append_newline_append (s t : String) :
    linesOf (s ++ "\n" ++ t).toList = linesOf s.toList ++ linesOf t.toList := by
  rw [String.toList_append, String.toList_append, List.append_assoc]
  exact linesOf_append_newline s.toList t.toList

/-- Texts one below the other are indented one by one. -/
lemma indent_append_newline (s t : String) (a : Nat) :
    indent (s ++ "\n" ++ t) a = indent s a ++ "\n" ++ indent t a := by
  refine eq_of_linesOf_eq ?_
  rw [linesOf_indent, linesOf_append_newline_append, linesOf_append_newline_append, linesOf_indent,
    linesOf_indent, List.map_append]

/-- Indentation adds no line and takes none away. -/
lemma count_indent (s : String) (a : Nat) :
    (indent s a).toList.count '\n' = s.toList.count '\n' := by
  have hlength : (linesOf (indent s a).toList).length = (linesOf s.toList).length := by
    rw [linesOf_indent, List.length_map]
  rw [length_linesOf, length_linesOf] at hlength
  exact Nat.add_right_cancel hlength

/-- **Indentation composes.**  Two indentations come to one that is as wide as both, one of width zero
does nothing, and texts below one another are indented each by itself.  Blank lines are left as they
are, the others get so many blanks, and no newline is added or lost. -/
theorem indent_composes (s t : String) (a b : Nat) :
    indent (indent s a) b = indent s (a + b) ∧ indent s 0 = s ∧
      indent (s ++ "\n" ++ t) a = indent s a ++ "\n" ++ indent t a ∧
      linesOf (indent s a).toList = (linesOf s.toList).map (fun line =>
        if line.all Text.isWhite then line else blanks a ++ line) ∧
      (indent s a).toList.count '\n' = s.toList.count '\n' :=
  ⟨indent_indent s a b, indent_zero s, indent_append_newline s t a, linesOf_indent s a,
    count_indent s a⟩

/-! ### Blocks -/

/-- Texts with a blank line between them are indented one by one. -/
lemma indent_append_blankLine (s t : String) (a : Nat) :
    indent (s ++ "\n\n" ++ t) a = indent s a ++ "\n\n" ++ indent t a := by
  have hlines (s t : String) : s ++ "\n\n" ++ t = s ++ "\n" ++ "" ++ "\n" ++ t := by
    have hblank : "\n\n" = "\n" ++ "\n" := rfl
    simp only [hblank, String.append_empty, String.append_assoc]
  have hempty : indent "" a = "" := rfl
  rw [hlines, hlines, indent_append_newline, indent_append_newline, hempty]

/-- An indented directive is one with its header indented, and with its body indented further. -/
theorem indent_directive (header body : String) (width : Nat) :
    indent (directive header body) width =
      indent header width ++ "\n\n" ++ indent body (directiveIndent + width) ++ "\n\n" := by
  have hempty : indent "" width = "" := rfl
  have hend := indent_append_blankLine (header ++ "\n\n" ++ indent body directiveIndent) "" width
  rw [String.append_empty, hempty, String.append_empty, indent_append_blankLine,
    indent_indent] at hend
  exact hend

end DoxygenRest.Rest
