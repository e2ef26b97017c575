import DoxygenRest.Xml.Attribute
import Mathlib.Tactic.Common
import Mathlib.Tactic.FinCases

/-!
# Escaped text is read back

Reading the references in an escaped text, or in an escaped attribute value, gives the text that was
escaped (`resolve_escapeText`, `resolve_escapeValue`), whatever characters it holds.  An escaped
text has no character that could begin or end markup, and an escaped value has no quotes besides.
-/

namespace DoxygenRest.Xml

/-! ### One character -/

/-- What stands for a character in escaped text: the character itself, if it begins no reference, or
a reference to it. -/
inductive Written (c : Char) : List Char → Prop where
  | plain (hc : c ≠ '&') : Written c [c]
  | reference (name : List Char) (hname : ∀ d ∈ name, endsReference d = false)
      (hreferent : ∀ start, referent start name = .ok c) : Written c ('&' :: (name ++ [';']))

/-- A reference by the name of a predefined entity. -/
lemma written_of_predefined {c : Char} (name : List Char)
    (hname : name.any endsReference = false) (hhash : name.head? ≠ some '#')
    (hpredefined : predefined? (String.ofList name) = some c) :
    Written c ('&' :: (name ++ [';'])) := by
  refine .reference name (by simpa using hname) ?_
  intro start
  unfold referent
  split
  · exact absurd rfl hhash
  · exact absurd rfl hhash
  · rw [hpredefined]

/-- Each character of a text is written so that it can be read back. -/
lemma written_escapeTextChar (c : Char) : Written c (escapeTextChar c) := by
  unfold escapeTextChar
  split
  · next h =>
    subst h
    exact written_of_predefined ['l', 't'] (by decide) (by decide) (by decide)
  · split
    · next h =>
      subst h
      exact written_of_predefined ['g', 't'] (by decide) (by decide) (by decide)
    · split
      · next h =>
        subst h
        exact written_of_predefined ['a', 'm', 'p'] (by decide) (by decide) (by decide)
      · next h => exact .plain h

/-- Each character of an attribute value is written so that it can be read back. -/
lemma written_escapeValueChar (c : Char) : Written c (escapeValueChar c) := by
  unfold escapeValueChar
  split
  · next h =>
    subst h
    exact written_of_predefined ['a', 'p', 'o', 's'] (by decide) (by decide) (by decide)
  · split
    · next h =>
      subst h
      exact written_of_predefined ['q', 'u', 'o', 't'] (by decide) (by decide) (by decide)
    · exact written_escapeTextChar c

/-! ### Reading references -/

/-- What is written for a character is read as that character. -/
lemma resolveFrom_written {c : Char} {written : List Char} (hc : Written c written)
    {stop : Nat} {rest text : List Char}
    (hrest : ∀ offset, resolveFrom stop offset rest = .ok text) (offset : Nat) :
    resolveFrom stop offset (written ++ rest) = .ok (c :: text) := by
  cases hc with
  | plain hc =>
    rw [List.singleton_append, resolveFrom, hrest]
    · rfl
    · exact hc
  | reference name hname hreferent =>
    have hsemicolon : endsReference ';' = true := rfl
    have hbody : (name ++ ';' :: rest).takeWhile (fun d => !endsReference d) = name := by
      rw [List.takeWhile_append_of_pos (by simpa using hname)]
      simp [hsemicolon]
    have hafter : (name ++ ';' :: rest).dropWhile (fun d => !endsReference d) = ';' :: rest := by
      rw [List.dropWhile_append_of_pos (by simpa using hname)]
      simp [hsemicolon]
    rw [List.cons_append, List.append_assoc, List.singleton_append, resolveFrom]
    split
    · next after heq =>
      rw [hafter] at heq
      cases heq
      rw [hbody, hreferent, hrest]
      rfl
    · next hother => exact absurd hafter (hother rest)

/-- A text written character by character is read back. -/
theorem resolve_flatMap {write : Char → List Char} (hwrite : ∀ c, Written c (write c))
    (text : List Char) : resolve (text.flatMap write) = .ok (String.ofList text) := by
  have hread (stop offset : Nat) : resolveFrom stop offset (text.flatMap write) = .ok text := by
    induction text generalizing offset with
    | nil => rw [List.flatMap_nil, resolveFrom]
    | cons c text ih =>
      rw [List.flatMap_cons]
      exact resolveFrom_written (hwrite c) ih offset
  rw [resolve, hread]
  rfl

/-- Resolving what is escaped in a text gives back the text. -/
theorem resolve_escapeText (s : String) : resolve (escapeText s).toList = .ok s := by
  rw [escapeText, String.toList_ofList, resolve_flatMap written_escapeTextChar,
    String.ofList_toList]

/-- So it does for the value of an attribute. -/
theorem resolve_escapeValue (s : String) : resolve (escapeValue s).toList = .ok s := by
  rw [escapeValue, String.toList_ofList, resolve_flatMap written_escapeValueChar,
    String.ofList_toList]

/-! ### What is left of markup -/

/-- Escaped text holds no angle bracket. -/
lemma escapeTextChar_ne {c d : Char} (hd : d ∈ escapeTextChar c) : d ≠ '<' ∧ d ≠ '>' := by
  unfold escapeTextChar at hd
  grind

/-- Escaped values hold no angle bracket and no quote. -/
lemma escapeValueChar_ne {c d : Char} (hd : d ∈ escapeValueChar c) :
    (d ≠ '<' ∧ d ≠ '>') ∧ isQuote d = false := by
  unfold escapeValueChar at hd
  split at hd
  · fin_cases hd <;> decide
  · split at hd
    · fin_cases hd <;> decide
    · unfold escapeTextChar at hd
      unfold isQuote
      grind

/-- No character of markup is left in an escaped text. -/
lemma ne_of_mem_escapeText {d : Char} {s : String} (hd : d ∈ (escapeText s).toList) :
    d ≠ '<' ∧ d ≠ '>' := by
  rw [escapeText, String.toList_ofList, List.mem_flatMap] at hd
  obtain ⟨c, -, hd⟩ := hd
  exact escapeTextChar_ne hd

/-- No character of markup, and no quote, is left in an escaped value. -/
lemma ne_of_mem_escapeValue {d : Char} {s : String} (hd : d ∈ (escapeValue s).toList) :
    (d ≠ '<' ∧ d ≠ '>') ∧ isQuote d = false := by
  rw [escapeValue, String.toList_ofList, List.mem_flatMap] at hd
  obtain ⟨c, -, hd⟩ := hd
  exact escapeValueChar_ne hd

/-- Of a text that is not empty, something is written. -/
lemma escapeText_ne_empty {s : String} (hs : s ≠ "") : (escapeText s).toList ≠ [] := by
  intro hnil
  have hread := resolve_escapeText s
  rw [hnil, resolve, resolveFrom] at hread
  injection hread with hempty
  exact hs hempty.symm

end DoxygenRest.Xml
